import Clibcdc.Memory.Combining
import Clibcdc.PgmHex.MemBlock

/-!
# What a HEX file is to be uploaded as

The purpose of the programming example, stated apart from its code.

* The records of a file are the pieces that they set in the memory of the module
  (`HexRecord.pieces`).  An address counts words of two bytes.  The serial and
  the internal EEPROM take the low byte of each word.
* The memory is written in blocks of 32 words, and the internal EEPROM in the
  pieces as they are.  `combiner` says which pieces go into one image.
* `uploadsOf` is what a run of pieces is uploaded as, and `ScanEnds` says that a
  scan for a zero byte over the end of its image finds one.

`HexRecord.WellPlaced` is what the code relies on: a record stays within its
area, and one for the flash memory within half a block.
-/

namespace Clibcdc.PgmHex

open Clibcdc.Memory

/-! ## Pieces -/

inductive Area where
  | flash | serialEeprom | eeprom
  deriving DecidableEq, Repr

/-- Bytes that a record sets, from an index of a block on. -/
structure Piece where
  area : Area
  block : Nat
  index : Nat
  data : UString
  deriving DecidableEq, Repr

/-- The low bytes of words. -/
def lowBytes : UString → UString
  | low :: _ :: data => low :: lowBytes data
  | _ => []

namespace HexRecord

/-- The word address of a record. -/
def wordAddress (hiAddress : Nat) (r : HexRecord) : Nat :=
  (hiAddress + r.address) % 2 ^ 32 / 2 % 2 ^ 16

def serialEepromPieces (address : Nat) (data : UString) : List Piece :=
  let block := (address - serialEepromMinAdr) / 32
  let first : Piece := ⟨.serialEeprom, block, address % 32, data.take (32 - address % 32)⟩
  let rest := data.drop (32 - address % 32)
  if rest = [] then [first] else [first, ⟨.serialEeprom, block + 1, 0, rest⟩]

/-- The last word of an area is left out when the record reaches it. -/
def flashData (maxAdr address : Nat) (data : UString) : UString :=
  if address + data.length / 2 > maxAdr then data.take ((maxAdr - address) * 2) else data

def flashPiece (maxAdr address : Nat) (data : UString) : Piece :=
  ⟨.flash, address / 32, address % 32 * 2, flashData maxAdr address data⟩

/-- The pieces of a record with data, by its word address. -/
def dataPieces (address : Nat) (data : UString) : List Piece :=
  if serialEepromMinAdr ≤ address ∧ address ≤ serialEepromMaxAdr then
    serialEepromPieces address (lowBytes data)
  else if iqrfMainMemMinAdr ≤ address ∧ address ≤ iqrfMainMemMaxAdr then
    [flashPiece iqrfMainMemMaxAdr address data]
  else if iqrfLicencedMemMinAdr ≤ address ∧ address ≤ iqrfLicencedMemMaxAdr then
    [flashPiece iqrfLicencedMemMaxAdr address data]
  else if eepromMin ≤ address ∧ address ≤ eepromMax then
    [⟨.eeprom, address % 256, 0, lowBytes data⟩]
  else []

/-- The pieces of a record. -/
def pieces (hiAddress : Nat) (r : HexRecord) : List Piece :=
  if r.type = 0 then dataPieces (r.wordAddress hiAddress) r.data else []

/-- The upper half of the addresses behind a record. -/
def nextHiAddress (hiAddress : Nat) (r : HexRecord) : Nat :=
  if r.type = 4 then
    match r.data with
    | hi :: lo :: _ => hi.toNat * 2 ^ 24 + lo.toNat * 2 ^ 16
    | _ => hiAddress
  else hiAddress

/-- A piece for the flash memory lies in one half of its block. -/
def InHalf (index length : Nat) : Prop := index % 32 + length ≤ 32

/-- The record lies where the code can place it. -/
def WellPlaced (hiAddress : Nat) (r : HexRecord) : Prop :=
  if r.type = 0 then
    let address := r.wordAddress hiAddress
    if serialEepromMinAdr ≤ address ∧ address ≤ serialEepromMaxAdr then
      address + r.data.length / 2 ≤ serialEepromMaxAdr + 1
    else if iqrfMainMemMinAdr ≤ address ∧ address ≤ iqrfMainMemMaxAdr then
      InHalf (address % 32 * 2) (flashData iqrfMainMemMaxAdr address r.data).length
    else if iqrfLicencedMemMinAdr ≤ address ∧ address ≤ iqrfLicencedMemMaxAdr then
      InHalf (address % 32 * 2) (flashData iqrfLicencedMemMaxAdr address r.data).length
    else if eepromMin ≤ address ∧ address ≤ eepromMax then address + r.data.length / 2 ≤ eepromMax
    else True
  else r.type = 4 → 2 ≤ r.data.length

instance (index length : Nat) : Decidable (InHalf index length) :=
  inferInstanceAs (Decidable (index % 32 + length ≤ 32))

instance (hiAddress : Nat) (r : HexRecord) : Decidable (r.WellPlaced hiAddress) := by
  delta WellPlaced
  infer_instance

end HexRecord

/-- The pieces of the records of a file. -/
def filePieces (hiAddress : Nat) : List HexRecord → List Piece
  | [] => []
  | r :: records => r.pieces hiAddress ++ filePieces (r.nextHiAddress hiAddress) records

/-- Every record lies where the code can place it. -/
def FileWellPlaced (hiAddress : Nat) : List HexRecord → Prop
  | [] => True
  | r :: records => r.WellPlaced hiAddress ∧ FileWellPlaced (r.nextHiAddress hiAddress) records

instance FileWellPlaced.decidable : (hiAddress : Nat) → (records : List HexRecord) →
    Decidable (FileWellPlaced hiAddress records)
  | _, [] => .isTrue trivial
  | hiAddress, r :: records =>
    @instDecidableAnd _ _ inferInstance
      (FileWellPlaced.decidable (r.nextHiAddress hiAddress) records)

/-! ## Images -/

/-- Pieces of one block go into one image, except in the internal EEPROM. -/
def combiner : Combiner Piece where
  joins a b := a.area = b.area ∧ a.block = b.block ∧ a.area ≠ .eeprom
  alone a := a.area = .eeprom
  joins_of_alone := by
    intro a b h
    simp only [decide_eq_true_eq] at h
    simp only [decide_eq_false_iff_not]
    intro hjoins
    rcases h with h | h
    · exact hjoins.2.2 h
    · exact hjoins.2.2 (hjoins.1.trans h)

/-- A block before anything is set in it. -/
def Area.blank : Area → UString
  | .flash => (List.replicate 32 [0xFF, 0x3F]).flatten
  | .serialEeprom => List.replicate 32 0
  | .eeprom => []

/-- What the pieces of a run set in a block. -/
def imageOf (blank : UString) (run : List Piece) : UString :=
  run.foldl (fun image piece => overwrite image piece.index piece.data) blank

/-- What a run of pieces is uploaded as. -/
def uploadsOf : List Piece → List Upload
  | [] => []
  | piece :: run =>
    let image := imageOf piece.area.blank (piece :: run)
    match piece.area with
    | .flash =>
      [⟨targetFlashW, addressBytes (piece.block * 32) ++ image.take 32⟩,
        ⟨targetFlashW, addressBytes (piece.block * 32 + 0x10) ++ image.drop 32⟩]
    | .serialEeprom => [⟨targetEeepromW, addressBytes (piece.block * 32) ++ image⟩]
    | .eeprom => [⟨targetEepromW, addressBytes piece.block ++ piece.data⟩]

/-- A scan over the end of the image of a run finds a zero byte. -/
def ScanEnds (run : List Piece) : Prop := ∀ upload ∈ (uploadsOf run).getLast?, 0 ∈ upload.data

instance : DecidablePred ScanEnds := fun run =>
  inferInstanceAs (Decidable (∀ upload ∈ (uploadsOf run).getLast?, 0 ∈ upload.data))

end Clibcdc.PgmHex
