import Clibcdc.Types
import Clibcdc.Memory.Block

/-!
# HEX files

`iqrfPgmReadHEXFileLine` of the programming example, with the two functions it
calls.

* The file is what has not been read of it.  At its end `fgetc` answers `EOF`,
  and `iqrfReadByteFromFile` answers 0, as it does for a byte 0.
* `IqrfPgmCodeLineBuffer` keeps its bytes from one line to the next.
* An index that is out of range and a loop that does not end are faults.

`readHEXFileLine_spec` says what a line is, for every file: which files have one,
what its bytes are, and that the function neither fails nor runs on.  A
`HexLine` is a line that carries a record, and `HexRecord.line` writes one.
-/

namespace Clibcdc.PgmHex

open Clibcdc.Memory

inductive Fault where
  | outOfRange | unending
  deriving DecidableEq, Repr

/-! ## The functions -/

def tolower (c : Byte) : Byte := if chr 'A' ≤ c ∧ c ≤ chr 'Z' then c + 32 else c

/-- `iqrfPgmConvertToNum`. -/
def iqrfPgmConvertToNum (dataByteHi dataByteLo : Byte) : Byte :=
  let result : Byte :=
    if dataByteHi ≥ chr '0' ∧ dataByteHi ≤ chr '9' then (dataByteHi - chr '0') <<< 4
    else if dataByteHi ≥ chr 'a' ∧ dataByteHi ≤ chr 'f' then (dataByteHi - 87) <<< 4
    else 0
  if dataByteLo ≥ chr '0' ∧ dataByteLo ≤ chr '9' then result ||| (dataByteLo - chr '0')
  else if dataByteLo ≥ chr 'a' ∧ dataByteLo ≤ chr 'f' then result ||| (dataByteLo - 87)
  else result

/-- `iqrfReadByteFromFile`. -/
def iqrfReadByteFromFile : UString → Byte × UString
  | [] => (0, [])
  | readChar :: file => (readChar, file)

abbrev sizeOfCodeLineBuffer : Nat := 64

/-- The file and `IqrfPgmCodeLineBuffer`. -/
structure HexReader where
  file : UString
  codeLineBuffer : Block Byte sizeOfCodeLineBuffer
  deriving DecidableEq

inductive LineResult where
  | fileDataReady | fileDataError | endOfFile
  deriving DecidableEq, Repr

/-- A loop that reads up to a byte, or to the end of the file: the last byte read,
and what is behind it. -/
def skipTo (stop : Byte) : UString → Byte × UString
  | [] => (0, [])
  | c :: file => if c ≠ 0 ∧ c ≠ stop then skipTo stop file else (c, file)

/-- The loop to the start of a line. -/
def findSign (file : UString) : Byte × UString := skipTo (chr ':') file

def isLineEnd (c : Byte) : Prop := c = 0x0A ∨ c = 0x0D

instance : DecidablePred isLineEnd := fun c => inferInstanceAs (Decidable (c = 0x0A ∨ c = 0x0D))

/-- The loop to the end of a line, for as many turns as there is fuel. -/
def readLineBytes : Nat → HexReader → Nat → Byte → Except Fault (LineResult × HexReader)
  | 0, _, _, _ => .error .unending
  | fuel + 1, self, codeLineBufferPtr, codeLineBufferCrc =>
    let (readHi, file) := iqrfReadByteFromFile self.file
    let dataByteHi := tolower readHi
    if isLineEnd dataByteHi then
      .ok (if codeLineBufferCrc ≠ 0 then .fileDataError else .fileDataReady, { self with file })
    else do
      let (readLo, file) := iqrfReadByteFromFile file
      let dataByteLo := tolower readLo
      let dataByte := iqrfPgmConvertToNum dataByteHi dataByteLo
      let codeLineBufferCrc := codeLineBufferCrc + dataByte
      let codeLineBuffer ←
        self.codeLineBuffer.checkedWrite .outOfRange codeLineBufferPtr dataByte
      let codeLineBufferPtr := codeLineBufferPtr + 1
      if codeLineBufferPtr ≥ sizeOfCodeLineBuffer then
        .ok (.fileDataError, ⟨file, codeLineBuffer⟩)
      else readLineBytes fuel ⟨file, codeLineBuffer⟩ codeLineBufferPtr codeLineBufferCrc

/-- `iqrfPgmReadHEXFileLine`.  A line has at most as many turns as the buffer
has bytes. -/
def iqrfPgmReadHEXFileLine (self : HexReader) : Except Fault (LineResult × HexReader) :=
  let (sign, file) := findSign self.file
  if sign = 0 then .ok (.endOfFile, { self with file })
  else readLineBytes sizeOfCodeLineBuffer { self with file } 0 0

/-! ## What a line is -/

/-- The text of pairs of digits. -/
def digitsText (digits : List (Byte × Byte)) : UString := digits.flatMap fun d => [d.1, d.2]

/-- The byte that a pair of digits stands for. -/
def digitsByte (digits : Byte × Byte) : Byte :=
  iqrfPgmConvertToNum (tolower digits.1) (tolower digits.2)

/-- What the bytes of a line add to its checksum. -/
def sumOf : UString → Byte
  | [] => 0
  | b :: bytes => b + sumOf bytes

@[simp] theorem sumOf_nil : sumOf [] = 0 := rfl

theorem sumOf_concat (bytes : UString) (b : Byte) : sumOf (bytes ++ [b]) = sumOf bytes + b := by
  induction bytes with
  | nil => simp [sumOf]
  | cons a bytes ih => rw [List.cons_append, sumOf, sumOf, ih, UInt8.add_assoc]

/-- The text has no start of a line, and does not end the file. -/
def Skipped (text : UString) : Prop := ∀ b ∈ text, b ≠ 0 ∧ b ≠ chr ':'

instance : DecidablePred Skipped := fun text =>
  List.decidableBAll (fun b => b ≠ 0 ∧ b ≠ chr ':') text

/-- Only letters are changed, and they stay letters. -/
theorem tolower_eq {b : Byte} (hb : b.toNat < 65) (c : Byte) : tolower c = b ↔ c = b := by
  unfold tolower
  split_ifs with h
  · have hlow : 65 ≤ c.toNat := UInt8.le_iff_toNat_le.mp h.1
    have hhigh : c.toNat ≤ 90 := UInt8.le_iff_toNat_le.mp h.2
    have h32 : (32 : Byte).toNat = 32 := rfl
    simp only [← UInt8.toNat_inj, UInt8.toNat_add]
    omega
  · rfl

theorem tolower_isLineEnd (c : Byte) : isLineEnd (tolower c) ↔ isLineEnd c := by
  unfold isLineEnd
  rw [tolower_eq (by decide), tolower_eq (by decide)]

theorem skipTo_append {stop : Byte} {text : UString} (h : ∀ b ∈ text, b ≠ 0 ∧ b ≠ stop)
    (file : UString) : skipTo stop (text ++ file) = skipTo stop file := by
  induction text with
  | nil => rfl
  | cons b text ih =>
    rw [List.cons_append, skipTo, if_pos (h b List.mem_cons_self)]
    exact ih fun c hc => h c (List.mem_cons_of_mem b hc)

theorem findSign_skipped {text : UString} (h : Skipped text) (file : UString) :
    findSign (text ++ file) = findSign file := skipTo_append h file

/-- The search ends at a colon, or at the end of the file. -/
theorem findSign_cases (file : UString) :
    (∃ skipped rest, file = skipped ++ chr ':' :: rest ∧ Skipped skipped ∧
        findSign file = (chr ':', rest)) ∨
      (∃ skipped rest, (file = skipped ∧ rest = [] ∨ file = skipped ++ 0 :: rest) ∧
        Skipped skipped ∧ findSign file = (0, rest)) := by
  induction file with
  | nil => exact .inr ⟨[], [], .inl ⟨rfl, rfl⟩, by simp [Skipped], rfl⟩
  | cons b file ih =>
    by_cases hb : b ≠ 0 ∧ b ≠ chr ':'
    · have hskip : ∀ skipped, Skipped skipped → Skipped (b :: skipped) := by
        intro skipped h c hc
        rcases List.mem_cons.mp hc with rfl | hc
        · exact hb
        · exact h c hc
      rw [findSign, skipTo, if_pos hb]
      rcases ih with ⟨skipped, rest, hfile, h, hfind⟩ | ⟨skipped, rest, hfile, h, hfind⟩
      · exact .inl ⟨b :: skipped, rest, by rw [hfile]; rfl, hskip skipped h, hfind⟩
      · refine .inr ⟨b :: skipped, rest, ?_, hskip skipped h, hfind⟩
        exact hfile.imp (fun h => ⟨by rw [h.1], h.2⟩) fun h => by rw [h]; rfl
    · rw [findSign, skipTo, if_neg hb]
      by_cases hzero : b = 0
      · subst hzero
        exact .inr ⟨[], file, .inr rfl, by simp [Skipped], rfl⟩
      · have hcolon : b = chr ':' := by
          by_contra hne
          exact hb ⟨hzero, hne⟩
        subst hcolon
        exact .inl ⟨[], file, rfl, by simp [Skipped], rfl⟩

/-- A turn of the loop that reads a pair of digits. -/
theorem readLineBytes_turn {hi lo : Byte} (hplain : ¬ isLineEnd hi) {file : UString}
    {buffer : Block Byte sizeOfCodeLineBuffer} {ptr : Nat} (hptr : ptr + 1 < sizeOfCodeLineBuffer)
    (fuel : Nat) (crc : Byte) :
    readLineBytes (fuel + 1) ⟨hi :: lo :: file, buffer⟩ ptr crc =
      readLineBytes fuel ⟨file, buffer.set ptr (digitsByte (hi, lo))⟩ (ptr + 1)
        (crc + digitsByte (hi, lo)) := by
  have hnot : ¬ ptr + 1 ≥ sizeOfCodeLineBuffer := by omega
  simp only [readLineBytes, iqrfReadByteFromFile, tolower_isLineEnd, if_neg hplain,
    Block.checkedWrite_eq (Nat.lt_of_succ_lt hptr), checked_bind, if_neg hnot]
  rfl

/-- The turns that read the digits of a line. -/
theorem readLineBytes_digits {digits : List (Byte × Byte)} (hplain : ∀ d ∈ digits, ¬ isLineEnd d.1)
    {ptr : Nat} (hptr : ptr + digits.length < sizeOfCodeLineBuffer) (fuel : Nat) (file : UString)
    (buffer : Block Byte sizeOfCodeLineBuffer) (crc : Byte) :
    readLineBytes (fuel + digits.length) ⟨digitsText digits ++ file, buffer⟩ ptr crc =
      readLineBytes fuel ⟨file, buffer.overwrite ptr (digits.map digitsByte)⟩
        (ptr + digits.length) (crc + sumOf (digits.map digitsByte)) := by
  induction digits generalizing ptr buffer crc with
  | nil =>
    simp [digitsText]
  | cons d digits ih =>
    obtain ⟨hi, lo⟩ := d
    rw [List.length_cons] at hptr
    have hbuffer : (buffer.set ptr (digitsByte (hi, lo))).overwrite (ptr + 1)
        (digits.map digitsByte) =
          buffer.overwrite ptr (((hi, lo) :: digits).map digitsByte) :=
      (buffer.overwrite_cons ptr _ _).symm
    have htext : digitsText ((hi, lo) :: digits) ++ file =
        hi :: lo :: (digitsText digits ++ file) := rfl
    rw [htext, List.length_cons, ← Nat.add_assoc, readLineBytes_turn
        (hplain _ List.mem_cons_self) (by omega),
      ih (fun d hd => hplain d (List.mem_cons_of_mem _ hd)) (by omega), hbuffer, List.map_cons,
      sumOf, UInt8.add_assoc, Nat.add_right_comm ptr 1, Nat.add_assoc ptr]

theorem readLineBytes_end {c : Byte} (hend : isLineEnd c) (fuel : Nat) (file : UString)
    (buffer : Block Byte sizeOfCodeLineBuffer) (ptr : Nat) (crc : Byte) :
    readLineBytes (fuel + 1) ⟨c :: file, buffer⟩ ptr crc =
      .ok (if crc ≠ 0 then .fileDataError else .fileDataReady, ⟨file, buffer⟩) :=
  if_pos ((tolower_isLineEnd c).mpr hend)

theorem iqrfReadByteFromFile_length (file : UString) :
    (iqrfReadByteFromFile file).2.length ≤ file.length := by
  cases file with
  | nil => exact Nat.le_refl _
  | cons b file => exact Nat.le_succ _

/-- The loop ends within its turns, whatever the file.  When it ends with a line,
it has read the digits of one. -/
theorem readLineBytes_ends {fuel ptr : Nat} (hfuel : ptr + fuel = sizeOfCodeLineBuffer)
    (hptr : ptr < sizeOfCodeLineBuffer) (self : HexReader) (crc : Byte) :
    ∃ result self', readLineBytes fuel self ptr crc = .ok (result, self') ∧
      result ≠ .endOfFile ∧ self'.file.length ≤ self.file.length ∧
      (result = .fileDataReady → ∃ digits c, self.file = digitsText digits ++ c :: self'.file ∧
        (∀ d ∈ digits, ¬ isLineEnd d.1) ∧ isLineEnd c ∧
        ptr + digits.length < sizeOfCodeLineBuffer ∧ crc + sumOf (digits.map digitsByte) = 0) := by
  induction fuel generalizing ptr self crc with
  | zero => omega
  | succ fuel ih =>
    obtain ⟨file, buffer⟩ := self
    rcases hhi : iqrfReadByteFromFile file with ⟨hi, file₁⟩
    have hlength₁ : file₁.length ≤ file.length := by
      simpa [hhi] using iqrfReadByteFromFile_length file
    by_cases hend : isLineEnd hi
    · -- the file has not come to its end, where a 0 would have been read
      obtain rfl : file = hi :: file₁ := by
        cases file with
        | nil =>
          obtain ⟨rfl, -⟩ := Prod.mk.inj hhi
          exact absurd hend (by decide)
        | cons b file =>
          obtain ⟨rfl, rfl⟩ := Prod.mk.inj hhi
          rfl
      refine ⟨_, _, readLineBytes_end hend fuel file₁ buffer ptr crc, ?_, hlength₁, ?_⟩
      · split_ifs <;> simp
      · intro hready
        have hcrc : crc = 0 := by
          by_contra hne
          simp [hne] at hready
        exact ⟨[], hi, rfl, by simp, hend, hptr, by simpa using hcrc⟩
    · rcases hlo : iqrfReadByteFromFile file₁ with ⟨lo, file₂⟩
      have hlength₂ : file₂.length ≤ file₁.length := by
        simpa [hlo] using iqrfReadByteFromFile_length file₁
      have hturn : readLineBytes (fuel + 1) ⟨file, buffer⟩ ptr crc =
          if ptr + 1 ≥ sizeOfCodeLineBuffer then
            .ok (.fileDataError, ⟨file₂, buffer.set ptr (digitsByte (hi, lo))⟩)
          else readLineBytes fuel ⟨file₂, buffer.set ptr (digitsByte (hi, lo))⟩ (ptr + 1)
            (crc + digitsByte (hi, lo)) := by
        simp only [readLineBytes, hhi, hlo, tolower_isLineEnd, if_neg hend,
          Block.checkedWrite_eq hptr, checked_bind]
        rfl
      by_cases hfull : ptr + 1 ≥ sizeOfCodeLineBuffer
      · rw [if_pos hfull] at hturn
        exact ⟨_, _, hturn, by simp, Nat.le_trans hlength₂ hlength₁, by simp⟩
      · rw [if_neg hfull] at hturn
        have hfuel' : ptr + 1 + fuel = sizeOfCodeLineBuffer := by omega
        obtain ⟨result, self', hrun, hnotEnd, hlength, hline⟩ :=
          ih hfuel' (Nat.lt_of_not_ge hfull) ⟨file₂, buffer.set ptr (digitsByte (hi, lo))⟩
            (crc + digitsByte (hi, lo))
        refine ⟨result, self', hturn.trans hrun, hnotEnd,
          Nat.le_trans hlength (Nat.le_trans hlength₂ hlength₁), ?_⟩
        intro hready
        obtain ⟨digits, c, hfile, hplain, hc, hshort, hsum⟩ := hline hready
        have hfile : file₂ = digitsText digits ++ c :: self'.file := hfile
        -- nor has it come to its end within the pair
        obtain ⟨rfl, rfl⟩ : file = hi :: file₁ ∧ file₁ = lo :: file₂ := by
          cases file with
          | nil =>
            obtain ⟨-, rfl⟩ := Prod.mk.inj hhi
            obtain ⟨-, rfl⟩ := Prod.mk.inj hlo
            simp at hfile
          | cons b file =>
            obtain ⟨rfl, rfl⟩ := Prod.mk.inj hhi
            cases file with
            | nil =>
              obtain ⟨-, rfl⟩ := Prod.mk.inj hlo
              simp at hfile
            | cons b' file =>
              obtain ⟨rfl, rfl⟩ := Prod.mk.inj hlo
              exact ⟨rfl, rfl⟩
        refine ⟨(hi, lo) :: digits, c, by rw [hfile]; rfl, ?_, hc, ?_, ?_⟩
        · intro d hd
          rcases List.mem_cons.mp hd with rfl | hd
          · exact hend
          · exact hplain d hd
        · rw [List.length_cons]
          omega
        · rw [List.map_cons, sumOf, ← UInt8.add_assoc]
          exact hsum

/-- The file begins with a line that can be read, and `rest` is behind it. -/
structure BeginsWithLine (file : UString) (digits : List (Byte × Byte)) (rest : UString) :
    Prop where
  plain : ∀ d ∈ digits, ¬ isLineEnd d.1
  short : digits.length < sizeOfCodeLineBuffer
  sum : sumOf (digits.map digitsByte) = 0
  split : ∃ skipped c, file = skipped ++ chr ':' :: (digitsText digits ++ c :: rest) ∧
    Skipped skipped ∧ isLineEnd c

/-- No line starts before the file ends, or before a byte 0. -/
def HasNoLine (file : UString) : Prop :=
  ∃ skipped, Skipped skipped ∧ (file = skipped ∨ ∃ rest, file = skipped ++ 0 :: rest)

/-- A line that the file begins with is read. -/
theorem readHEXFileLine_line {file rest : UString} {digits : List (Byte × Byte)}
    (h : BeginsWithLine file digits rest) (buffer : Block Byte sizeOfCodeLineBuffer) :
    iqrfPgmReadHEXFileLine ⟨file, buffer⟩ =
      .ok (.fileDataReady, ⟨rest, buffer.overwrite 0 (digits.map digitsByte)⟩) := by
  obtain ⟨hplain, hshort, hsum, skipped, c, rfl, hskipped, hc⟩ := h
  obtain ⟨fuel, hfuel⟩ : ∃ fuel, fuel + 1 + digits.length = sizeOfCodeLineBuffer :=
    ⟨sizeOfCodeLineBuffer - digits.length - 1, by omega⟩
  have hsign : findSign (skipped ++ chr ':' :: (digitsText digits ++ c :: rest)) =
      (chr ':', digitsText digits ++ c :: rest) := findSign_skipped hskipped _
  have hread : iqrfPgmReadHEXFileLine
      ⟨skipped ++ chr ':' :: (digitsText digits ++ c :: rest), buffer⟩ =
        readLineBytes sizeOfCodeLineBuffer ⟨digitsText digits ++ c :: rest, buffer⟩ 0 0 := by
    simp only [iqrfPgmReadHEXFileLine, hsign]
    exact if_neg (by decide)
  have hloop := readLineBytes_digits hplain (show 0 + digits.length < sizeOfCodeLineBuffer by omega)
    (fuel + 1) (c :: rest) buffer 0
  rw [hfuel, readLineBytes_end hc, hsum] at hloop
  exact hread.trans hloop

theorem readHEXFileLine_noLine {file : UString} (h : HasNoLine file)
    (buffer : Block Byte sizeOfCodeLineBuffer) :
    ∃ rest, iqrfPgmReadHEXFileLine ⟨file, buffer⟩ = .ok (.endOfFile, ⟨rest, buffer⟩) ∧
      rest.length ≤ file.length := by
  obtain ⟨skipped, hskipped, rfl | ⟨rest, rfl⟩⟩ := h
  · refine ⟨[], ?_, Nat.zero_le _⟩
    have hsign := findSign_skipped hskipped []
    rw [List.append_nil] at hsign
    rw [iqrfPgmReadHEXFileLine, hsign]
    rfl
  · refine ⟨rest, ?_, by simp; omega⟩
    rw [iqrfPgmReadHEXFileLine, findSign_skipped hskipped]
    rfl

/-- How a call ends.  A call that finds a line takes its colon, at least. -/
theorem readHEXFileLine_cases (self : HexReader) :
    ∃ result self', iqrfPgmReadHEXFileLine self = .ok (result, self') ∧
      match result with
      | .fileDataReady => self'.file.length < self.file.length ∧
          ∃ digits, BeginsWithLine self.file digits self'.file
      | .fileDataError => self'.file.length < self.file.length ∧ ¬ HasNoLine self.file
      | .endOfFile => self'.file.length ≤ self.file.length ∧ HasNoLine self.file := by
  obtain ⟨file, buffer⟩ := self
  rcases findSign_cases file with
    ⟨skipped, rest, hfile, hskipped, hsign⟩ | ⟨skipped, rest, hfile, hskipped, hsign⟩
  · have hread : iqrfPgmReadHEXFileLine ⟨file, buffer⟩ =
        readLineBytes sizeOfCodeLineBuffer ⟨rest, buffer⟩ 0 0 := by
      simp only [iqrfPgmReadHEXFileLine, hsign]
      exact if_neg (by decide)
    have hlength : rest.length < file.length := by
      rw [hfile, List.length_append, List.length_cons]
      omega
    obtain ⟨result, self', hrun, hnotEnd, hrest, hline⟩ :=
      readLineBytes_ends (Nat.zero_add sizeOfCodeLineBuffer) (by decide) ⟨rest, buffer⟩ 0
    refine ⟨result, self', hread.trans hrun, ?_⟩
    have hfewer : self'.file.length < file.length := Nat.lt_of_le_of_lt hrest hlength
    cases result with
    | fileDataReady =>
      obtain ⟨digits, c, hdigits, hplain, hc, hshort, hsum⟩ := hline rfl
      rw [Nat.zero_add] at hshort
      rw [UInt8.zero_add] at hsum
      have hdigits : rest = digitsText digits ++ c :: self'.file := hdigits
      exact ⟨hfewer, digits, hplain, hshort, hsum, skipped, c, by rw [hfile, hdigits],
        hskipped, hc⟩
    | fileDataError =>
      refine ⟨hfewer, fun hno => ?_⟩
      obtain ⟨rest', hread', -⟩ := readHEXFileLine_noLine hno buffer
      cases (hread.trans hrun).symm.trans hread'
    | endOfFile => exact absurd rfl hnotEnd
  · have hno : HasNoLine file := ⟨skipped, hskipped, hfile.imp And.left fun h => ⟨rest, h⟩⟩
    obtain ⟨rest', hread, hlength⟩ := readHEXFileLine_noLine hno buffer
    exact ⟨.endOfFile, ⟨rest', buffer⟩, hread, hlength, hno⟩

theorem readHEXFileLine_length {self self' : HexReader} {result : LineResult}
    (h : iqrfPgmReadHEXFileLine self = .ok (result, self')) :
    self'.file.length ≤ self.file.length := by
  obtain ⟨result', self'', hread, hcases⟩ := readHEXFileLine_cases self
  obtain ⟨rfl, rfl⟩ := Prod.mk.inj (Except.ok.inj (hread.symm.trans h))
  cases result' with
  | fileDataReady => exact Nat.le_of_lt hcases.1
  | fileDataError => exact Nat.le_of_lt hcases.1
  | endOfFile => exact hcases.1

theorem readHEXFileLine_shorter {self self' : HexReader}
    (h : iqrfPgmReadHEXFileLine self = .ok (.fileDataReady, self')) :
    self'.file.length < self.file.length := by
  obtain ⟨result, self'', hread, hcases⟩ := readHEXFileLine_cases self
  obtain ⟨rfl, rfl⟩ := Prod.mk.inj (Except.ok.inj (hread.symm.trans h))
  exact hcases.1

/-- What a line that cannot be read begins with. -/
theorem readHEXFileLine_broken {self self' : HexReader}
    (h : iqrfPgmReadHEXFileLine self = .ok (.fileDataError, self')) :
    ¬ HasNoLine self.file ∧ ∀ digits rest, ¬ BeginsWithLine self.file digits rest := by
  constructor
  · intro hno
    obtain ⟨rest, hread, -⟩ := readHEXFileLine_noLine hno self.codeLineBuffer
    cases h.symm.trans hread
  · intro digits rest hbegins
    cases h.symm.trans (readHEXFileLine_line hbegins self.codeLineBuffer)

/-- For every file: the line reader neither writes behind its buffer nor runs
on.  It reports a line exactly when the file begins with one, which has less than
64 bytes whose sum is 0; then these bytes are in the buffer, and the rest of the
buffer is as it was.  It reports the end of the file exactly when no colon is
left before the end or a byte 0. -/
theorem readHEXFileLine_spec (self : HexReader) :
    ∃ result self', iqrfPgmReadHEXFileLine self = .ok (result, self') ∧
      (result = .fileDataReady ↔ ∃ digits rest, BeginsWithLine self.file digits rest) ∧
      (∀ digits rest, BeginsWithLine self.file digits rest →
        self' = ⟨rest, self.codeLineBuffer.overwrite 0 (digits.map digitsByte)⟩) ∧
      (result = .endOfFile ↔ HasNoLine self.file) := by
  obtain ⟨result, self', hread, hcases⟩ := readHEXFileLine_cases self
  have hline : ∀ digits rest, BeginsWithLine self.file digits rest →
      result = .fileDataReady ∧
        self' = ⟨rest, self.codeLineBuffer.overwrite 0 (digits.map digitsByte)⟩ := by
    intro digits rest h
    have hread' := hread.symm.trans (readHEXFileLine_line h self.codeLineBuffer)
    simpa using hread'
  refine ⟨result, self', hread, ⟨?_, ?_⟩, fun digits rest h => (hline digits rest h).2, ?_, ?_⟩
  · intro hready
    subst hready
    obtain ⟨-, digits, hbegins⟩ := hcases
    exact ⟨digits, self'.file, hbegins⟩
  · intro h
    obtain ⟨digits, rest, hbegins⟩ := h
    exact (hline digits rest hbegins).1
  · intro hend
    subst hend
    exact hcases.2
  · intro hno
    obtain ⟨rest, hread', -⟩ := readHEXFileLine_noLine hno self.codeLineBuffer
    have heq := hread.symm.trans hread'
    simp only [Except.ok.injEq, Prod.mk.injEq] at heq
    exact heq.1

/-! ## Records -/

/-- A record of a HEX file.  A longer one does not fit into the line buffer. -/
structure HexRecord where
  address : Nat
  type : Byte
  data : UString
  address_lt : address < 2 ^ 16
  data_fits : data.length ≤ 58
  deriving DecidableEq

namespace HexRecord

/-- The bytes of a record in front of its checksum. -/
def bytes (r : HexRecord) : UString :=
  UInt8.ofNat r.data.length :: UInt8.ofNat (r.address / 256) :: UInt8.ofNat (r.address % 256) ::
    r.type :: r.data

/-- The bytes on a line: their sum is 0. -/
def lineBytes (r : HexRecord) : UString := r.bytes ++ [-sumOf r.bytes]

theorem lineBytes_sum (r : HexRecord) : sumOf r.lineBytes = 0 := by
  rw [lineBytes, sumOf_concat, UInt8.add_neg_eq_sub, UInt8.sub_self]

theorem lineBytes_length (r : HexRecord) : r.lineBytes.length = r.data.length + 5 := by
  simp [lineBytes, bytes]

end HexRecord

/-- A line with a record.  In front of its colon there may be anything that does
not start a line, such as the rest of a line end, and its digits may be of either
case. -/
structure HexLine where
  record : HexRecord
  skipped : UString
  digits : List (Byte × Byte)
  ending : Byte
  skips : Skipped skipped
  plain : ∀ d ∈ digits, ¬ isLineEnd d.1
  encodes : digits.map digitsByte = record.lineBytes
  ends : isLineEnd ending

namespace HexLine

def text (line : HexLine) : UString :=
  line.skipped ++ chr ':' :: (digitsText line.digits ++ [line.ending])

/-- A file that begins with the line begins with its digits. -/
theorem beginsWithLine (line : HexLine) (rest : UString) :
    BeginsWithLine (line.text ++ rest) line.digits rest := by
  have hlength : line.digits.length = line.record.data.length + 5 := by
    rw [← line.record.lineBytes_length, ← line.encodes, List.length_map]
  have hfits := line.record.data_fits
  have hshort : line.digits.length < 64 := by omega
  refine ⟨line.plain, hshort, ?_, line.skipped, line.ending, ?_, line.skips, line.ends⟩
  · rw [line.encodes, HexRecord.lineBytes_sum]
  · simp [text]

/-- The line is read into the buffer. -/
theorem read (line : HexLine) (rest : UString) (buffer : Block Byte sizeOfCodeLineBuffer) :
    iqrfPgmReadHEXFileLine ⟨line.text ++ rest, buffer⟩ =
      .ok (.fileDataReady, ⟨rest, buffer.overwrite 0 line.record.lineBytes⟩) := by
  rw [readHEXFileLine_line (line.beginsWithLine rest), line.encodes]

end HexLine

/-! ## Writing records -/

/-- A digit, in either case. -/
def hexDigit (upper : Bool) (n : Nat) : Byte :=
  if n < 10 then chr '0' + UInt8.ofNat n
  else (if upper then chr 'A' else chr 'a') + UInt8.ofNat (n - 10)

def byteDigits (upper : Bool) (b : Byte) : Byte × Byte :=
  (hexDigit upper (b.toNat / 16), hexDigit upper (b.toNat % 16))

theorem digitsByte_hexDigit (upper : Bool) : ∀ hi < 16, ∀ lo < 16,
    digitsByte (hexDigit upper hi, hexDigit upper lo) = UInt8.ofNat (hi * 16 + lo) := by
  cases upper <;> decide

theorem digitsByte_byteDigits (upper : Bool) (b : Byte) : digitsByte (byteDigits upper b) = b := by
  have hb := b.toNat_lt
  rw [byteDigits, digitsByte_hexDigit upper _ (by omega) _ (by omega)]
  have hsum : b.toNat / 16 * 16 + b.toNat % 16 = b.toNat := by omega
  rw [hsum, UInt8.ofNat_toNat]

theorem hexDigit_plain (upper : Bool) : ∀ n < 16, ¬ isLineEnd (hexDigit upper n) := by
  cases upper <;> decide

/-- A record is written on a line of its own. -/
def HexRecord.line (upper : Bool) (r : HexRecord) : HexLine where
  record := r
  skipped := []
  digits := r.lineBytes.map (byteDigits upper)
  ending := 0x0A
  skips := by simp [Skipped]
  plain := by
    intro d hd
    obtain ⟨b, -, rfl⟩ := List.mem_map.mp hd
    have hb := b.toNat_lt
    exact hexDigit_plain upper _ (by omega)
  encodes := by
    rw [List.map_map]
    exact List.map_id'' (fun b => digitsByte_byteDigits upper b) _
  ends := .inl rfl

/-- A file of lines, and what is behind the last of them. -/
def hexText (lines : List HexLine) (tail : UString) : UString := lines.flatMap HexLine.text ++ tail

end Clibcdc.PgmHex
