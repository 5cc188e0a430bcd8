import Clibcdc.PgmHex.HexFile
import Clibcdc.Session.Interface

/-!
# The programming example

`iqrfPgmPrepareMemBlock` and the loop of `main` in the example that programs a
module from a HEX file.

* `PrepareMemBlock` is the structure of this name, and a `Programmer` has it
  beside the file and the line buffer.
* The image `MemoryBlock` has an address in its cells 0 and 1 and 32 bytes
  behind it, and the same once more from cell 34 on.
* `prepareRecord` is the part of the loop of `iqrfPgmPrepareMemBlock` that looks
  at the line buffer.  It answers a result when the function returns.
* `main` asks for uploads, and goes on whatever they are answered.  So `main` here
  is the packets that the source's `main` passes to `upload`.  The answers are left
  out, as are the console and the two changes of the mode around the loop.
* It calls the overload of `upload` for pointers, which reads on behind the data
  up to a zero byte (`Packet.call`).  What it uploads are the bytes that it has
  been given (`program`).

An address is taken modulo the size of the type that holds it.  The other
numbers stay below theirs.
-/

namespace Clibcdc.PgmHex

open Clibcdc.Memory

/-! ## The data -/

inductive PgmResult where
  | success | flashBlockReady | eepromBlockReady | eeepromBlockReady | error
  deriving DecidableEq, Repr

def serialEepromMinAdr : Nat := 0x0200
def serialEepromMaxAdr : Nat := 0x09FF
def iqrfLicencedMemMinAdr : Nat := 0x2C00
def iqrfLicencedMemMaxAdr : Nat := 0x37BF
def iqrfMainMemMinAdr : Nat := 0x3A00
def iqrfMainMemMaxAdr : Nat := 0x3FFF
def eepromMin : Nat := 0xF000
def eepromMax : Nat := 0xF0FF

def targetFlashW : Byte := 0x85
def targetEepromW : Byte := 0x86
def targetEeepromW : Byte := 0x87

/-- The size of `MemoryBlock`. -/
abbrev memoryBlockSize : Nat := 68

abbrev LineBuffer := Block Byte sizeOfCodeLineBuffer
abbrev MemoryBlock := Block Byte memoryBlockSize

/-- `PREPARE_MEM_BLOCK`. -/
structure PrepareMemBlock where
  hiAddress : Nat
  address : Nat
  memoryBlockNumber : Nat
  memoryBlockProcessState : Nat
  dataInBufferReady : Bool
  dataOverflow : Bool
  memoryBlock : MemoryBlock
  deriving DecidableEq

/-- An address in an image, low byte first. -/
def addressBytes (address : Nat) : UString :=
  [UInt8.ofNat (address % 256), UInt8.ofNat (address / 256)]

namespace PrepareMemBlock

/-! ## Moving what has overflowed -/

/-- `iqrfPgmMoveOverflowedData`. -/
def iqrfPgmMoveOverflowedData (p : PrepareMemBlock) : PrepareMemBlock :=
  let memoryBlock := p.memoryBlock.overwrite 34 (p.memoryBlock.cells.take 34)
  let memoryBlock := memoryBlock.overwrite 0 (List.replicate 34 0)
  let memBlock := (memoryBlock.get 35).toNat * 256 +
    (memoryBlock.get 34).toNat
  let memBlock := memBlock / 32
  { p with
    memoryBlockNumber := memBlock + 0x10
    memoryBlock := memoryBlock.overwrite 0 (addressBytes ((memBlock + 1) * 32 % 2 ^ 16))
    dataOverflow := false
    memoryBlockProcessState := 1 }

/-! ## A record in the line buffer -/

/-- The result that is returned for an image that is to be written. -/
def blockReady (p : PrepareMemBlock) : PgmResult :=
  if p.memoryBlockNumber < 80 then .eeepromBlockReady else .flashBlockReady

/-- How many bytes of data a record says that it has. -/
def declaredSize (line : LineBuffer) : Nat := (line.get 0).toNat

/-- Copy every second byte of the data of a record, from an index of the image
on. -/
def copyLowBytes (line : LineBuffer) (next : Nat → Nat) :
    Nat → Nat → Nat → MemoryBlock → Except Fault MemoryBlock
  | 0, _, _, memoryBlock => .ok memoryBlock
  | left + 1, cnt, destinationIndex, memoryBlock => do
    let b ← line.checkedRead .outOfRange (2 * cnt + 4)
    let memoryBlock ← memoryBlock.checkedWrite .outOfRange destinationIndex b
    copyLowBytes line next left (cnt + 1) (next destinationIndex) memoryBlock

/-- Behind the end of the image the copy goes on in its first half. -/
def nextIndex (destinationIndex : Nat) : Nat :=
  if destinationIndex + 1 = memoryBlockSize then 2 else destinationIndex + 1

/-- A new image for the block of the serial EEPROM that has the address. -/
def openSerialEeprom (p : PrepareMemBlock) : PrepareMemBlock :=
  let memBlock := (p.address - 0x200) / 32 * 32
  { p with
    memoryBlock := ((Block.fill 0).overwrite 34 (addressBytes memBlock)).overwrite 0
      (addressBytes (memBlock + 0x20))
    memoryBlockNumber := p.address / 32
    memoryBlockProcessState := 1 }

/-- A record for the serial EEPROM. -/
def serialEepromRecord (line : LineBuffer) (p : PrepareMemBlock) :
    Except Fault (Option PgmResult × PrepareMemBlock) :=
  let p := if p.memoryBlockNumber = 0 then p.openSerialEeprom else p
  let memBlock := p.address / 32
  let destinationIndex := p.address % 32 + 36
  let dataCounter := (line.get 0).toNat / 2
  if p.memoryBlockNumber ≠ memBlock then .ok (some p.blockReady, p)
  else do
    let p := if destinationIndex + dataCounter > memoryBlockSize
      then { p with dataOverflow := true } else p
    let memoryBlock ← copyLowBytes line nextIndex dataCounter 0 destinationIndex p.memoryBlock
    let p := { p with memoryBlock, dataInBufferReady := false }
    .ok (if p.dataOverflow then some .eeepromBlockReady else none, p)

/-- A record for an area of the flash memory that ends at `maxAdr`. -/
def flashRecord (maxAdr : Nat) (line : LineBuffer) (p : PrepareMemBlock) :
    Except Fault (Option PgmResult × PrepareMemBlock) :=
  let memBlock := p.address / 32
  let destinationIndex := p.address % 32 * 2
  let destinationIndex := if destinationIndex < 32 then destinationIndex + 2
    else destinationIndex + 4
  let dataCounter := (line.get 0).toNat
  let dataCounter := if p.address + dataCounter / 2 > maxAdr then (maxAdr - p.address) * 2
    else dataCounter
  if destinationIndex + dataCounter > memoryBlockSize then .ok (some .error, p)
  else if p.memoryBlockNumber ≠ 0 ∧ p.memoryBlockNumber ≠ memBlock then .ok (some p.blockReady, p)
  else do
    let memoryBlock := (p.memoryBlock.overwrite 0 (addressBytes (memBlock * 32))).overwrite 34
      (addressBytes (memBlock * 32 + 0x10))
    let memoryBlock ← memoryBlock.checkedCopy .outOfRange destinationIndex line 4 dataCounter
    .ok (none, { p with
      memoryBlockNumber := memBlock, memoryBlockProcessState := 2
      memoryBlock, dataInBufferReady := false })

/-- A record for the internal EEPROM. -/
def eepromRecord (line : LineBuffer) (p : PrepareMemBlock) :
    Except Fault (Option PgmResult × PrepareMemBlock) :=
  let dataCounter := (line.get 0).toNat
  if p.memoryBlockNumber ≠ 0 then .ok (some p.blockReady, p)
  else do
    let memoryBlock := p.memoryBlock.set 0 (UInt8.ofNat (p.address % 256))
    let p := { p with memoryBlock := memoryBlock.set 1 (UInt8.ofNat (dataCounter / 2)) }
    let count := (p.memoryBlock.get 1).toNat
    if p.address + count > eepromMax ∨ count > 32 then .ok (some .error, p)
    else do
      let memoryBlock ← copyLowBytes line (· + 1) count 0 2 p.memoryBlock
      .ok (some .eepromBlockReady, { p with
        memoryBlock, dataInBufferReady := false, memoryBlockProcessState := 1 })

/-- The word address of a record. -/
def recordAddress (line : LineBuffer) (hiAddress : Nat) : Nat :=
  (hiAddress + (line.get 1).toNat * 256 + (line.get 2).toNat) % 2 ^ 32 / 2 %
    2 ^ 16

/-- The address of a record is read, and what has overflowed becomes the image. -/
def locate (line : LineBuffer) (p : PrepareMemBlock) : PrepareMemBlock :=
  let p := { p with address := recordAddress line p.hiAddress }
  if p.dataOverflow then p.iqrfPgmMoveOverflowedData else p

/-- A record with data, by the area of its address. -/
def dataRecord (line : LineBuffer) (p : PrepareMemBlock) :
    Except Fault (Option PgmResult × PrepareMemBlock) :=
  if serialEepromMinAdr ≤ p.address ∧ p.address ≤ serialEepromMaxAdr then
    serialEepromRecord line p
  else if iqrfMainMemMinAdr ≤ p.address ∧ p.address ≤ iqrfMainMemMaxAdr then
    flashRecord iqrfMainMemMaxAdr line p
  else if iqrfLicencedMemMinAdr ≤ p.address ∧ p.address ≤ iqrfLicencedMemMaxAdr then
    flashRecord iqrfLicencedMemMaxAdr line p
  else if eepromMin ≤ p.address ∧ p.address ≤ eepromMax then eepromRecord line p
  else .ok (none, { p with dataInBufferReady := false })

/-- What `iqrfPgmPrepareMemBlock` does with the line buffer. -/
def prepareRecord (line : LineBuffer) (p : PrepareMemBlock) :
    Except Fault (Option PgmResult × PrepareMemBlock) :=
  if line.get 3 = 0 then dataRecord line (p.locate line)
  else if line.get 3 = 4 then
    .ok (none, { p with
      hiAddress := (line.get 4).toNat * 2 ^ 24 + (line.get 5).toNat * 2 ^ 16
      dataInBufferReady := false })
  else .ok (none, { p with dataInBufferReady := false })

/-- What `iqrfPgmPrepareMemBlock` does at the end of the file. -/
def endOfFile (p : PrepareMemBlock) : PgmResult × PrepareMemBlock :=
  if p.memoryBlockNumber ≠ 0 then (p.blockReady, p)
  else if p.dataOverflow then (.eeepromBlockReady, p.iqrfPgmMoveOverflowedData)
  else (.success, p)

/-- The image that a call begins with: no word of the flash memory is set. -/
def blankImage : UString := (List.replicate 34 [0xFF, 0x3F]).flatten

/-- What `iqrfPgmPrepareMemBlock` does before its loop. -/
def enter (p : PrepareMemBlock) : PrepareMemBlock :=
  { p with
    memoryBlock := if p.dataOverflow then p.memoryBlock else p.memoryBlock.overwrite 0 blankImage
    memoryBlockNumber := 0 }

end PrepareMemBlock

/-! ## Uploads -/

/-- A target and the bytes for it. -/
structure Upload where
  target : Byte
  data : UString
  deriving DecidableEq, Repr

def Upload.operation (upload : Upload) : Operation := .upload upload.target upload.data

/-- The arguments of a call of `upload`.  The pointer points to the cell `start` of
an array, and `array` is what the array holds at the call. -/
structure Packet where
  target : Byte
  array : UString
  start : Nat
  dlen : Nat
  deriving DecidableEq, Repr

namespace Packet

/-- The cells from the pointer on, up to the end of the array. -/
def block (packet : Packet) : UString := packet.array.drop packet.start

/-- What the call asks for. -/
def upload (packet : Packet) : Upload := ⟨packet.target, packet.block.take packet.dlen⟩

/-- The call of `upload`, with what it reads of the array. -/
def call (packet : Packet) (platform : Platform) (schedule : List SessionAction)
    (self : CDCImplPrivate) : Reading (Option (Except CdcException PMResponse × CDCImplPrivate)) :=
  uploadPointer platform schedule self packet.target packet.block packet.dlen

section Call

variable {packet : Packet} (hdlen : packet.dlen ≤ packet.block.length) (platform : Platform)
  (schedule : List SessionAction) (self : CDCImplPrivate)

include hdlen

/-- The call reads no cell behind the array when there is a zero byte from the
pointer on, and only then. -/
theorem call_within :
    (packet.call platform schedule self).Within packet.block.length ↔ 0 ∈ packet.block := by
  have hreads := uploadPointer_within platform schedule self packet.target hdlen (Nat.le_refl _)
  rwa [List.take_length] at hreads

theorem call_value (hzero : 0 ∈ packet.block) :
    (packet.call platform schedule self).value =
      some (uploadString platform schedule self packet.target packet.upload.data) :=
  uploadPointer_value platform schedule self packet.target hdlen hzero

end Call

end Packet

/-! ## Writing an image -/

namespace PrepareMemBlock

/-- A turn of the loop of `main` that writes a prepared image. -/
def writePacket (opResult : PgmResult) (p : PrepareMemBlock) : Packet × PrepareMemBlock :=
  let cells := p.memoryBlock.cells
  match opResult with
  | .flashBlockReady =>
    if p.memoryBlockProcessState = 2 then (⟨targetFlashW, cells, 0, 32 + 2⟩, p)
    else (⟨targetFlashW, cells, 34, 32 + 2⟩, p)
  | .eeepromBlockReady => (⟨targetEeepromW, cells, 34, 32 + 2⟩, p)
  -- the loop is not entered with the other two
  | .eepromBlockReady | .success | .error =>
    let dataSize := (p.memoryBlock.get 1).toNat + 2
    let p := { p with memoryBlock := p.memoryBlock.set 1 0 }
    (⟨targetEepromW, p.memoryBlock.cells, 0, dataSize⟩, p)

/-- The loop of `main` that writes a prepared image. -/
def writePackets (opResult : PgmResult) : Nat → PrepareMemBlock → List Packet × PrepareMemBlock
  | 0, p => ([], p)
  | state + 1, p =>
    let (packet, p) := writePacket opResult { p with memoryBlockProcessState := state + 1 }
    let (packets, p) := writePackets opResult state { p with memoryBlockProcessState := state }
    (packet :: packets, p)

end PrepareMemBlock

/-! ## The program -/

structure Programmer where
  prepareMemBlock : PrepareMemBlock
  reader : HexReader
  deriving DecidableEq

namespace Programmer

/-- The program before it has read anything of its file: its variables are 0. -/
def start (file : UString) : Programmer where
  prepareMemBlock := ⟨0, 0, 0, 0, false, false, Block.fill 0⟩
  reader := ⟨file, Block.fill 0⟩

/-- A turn of the loop of `iqrfPgmPrepareMemBlock`. -/
def prepareTurn (self : Programmer) : Except Fault (Option PgmResult × Programmer) :=
  let p := self.prepareMemBlock
  if p.dataInBufferReady then
    (p.prepareRecord self.reader.codeLineBuffer).map fun (result, p) =>
      (result, { self with prepareMemBlock := p })
  else
    match iqrfPgmReadHEXFileLine self.reader with
    | .error fault => .error fault
    | .ok (.fileDataError, reader) => .ok (some .error, { self with reader })
    | .ok (.endOfFile, reader) =>
      let (result, p) := p.endOfFile
      .ok (some result, ⟨p, reader⟩)
    | .ok (.fileDataReady, reader) =>
      let p := { p with dataInBufferReady := true }
      (p.prepareRecord reader.codeLineBuffer).map fun (result, p) => (result, ⟨p, reader⟩)

/-- More turns than a loop takes with a file. -/
def loopFuel (file : UString) : Nat := 2 * file.length + 5

/-- The loop of `iqrfPgmPrepareMemBlock`, for as many turns as there is fuel. -/
def prepareLoop : Nat → Programmer → Except Fault (PgmResult × Programmer)
  | 0, _ => .error .unending
  | fuel + 1, self =>
    match self.prepareTurn with
    | .error fault => .error fault
    | .ok (some result, self) => .ok (result, self)
    | .ok (none, self) => prepareLoop fuel self

/-- `iqrfPgmPrepareMemBlock`. -/
def iqrfPgmPrepareMemBlock (self : Programmer) : Except Fault (PgmResult × Programmer) :=
  prepareLoop (loopFuel self.reader.file)
    { self with prepareMemBlock := self.prepareMemBlock.enter }

/-- The loop of `main`, for as many turns as there is fuel: the packets, and what
it ends with. -/
def programLoop : Nat → Programmer → List Packet × Except Fault PgmResult
  | 0, _ => ([], .error .unending)
  | fuel + 1, self =>
    match self.iqrfPgmPrepareMemBlock with
    | .error fault => ([], .error fault)
    | .ok (opResult, self) =>
      if opResult ≠ .flashBlockReady ∧ opResult ≠ .eeepromBlockReady ∧ opResult ≠ .eepromBlockReady
      then ([], .ok opResult)
      else
        let (packets, p) := PrepareMemBlock.writePackets opResult
          self.prepareMemBlock.memoryBlockProcessState self.prepareMemBlock
        let (rest, result) := programLoop fuel { self with prepareMemBlock := p }
        (packets ++ rest, result)

/-- What `main` passes to `upload` of a file. -/
def main (file : UString) : List Packet × Except Fault PgmResult :=
  programLoop (loopFuel file) (start file)

/-- What `main` uploads of a file. -/
def program (file : UString) : List Upload × Except Fault PgmResult :=
  ((main file).1.map Packet.upload, (main file).2)

end Programmer

end Clibcdc.PgmHex
