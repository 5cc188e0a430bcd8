import Clibcdc.Wire
import Clibcdc.PgmHex.Uploads

/-!
# The example with any file

What holds whatever is in the file, records or not.

* The program ends (`Turns`), and each access that it makes to the line buffer and
  to the image is in range, unless a line says that it has more than 60 bytes of
  data (`prepareRecord_fault`).
* What it passes to `upload` is a request that the library can send
  (`writePackets_proper`).
* `upload` reads on behind the data up to a zero byte.  Its reads are in the image
  when there is one from the pointer on, and for the internal EEPROM there always
  is (`program_safe`).  Whether there always is depends on the runs of the file
  (`program_scans`).

`outcome_invariant` is the rule for an invariant of the turns.
-/

namespace Clibcdc.PgmHex

open Clibcdc.Memory

/-! ## Faults -/

/-- The record says that it has no more data than the line buffer has behind its
head. -/
def SizeFits (line : LineBuffer) : Prop := PrepareMemBlock.declaredSize line ≤ 60

namespace PrepareMemBlock

theorem copyLowBytes_fault {line : LineBuffer} {next : Nat → Nat} {left cnt index : Nat}
    {memoryBlock : MemoryBlock} {fault : Fault}
    (h : copyLowBytes line next left cnt index memoryBlock = .error fault) :
    fault = .outOfRange := by
  induction left generalizing cnt index memoryBlock with
  | zero => cases h
  | succ left ih =>
    rw [copyLowBytes] at h
    rcases checked_bind_error h with hread | ⟨b, -, h⟩
    · unfold Block.checkedRead Memory.checkedRead at hread
      split at hread
      · cases hread
      · exact (Except.error.inj hread).symm
    · rcases checked_bind_error h with hwrite | ⟨memoryBlock', -, h⟩
      · unfold Block.checkedWrite at hwrite
        split_ifs at hwrite
        exact (Except.error.inj hwrite).symm
      · exact ih h

/-- A copy that may go on in the first half. -/
theorem copyLowBytes_nextIndex {line : LineBuffer} {left index : Nat} (hleft : left ≤ 30)
    (hindex : index < memoryBlockSize) (memoryBlock : MemoryBlock) :
    ∃ memoryBlock', copyLowBytes line nextIndex left 0 index memoryBlock = .ok memoryBlock' := by
  by_cases hshort : index + left ≤ memoryBlockSize
  · exact ⟨_, copyLowBytes_eq (fun i hi => if_neg (by omega)) (by omega) hshort memoryBlock⟩
  · obtain ⟨rest, rfl⟩ : ∃ rest, left = memoryBlockSize - index + rest :=
      ⟨left - (memoryBlockSize - index), by omega⟩
    exact ⟨_, copyLowBytes_wraps (by omega) (by omega) (by omega) memoryBlock⟩

theorem serialEepromRecord_fault {line : LineBuffer} {p : PrepareMemBlock} {fault : Fault}
    (h : serialEepromRecord line p = .error fault) : fault = .outOfRange ∧ ¬ SizeFits line := by
  unfold serialEepromRecord at h
  generalize (if p.memoryBlockNumber = 0 then p.openSerialEeprom else p) = p₁ at h
  by_cases hblock : p₁.memoryBlockNumber ≠ p₁.address / 32
  · simp only [if_pos hblock] at h
    cases h
  · simp only [if_neg hblock] at h
    rcases checked_bind_error h with hcopy | ⟨memoryBlock, -, hok⟩
    · refine ⟨copyLowBytes_fault hcopy, fun hsize => ?_⟩
      have hleft : (line.get 0).toNat / 2 ≤ 30 := Nat.div_le_of_le_mul hsize
      have hindex : p₁.address % 32 + 36 < 68 := by omega
      obtain ⟨memoryBlock, hok⟩ := copyLowBytes_nextIndex hleft hindex _
      cases hcopy.symm.trans hok
    · cases hok

theorem flashRecord_fault {maxAdr : Nat} {line : LineBuffer} {p : PrepareMemBlock} {fault : Fault}
    (h : flashRecord maxAdr line p = .error fault) : fault = .outOfRange ∧ ¬ SizeFits line := by
  unfold flashRecord at h
  dsimp only at h
  generalize (if p.address % 32 * 2 < 32 then p.address % 32 * 2 + 2 else
    p.address % 32 * 2 + 4) = destinationIndex at h
  have hcounter : (if p.address + (line.get 0).toNat / 2 > maxAdr then (maxAdr - p.address) * 2 else
      (line.get 0).toNat) ≤ (line.get 0).toNat := by
    split_ifs <;> omega
  generalize (if p.address + (line.get 0).toNat / 2 > maxAdr then (maxAdr - p.address) * 2 else
    (line.get 0).toNat) = dataCounter at h hcounter
  by_cases hlong : destinationIndex + dataCounter > memoryBlockSize
  · rw [if_pos hlong] at h
    cases h
  rw [if_neg hlong] at h
  by_cases hpending : p.memoryBlockNumber ≠ 0 ∧ p.memoryBlockNumber ≠ p.address / 32
  · rw [if_pos hpending] at h
    cases h
  rw [if_neg hpending] at h
  rcases checked_bind_error h with hcopy | ⟨memoryBlock, -, hok⟩
  · unfold Block.checkedCopy at hcopy
    split_ifs at hcopy with hrange
    refine ⟨(Except.error.inj hcopy).symm, fun hsize => hrange ⟨?_, Nat.le_of_not_gt hlong⟩⟩
    unfold SizeFits declaredSize at hsize
    show 4 + dataCounter ≤ 64
    omega
  · cases hok

theorem eepromRecord_fault {line : LineBuffer} {p : PrepareMemBlock} {fault : Fault}
    (h : eepromRecord line p = .error fault) : fault = .outOfRange ∧ ¬ SizeFits line := by
  unfold eepromRecord at h
  dsimp only at h
  generalize hblock : (p.memoryBlock.set 0 (UInt8.ofNat (p.address % 256))).set 1
    (UInt8.ofNat ((line.get 0).toNat / 2)) = memoryBlock at h
  by_cases hpending : p.memoryBlockNumber ≠ 0
  · rw [if_pos hpending] at h
    cases h
  rw [if_neg hpending] at h
  by_cases hrange : p.address + (memoryBlock.get 1).toNat > eepromMax ∨
      (memoryBlock.get 1).toNat > 32
  · rw [if_pos hrange] at h
    cases h
  rw [if_neg hrange] at h
  rcases checked_bind_error h with hcopy | ⟨memoryBlock', -, hok⟩
  · refine ⟨copyLowBytes_fault hcopy, fun hsize => ?_⟩
    have hcount : (memoryBlock.get 1).toNat ≤ 30 := by
      have hcell : memoryBlock.get 1 = UInt8.ofNat ((line.get 0).toNat / 2) := by
        rw [← hblock]
        exact Block.get_set _ 1 _
      unfold SizeFits declaredSize at hsize
      rw [hcell, UInt8.toNat_ofNat']
      omega
    have hok := @copyLowBytes_eq line (· + 1) (fun _ _ => rfl) (memoryBlock.get 1).toNat 0 2
      (by omega) (show 2 + (memoryBlock.get 1).toNat ≤ 68 by omega) memoryBlock
    cases hcopy.symm.trans hok
  · cases hok

/-- A record that makes an access out of range says that it has too many bytes. -/
theorem prepareRecord_fault {line : LineBuffer} {p : PrepareMemBlock} {fault : Fault}
    (h : p.prepareRecord line = .error fault) : fault = .outOfRange ∧ ¬ SizeFits line := by
  unfold prepareRecord dataRecord at h
  split_ifs at h
  · exact serialEepromRecord_fault h
  · exact flashRecord_fault h
  · exact flashRecord_fault h
  · exact eepromRecord_fault h

end PrepareMemBlock

/-! ## Packets -/

/-- The packet is for a write target of the example, and lies in the image. -/
structure Packet.Proper (packet : Packet) : Prop where
  target : packet.target ∈ [targetFlashW, targetEepromW, targetEeepromW]
  size : 2 ≤ packet.dlen ∧ packet.dlen ≤ 34
  array : packet.array.length = memoryBlockSize
  inside : packet.start + packet.dlen ≤ memoryBlockSize
  eeprom : packet.target = targetEepromW → 0 ∈ packet.block

theorem Packet.Proper.dlen_le {packet : Packet} (h : packet.Proper) :
    packet.dlen ≤ packet.block.length := by
  have hinside := h.inside
  rw [Packet.block, List.length_drop, h.array]
  omega

/-- The library has a command for the upload, and can spell it. -/
theorem Upload.sendable {upload : Upload} (htarget : upload.target &&& 0x80 ≠ 0)
    (hsize : upload.data.length < 255) :
    ∃ cmd, upload.operation.command = .ok cmd ∧ commandText cmd = .ok cmd.wire := by
  obtain ⟨target, data⟩ := upload
  have hcommand : (Operation.upload target data).command =
      .ok ⟨.msgUploadDownload, target :: data⟩ := by
    simp only [Operation.command, verifyUpload, if_neg htarget]
    rfl
  have hfits : ¬ (Command.mk .msgUploadDownload (target :: data)).TooLarge := by
    intro hlarge
    have hlong : 255 < (target :: data).length := hlarge.2
    have hshort : data.length < 255 := hsize
    rw [List.length_cons] at hlong
    omega
  exact ⟨_, hcommand, by rw [commandText_eq (command_constructible hcommand), if_neg hfits]⟩

theorem Packet.Proper.sendable {packet : Packet} (h : packet.Proper) :
    ∃ cmd, packet.upload.operation.command = .ok cmd ∧ commandText cmd = .ok cmd.wire := by
  apply Upload.sendable
  · show packet.target &&& 0x80 ≠ 0
    have hmem := h.target
    simp only [List.mem_cons, List.not_mem_nil, or_false] at hmem
    rcases hmem with htarget | htarget | htarget <;> rw [htarget] <;> decide
  · have hsize := h.size.2
    rw [Packet.upload, List.length_take]
    omega

/-- One half of an image is passed. -/
theorem Packet.Proper.half {target : Byte} (htarget : target ∈ [targetFlashW, targetEeepromW])
    {start : Nat} (hstart : start ≤ 34) (image : MemoryBlock) :
    Packet.Proper ⟨target, image.cells, start, 32 + 2⟩ where
  target := by
    simp only [List.mem_cons, List.not_mem_nil, or_false] at htarget ⊢
    exact htarget.imp_right .inr
  size := by simp
  array := image.size
  inside := by
    show start + 34 ≤ 68
    omega
  eeprom := by
    rintro rfl
    exact absurd htarget (by decide)

namespace PrepareMemBlock

theorem writePackets_proper {opResult : PgmResult} (hready : opResult.Ready) {state : Nat}
    {p : PrepareMemBlock}
    (hcount : opResult = .eepromBlockReady → (p.memoryBlock.get 1).toNat ≤ 32) :
    ∀ packet ∈ (p.writePackets opResult state).1, packet.Proper := by
  induction state generalizing p with
  | zero => simp [writePackets]
  | succ state ih =>
    have hsize : p.memoryBlock.cells.length = 68 := p.memoryBlock.size
    intro packet hpacket
    rw [writePackets] at hpacket
    rcases List.mem_cons.mp hpacket with rfl | hpacket
    · cases opResult with
      | success => exact absurd rfl hready.1
      | error => exact absurd rfl hready.2
      | flashBlockReady =>
        unfold writePacket
        dsimp only
        split_ifs
        · exact .half (by simp) (Nat.zero_le 34) _
        · exact .half (by simp) (Nat.le_refl 34) _
      | eeepromBlockReady => exact .half (by simp) (Nat.le_refl 34) _
      | eepromBlockReady =>
        have hcount := hcount rfl
        -- the number of bytes has been set to 0
        have hzero : (p.memoryBlock.set 1 0).cells[1]? = some 0 := by
          rw [Block.cells_set, List.getElem?_set_self (by omega)]
        refine ⟨by simp [writePacket], ?_, (p.memoryBlock.set 1 0).size, ?_,
          fun _ => List.mem_of_getElem? hzero⟩
        · simp only [writePacket]
          omega
        · simp only [writePacket]
          show 0 + ((p.memoryBlock.get 1).toNat + 2) ≤ 68
          omega
    · refine ih ?_ packet hpacket
      intro heeprom
      subst heeprom
      show (((p.memoryBlock.set 1 0).get 1)).toNat ≤ 32
      rw [show (p.memoryBlock.set 1 0).get 1 = 0 from Block.get_set _ 1 _]
      decide

end PrepareMemBlock

/-! ## The lines of a file -/

/-- The line buffer as it is, or as it is behind a line that is read later.  The
program goes on behind a byte 0, when there is an image left to write. -/
inductive LineSeen : HexReader → LineBuffer → Prop where
  | now (reader : HexReader) : LineSeen reader reader.codeLineBuffer
  | later {reader reader' : HexReader} {result : LineResult} {line : LineBuffer}
      (hread : iqrfPgmReadHEXFileLine reader = .ok (result, reader'))
      (hresult : result ≠ .fileDataError) (hline : LineSeen reader' line) : LineSeen reader line

/-- Each line of the file says that its data fit into the line buffer. -/
def SizesFit (file : UString) : Prop :=
  ∀ line, LineSeen (Programmer.start file).reader line → SizeFits line

namespace Programmer

variable {s s' : Programmer}

theorem prepareTurn_fault {fault : Fault} (h : s.prepareTurn = .error fault) :
    fault = .outOfRange ∧ ∃ line, LineSeen s.reader line ∧ ¬ SizeFits line := by
  have hrecord : ∀ p reader, turnRecord p reader = .error fault →
      fault = .outOfRange ∧ ¬ SizeFits reader.codeLineBuffer := by
    intro p reader hturn
    unfold turnRecord at hturn
    cases hprepare : p.prepareRecord reader.codeLineBuffer with
    | ok r =>
      rw [hprepare] at hturn
      cases hturn
    | error fault' =>
      rw [hprepare] at hturn
      obtain rfl := Except.error.inj hturn
      exact PrepareMemBlock.prepareRecord_fault hprepare
  cases s.prepareTurn_cases with
  | record hready hturn =>
    obtain ⟨hfault, hsize⟩ := hrecord _ _ (hturn.symm.trans h)
    exact ⟨hfault, _, .now s.reader, hsize⟩
  | brokenLine reader hready hread hturn => cases hturn.symm.trans h
  | endOfFile reader hready hread hturn => cases hturn.symm.trans h
  | line reader hready hread hturn =>
    obtain ⟨hfault, hsize⟩ := hrecord _ _ (hturn.symm.trans h)
    exact ⟨hfault, _, .later hread (by decide) (.now reader), hsize⟩

/-- A turn sees no new lines, unless it is the last. -/
theorem prepareTurn_lines {result : Option PgmResult} (h : s.prepareTurn = .ok (result, s'))
    (hresult : result ≠ some .error) {line : LineBuffer} (hline : LineSeen s'.reader line) :
    LineSeen s.reader line := by
  cases s.prepareTurn_cases with
  | record hready hturn =>
    obtain ⟨p', -, rfl⟩ := turnRecord_ok (hturn.symm.trans h)
    exact hline
  | brokenLine reader hready hread hturn =>
    obtain ⟨rfl, -⟩ := Prod.mk.inj (Except.ok.inj (hturn.symm.trans h))
    exact absurd rfl hresult
  | endOfFile reader hready hread hturn =>
    obtain ⟨-, rfl⟩ := Prod.mk.inj (Except.ok.inj (hturn.symm.trans h))
    exact .later hread (by decide) hline
  | line reader hready hread hturn =>
    obtain ⟨p', -, rfl⟩ := turnRecord_ok (hturn.symm.trans h)
    exact .later hread (by decide) hline

theorem prepareTurn_count (h : s.prepareTurn = .ok (some .eepromBlockReady, s')) :
    (s'.prepareMemBlock.memoryBlock.get 1).toNat ≤ 32 := by
  cases s.prepareTurn_cases with
  | record hready hturn =>
    obtain ⟨p', hrecord, rfl⟩ := turnRecord_ok (hturn.symm.trans h)
    exact (PrepareMemBlock.prepareRecord_turned hrecord).count
  | brokenLine reader hready hread hturn => cases hturn.symm.trans h
  | endOfFile reader hready hread hturn =>
    obtain ⟨hresult, -⟩ := Prod.mk.inj (Except.ok.inj (hturn.symm.trans h))
    have hresult := Option.some.inj hresult
    unfold PrepareMemBlock.endOfFile at hresult
    split_ifs at hresult
    exact absurd hresult s.prepareMemBlock.blockReady_ne
  | line reader hready hread hturn =>
    obtain ⟨p', hrecord, rfl⟩ := turnRecord_ok (hturn.symm.trans h)
    exact (PrepareMemBlock.prepareRecord_turned hrecord).count

theorem main_proper (file : UString) :
    (∀ packet ∈ (main file).1, packet.Proper) ∧
      ((main file).2 = .ok .success ∨ (main file).2 = .ok .error ∨
        (main file).2 = .error .outOfRange ∧ ¬ SizesFit file) := by
  rw [main_outcome]
  apply @outcome_invariant (fun s => SizesFit file → ∀ line, LineSeen s.reader line → SizeFits line)
    Packet.Proper
    (fun result => result = .ok .success ∨ result = .ok .error ∨
      result = .error .outOfRange ∧ ¬ SizesFit file)
  · intro s fault hinv hturn
    obtain ⟨rfl, line, hline, hsize⟩ := prepareTurn_fault hturn
    exact .inr (.inr ⟨rfl, fun hfile => hsize (hinv hfile line hline)⟩)
  · intro s opResult s' hinv hturn hready
    cases opResult with
    | success => exact .inl rfl
    | error => exact .inr (.inl rfl)
    | flashBlockReady => exact absurd (by decide) hready
    | eepromBlockReady => exact absurd (by decide) hready
    | eeepromBlockReady => exact absurd (by decide) hready
  · intro s s' hinv hturn hfile line hline
    exact hinv hfile line (prepareTurn_lines hturn (by simp) hline)
  · intro s opResult s' hinv hturn hready
    constructor
    · have hcount : opResult = .eepromBlockReady →
          (s'.prepareMemBlock.memoryBlock.get 1).toNat ≤ 32 := by
        intro heeprom
        subst heeprom
        exact prepareTurn_count hturn
      exact PrepareMemBlock.writePackets_proper hready hcount
    · intro hfile line hline
      have hresult : some opResult ≠ some .error := fun h => hready.2 (Option.some.inj h)
      exact hinv hfile line (prepareTurn_lines hturn hresult hline)
  · exact fun hfile => hfile

/-- For every file the program ends, and what it uploads are requests that the
library sends.  Each access that it makes is in range, unless a line says that it
has more than 60 bytes of data.  The reads of `upload` are in the image when there
is a zero byte from the pointer on, and only then: so they are for the internal
EEPROM. -/
theorem program_safe (file : UString) :
    (∀ packet ∈ (main file).1, packet.Proper ∧
      (∃ cmd, packet.upload.operation.command = .ok cmd ∧ commandText cmd = .ok cmd.wire) ∧
      ∀ platform schedule self,
        ((packet.call platform schedule self).Within packet.block.length ↔ 0 ∈ packet.block) ∧
        (0 ∈ packet.block → (packet.call platform schedule self).value =
          some (uploadString platform schedule self packet.target packet.upload.data))) ∧
      ((main file).2 = .ok .success ∨ (main file).2 = .ok .error ∨
        (main file).2 = .error .outOfRange ∧ ¬ SizesFit file) := by
  obtain ⟨hproper, hends⟩ := main_proper file
  refine ⟨fun packet hpacket => ?_, hends⟩
  have hpacket := hproper packet hpacket
  exact ⟨hpacket, hpacket.sendable, fun platform schedule self =>
    ⟨Packet.call_within hpacket.dlen_le platform schedule self,
      Packet.call_value hpacket.dlen_le platform schedule self⟩⟩

/-- A line that says that it has 61 bytes of data, and has none. -/
example : (main (ascii ":3D7400004F\n")).2 = .error .outOfRange := by decide +kernel

/-- A line with one word for the flash memory: no byte of its image is zero, and
both calls of `upload` read on behind it. -/
example : (main (ascii ":0274A0000A0BD5\n")).1.map (decide <| 0 ∈ ·.block) = [false, false] := by
  decide +kernel

/-- A HEX file whose records lie where the code can place them: the reads of all
its calls of `upload` are in the image when the last upload of each run has a zero
byte, and only then. -/
theorem program_scans {lines : List HexLine} {tail : UString}
    (hplaced : FileWellPlaced 0 (lines.map HexLine.record)) (htail : Skipped tail)
    (platform : Platform) (schedule : List SessionAction) (self : CDCImplPrivate) :
    (∀ packet ∈ (main (hexText lines tail)).1,
        (packet.call platform schedule self).Within packet.block.length) ↔
      ∀ run ∈ combiner.runs (filePieces 0 (lines.map HexLine.record)), ScanEnds run := by
  obtain ⟨hproper, -⟩ := main_proper (hexText lines tail)
  obtain ⟨packets, hmain, huploaded⟩ := main_runs hplaced htail
  rw [hmain] at hproper ⊢
  rw [← huploaded.zeros]
  exact forall₂_congr fun packet hpacket =>
    Packet.call_within (hproper packet hpacket).dlen_le platform schedule self

theorem program_scans_test :
    ((∀ packet ∈ (main (hexText testLines [0x0A])).1,
        (packet.call .linux [] (.init (.new Parser.listedOnly))).Within packet.block.length) ↔
      ∀ run ∈ combiner.runs (filePieces 0 testRecords), ScanEnds run) ∧
    ¬ ∀ run ∈ combiner.runs (filePieces 0 testRecords), ScanEnds run :=
  ⟨program_scans (by decide) (by decide) .linux [] (.init (.new Parser.listedOnly)), by decide⟩

end Programmer

end Clibcdc.PgmHex
