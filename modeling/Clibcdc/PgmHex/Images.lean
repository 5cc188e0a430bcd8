import Clibcdc.PgmHex.Records

/-!
# What an image holds

`Holds p run` says that the image of the program holds the pieces of a run, and
where it stands with them.  A record whose pieces go into the block of the image
extends the run (`flashRecord_joins`, `serialEepromRecord_joins`,
`serialEepromRecord_overflows`), and an image that is written is what its run is
to be uploaded as (`Holds.blockReady`).  `Uploaded` relates the packets of the
program to the runs that they carry.
-/

namespace Clibcdc.PgmHex

open Clibcdc.Memory

/-- The pieces go into one block. -/
def Joins (area : Area) (block : Nat) (run : List Piece) : Prop :=
  ∀ piece ∈ run, piece.area = area ∧ piece.block = block

theorem Joins.append {area : Area} {block : Nat} {run : List Piece} (h : Joins area block run)
    {piece : Piece} (harea : piece.area = area) (hblock : piece.block = block) :
    Joins area block (run ++ [piece]) := by
  intro piece' hpiece'
  rcases List.mem_append.mp hpiece' with hmem | hmem
  · exact h piece' hmem
  · obtain rfl := List.mem_singleton.mp hmem
    exact ⟨harea, hblock⟩

theorem imageOf_append (blank : UString) (run : List Piece) (piece : Piece) :
    imageOf blank (run ++ [piece]) = overwrite (imageOf blank run) piece.index piece.data := by
  rw [imageOf, List.foldl_append]
  rfl

theorem imageOf_length (blank : UString) (run : List Piece) :
    (imageOf blank run).length = blank.length := by
  induction run using List.reverseRecOn with
  | nil => rfl
  | append_singleton run piece ih => rw [imageOf_append, length_overwrite, ih]

namespace PrepareMemBlock

inductive Holds : PrepareMemBlock → List Piece → Prop where
  | blank {p : PrepareMemBlock} (hnumber : p.memoryBlockNumber = 0)
      (hoverflow : p.dataOverflow = false) (hcells : p.memoryBlock.cells = blankImage) : Holds p []
  | flash {p : PrepareMemBlock} {run : List Piece} {block : Nat} {first second : UString}
      (hrun : Joins .flash block run) (hne : run ≠ []) (hnumber : p.memoryBlockNumber = block)
      (hblock : 80 ≤ block) (hstate : p.memoryBlockProcessState = 2)
      (hoverflow : p.dataOverflow = false) (hfirst : first.length = 32)
      (hsecond : second.length = 32) (himage : imageOf Area.flash.blank run = first ++ second)
      (hcells : p.memoryBlock.cells = addressBytes (block * 32) ++ (first ++
        (addressBytes (block * 32 + 0x10) ++ second))) : Holds p run
  | serialEeprom {p : PrepareMemBlock} {run : List Piece} {block : Nat}
      (hrun : Joins .serialEeprom block run) (hne : run ≠ [])
      (hnumber : p.memoryBlockNumber = block + 16) (hblock : block < 64)
      (hstate : p.memoryBlockProcessState = 1) (hoverflow : p.dataOverflow = false)
      (hcells : p.memoryBlock.cells = addressBytes ((block + 1) * 32) ++ (List.replicate 32 0 ++
        (addressBytes (block * 32) ++ imageOf Area.serialEeprom.blank run))) : Holds p run
  /-- The image of the next block, in the place of the first half. -/
  | overflowed {p : PrepareMemBlock} {run : List Piece} {block : Nat} {rest : UString}
      (hrun : Joins .serialEeprom block run) (hne : run ≠ []) (hnumber : p.memoryBlockNumber = 0)
      (hblock : block < 64) (hoverflow : p.dataOverflow = true)
      (hcells : p.memoryBlock.cells = addressBytes (block * 32) ++
        (imageOf Area.serialEeprom.blank run ++ rest)) : Holds p run

theorem Holds.congr {p p' : PrepareMemBlock} {run : List Piece} (h : Holds p run)
    (hnumber : p'.memoryBlockNumber = p.memoryBlockNumber)
    (hstate : p'.memoryBlockProcessState = p.memoryBlockProcessState)
    (hoverflow : p'.dataOverflow = p.dataOverflow) (hblock : p'.memoryBlock = p.memoryBlock) :
    Holds p' run := by
  cases h with
  | blank hn ho hc => exact .blank (hnumber.trans hn) (hoverflow.trans ho) (hblock ▸ hc)
  | flash hrun hne hn hb hs ho hfirst hsecond himage hc =>
    exact .flash hrun hne (hnumber.trans hn) hb (hstate.trans hs) (hoverflow.trans ho) hfirst
      hsecond himage (hblock ▸ hc)
  | serialEeprom hrun hne hn hb hs ho hc =>
    exact .serialEeprom hrun hne (hnumber.trans hn) hb (hstate.trans hs) (hoverflow.trans ho)
      (hblock ▸ hc)
  | overflowed hrun hne hn hb ho hc =>
    exact .overflowed hrun hne (hnumber.trans hn) hb (hoverflow.trans ho) (hblock ▸ hc)

/-- What the last piece of an image is. -/
theorem Holds.last {p : PrepareMemBlock} {run : List Piece} (h : Holds p run)
    (hoverflow : p.dataOverflow = false) :
    (run = [] ∧ p.memoryBlockNumber = 0) ∨ ∃ piece, run.getLast? = some piece ∧
      ((piece.area = .flash ∧ piece.block = p.memoryBlockNumber ∧ 80 ≤ p.memoryBlockNumber) ∨
        (piece.area = .serialEeprom ∧ piece.block + 16 = p.memoryBlockNumber ∧
          p.memoryBlockNumber < 80)) := by
  have hlast : run ≠ [] → ∃ piece, run.getLast? = some piece ∧ piece ∈ run := fun hne =>
    ⟨run.getLast hne, List.getLast?_eq_some_getLast hne, List.getLast_mem hne⟩
  cases h with
  | blank hnumber => exact .inl ⟨rfl, hnumber⟩
  | flash hrun hne hnumber hblock =>
    obtain ⟨piece, hpiece, hmem⟩ := hlast hne
    obtain ⟨harea, hpieceBlock⟩ := hrun piece hmem
    exact .inr ⟨piece, hpiece, .inl ⟨harea, by omega, by omega⟩⟩
  | serialEeprom hrun hne hnumber hblock =>
    obtain ⟨piece, hpiece, hmem⟩ := hlast hne
    obtain ⟨harea, hpieceBlock⟩ := hrun piece hmem
    exact .inr ⟨piece, hpiece, .inr ⟨harea, by omega, by omega⟩⟩
  | overflowed _ _ _ _ hover => simp [hover] at hoverflow

/-! ## Moving what has overflowed -/

@[simp] theorem addressBytes_length (address : Nat) : (addressBytes address).length = 2 := rfl

theorem addressBytes_toNat {address : Nat} (h : address < 2 ^ 16) :
    ∃ low high : Byte, addressBytes address = [low, high] ∧
      high.toNat * 256 + low.toNat = address := by
  refine ⟨_, _, rfl, ?_⟩
  rw [UInt8.toNat_ofNat', UInt8.toNat_ofNat']
  omega

theorem moved_cells {block : MemoryBlock} {address image rest : UString}
    (haddress : address.length = 2) (himage : image.length = 32)
    (hcells : block.cells = address ++ (image ++ rest)) :
    ((block.overwrite 34 (block.cells.take 34)).overwrite 0 (List.replicate 34 0)).cells =
      List.replicate 34 0 ++ (address ++ image) := by
  have hsize := block.size
  rw [hcells, List.length_append, List.length_append] at hsize
  have hrest : rest.length = 34 := by
    have : memoryBlockSize = 68 := rfl
    omega
  have htake : block.cells.take 34 = address ++ image := by
    rw [hcells, ← List.append_assoc, List.take_left' (by simp [haddress, himage])]
  have hmoved : overwrite ((address ++ image) ++ (rest ++ [])) 34 (address ++ image) =
      (address ++ image) ++ ((address ++ image) ++ []) :=
    overwrite_part (by simp [haddress, himage]) (by simp [haddress, himage, hrest])
  rw [List.append_nil, List.append_nil, List.append_assoc] at hmoved
  rw [Block.cells_overwrite, Block.cells_overwrite, htake, hcells, hmoved]
  exact overwrite_first (by simp [haddress, himage]) _

/-- What has overflowed becomes the image. -/
theorem Holds.moved {p : PrepareMemBlock} {run : List Piece} (h : Holds p run)
    (hoverflow : p.dataOverflow = true) : Holds p.iqrfPgmMoveOverflowedData run := by
  cases h with
  | blank hnumber hno => simp [hno] at hoverflow
  | flash hrun hne hnumber hblock hstate hno => simp [hno] at hoverflow
  | serialEeprom hrun hne hnumber hblock hstate hno => simp [hno] at hoverflow
  | @overflowed _ block rest hrun hne hnumber hblock hover hcells =>
    have himage : (imageOf Area.serialEeprom.blank run).length = 32 := by
      rw [imageOf_length]
      rfl
    obtain ⟨low, high, haddress, hvalue⟩ := addressBytes_toNat (show block * 32 < 2 ^ 16 by omega)
    have hmoved := moved_cells (by rw [haddress]; rfl) himage hcells
    generalize hblock' : (p.memoryBlock.overwrite 34 (p.memoryBlock.cells.take 34)).overwrite 0
      (List.replicate 34 0) = memoryBlock at hmoved
    have hlow : memoryBlock.get 34 = low := Block.get_eq (by rw [hmoved, haddress]; rfl)
    have hhigh : memoryBlock.get 35 = high := Block.get_eq (by rw [hmoved, haddress]; rfl)
    have hnumber' :
        ((memoryBlock.get 35).toNat * 256 + (memoryBlock.get 34).toNat) / 32 = block := by
      rw [hlow, hhigh, hvalue]
      omega
    have hnext : (block + 1) * 32 % 2 ^ 16 = (block + 1) * 32 := by omega
    have hp : p.iqrfPgmMoveOverflowedData = { p with
        memoryBlockNumber := block + 0x10
        memoryBlock := memoryBlock.overwrite 0 (addressBytes ((block + 1) * 32))
        dataOverflow := false
        memoryBlockProcessState := 1 } := by
      simp only [iqrfPgmMoveOverflowedData, hblock', hnumber', hnext]
    rw [hp]
    refine .serialEeprom hrun hne rfl hblock rfl rfl ?_
    have hzeros : (List.replicate 34 0 : UString) =
        List.replicate 2 0 ++ List.replicate 32 0 := by decide
    show overwrite memoryBlock.cells 0 _ = _
    rw [hmoved, hzeros, List.append_assoc]
    exact overwrite_first (by simp) _

theorem Holds.locate {p : PrepareMemBlock} {run : List Piece} (h : Holds p run)
    (line : LineBuffer) : Holds (p.locate line) run := by
  have hlocated : Holds { p with address := recordAddress line p.hiAddress } run :=
    h.congr rfl rfl rfl rfl
  unfold PrepareMemBlock.locate
  dsimp only
  split_ifs with hoverflow
  · exact hlocated.moved hoverflow
  · exact hlocated

/-! ## Writing an image -/

theorem uploadsOf_flash {block : Nat} {run : List Piece} (hrun : Joins .flash block run)
    (hne : run ≠ []) :
    uploadsOf run =
      [⟨targetFlashW, addressBytes (block * 32) ++ (imageOf Area.flash.blank run).take 32⟩,
        ⟨targetFlashW, addressBytes (block * 32 + 0x10) ++
          (imageOf Area.flash.blank run).drop 32⟩] := by
  obtain ⟨piece, run, rfl⟩ := List.exists_cons_of_ne_nil hne
  obtain ⟨harea, hblock⟩ := hrun piece List.mem_cons_self
  simp only [uploadsOf, harea, hblock]

theorem uploadsOf_serialEeprom {block : Nat} {run : List Piece}
    (hrun : Joins .serialEeprom block run) (hne : run ≠ []) :
    uploadsOf run =
      [⟨targetEeepromW, addressBytes (block * 32) ++ imageOf Area.serialEeprom.blank run⟩] := by
  obtain ⟨piece, run, rfl⟩ := List.exists_cons_of_ne_nil hne
  obtain ⟨harea, hblock⟩ := hrun piece List.mem_cons_self
  simp only [uploadsOf, harea, hblock]

/-- The packets of runs: they ask for the images of the runs, and there is a zero
byte from each pointer on when the last upload of each run has one. -/
structure Uploaded (packets : List Packet) (runs : List (List Piece)) : Prop where
  uploads : packets.map Packet.upload = runs.flatMap uploadsOf
  zeros : (∀ packet ∈ packets, 0 ∈ packet.block) ↔ ∀ run ∈ runs, ScanEnds run

theorem Uploaded.nil : Uploaded [] [] := ⟨rfl, by simp⟩

theorem Uploaded.append {packets packets' : List Packet} {runs runs' : List (List Piece)}
    (h : Uploaded packets runs) (h' : Uploaded packets' runs') :
    Uploaded (packets ++ packets') (runs ++ runs') where
  uploads := by rw [List.map_append, List.flatMap_append, h.uploads, h'.uploads]
  zeros := by
    rw [List.forall_mem_append, List.forall_mem_append, h.zeros, h'.zeros]

theorem scanEnds_of_last {run : List Piece} (uploads : List Upload) {upload : Upload}
    (h : uploadsOf run = uploads ++ [upload]) : ScanEnds run ↔ 0 ∈ upload.data := by
  rw [ScanEnds, h, List.getLast?_concat]
  simp

/-- A run that is uploaded with one packet. -/
theorem Uploaded.one {packet : Packet} {run : List Piece} (hrun : uploadsOf run = [packet.upload])
    (hzero : 0 ∈ packet.block ↔ 0 ∈ packet.upload.data) : Uploaded [packet] [run] where
  uploads := by simp [hrun]
  zeros := by
    have hends : ScanEnds run ↔ 0 ∈ packet.upload.data := scanEnds_of_last [] hrun
    simp only [List.forall_mem_singleton, hends, hzero]

/-- A run that is uploaded with the two halves of an image. -/
theorem Uploaded.halves {target : Byte} {first second : UString} {run : List Piece}
    (hrun : uploadsOf run = [⟨target, first⟩, ⟨target, second⟩]) (hfirst : first.length = 34)
    (hsecond : second.length = 34) :
    Uploaded [⟨target, first ++ second, 0, 34⟩, ⟨target, first ++ second, 34, 34⟩] [run] where
  uploads := by
    simp only [List.map_cons, List.map_nil, Packet.upload, Packet.block, List.drop_zero,
      List.take_left' hfirst, List.drop_left' hfirst, List.take_of_length_le hsecond.le,
      List.flatMap_singleton, hrun]
  zeros := by
    have hends : ScanEnds run ↔ 0 ∈ second := scanEnds_of_last [⟨target, first⟩] hrun
    simp only [List.forall_mem_cons, List.not_mem_nil, false_imp_iff, implies_true, and_true,
      Packet.block, List.drop_zero, List.drop_left' hfirst, hends]
    exact ⟨And.right, fun hzero => ⟨List.mem_append_right first hzero, hzero⟩⟩

/-- An image of the serial EEPROM that is uploaded from its second half. -/
theorem Uploaded.secondHalf {target : Byte} {data : UString} {run : List Piece}
    (hrun : uploadsOf run = [⟨target, data⟩]) (hdata : data.length = 34) {before : UString}
    (hbefore : before.length = 34) : Uploaded [⟨target, before ++ data, 34, 34⟩] [run] := by
  have hblock : (Packet.mk target (before ++ data) 34 34).block = data := List.drop_left' hbefore
  have hupload : (Packet.mk target (before ++ data) 34 34).upload = ⟨target, data⟩ := by
    rw [Packet.upload, hblock]
    exact congrArg (Upload.mk target) (List.take_of_length_le hdata.le)
  exact .one (hrun.trans (by rw [hupload])) (by rw [hblock, hupload])

/-- An image that is kept back is uploaded as its run. -/
theorem Holds.blockReady {p : PrepareMemBlock} {run : List Piece} (h : Holds p run)
    (hne : run ≠ []) (hoverflow : p.dataOverflow = false) :
    ∃ packets, p.writePackets p.blockReady p.memoryBlockProcessState =
        (packets, { p with memoryBlockProcessState := 0 }) ∧ Uploaded packets [run] := by
  cases h with
  | blank => exact absurd rfl hne
  | @flash _ block first second hrun _ hnumber hblock hstate _ hfirst hsecond himage hcells =>
    have hready : p.blockReady = .flashBlockReady := if_neg (by omega)
    have huploads : uploadsOf run = [⟨targetFlashW, addressBytes (block * 32) ++ first⟩,
        ⟨targetFlashW, addressBytes (block * 32 + 0x10) ++ second⟩] := by
      rw [uploadsOf_flash hrun hne, himage, List.take_left' hfirst, List.drop_left' hfirst]
    have huploaded := Uploaded.halves huploads (by simp [hfirst]) (by simp [hsecond])
    rw [List.append_assoc, ← hcells] at huploaded
    rw [hready, hstate]
    exact ⟨_, rfl, huploaded⟩
  | @serialEeprom _ block hrun _ hnumber hblock hstate _ hcells =>
    have hready : p.blockReady = .eeepromBlockReady := if_pos (by omega)
    have himage : (imageOf Area.serialEeprom.blank run).length = 32 := imageOf_length _ run
    have huploaded := Uploaded.secondHalf (uploadsOf_serialEeprom hrun hne) (by simp [himage])
      (show (addressBytes ((block + 1) * 32) ++ List.replicate 32 0).length = 34 by simp)
    rw [List.append_assoc, ← hcells] at huploaded
    rw [hready, hstate]
    exact ⟨_, rfl, huploaded⟩
  | overflowed _ _ _ _ hover => simp [hover] at hoverflow

theorem Holds.enter {p : PrepareMemBlock} (hoverflow : p.dataOverflow = false) :
    Holds p.enter [] := by
  refine .blank rfl hoverflow ?_
  simp only [PrepareMemBlock.enter, hoverflow, Bool.false_eq_true, if_false, Block.cells_overwrite]
  exact overwrite_all (by rw [p.memoryBlock.size]; rfl)

/-! ## Records for the flash memory -/

/-- Where the bytes of a block lie in an image. -/
def flashIndex (index : Nat) : Nat := if index < 32 then index + 2 else index + 4

/-- A record that lies in one half of its block is waited with, or copied. -/
theorem flashRecord_eq {line : LineBuffer} {r : HexRecord} (hline : LineHolds line r)
    {p : PrepareMemBlock} {maxAdr : Nat} {data : UString}
    (hdata : HexRecord.flashData maxAdr p.address r.data = data)
    (hhalf : HexRecord.InHalf (p.address % 32 * 2) data.length) :
    flashRecord maxAdr line p =
      if p.memoryBlockNumber ≠ 0 ∧ p.memoryBlockNumber ≠ p.address / 32 then
        .ok (some p.blockReady, p)
      else .ok (none, { p with
        memoryBlockNumber := p.address / 32
        memoryBlockProcessState := 2
        memoryBlock :=
          ((p.memoryBlock.overwrite 0 (addressBytes (p.address / 32 * 32))).overwrite 34
            (addressBytes (p.address / 32 * 32 + 0x10))).overwrite
              (flashIndex (p.address % 32 * 2)) data
        dataInBufferReady := false }) := by
  have hfits := r.data_fits
  obtain ⟨rest, hbytes⟩ := hline.drop_data
  have hcounter : (if p.address + (line.get 0).toNat / 2 > maxAdr then (maxAdr - p.address) * 2 else
      (line.get 0).toNat) = data.length := by
    rw [hline.size, ← hdata, HexRecord.flashData]
    split_ifs
    · rw [List.length_take]
      omega
    · rfl
  have hle : data.length ≤ r.data.length := by
    rw [← hdata, HexRecord.flashData]
    split_ifs
    · exact List.length_take_le' _ _
    · exact Nat.le_refl _
  have hcopied : (line.cells.drop 4).take data.length = data := by
    rw [hbytes, List.take_append_of_le_length hle, ← hdata, HexRecord.flashData]
    split_ifs with hlong
    · rw [List.length_take, Nat.min_eq_left (by omega)]
    · rw [List.take_length]
  have hindex : flashIndex (p.address % 32 * 2) + data.length ≤ 68 := by
    unfold HexRecord.InHalf at hhalf
    unfold flashIndex
    split_ifs <;> omega
  have hflash : (if p.address % 32 * 2 < 32 then p.address % 32 * 2 + 2 else
      p.address % 32 * 2 + 4) = flashIndex (p.address % 32 * 2) := rfl
  unfold flashRecord
  simp only [hcounter, hflash]
  rw [if_neg (show ¬ flashIndex (p.address % 32 * 2) + data.length > 68 by omega)]
  split_ifs
  · rfl
  · have hread : 4 + data.length ≤ sizeOfCodeLineBuffer := by
      show 4 + data.length ≤ 64
      omega
    have hcopy := @Block.checkedCopy_eq _ _ _ _ Fault.outOfRange
      ((p.memoryBlock.overwrite 0 (addressBytes (p.address / 32 * 32))).overwrite 34
        (addressBytes (p.address / 32 * 32 + 0x10))) line (flashIndex (p.address % 32 * 2)) 4
          data.length hread hindex
    rw [hcopied] at hcopy
    rw [hcopy]
    rfl

/-- Both halves, with the bytes of a record over one of them. -/
theorem overwrite_half {x y first second data : UString} {index : Nat} (hx : x.length = 2)
    (hy : y.length = 2) (hfirst : first.length = 32) (hsecond : second.length = 32)
    (hindex : index < 64) (hhalf : HexRecord.InHalf index data.length) :
    ∃ first' second', first'.length = 32 ∧ second'.length = 32 ∧
      overwrite (first ++ second) index data = first' ++ second' ∧
      overwrite (x ++ (first ++ (y ++ second))) (flashIndex index) data =
        x ++ (first' ++ (y ++ second')) := by
  unfold HexRecord.InHalf at hhalf
  by_cases hlow : index < 32
  · refine ⟨overwrite first index data, second, by simp [hfirst], hsecond, ?_, ?_⟩
    · exact overwrite_append_left (by omega) second
    · rw [flashIndex, if_pos hlow, Nat.add_comm, ← hx, overwrite_append_right,
        overwrite_append_left (by omega)]
  · refine ⟨first, overwrite second (index - 32) data, hfirst, by simp [hsecond], ?_, ?_⟩
    · have hright := overwrite_append_right first second (index - 32) data
      rwa [hfirst, Nat.add_sub_cancel' (Nat.le_of_not_lt hlow)] at hright
    · have hright := overwrite_append_right (x ++ (first ++ y)) second (index - 32) data
      have hlength : (x ++ (first ++ y)).length + (index - 32) = flashIndex index := by
        simp only [List.length_append, hx, hfirst, hy, flashIndex, if_neg hlow]
        omega
      rw [hlength] at hright
      simpa using hright

/-- The image of a flash block, before its addresses are set. -/
theorem Holds.halves {p : PrepareMemBlock} {run : List Piece} (h : Holds p run)
    (hoverflow : p.dataOverflow = false) {block : Nat} (hblock : 80 ≤ block)
    (hnumber : p.memoryBlockNumber = 0 ∨ p.memoryBlockNumber = block) :
    Joins .flash block run ∧ ∃ x y first second, x.length = 2 ∧ y.length = 2 ∧
      first.length = 32 ∧ second.length = 32 ∧
      imageOf Area.flash.blank run = first ++ second ∧
      p.memoryBlock.cells = x ++ (first ++ (y ++ second)) := by
  cases h with
  | blank _ _ hcells =>
    refine ⟨by simp [Joins], [0xFF, 0x3F], [0xFF, 0x3F], (List.replicate 16 [0xFF, 0x3F]).flatten,
      (List.replicate 16 [0xFF, 0x3F]).flatten, rfl, rfl, rfl, rfl, by decide, ?_⟩
    rw [hcells]
    decide
  | @flash _ block' first second hrun _ hnumber' hblock' _ _ hfirst hsecond himage hcells =>
    obtain rfl : block' = block := by omega
    exact ⟨hrun, _, _, first, second, rfl, rfl, hfirst, hsecond, himage, hcells⟩
  | serialEeprom _ _ hnumber' hblock' => omega
  | overflowed _ _ _ _ hover => simp [hover] at hoverflow

/-- A record for the block of the image extends its run. -/
theorem flashRecord_joins {line : LineBuffer} {r : HexRecord} (hline : LineHolds line r)
    {p : PrepareMemBlock} {run : List Piece} (h : Holds p run) (hoverflow : p.dataOverflow = false)
    {maxAdr : Nat} (haddress : 80 ≤ p.address / 32)
    (hhalf : HexRecord.InHalf (p.address % 32 * 2)
      (HexRecord.flashData maxAdr p.address r.data).length)
    (hnumber : p.memoryBlockNumber = 0 ∨ p.memoryBlockNumber = p.address / 32) :
    Joins .flash (p.address / 32) run ∧ ∃ p', flashRecord maxAdr line p = .ok (none, p') ∧
      Holds p' (run ++ [HexRecord.flashPiece maxAdr p.address r.data]) ∧
      p'.dataInBufferReady = false ∧ p'.hiAddress = p.hiAddress := by
  obtain ⟨hjoins, x, y, first, second, hx, hy, hfirst, hsecond, himage, hcells⟩ :=
    h.halves hoverflow haddress hnumber
  have hnot : ¬ (p.memoryBlockNumber ≠ 0 ∧ p.memoryBlockNumber ≠ p.address / 32) := by omega
  obtain ⟨first', second', hfirst', hsecond', himage', hcells'⟩ :=
    @overwrite_half (addressBytes (p.address / 32 * 32)) (addressBytes (p.address / 32 * 32 + 0x10))
      first second (HexRecord.flashData maxAdr p.address r.data) (p.address % 32 * 2) rfl rfl hfirst
      hsecond (by omega) hhalf
  refine ⟨hjoins, _, (flashRecord_eq hline rfl hhalf).trans (if_neg hnot), ?_, rfl, rfl⟩
  refine .flash (hjoins.append rfl rfl) (by simp) rfl haddress rfl hoverflow hfirst' hsecond' ?_ ?_
  · rw [imageOf_append, himage]
    exact himage'
  · have hsecondAddress :
        overwrite (addressBytes (p.address / 32 * 32) ++ first ++ (y ++ second)) 34
          (addressBytes (p.address / 32 * 32 + 0x10)) =
        addressBytes (p.address / 32 * 32) ++ first ++
          (addressBytes (p.address / 32 * 32 + 0x10) ++ second) :=
      overwrite_part (by simp [hfirst]) (by simp [hy])
    rw [List.append_assoc, List.append_assoc] at hsecondAddress
    simp only [Block.cells_overwrite]
    rw [hcells, overwrite_first (by simp [hx]), hsecondAddress]
    exact hcells'

/-! ## Records for the serial EEPROM -/

theorem lowBytes_data {line : LineBuffer} {r : HexRecord} (hline : LineHolds line r) :
    (lineLowBytes line).take (r.data.length / 2) = lowBytes r.data := by
  obtain ⟨rest, hbytes⟩ := hline.drop_data
  rw [lineLowBytes, hbytes, lowBytes_take]

/-- The image of a block of the serial EEPROM, which may have just been begun. -/
def openedFor (p : PrepareMemBlock) : PrepareMemBlock :=
  if p.memoryBlockNumber = 0 then p.openSerialEeprom else p

/-- The image of a block of the serial EEPROM, and where it stands. -/
structure Opened (p q : PrepareMemBlock) (block : Nat) (run : List Piece) : Prop where
  joins : Joins .serialEeprom block run
  address : q.address = p.address
  hiAddress : q.hiAddress = p.hiAddress
  number : q.memoryBlockNumber = block + 16
  state : q.memoryBlockProcessState = 1
  overflow : q.dataOverflow = false
  cells : q.memoryBlock.cells = addressBytes ((block + 1) * 32) ++ (List.replicate 32 0 ++
    (addressBytes (block * 32) ++ imageOf Area.serialEeprom.blank run))

theorem Holds.opened {p : PrepareMemBlock} {run : List Piece} (h : Holds p run)
    (hoverflow : p.dataOverflow = false)
    (haddress : serialEepromMinAdr ≤ p.address ∧ p.address ≤ serialEepromMaxAdr)
    (hnumber : p.memoryBlockNumber = 0 ∨ p.memoryBlockNumber = p.address / 32) :
    Opened p p.openedFor ((p.address - serialEepromMinAdr) / 32) run := by
  obtain ⟨hmin, hmax⟩ := haddress
  unfold serialEepromMinAdr at hmin ⊢
  unfold serialEepromMaxAdr at hmax
  cases h with
  | blank hzero _ _ =>
    rw [openedFor, if_pos hzero]
    refine ⟨by simp [Joins], rfl, rfl, ?_, rfl, hoverflow, ?_⟩
    · show p.address / 32 = _
      omega
    · have hzeros : (Block.fill 0 : MemoryBlock).cells =
          List.replicate 2 0 ++ (List.replicate 32 0 ++ (List.replicate 2 0 ++
            List.replicate 32 0)) := by decide
      have hnext : (p.address - 0x200) / 32 * 32 + 0x20 = ((p.address - 0x200) / 32 + 1) * 32 := by
        omega
      have hsecond : overwrite ((List.replicate 2 0 ++ List.replicate 32 0) ++
          (List.replicate 2 0 ++ List.replicate 32 0)) 34
            (addressBytes ((p.address - 0x200) / 32 * 32)) =
          (List.replicate 2 0 ++ List.replicate 32 0) ++
            (addressBytes ((p.address - 0x200) / 32 * 32) ++ List.replicate 32 0) :=
        overwrite_part rfl (by simp)
      rw [List.append_assoc, List.append_assoc] at hsecond
      simp only [openSerialEeprom, Block.cells_overwrite]
      rw [hzeros, hsecond, hnext, overwrite_first (by simp)]
      rfl
  | flash _ _ hnumber' hblock => omega
  | @serialEeprom _ block hrun hne hnumber' hblock hstate _ hcells =>
    obtain rfl : block = (p.address - 0x200) / 32 := by omega
    have hopen : p.openedFor = p := if_neg (by omega)
    rw [hopen]
    exact ⟨hrun, rfl, rfl, hnumber', hstate, hoverflow, hcells⟩
  | overflowed _ _ _ _ hover => simp [hover] at hoverflow

/-- A record within the block of the image. -/
theorem serialEepromRecord_joins {line : LineBuffer} {r : HexRecord} (hline : LineHolds line r)
    {p : PrepareMemBlock} {run : List Piece} {block : Nat}
    (h : Opened p p.openedFor block run) (hblock : block < 64)
    (haddress : p.address / 32 = block + 16)
    (hfits : p.address % 32 + r.data.length / 2 ≤ 32) :
    ∃ p', serialEepromRecord line p = .ok (none, p') ∧
      Holds p' (run ++ [⟨.serialEeprom, block, p.address % 32, lowBytes r.data⟩]) ∧
      p'.dataInBufferReady = false ∧ p'.hiAddress = p.hiAddress := by
  have hdata := r.data_fits
  generalize hq : p.openedFor = q at h
  obtain ⟨hjoins, hqaddress, hqhi, hnumber, hstate, hoverflow, hcells⟩ := h
  have hcopy := @copyLowBytes_eq line nextIndex (fun i hi => if_neg (Nat.ne_of_lt hi))
    (r.data.length / 2) 0 (p.address % 32 + 36) (by omega)
    (show p.address % 32 + 36 + r.data.length / 2 ≤ 68 by omega) q.memoryBlock
  rw [List.drop_zero, lowBytes_data hline] at hcopy
  have hrecord : serialEepromRecord line p = .ok (none, { q with
      memoryBlock := q.memoryBlock.overwrite (p.address % 32 + 36) (lowBytes r.data)
      dataInBufferReady := false }) := by
    unfold openedFor at hq
    unfold serialEepromRecord
    simp only [hq, hqaddress]
    rw [if_neg (not_not_intro (hnumber.trans haddress.symm)), hline.size,
      if_neg (show ¬ p.address % 32 + 36 + r.data.length / 2 > 68 by omega), hcopy]
    simp only [checked_bind, hoverflow, ← hqaddress]
    rfl
  refine ⟨_, hrecord, ?_, rfl, hqhi⟩
  refine .serialEeprom (hjoins.append rfl rfl) (by simp) hnumber hblock hstate hoverflow ?_
  have hwrite := overwrite_append_right (addressBytes ((block + 1) * 32) ++ (List.replicate 32 0 ++
    addressBytes (block * 32))) (imageOf Area.serialEeprom.blank run) (p.address % 32)
      (lowBytes r.data)
  have hindex : (addressBytes ((block + 1) * 32) ++ (List.replicate 32 (0 : Byte) ++
      addressBytes (block * 32))).length + p.address % 32 = p.address % 32 + 36 := by
    simp
    omega
  rw [hindex] at hwrite
  simp only [List.append_assoc] at hwrite
  rw [Block.cells_overwrite, hcells, imageOf_append]
  exact hwrite

/-- A record that goes on in the next block: the image is to be written, and the
next one is kept in the place of the first half. -/
theorem serialEepromRecord_overflows {line : LineBuffer} {r : HexRecord}
    (hline : LineHolds line r) {p : PrepareMemBlock} {run : List Piece} {block : Nat}
    (h : Opened p p.openedFor block run) (haddress : p.address / 32 = block + 16)
    (hblock : block + 1 < 64) (hfits : 32 < p.address % 32 + r.data.length / 2) :
    ∃ p', serialEepromRecord line p = .ok (some .eeepromBlockReady, p') ∧
      Uploaded (p'.writePackets .eeepromBlockReady p'.memoryBlockProcessState).1
        [run ++ [⟨.serialEeprom, block, p.address % 32,
          (lowBytes r.data).take (32 - p.address % 32)⟩]] ∧
      Holds (p'.writePackets .eeepromBlockReady p'.memoryBlockProcessState).2.enter
        [⟨.serialEeprom, block + 1, 0, (lowBytes r.data).drop (32 - p.address % 32)⟩] ∧
      p'.dataInBufferReady = false ∧ p'.hiAddress = p.hiAddress := by
  have hdata := r.data_fits
  have hlow := lowBytes_length r.data
  generalize hq : p.openedFor = q at h
  obtain ⟨hjoins, hqaddress, hqhi, hnumber, hstate, hoverflow, hcells⟩ := h
  generalize hfirst : (lowBytes r.data).take (32 - p.address % 32) = first
  generalize hrest : (lowBytes r.data).drop (32 - p.address % 32) = rest
  have hrestLength : rest.length ≤ 32 := by
    rw [← hrest, List.length_drop]
    omega
  -- what the copy writes behind the image goes on in the first half
  have hcopy := @copyLowBytes_wraps line (32 - p.address % 32)
    (r.data.length / 2 - (32 - p.address % 32)) 0 (p.address % 32 + 36) (by omega)
    (show p.address % 32 + 36 + (32 - p.address % 32) = 68 by omega) (by omega) q.memoryBlock
  have hcount : 32 - p.address % 32 + (r.data.length / 2 - (32 - p.address % 32)) =
      r.data.length / 2 := by omega
  have hfirst' : (lineLowBytes line).take (32 - p.address % 32) = first := by
    rw [← hfirst, ← lowBytes_data hline, List.take_take, Nat.min_eq_left (by omega)]
  have hrest' : ((lineLowBytes line).drop (32 - p.address % 32)).take
      (r.data.length / 2 - (32 - p.address % 32)) = rest := by
    rw [← hrest, ← lowBytes_data hline, List.drop_take]
  rw [hcount, Nat.zero_add, List.drop_zero, hfirst', hrest'] at hcopy
  have hrecord : serialEepromRecord line p = .ok (some .eeepromBlockReady, { q with
      dataOverflow := true
      memoryBlock := (q.memoryBlock.overwrite (p.address % 32 + 36) first).overwrite 2 rest
      dataInBufferReady := false }) := by
    unfold openedFor at hq
    unfold serialEepromRecord
    simp only [hq, hqaddress]
    rw [if_neg (not_not_intro (hnumber.trans haddress.symm)), hline.size,
      if_pos (show p.address % 32 + 36 + r.data.length / 2 > 68 by omega), hcopy]
    simp only [checked_bind, ← hqaddress]
    rfl
  have hwrite := overwrite_append_right (addressBytes ((block + 1) * 32) ++ (List.replicate 32 0 ++
    addressBytes (block * 32))) (imageOf Area.serialEeprom.blank run) (p.address % 32) first
  have hindex : (addressBytes ((block + 1) * 32) ++ (List.replicate 32 (0 : Byte) ++
      addressBytes (block * 32))).length + p.address % 32 = p.address % 32 + 36 := by
    simp
    omega
  rw [hindex] at hwrite
  simp only [List.append_assoc] at hwrite
  have hnextImage : overwrite (addressBytes ((block + 1) * 32) ++ (List.replicate 32 0 ++
      (addressBytes (block * 32) ++
        overwrite (imageOf Area.serialEeprom.blank run) (p.address % 32) first))) (2 + 0) rest =
      addressBytes ((block + 1) * 32) ++ (overwrite (List.replicate 32 0) 0 rest ++
        (addressBytes (block * 32) ++
          overwrite (imageOf Area.serialEeprom.blank run) (p.address % 32) first)) := by
    have hright := overwrite_append_right (addressBytes ((block + 1) * 32)) (List.replicate 32 0 ++
      (addressBytes (block * 32) ++
        overwrite (imageOf Area.serialEeprom.blank run) (p.address % 32) first)) 0 rest
    rw [addressBytes_length] at hright
    rw [hright, overwrite_append_left (by simpa using hrestLength)]
  have hcells' : ((q.memoryBlock.overwrite (p.address % 32 + 36) first).overwrite 2 rest).cells =
      addressBytes ((block + 1) * 32) ++ (overwrite (List.replicate 32 0) 0 rest ++
        (addressBytes (block * 32) ++
          overwrite (imageOf Area.serialEeprom.blank run) (p.address % 32) first)) := by
    rw [Block.cells_overwrite, Block.cells_overwrite, hcells, hwrite]
    exact hnextImage
  have himage : (imageOf Area.serialEeprom.blank run).length = 32 := by
    rw [imageOf_length]
    rfl
  refine ⟨_, hrecord, ?_, ?_, rfl, hqhi⟩
  · have huploads : uploadsOf (run ++ [⟨.serialEeprom, block, p.address % 32, first⟩]) =
        [⟨targetEeepromW, addressBytes (block * 32) ++
          overwrite (imageOf Area.serialEeprom.blank run) (p.address % 32) first⟩] := by
      rw [uploadsOf_serialEeprom (hjoins.append rfl rfl) (by simp), imageOf_append]
    have huploaded := Uploaded.secondHalf huploads (by simp [himage])
      (show (addressBytes ((block + 1) * 32) ++ overwrite (List.replicate 32 0) 0 rest).length = 34
        by simp)
    rw [List.append_assoc, ← hcells'] at huploaded
    rw [hstate]
    exact huploaded
  · rw [hstate]
    exact .overflowed (by simp [Joins]) (by simp) rfl hblock rfl hcells'

theorem serialEepromRecord_waits {line : LineBuffer} {p : PrepareMemBlock}
    (hnumber : p.memoryBlockNumber ≠ 0) (hother : p.memoryBlockNumber ≠ p.address / 32) :
    serialEepromRecord line p = .ok (some p.blockReady, p) := by
  unfold serialEepromRecord
  simp only [if_neg hnumber, if_pos hother]

/-! ## Records for the internal EEPROM -/

/-- A record for the internal EEPROM, when no image is kept back. -/
theorem eepromRecord_fills {line : LineBuffer} {r : HexRecord} (hline : LineHolds line r)
    {p : PrepareMemBlock} (hnumber : p.memoryBlockNumber = 0) (hoverflow : p.dataOverflow = false)
    (hplaced : p.address + r.data.length / 2 ≤ eepromMax) :
    ∃ p', eepromRecord line p = .ok (some .eepromBlockReady, p') ∧
      Uploaded (p'.writePackets .eepromBlockReady p'.memoryBlockProcessState).1
        [[⟨.eeprom, p.address % 256, 0, lowBytes r.data⟩]] ∧
      p'.dataOverflow = false ∧ p'.dataInBufferReady = false ∧ p'.hiAddress = p.hiAddress := by
  have hdata := r.data_fits
  have hlow := lowBytes_length r.data
  -- the image begins with the address and the number of bytes
  have hsize : p.memoryBlock.cells.length = 68 := p.memoryBlock.size
  obtain ⟨a, b, cells, hcells⟩ : ∃ a b cells, p.memoryBlock.cells = a :: b :: cells := by
    rcases hcells : p.memoryBlock.cells with _ | ⟨a, _ | ⟨b, cells⟩⟩
    · simp [hcells] at hsize
    · simp [hcells] at hsize
    · exact ⟨a, b, cells, rfl⟩
  have hlength : cells.length = 66 := by simpa [hcells] using hsize
  generalize hblock : (p.memoryBlock.set 0 (UInt8.ofNat (p.address % 256))).set 1
    (UInt8.ofNat (r.data.length / 2)) = memoryBlock
  have hheader : memoryBlock.cells =
      UInt8.ofNat (p.address % 256) :: UInt8.ofNat (r.data.length / 2) :: cells := by
    rw [← hblock, Block.cells_set, Block.cells_set, hcells]
    rfl
  have hcount : (memoryBlock.get 1).toNat = r.data.length / 2 := by
    rw [Block.get_eq (show memoryBlock.cells[1]? = some _ by rw [hheader]; rfl), UInt8.toNat_ofNat']
    omega
  have hcopy := @copyLowBytes_eq line (· + 1) (fun _ _ => rfl) (r.data.length / 2) 0 2 (by omega)
    (show 2 + r.data.length / 2 ≤ 68 by omega) memoryBlock
  rw [List.drop_zero, lowBytes_data hline] at hcopy
  have hrecord : eepromRecord line p = .ok (some .eepromBlockReady, { p with
      memoryBlock := memoryBlock.overwrite 2 (lowBytes r.data)
      dataInBufferReady := false, memoryBlockProcessState := 1 }) := by
    unfold eepromRecord
    simp only [hline.size, hblock, hcount]
    rw [if_neg (not_not_intro hnumber), if_neg (by omega), hcopy]
    rfl
  refine ⟨_, hrecord, ?_, hoverflow, rfl, rfl⟩
  have hcells' : (memoryBlock.overwrite 2 (lowBytes r.data)).cells =
      UInt8.ofNat (p.address % 256) :: UInt8.ofNat (r.data.length / 2) ::
        (lowBytes r.data ++ cells.drop (lowBytes r.data).length) := by
    rw [Block.cells_overwrite, hheader, overwrite, overwrite, overwrite_front (by omega)]
  have hcount' : ((memoryBlock.overwrite 2 (lowBytes r.data)).get 1).toNat = r.data.length / 2 := by
    rw [Block.get_eq (show (memoryBlock.overwrite 2 (lowBytes r.data)).cells[1]? = some _ by
      rw [hcells']; rfl), UInt8.toNat_ofNat']
    omega
  have haddress : addressBytes (p.address % 256) = [UInt8.ofNat (p.address % 256), 0] := by
    have hmod : p.address % 256 % 256 = p.address % 256 := Nat.mod_mod _ _
    have hdiv : p.address % 256 / 256 = 0 := by omega
    rw [addressBytes, hmod, hdiv]
    rfl
  have harray : ((memoryBlock.overwrite 2 (lowBytes r.data)).set 1 0).cells =
      UInt8.ofNat (p.address % 256) :: 0 ::
        (lowBytes r.data ++ cells.drop (lowBytes r.data).length) := by
    rw [Block.cells_set, hcells']
    rfl
  rw [writePackets, writePacket]
  simp only [hcount']
  generalize hpacket : Packet.mk targetEepromW
    ((memoryBlock.overwrite 2 (lowBytes r.data)).set 1 0).cells 0 (r.data.length / 2 + 2) = packet
  have hblock : packet.block = UInt8.ofNat (p.address % 256) :: 0 ::
      (lowBytes r.data ++ cells.drop (lowBytes r.data).length) := by
    rw [← hpacket]
    exact harray
  have hupload : packet.upload =
      ⟨targetEepromW, addressBytes (p.address % 256) ++ lowBytes r.data⟩ := by
    rw [Packet.upload, hblock, haddress, ← hpacket, ← hlow]
    simp
  have hrun : uploadsOf [⟨.eeprom, p.address % 256, 0, lowBytes r.data⟩] = [packet.upload] := by
    rw [hupload]
    rfl
  refine Uploaded.one hrun ?_
  rw [hupload, hblock, haddress]
  simp

end PrepareMemBlock

end Clibcdc.PgmHex
