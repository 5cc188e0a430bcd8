import Clibcdc.Memory.Layout
import Clibcdc.PgmHex.Uploads

/-!
# What the module holds behind the uploads

The memory of the module has a cell for each byte.  The flash memory has two
bytes in each address, and the others have one.

* An upload begins with the address of its first byte.  What the module does with
  it is not in the repository: `Upload.cells` is what is assumed of it.
* A record sets the bytes from its address on (`HexRecord.cells`).
* A run of pieces is uploaded as the image of its block (`store_uploadsOf`), so
  what the file does not set in a block becomes blank.

`program_memory` puts these together: behind the uploads the module holds what
the file says, as long as the file does not come back to a block.
-/

namespace Clibcdc.PgmHex

open Clibcdc.Memory

/-! ## Cells -/

abbrev Cell := Area × Nat

/-- How many bytes a block has.  In the internal EEPROM each byte is on its own. -/
def Area.blockSize : Area → Nat
  | .flash => 64
  | .serialEeprom => 32
  | .eeprom => 1

/-- What the module is assumed to set for an upload: the bytes behind the
address. -/
def Upload.cells (upload : Upload) : List (Cell × Byte) :=
  match upload.data with
  | low :: high :: data =>
    let address := high.toNat * 256 + low.toNat
    if upload.target = targetFlashW then placed .flash (2 * address) data
    else if upload.target = targetEeepromW then placed .serialEeprom address data
    else if upload.target = targetEepromW then placed .eeprom address data
    else []
  | _ => []

namespace Piece

def start (piece : Piece) : Nat := piece.block * piece.area.blockSize

/-- How many bytes are written for a piece. -/
def extent (piece : Piece) : Nat :=
  if piece.area = .eeprom then piece.data.length else piece.area.blockSize

/-- The cell is written when the piece is. -/
def Covers (piece : Piece) (k : Cell) : Prop :=
  k.1 = piece.area ∧ piece.start ≤ k.2 ∧ k.2 < piece.start + piece.extent

instance (piece : Piece) : DecidablePred piece.Covers := fun k =>
  inferInstanceAs (Decidable
    (k.1 = piece.area ∧ piece.start ≤ k.2 ∧ k.2 < piece.start + piece.extent))

/-- The piece lies in its block, and the block has an address. -/
def Fits (piece : Piece) : Prop :=
  piece.index + piece.data.length ≤ piece.extent ∧ piece.block < 2 ^ 11

end Piece

def blankCell (k : Cell) : Byte := (k.1.blank[k.2 % k.1.blockSize]?).getD 0

def pieceLayout : Layout Piece Cell Byte where
  cells piece := placed piece.area (piece.start + piece.index) piece.data
  block piece := {k | piece.Covers k}
  blank := blankCell

theorem pieceLayout_within {piece : Piece} (h : piece.Fits) : pieceLayout.Within piece := by
  intro w hw
  obtain ⟨harea, hlow, hhigh⟩ := mem_placed hw
  have hfits := h.1
  exact ⟨harea, by omega, by omega⟩

/-! ## What a record sets -/

namespace HexRecord

/-- The bytes that data set from a word address on. -/
def dataCells (address : Nat) (data : UString) : List (Cell × Byte) :=
  if serialEepromMinAdr ≤ address ∧ address ≤ serialEepromMaxAdr then
    placed .serialEeprom (address - serialEepromMinAdr) (lowBytes data)
  else if iqrfMainMemMinAdr ≤ address ∧ address ≤ iqrfMainMemMaxAdr then
    placed .flash (2 * address) (flashData iqrfMainMemMaxAdr address data)
  else if iqrfLicencedMemMinAdr ≤ address ∧ address ≤ iqrfLicencedMemMaxAdr then
    placed .flash (2 * address) (flashData iqrfLicencedMemMaxAdr address data)
  else if eepromMin ≤ address ∧ address ≤ eepromMax then
    placed .eeprom (address - eepromMin) (lowBytes data)
  else []

def cells (hiAddress : Nat) (r : HexRecord) : List (Cell × Byte) :=
  if r.type = 0 then dataCells (r.wordAddress hiAddress) r.data else []

theorem serialEepromPieces_cells {address : Nat} (haddress : serialEepromMinAdr ≤ address)
    (data : UString) :
    (serialEepromPieces address data).flatMap pieceLayout.cells =
      placed .serialEeprom (address - serialEepromMinAdr) data := by
  unfold serialEepromMinAdr at haddress ⊢
  have hstart : (address - 0x200) / 32 * 32 + address % 32 = address - 0x200 := by omega
  have hsplit : data.take (32 - address % 32) ++ data.drop (32 - address % 32) = data :=
    List.take_append_drop _ _
  unfold serialEepromPieces serialEepromMinAdr
  dsimp only
  split_ifs with hrest
  · rw [hrest, List.append_nil] at hsplit
    rw [hsplit]
    simp [pieceLayout, Piece.start, Area.blockSize, hstart]
  · have hlong : 32 - address % 32 < data.length := by
      by_contra hshort
      exact hrest (List.drop_eq_nil_of_le (by omega))
    have hnext : address - 0x200 + (data.take (32 - address % 32)).length =
        ((address - 0x200) / 32 + 1) * 32 + 0 := by
      rw [List.length_take]
      omega
    conv_rhs => rw [← hsplit, placed_append, hnext]
    simp [pieceLayout, Piece.start, Area.blockSize, hstart]

theorem flashPiece_cells (maxAdr address : Nat) (data : UString) :
    pieceLayout.cells (flashPiece maxAdr address data) =
      placed .flash (2 * address) (flashData maxAdr address data) := by
  have hstart : address / 32 * 64 + address % 32 * 2 = 2 * address := by omega
  simp [pieceLayout, flashPiece, Piece.start, Area.blockSize, hstart]

/-- The pieces of a record set what the record sets. -/
theorem pieces_cells (hiAddress : Nat) (r : HexRecord) :
    (r.pieces hiAddress).flatMap pieceLayout.cells = r.cells hiAddress := by
  unfold pieces cells
  split_ifs
  · generalize r.wordAddress hiAddress = address
    unfold dataPieces dataCells
    split_ifs with hserial hmain hlicenced heeprom
    · exact serialEepromPieces_cells hserial.1 _
    · rw [List.flatMap_singleton, flashPiece_cells]
    · rw [List.flatMap_singleton, flashPiece_cells]
    · unfold eepromMin eepromMax at heeprom
      have hstart : address % 256 = address - eepromMin := by
        unfold eepromMin
        omega
      simp [pieceLayout, Piece.start, Area.blockSize, hstart]
    · rfl
  · rfl

/-! ## The pieces fit -/

theorem lowBytes_length_le (r : HexRecord) : (lowBytes r.data).length ≤ 29 := by
  have hfits := r.data_fits
  rw [lowBytes_length]
  omega

theorem serialEepromPieces_fit {address : Nat} (hlow : serialEepromMinAdr ≤ address)
    (hhigh : address ≤ serialEepromMaxAdr) {data : UString} (hdata : data.length ≤ 32) :
    ∀ piece ∈ serialEepromPieces address data, piece.Fits := by
  unfold serialEepromMinAdr at hlow
  unfold serialEepromMaxAdr at hhigh
  have hfirst : Piece.Fits ⟨.serialEeprom, (address - serialEepromMinAdr) / 32, address % 32,
      data.take (32 - address % 32)⟩ := by
    unfold serialEepromMinAdr
    refine ⟨?_, by dsimp only; omega⟩
    have hlength := List.length_take_le (32 - address % 32) data
    show address % 32 + (data.take (32 - address % 32)).length ≤ 32
    omega
  have hsecond : Piece.Fits ⟨.serialEeprom, (address - serialEepromMinAdr) / 32 + 1, 0,
      data.drop (32 - address % 32)⟩ := by
    unfold serialEepromMinAdr
    refine ⟨?_, by dsimp only; omega⟩
    show 0 + (data.drop (32 - address % 32)).length ≤ 32
    rw [List.length_drop]
    omega
  intro piece hpiece
  unfold serialEepromPieces at hpiece
  dsimp only at hpiece
  split_ifs at hpiece
  · rw [List.mem_singleton.mp hpiece]
    exact hfirst
  · rcases List.mem_cons.mp hpiece with rfl | hpiece
    · exact hfirst
    · rw [List.mem_singleton.mp hpiece]
      exact hsecond

theorem flashPiece_fits {maxAdr address : Nat} {data : UString} (haddress : address < 2 ^ 16)
    (hhalf : InHalf (address % 32 * 2) (flashData maxAdr address data).length) :
    (flashPiece maxAdr address data).Fits := by
  unfold InHalf at hhalf
  refine ⟨?_, ?_⟩
  · show address % 32 * 2 + (flashData maxAdr address data).length ≤ 64
    omega
  · show address / 32 < 2 ^ 11
    omega

theorem pieces_fit {hiAddress : Nat} {r : HexRecord} (hplaced : r.WellPlaced hiAddress) :
    ∀ piece ∈ r.pieces hiAddress, piece.Fits := by
  have haddress : r.wordAddress hiAddress < 2 ^ 16 := Nat.mod_lt _ (by decide)
  have hlow := r.lowBytes_length_le
  unfold WellPlaced at hplaced
  unfold pieces
  split_ifs with htype
  · rw [if_pos htype] at hplaced
    dsimp only at hplaced
    generalize r.wordAddress hiAddress = address at haddress hplaced ⊢
    unfold dataPieces
    split_ifs with hserial hmain hlicenced heeprom
    · exact serialEepromPieces_fit hserial.1 hserial.2 (by omega)
    · rw [if_neg hserial, if_pos hmain] at hplaced
      intro piece hpiece
      rw [List.mem_singleton.mp hpiece]
      exact flashPiece_fits haddress hplaced
    · rw [if_neg hserial, if_neg hmain, if_pos hlicenced] at hplaced
      intro piece hpiece
      rw [List.mem_singleton.mp hpiece]
      exact flashPiece_fits haddress hplaced
    · intro piece hpiece
      rw [List.mem_singleton.mp hpiece]
      refine ⟨?_, ?_⟩
      · show 0 + (lowBytes r.data).length ≤ (lowBytes r.data).length
        omega
      · show address % 256 < 2 ^ 11
        omega
    · simp
  · simp

end HexRecord

/-- What the records of a file set. -/
def fileCells (hiAddress : Nat) : List HexRecord → List (Cell × Byte)
  | [] => []
  | r :: records => r.cells hiAddress ++ fileCells (r.nextHiAddress hiAddress) records

theorem filePieces_cells (hiAddress : Nat) (records : List HexRecord) :
    (filePieces hiAddress records).flatMap pieceLayout.cells = fileCells hiAddress records := by
  induction records generalizing hiAddress with
  | nil => rfl
  | cons r records ih => rw [filePieces, List.flatMap_append, HexRecord.pieces_cells, ih, fileCells]

theorem filePieces_fit {hiAddress : Nat} {records : List HexRecord}
    (hplaced : FileWellPlaced hiAddress records) :
    ∀ piece ∈ filePieces hiAddress records, piece.Fits := by
  induction records generalizing hiAddress with
  | nil => simp [filePieces]
  | cons r records ih =>
    obtain ⟨hrecord, hrest⟩ := hplaced
    intro piece hpiece
    rcases List.mem_append.mp hpiece with hpiece | hpiece
    · exact HexRecord.pieces_fit hrecord piece hpiece
    · exact ih hrest piece hpiece

/-! ## What an image sets -/

theorem lastWrite_imageOf {area : Area} {block : Nat} {run : List Piece}
    (hrun : Joins area block run) {n : Nat} (hlow : block * area.blockSize ≤ n)
    (hhigh : n < block * area.blockSize + area.blank.length) :
    lastWrite (placed area (block * area.blockSize) (imageOf area.blank run)) (area, n) =
      (lastWrite (run.flatMap pieceLayout.cells) (area, n)).or
        (area.blank[n - block * area.blockSize]?) := by
  induction run using List.reverseRecOn with
  | nil =>
    rw [lastWrite_placed, if_pos hlow]
    rfl
  | append_singleton run piece ih =>
    obtain ⟨harea, hblock⟩ := hrun piece (by simp)
    have hstart : pieceLayout.cells piece =
        placed area (block * area.blockSize + piece.index) piece.data := by
      rw [← harea, ← hblock]
      rfl
    have hbefore := ih fun piece hpiece => hrun piece (List.mem_append_left _ hpiece)
    rw [lastWrite_placed, if_pos hlow] at hbefore
    rw [imageOf_append, lastWrite_overwrite _ _ _ _ _ hlow (by rwa [imageOf_length]), hbefore,
      List.flatMap_append, List.flatMap_singleton, lastWrite_append, hstart, Option.or_assoc]

theorem joins_covers {area : Area} {block : Nat} {run : List Piece} (hrun : Joins area block run)
    (hne : run ≠ []) (harea : area ≠ .eeprom) (k : Cell) :
    k ∈ pieceLayout.covers run ↔ k.1 = area ∧ block * area.blockSize ≤ k.2 ∧
      k.2 < block * area.blockSize + area.blockSize := by
  have hpiece : ∀ piece ∈ run, k ∈ pieceLayout.block piece ↔ k.1 = area ∧
      block * area.blockSize ≤ k.2 ∧ k.2 < block * area.blockSize + area.blockSize := by
    intro piece hpiece
    obtain ⟨rfl, rfl⟩ := hrun piece hpiece
    show piece.Covers k ↔ _
    rw [Piece.Covers, Piece.start, Piece.extent, if_neg harea]
  constructor
  · intro h
    obtain ⟨piece, hmem, hk⟩ := h
    exact (hpiece piece hmem).mp hk
  · intro h
    exact ⟨run.head hne, List.head_mem hne, (hpiece _ (List.head_mem hne)).mpr h⟩

/-- The image of a run, written from the start of its block on. -/
theorem store_image {area : Area} {block : Nat} {run : List Piece} (hrun : Joins area block run)
    (hne : run ≠ []) (harea : area ≠ .eeprom) (memory : Cell → Byte) :
    store memory (placed area (block * area.blockSize) (imageOf area.blank run)) =
      pieceLayout.writeRun memory run := by
  have hblank : area.blank.length = area.blockSize := by
    cases area with
    | flash => rfl
    | serialEeprom => rfl
    | eeprom => exact absurd rfl harea
  have hcovers := joins_covers hrun hne harea
  funext k
  obtain ⟨area', n⟩ := k
  unfold store Layout.writeRun
  by_cases hk : (area', n) ∈ pieceLayout.covers run
  · rw [if_pos hk]
    obtain ⟨harea', hlow, hhigh⟩ := (hcovers _).mp hk
    dsimp only at harea' hlow hhigh
    subst harea'
    have hindex : n % area'.blockSize = n - block * area'.blockSize := by
      have hsub : n - block * area'.blockSize < area'.blockSize := by omega
      rw [← Nat.mod_eq_of_lt hsub, Nat.mul_comm, Nat.sub_mul_mod (by rwa [Nat.mul_comm])]
    have hcell : n - block * area'.blockSize < area'.blank.length := by omega
    rw [lastWrite_imageOf hrun hlow (by omega), Layout.image]
    show _ = (lastWrite _ _).getD (blankCell _)
    rw [blankCell, hindex, List.getElem?_eq_getElem hcell]
    cases lastWrite (run.flatMap pieceLayout.cells) (area', n) <;> rfl
  · rw [if_neg hk, lastWrite_eq_none, Option.getD_none]
    intro w hw hwk
    obtain ⟨hw₁, hlow, hhigh⟩ := mem_placed hw
    rw [imageOf_length, hblank] at hhigh
    rw [hwk] at hw₁ hlow hhigh
    exact hk ((hcovers _).mpr ⟨hw₁, hlow, hhigh⟩)

/-- A piece that stands alone sets what is written for it. -/
theorem store_piece {piece : Piece} (harea : piece.area = .eeprom) (hindex : piece.index = 0)
    (memory : Cell → Byte) :
    store memory (pieceLayout.cells piece) = pieceLayout.writeRun memory [piece] := by
  have hcovers : ∀ k, k ∈ pieceLayout.covers [piece] ↔ piece.Covers k := by
    intro k
    simp [Layout.covers, pieceLayout]
  have hcells : pieceLayout.cells piece = placed piece.area piece.start piece.data := by
    show placed piece.area (piece.start + piece.index) piece.data = _
    rw [hindex, Nat.add_zero]
  funext k
  unfold store Layout.writeRun Layout.image
  rw [List.flatMap_singleton]
  by_cases hk : k ∈ pieceLayout.covers [piece]
  · rw [if_pos hk]
    obtain ⟨area, n⟩ := k
    obtain ⟨rfl, hlow, hhigh⟩ := (hcovers _).mp hk
    rw [Piece.extent, if_pos harea] at hhigh
    dsimp only at hlow hhigh
    rw [hcells, lastWrite_placed, if_pos hlow, List.getElem?_eq_getElem (by omega)]
    rfl
  · rw [if_neg hk, lastWrite_eq_none, Option.getD_none]
    intro w hw hwk
    rw [hcells] at hw
    obtain ⟨hw₁, hlow, hhigh⟩ := mem_placed hw
    rw [hwk] at hw₁ hlow hhigh
    refine hk ((hcovers _).mpr ⟨hw₁, hlow, ?_⟩)
    rwa [Piece.extent, if_pos harea]

/-! ## What the uploads set -/

theorem upload_cells (target : Byte) {address : Nat} (h : address < 2 ^ 16) (data : UString) :
    Upload.cells ⟨target, addressBytes address ++ data⟩ =
      if target = targetFlashW then placed .flash (2 * address) data
      else if target = targetEeepromW then placed .serialEeprom address data
      else if target = targetEepromW then placed .eeprom address data
      else [] := by
  obtain ⟨low, high, hbytes, hvalue⟩ := PrepareMemBlock.addressBytes_toNat h
  rw [hbytes, ← hvalue]
  rfl

/-- The pieces of a run go into one block. -/
theorem run_joins {pieces run : List Piece} (hrun : run ∈ combiner.runs pieces) :
    run ≠ [] ∧ ((∃ piece, run = [piece] ∧ piece.area = .eeprom) ∨
      ∃ area block, area ≠ .eeprom ∧ Joins area block run) := by
  have hne : run ≠ [] := by
    rintro rfl
    exact List.nil_notMem_splitBy _ _ hrun
  refine ⟨hne, ?_⟩
  obtain ⟨piece, run, rfl⟩ := List.exists_cons_of_ne_nil hne
  have hchain := List.isChain_of_mem_splitBy hrun
  by_cases harea : piece.area = .eeprom
  · refine .inl ⟨piece, ?_, harea⟩
    cases run with
    | nil => rfl
    | cons next run =>
      rw [List.isChain_cons_cons] at hchain
      rw [combiner.joins_of_alone (.inl (decide_eq_true harea))] at hchain
      exact absurd hchain.1 (by decide)
  · refine .inr ⟨piece.area, piece.block, harea, ?_⟩
    clear hrun hne
    induction run generalizing piece with
    | nil =>
      intro piece' hpiece'
      rw [List.mem_singleton.mp hpiece']
      exact ⟨rfl, rfl⟩
    | cons next run ih =>
      rw [List.isChain_cons_cons] at hchain
      obtain ⟨hareas, hblocks, -⟩ := of_decide_eq_true hchain.1
      intro piece' hpiece'
      rcases List.mem_cons.mp hpiece' with rfl | hpiece'
      · exact ⟨rfl, rfl⟩
      · rw [hareas, hblocks]
        exact ih next hchain.2 (hareas ▸ harea) piece' hpiece'

/-- What a run is uploaded as sets what the run writes. -/
theorem store_uploadsOf {pieces run : List Piece} (hrun : run ∈ combiner.runs pieces)
    (hfits : ∀ piece ∈ run, piece.Fits) (memory : Cell → Byte) :
    store memory ((uploadsOf run).flatMap Upload.cells) = pieceLayout.writeRun memory run := by
  obtain ⟨hne, hkind⟩ := run_joins hrun
  rcases hkind with ⟨piece, rfl, harea⟩ | ⟨area, block, harea, hjoins⟩
  · have huploads : uploadsOf [piece] =
        [⟨targetEepromW, addressBytes piece.block ++ piece.data⟩] := by
      simp only [uploadsOf, harea]
    have hblock := (hfits piece (by simp)).2
    have hindex : piece.index = 0 := by
      have hindex := (hfits piece (by simp)).1
      rw [Piece.extent, if_pos harea] at hindex
      omega
    have hstart : piece.start = piece.block := by
      rw [Piece.start, harea]
      exact Nat.mul_one _
    rw [← store_piece harea hindex, huploads, List.flatMap_singleton, upload_cells _ (by omega),
      if_neg (by decide), if_neg (by decide), if_pos rfl, ← harea]
    congr 1
    show _ = placed piece.area (piece.start + piece.index) piece.data
    rw [hstart, hindex, Nat.add_zero]
  · have hblock : block < 2 ^ 11 := by
      obtain ⟨piece, hpiece⟩ := List.exists_mem_of_ne_nil run hne
      rw [← (hjoins piece hpiece).2]
      exact (hfits piece hpiece).2
    rw [← store_image hjoins hne harea]
    congr 1
    cases area with
    | eeprom => exact absurd rfl harea
    | serialEeprom =>
      rw [PrepareMemBlock.uploadsOf_serialEeprom hjoins hne, List.flatMap_singleton,
        upload_cells _ (by omega)]
      rfl
    | flash =>
      have hhalf : ((imageOf Area.flash.blank run).take 32).length = 32 := by
        rw [List.length_take, imageOf_length]
        rfl
      have hstart : 2 * (block * 32 + 0x10) = 2 * (block * 32) + 32 := by omega
      have hstart' : 2 * (block * 32) = block * Area.flash.blockSize := by
        show _ = block * 64
        omega
      rw [PrepareMemBlock.uploadsOf_flash hjoins hne]
      simp only [List.flatMap_cons, List.flatMap_nil, List.append_nil]
      rw [upload_cells _ (by omega), upload_cells _ (by omega), if_pos rfl, if_pos rfl, hstart]
      conv_rhs => rw [← List.take_append_drop 32 (imageOf Area.flash.blank run)]
      rw [placed_append, hhalf, hstart']

/-! ## What the file says -/

/-- The two runs have no block in common, but for bytes of the internal EEPROM. -/
def Apart (run run' : List Piece) : Prop :=
  ∀ piece ∈ run, ∀ piece' ∈ run', piece.area = piece'.area → piece.block = piece'.block →
    piece.area = .eeprom

/-- The file does not come back to a block behind pieces of another one. -/
def BlocksOnce (pieces : List Piece) : Prop := (combiner.runs pieces).Pairwise Apart

instance (run run' : List Piece) : Decidable (Apart run run') :=
  inferInstanceAs (Decidable (∀ piece ∈ run, ∀ piece' ∈ run', piece.area = piece'.area →
    piece.block = piece'.block → piece.area = .eeprom))

instance (pieces : List Piece) : Decidable (BlocksOnce pieces) :=
  inferInstanceAs (Decidable ((combiner.runs pieces).Pairwise Apart))

theorem covers_block {piece : Piece} (harea : piece.area ≠ .eeprom) {k : Cell}
    (h : piece.Covers k) : piece.block = k.2 / piece.area.blockSize := by
  obtain ⟨-, hlow, hhigh⟩ := h
  rw [Piece.extent, if_neg harea] at hhigh
  unfold Piece.start at hlow hhigh
  exact (Nat.div_eq_of_lt_le hlow (by rwa [Nat.add_one_mul])).symm

theorem renews_of_apart {run run' : List Piece} (hfits : ∀ piece ∈ run', piece.Fits)
    (h : Apart run run') : pieceLayout.Renews run run' := by
  intro k hk hk'
  obtain ⟨piece, hpiece, hcovers⟩ := hk
  obtain ⟨piece', hpiece', hcovers'⟩ := hk'
  have hcovers : piece.Covers k := hcovers
  have hcovers' : piece'.Covers k := hcovers'
  have hareas : piece.area = piece'.area := hcovers.1.symm.trans hcovers'.1
  have harea : piece'.area = .eeprom := by
    by_contra hother
    refine hother (hareas ▸ h piece hpiece piece' hpiece' hareas ?_)
    rw [covers_block (hareas ▸ hother) hcovers, covers_block hother hcovers', hareas]
  apply lastWrite_flatMap_ne_none hpiece'
  obtain ⟨area, n⟩ := k
  obtain ⟨harea', hlow, hhigh⟩ := hcovers'
  dsimp only at harea' hlow hhigh
  subst harea'
  have hfit := (hfits piece' hpiece').1
  rw [Piece.extent, if_pos harea] at hfit hhigh
  have hindex : piece'.index = 0 := by omega
  show lastWrite (placed piece'.area (piece'.start + piece'.index) piece'.data) _ ≠ none
  rw [hindex, Nat.add_zero, lastWrite_placed, if_pos hlow, List.getElem?_eq_getElem (by omega)]
  simp

/-- The memory behind a file: a byte that the file sets has what it is set to
last, and the others of a block that the file goes into are blank. -/
def fileMemory (memory : Cell → Byte) (records : List HexRecord) (k : Cell) : Byte :=
  (lastWrite (fileCells 0 records) k).getD
    (if ∃ piece ∈ filePieces 0 records, piece.Covers k then blankCell k else memory k)

theorem store_runs {pieces : List Piece} (hfits : ∀ piece ∈ pieces, piece.Fits)
    (memory : Cell → Byte) {runs : List (List Piece)}
    (hruns : ∀ run ∈ runs, run ∈ combiner.runs pieces) :
    store memory ((runs.flatMap uploadsOf).flatMap Upload.cells) =
      pieceLayout.writeRuns memory runs := by
  induction runs generalizing memory with
  | nil => rfl
  | cons run runs ih =>
    have hrun := hruns run List.mem_cons_self
    have hfits' : ∀ piece ∈ run, piece.Fits := fun piece hpiece =>
      hfits piece (combiner.flatten_runs pieces ▸ List.mem_flatten.mpr ⟨run, hrun, hpiece⟩)
    rw [List.flatMap_cons, List.flatMap_append, store_append, store_uploadsOf hrun hfits',
      ih _ fun run' hrun' => hruns run' (List.mem_cons_of_mem run hrun')]
    rfl

/-- Behind the uploads of a file the module holds what the file says, if it sets
for an upload what it is assumed to set. -/
theorem program_memory {lines : List HexLine} {tail : UString}
    (hplaced : FileWellPlaced 0 (lines.map HexLine.record)) (htail : Skipped tail)
    (honce : BlocksOnce (filePieces 0 (lines.map HexLine.record))) (memory : Cell → Byte) :
    store memory ((Programmer.program (hexText lines tail)).1.flatMap Upload.cells) =
      fileMemory memory (lines.map HexLine.record) := by
  obtain ⟨packets, hmain, huploaded⟩ := main_runs hplaced htail
  have hfits := filePieces_fit hplaced
  rw [Programmer.program, hmain, huploaded.uploads]
  generalize lines.map HexLine.record = records at *
  have hruns := combiner.flatten_runs (filePieces 0 records)
  have hwithin : ∀ piece ∈ filePieces 0 records, pieceLayout.Within piece :=
    fun piece hpiece => pieceLayout_within (hfits piece hpiece)
  have hrenews : (combiner.runs (filePieces 0 records)).Pairwise pieceLayout.Renews := by
    refine honce.imp_of_mem ?_
    intro run run' _ hrun'
    refine renews_of_apart fun piece hpiece => hfits piece ?_
    rw [← hruns]
    exact List.mem_flatten.mpr ⟨run', hrun', hpiece⟩
  have hwithin' : ∀ piece ∈ (combiner.runs (filePieces 0 records)).flatten,
      pieceLayout.Within piece := by rwa [hruns]
  rw [store_runs hfits memory fun _ h => h, Layout.writeRuns_eq hwithin' hrenews, hruns]
  funext k
  have hcovers : k ∈ pieceLayout.covers (filePieces 0 records) ↔
      ∃ piece ∈ filePieces 0 records, piece.Covers k := Iff.rfl
  unfold Layout.writeRun Layout.image fileMemory
  by_cases hk : ∃ piece ∈ filePieces 0 records, piece.Covers k
  · rw [if_pos hk, if_pos (hcovers.mpr hk), filePieces_cells]
    rfl
  · have hnone := Layout.lastWrite_of_not_covers hwithin (fun h => hk (hcovers.mp h))
    rw [filePieces_cells] at hnone
    rw [if_neg hk, if_neg fun h => hk (hcovers.mp h), hnone, Option.getD_none]

theorem program_memory_test :
    store (fun _ => 7) ((Programmer.program (hexText testLines [0x0A])).1.flatMap Upload.cells) =
      fileMemory (fun _ => 7) testRecords :=
  program_memory (by decide) (by decide) (by decide) _

end Clibcdc.PgmHex
