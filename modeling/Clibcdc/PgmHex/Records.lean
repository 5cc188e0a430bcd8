import Clibcdc.PgmHex.Plan

/-!
# Records in the line buffer

What `iqrfPgmPrepareMemBlock` reads from a line buffer that a record is in, and
what its copies make of an image.
-/

namespace Clibcdc.PgmHex

open Clibcdc.Memory

/-! ## The fields -/

/-- The record has been read into the line buffer. -/
def LineHolds (line : LineBuffer) (r : HexRecord) : Prop :=
  ∃ rest, line.cells = r.lineBytes ++ rest

theorem lineHolds_read (buffer : LineBuffer) (r : HexRecord) :
    LineHolds (buffer.overwrite 0 r.lineBytes) r := by
  have hfits := r.data_fits
  refine ⟨_, overwrite_front ?_⟩
  rw [r.lineBytes_length, buffer.size]
  show r.data.length + 5 ≤ 64
  omega

namespace LineHolds

variable {line : LineBuffer} {r : HexRecord}

theorem cells (h : LineHolds line r) :
    ∃ rest, line.cells = UInt8.ofNat r.data.length :: UInt8.ofNat (r.address / 256) ::
      UInt8.ofNat (r.address % 256) :: r.type :: (r.data ++ rest) := by
  obtain ⟨rest, hcells⟩ := h
  exact ⟨-sumOf r.bytes :: rest, by simp [hcells, HexRecord.lineBytes, HexRecord.bytes]⟩

theorem size (h : LineHolds line r) : (line.get 0).toNat = r.data.length := by
  obtain ⟨rest, hcells⟩ := h.cells
  have hfits := r.data_fits
  rw [Block.get_eq (show line.cells[0]? = some _ by rw [hcells]; rfl), UInt8.toNat_ofNat']
  omega

theorem type (h : LineHolds line r) : line.get 3 = r.type := by
  obtain ⟨rest, hcells⟩ := h.cells
  exact Block.get_eq (show line.cells[3]? = some _ by rw [hcells]; rfl)

theorem address (h : LineHolds line r) (hiAddress : Nat) :
    PrepareMemBlock.recordAddress line hiAddress = r.wordAddress hiAddress := by
  obtain ⟨rest, hcells⟩ := h.cells
  have haddress := r.address_lt
  rw [PrepareMemBlock.recordAddress, HexRecord.wordAddress,
    Block.get_eq (show line.cells[1]? = some _ by rw [hcells]; rfl),
    Block.get_eq (show line.cells[2]? = some _ by rw [hcells]; rfl), UInt8.toNat_ofNat',
    UInt8.toNat_ofNat']
  have hsum : hiAddress + r.address / 256 % 2 ^ 8 * 256 + r.address % 256 % 2 ^ 8 =
      hiAddress + r.address := by omega
  rw [hsum]

/-- The data, with what is behind them. -/
theorem drop_data (h : LineHolds line r) : ∃ rest, line.cells.drop 4 = r.data ++ rest := by
  obtain ⟨rest, hcells⟩ := h.cells
  exact ⟨rest, by rw [hcells]; rfl⟩

theorem hiAddress (h : LineHolds line r) (htype : r.type = 4) (hdata : 2 ≤ r.data.length)
    (hiAddress : Nat) :
    (line.get 4).toNat * 2 ^ 24 + (line.get 5).toNat * 2 ^ 16 = r.nextHiAddress hiAddress := by
  obtain ⟨rest, hcells⟩ := h.cells
  rw [HexRecord.nextHiAddress, if_pos htype]
  rcases hbytes : r.data with _ | ⟨hi, _ | ⟨lo, data⟩⟩
  · simp [hbytes] at hdata
  · simp [hbytes] at hdata
  · rw [hbytes] at hcells
    rw [Block.get_eq (show line.cells[4]? = some hi by rw [hcells]; rfl),
      Block.get_eq (show line.cells[5]? = some lo by rw [hcells]; rfl)]

end LineHolds

/-! ## Low bytes -/

theorem lowBytes_length (data : UString) : (lowBytes data).length = data.length / 2 := by
  induction data using lowBytes.induct with
  | case1 low b data ih =>
    rw [lowBytes, List.length_cons, ih, List.length_cons, List.length_cons]
    omega
  | case2 data hdata =>
    rcases data with _ | ⟨a, _ | ⟨b, data⟩⟩
    · rfl
    · simp [lowBytes]
    · exact absurd rfl (hdata a b data)

theorem lowBytes_getElem? (data : UString) {n : Nat} (h : 2 * n + 1 < data.length) :
    (lowBytes data)[n]? = data[2 * n]? := by
  induction data using lowBytes.induct generalizing n with
  | case1 low b data ih =>
    cases n with
    | zero => rfl
    | succ n =>
      rw [lowBytes, List.getElem?_cons_succ, Nat.mul_succ, List.getElem?_cons_succ,
        List.getElem?_cons_succ]
      simp only [List.length_cons] at h
      exact ih (by omega)
  | case2 data hdata =>
    rcases data with _ | ⟨a, _ | ⟨b, data⟩⟩
    · cases h
    · simp at h
    · exact absurd rfl (hdata a b data)

/-- What follows the data does not count. -/
theorem lowBytes_take (data rest : UString) :
    (lowBytes (data ++ rest)).take (data.length / 2) = lowBytes data := by
  induction data using lowBytes.induct with
  | case1 low b data ih =>
    have hlength : (low :: b :: data).length / 2 = data.length / 2 + 1 := by
      simp only [List.length_cons]
      omega
    rw [hlength, List.cons_append, List.cons_append, lowBytes, List.take_succ_cons, ih, lowBytes]
  | case2 data hdata =>
    rcases data with _ | ⟨a, _ | ⟨b, data⟩⟩
    · simp [lowBytes]
    · simp [lowBytes]
    · exact absurd rfl (hdata a b data)

namespace PrepareMemBlock

/-- The low bytes in a line buffer, whatever size its record has. -/
def lineLowBytes (line : LineBuffer) : UString := lowBytes (line.cells.drop 4)

theorem lineLowBytes_length (line : LineBuffer) : (lineLowBytes line).length = 30 := by
  rw [lineLowBytes, lowBytes_length, List.length_drop, line.size]
  rfl

/-- The first byte of a copy. -/
theorem copyLowBytes_succ {line : LineBuffer} {cnt index : Nat} (hread : cnt < 30)
    (hwrite : index < memoryBlockSize) (memoryBlock : MemoryBlock) :
    ∃ b, (lineLowBytes line).drop cnt = b :: (lineLowBytes line).drop (cnt + 1) ∧
      ∀ next left, copyLowBytes line next (left + 1) cnt index memoryBlock =
        copyLowBytes line next left (cnt + 1) (next index) (memoryBlock.set index b) := by
  have hcnt : cnt < (lineLowBytes line).length := by rwa [lineLowBytes_length]
  refine ⟨(lineLowBytes line)[cnt], List.drop_eq_getElem_cons hcnt, fun next left => ?_⟩
  have hdrop : 2 * cnt + 1 < (line.cells.drop 4).length := by
    rw [List.length_drop, line.size]
    show 2 * cnt + 1 < 60
    omega
  have hcell : line.cells[2 * cnt + 4]? = some ((lineLowBytes line)[cnt]) := by
    rw [Nat.add_comm, ← List.getElem?_drop, ← lowBytes_getElem? _ hdrop]
    exact List.getElem?_eq_getElem hcnt
  rw [copyLowBytes, Block.checkedRead_eq hcell, checked_bind, Block.checkedWrite_eq hwrite,
    checked_bind]

/-- A copy that stays in the image. -/
theorem copyLowBytes_eq {line : LineBuffer} {next : Nat → Nat}
    (hnext : ∀ i, i + 1 < memoryBlockSize → next i = i + 1) {left cnt index : Nat}
    (hread : cnt + left ≤ 30) (hwrite : index + left ≤ memoryBlockSize)
    (memoryBlock : MemoryBlock) :
    copyLowBytes line next left cnt index memoryBlock =
      .ok (memoryBlock.overwrite index (((lineLowBytes line).drop cnt).take left)) := by
  induction left generalizing cnt index memoryBlock with
  | zero => rw [copyLowBytes, List.take_zero, Block.overwrite_nil]
  | succ left ih =>
    obtain ⟨b, hbytes, hcopy⟩ := copyLowBytes_succ (show cnt < 30 by omega)
      (show index < memoryBlockSize by omega) memoryBlock
    rw [hcopy, hbytes, List.take_succ_cons, Block.overwrite_cons]
    by_cases hlast : left = 0
    · rw [hlast, copyLowBytes, List.take_zero, Block.overwrite_nil]
    · rw [hnext index (by omega)]
      exact ih (by omega) (by omega) _

/-- A copy that goes on in the first half. -/
theorem copyLowBytes_wraps {line : LineBuffer} {fits left cnt index : Nat} (hfits : 0 < fits)
    (hindex : index + fits = memoryBlockSize) (hread : cnt + fits + left ≤ 30)
    (memoryBlock : MemoryBlock) :
    copyLowBytes line nextIndex (fits + left) cnt index memoryBlock =
      .ok ((memoryBlock.overwrite index (((lineLowBytes line).drop cnt).take fits)).overwrite 2
        (((lineLowBytes line).drop (cnt + fits)).take left)) := by
  induction fits generalizing cnt index memoryBlock with
  | zero => cases hfits
  | succ fits ih =>
    obtain ⟨b, hbytes, hcopy⟩ := copyLowBytes_succ (show cnt < 30 by omega)
      (show index < memoryBlockSize by omega) memoryBlock
    rw [Nat.add_right_comm, hcopy, hbytes, List.take_succ_cons, Block.overwrite_cons]
    by_cases hlast : fits = 0
    · subst hlast
      have hnext : nextIndex index = 2 := if_pos hindex
      have hwrite : 2 + left ≤ memoryBlockSize := show 2 + left ≤ 68 by omega
      rw [hnext, Nat.zero_add, Nat.zero_add, List.take_zero, Block.overwrite_nil]
      exact copyLowBytes_eq (fun i hi => if_neg (Nat.ne_of_lt hi)) (by omega) hwrite _
    · have hnext : nextIndex index = index + 1 := if_neg (by omega)
      have hcnt : cnt + (fits + 1) = cnt + 1 + fits := by omega
      rw [hnext, hcnt]
      exact ih (Nat.pos_of_ne_zero hlast) (by omega) (by omega) _

end PrepareMemBlock

end Clibcdc.PgmHex
