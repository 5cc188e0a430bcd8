import Mathlib.Data.Set.Lattice
import Clibcdc.Memory.Block

/-!
# What a device holds

A device has areas of numbered cells, and is written a block at a time.

* `lastWrite` is what a list of writes leaves in a cell that it sets, and
  `placed` are the writes of data from a cell on.
* A `Layout` says which cells a write sets, and which cells the block has that
  is written for it.  Those that no write of a run sets are blank.

Written run by run, each cell ends with what the last write to it has set, or
blank when its block is written without it, as long as a block that is written
again is set anew (`writeRuns_eq`).
-/

namespace Clibcdc.Memory

variable {α ι κ ν : Type}

/-! ## Writes -/

section

variable [DecidableEq κ]

/-- What a list of writes leaves in a cell that it sets. -/
def lastWrite : List (κ × ν) → κ → Option ν
  | [], _ => none
  | w :: ws, k => (lastWrite ws k).or (if w.1 = k then some w.2 else none)

@[simp] theorem lastWrite_nil (k : κ) : lastWrite ([] : List (κ × ν)) k = none := rfl

theorem lastWrite_append (ws ws' : List (κ × ν)) (k : κ) :
    lastWrite (ws ++ ws') k = (lastWrite ws' k).or (lastWrite ws k) := by
  induction ws with
  | nil => simp [lastWrite]
  | cons w ws ih => rw [List.cons_append, lastWrite, ih, lastWrite, Option.or_assoc]

theorem lastWrite_eq_none {ws : List (κ × ν)} {k : κ} (h : ∀ w ∈ ws, w.1 ≠ k) :
    lastWrite ws k = none := by
  induction ws with
  | nil => rfl
  | cons w ws ih =>
    rw [lastWrite, ih fun w' hw' => h w' (List.mem_cons_of_mem w hw'),
      if_neg (h w List.mem_cons_self)]
    rfl

/-- What one of them sets, the others do not unset. -/
theorem lastWrite_flatMap_ne_none {f : α → List (κ × ν)} {as : List α} {a : α} (ha : a ∈ as) {k : κ}
    (h : lastWrite (f a) k ≠ none) : lastWrite (as.flatMap f) k ≠ none := by
  obtain ⟨before, after, rfl⟩ := List.append_of_mem ha
  rw [List.flatMap_append, List.flatMap_cons, lastWrite_append, lastWrite_append]
  simp [h]

/-- The device behind writes. -/
def store (memory : κ → ν) (ws : List (κ × ν)) (k : κ) : ν := (lastWrite ws k).getD (memory k)

theorem store_append (memory : κ → ν) (ws ws' : List (κ × ν)) :
    store memory (ws ++ ws') = store (store memory ws) ws' := by
  funext k
  unfold store
  rw [lastWrite_append]
  cases lastWrite ws' k <;> rfl

end

/-! ## Data from a cell on -/

def placed (area : ι) : Nat → List ν → List ((ι × Nat) × ν)
  | _, [] => []
  | start, d :: data => ((area, start), d) :: placed area (start + 1) data

theorem placed_append (area : ι) (start : Nat) (data data' : List ν) :
    placed area start (data ++ data') =
      placed area start data ++ placed area (start + data.length) data' := by
  induction data generalizing start with
  | nil => rfl
  | cons d data ih =>
    have hstart : start + (d :: data).length = start + 1 + data.length := by
      rw [List.length_cons]
      omega
    rw [List.cons_append, placed, ih, hstart]
    rfl

theorem mem_placed {area : ι} {start : Nat} {data : List ν} {w : (ι × Nat) × ν}
    (h : w ∈ placed area start data) :
    w.1.1 = area ∧ start ≤ w.1.2 ∧ w.1.2 < start + data.length := by
  induction data generalizing start with
  | nil => cases h
  | cons d data ih =>
    rw [List.length_cons]
    rcases List.mem_cons.mp h with rfl | h
    · exact ⟨rfl, Nat.le_refl _, by simp⟩
    · obtain ⟨harea, hlow, hhigh⟩ := ih h
      exact ⟨harea, by omega, by omega⟩

variable [DecidableEq ι]

theorem lastWrite_placed (area : ι) (start : Nat) (data : List ν) (n : Nat) :
    lastWrite (placed area start data) (area, n) =
      if start ≤ n then data[n - start]? else none := by
  induction data generalizing start with
  | nil => simp [placed]
  | cons d data ih =>
    rw [placed, lastWrite, ih]
    rcases Nat.lt_trichotomy start n with hlt | rfl | hgt
    · obtain ⟨k, rfl⟩ : ∃ k, n = start + 1 + k := ⟨n - start - 1, by omega⟩
      have hindex : start + 1 + k - start = k + 1 := by omega
      have hother : ((area, start), d).1 ≠ (area, start + 1 + k) := by
        simp
        omega
      rw [if_pos (show start + 1 ≤ start + 1 + k by omega),
        if_pos (show start ≤ start + 1 + k by omega), if_neg hother, hindex,
        Nat.add_sub_cancel_left, List.getElem?_cons_succ, Option.or_none]
    · rw [if_neg (by omega)]
      simp
    · have hother : ((area, start), d).1 ≠ (area, n) := by
        simp
        omega
      rw [if_neg (show ¬ start + 1 ≤ n by omega), if_neg (show ¬ start ≤ n by omega), if_neg hother]
      rfl

/-- Cells with data over them. -/
theorem lastWrite_overwrite (area : ι) (start : Nat) (cells : List ν) (i : Nat) (data : List ν)
    {n : Nat} (hlow : start ≤ n) (hhigh : n < start + cells.length) :
    lastWrite (placed area start (overwrite cells i data)) (area, n) =
      (lastWrite (placed area (start + i) data) (area, n)).or (cells[n - start]?) := by
  rw [lastWrite_placed, if_pos hlow, lastWrite_placed,
    getElem?_overwrite cells i data (show n - start < cells.length by omega)]
  have hindex : n - (start + i) = n - start - i := by omega
  by_cases hafter : start + i ≤ n
  · rw [if_pos hafter, hindex]
    by_cases hinside : n - start < i + data.length
    · have hlt : n - start - i < data.length := by omega
      rw [if_pos ⟨by omega, hinside⟩, List.getElem?_eq_getElem hlt]
      rfl
    · have hge : data.length ≤ n - start - i := by omega
      rw [if_neg fun h => hinside h.2, List.getElem?_eq_none hge, Option.none_or]
  · rw [if_neg hafter, if_neg fun h => hafter (by omega), Option.none_or]

/-! ## Blocks -/

structure Layout (α κ ν : Type) where
  cells : α → List (κ × ν)
  block : α → Set κ
  blank : κ → ν

/-- The write stays within its block. -/
def Layout.Within (L : Layout α κ ν) (a : α) : Prop := ∀ w ∈ L.cells a, w.1 ∈ L.block a

/-- The cells that are written for a run. -/
def Layout.covers (L : Layout α κ ν) (run : List α) : Set κ := {k | ∃ a ∈ run, k ∈ L.block a}

theorem Layout.covers_append {L : Layout α κ ν} (run run' : List α) :
    L.covers (run ++ run') = L.covers run ∪ L.covers run' := by
  ext k
  simp [covers, or_and_right, exists_or]

variable [DecidableEq κ]

namespace Layout

variable (L : Layout α κ ν)

/-- What is written into the blocks of a run. -/
def image (run : List α) (k : κ) : ν := (lastWrite (run.flatMap L.cells) k).getD (L.blank k)

open Classical in
/-- A run is written. -/
noncomputable def writeRun (memory : κ → ν) (run : List α) (k : κ) : ν :=
  if k ∈ L.covers run then L.image run k else memory k

noncomputable def writeRuns (memory : κ → ν) (runs : List (List α)) : κ → ν :=
  runs.foldl L.writeRun memory

/-- What the two runs have both, the later one sets. -/
def Renews (run run' : List α) : Prop :=
  ∀ k ∈ L.covers run, k ∈ L.covers run' → lastWrite (run'.flatMap L.cells) k ≠ none

variable {L}

theorem lastWrite_of_not_covers {run : List α} (hwithin : ∀ a ∈ run, L.Within a) {k : κ}
    (h : k ∉ L.covers run) : lastWrite (run.flatMap L.cells) k = none := by
  apply lastWrite_eq_none
  intro w hw
  obtain ⟨a, ha, hwa⟩ := List.mem_flatMap.mp hw
  rintro rfl
  exact h ⟨a, ha, hwithin a ha w hwa⟩

/-- Written run by run, when each sets anew what it has of the blocks of those
before it, the device holds what it would hold if all writes were one run. -/
theorem writeRuns_eq {runs : List (List α)} (hwithin : ∀ a ∈ runs.flatten, L.Within a)
    (hrenews : runs.Pairwise L.Renews) (memory : κ → ν) :
    L.writeRuns memory runs = L.writeRun memory runs.flatten := by
  induction runs generalizing memory with
  | nil =>
    funext k
    have hnone : k ∉ L.covers ([] : List α) := by simp [covers]
    exact (if_neg hnone).symm
  | cons run runs ih =>
    rw [List.pairwise_cons] at hrenews
    rw [List.flatten_cons] at hwithin
    have hothers : ∀ a ∈ runs.flatten, L.Within a :=
      fun a ha => hwithin a (List.mem_append_right _ ha)
    funext k
    have hrest : L.writeRuns memory (run :: runs) = L.writeRuns (L.writeRun memory run) runs := rfl
    rw [hrest, ih hothers hrenews.2, List.flatten_cons]
    unfold writeRun image
    rw [covers_append, List.flatMap_append, lastWrite_append]
    by_cases hk : k ∈ L.covers runs.flatten
    · rw [if_pos hk, if_pos (Set.mem_union_right _ hk)]
      by_cases hrun : k ∈ L.covers run
      · obtain ⟨a, ha, hka⟩ := hk
        obtain ⟨run', hrun', ha'⟩ := List.mem_flatten.mp ha
        have hset : lastWrite (runs.flatten.flatMap L.cells) k ≠ none := by
          rw [List.flatten_eq_flatMap, List.flatMap_assoc]
          exact lastWrite_flatMap_ne_none hrun' (hrenews.1 run' hrun' k hrun ⟨a, ha', hka⟩)
        obtain ⟨v, hv⟩ := Option.ne_none_iff_exists'.mp hset
        rw [hv]
        rfl
      · have hfirst : ∀ a ∈ run, L.Within a := fun a ha => hwithin a (List.mem_append_left _ ha)
        rw [lastWrite_of_not_covers hfirst hrun, Option.or_none]
    · rw [if_neg hk, lastWrite_of_not_covers hothers hk, Option.none_or]
      by_cases hrun : k ∈ L.covers run
      · rw [if_pos hrun, if_pos (Set.mem_union_left _ hrun)]
      · rw [if_neg hrun, if_neg fun h => h.elim hrun hk]

end Layout

end Clibcdc.Memory
