import Mathlib.Data.List.Basic

/-!
# Reads of a block of memory

A `Reading` is a computation over a block of readable memory: the indices that
it reads, in order, and its value.  It has no value when a read has failed,
which is a read past the end of the block.

* `copy` reads a number of cells.
* `scan` reads up to and including the first cell that holds a given value.
* A reading is `Within` a bound when no read fails and every index that is
  read is below the bound.
-/

namespace Clibcdc.Memory

variable {α β γ : Type}

structure Reading (α : Type) where
  reads : List Nat
  value : Option α

namespace Reading

def pure (a : α) : Reading α := ⟨[], some a⟩

/-- Behind a read that has failed nothing more is read. -/
def bind (r : Reading α) (f : α → Reading β) : Reading β :=
  match r.value with
  | none => ⟨r.reads, none⟩
  | some a => ⟨r.reads ++ (f a).reads, (f a).value⟩

/-- No read fails, and every index that is read is below the bound. -/
def Within (r : Reading α) (bound : Nat) : Prop :=
  r.value.isSome = true ∧ ∀ i ∈ r.reads, i < bound

theorem within_pure (a : α) (bound : Nat) : (pure a).Within bound := ⟨rfl, by simp [pure]⟩

theorem within_bind {r : Reading α} {f : α → Reading β} {bound : Nat} :
    (r.bind f).Within bound ↔ r.Within bound ∧ ∀ a, r.value = some a → (f a).Within bound := by
  obtain ⟨reads, value⟩ := r
  cases value with
  | none => simp [bind, Within]
  | some a =>
    simp only [bind, Within, Option.isSome_some, List.mem_append, Option.some.injEq, true_and,
      forall_eq']
    constructor
    · rintro ⟨hvalue, hreads⟩
      exact ⟨fun i hi => hreads i (.inl hi), hvalue, fun i hi => hreads i (.inr hi)⟩
    · rintro ⟨hreads, hvalue, hreads'⟩
      exact ⟨hvalue, fun i hi => hi.elim (hreads i) (hreads' i)⟩

theorem bind_of_value {r : Reading α} {a : α} (h : r.value = some a) (f : α → Reading β) :
    (r.bind f).value = (f a).value := by
  rw [bind, h]

end Reading

/-! ## Reading cells -/

/-- A read fails past the end of the block. -/
def read (block : List α) (i : Nat) : Reading α := ⟨[i], block[i]?⟩

/-- Read `n` cells from `start` on. -/
def copy (block : List α) (start : Nat) : Nat → Reading (List α)
  | 0 => .pure []
  | n + 1 => (read block start).bind fun a => (copy block (start + 1) n).bind fun rest =>
      .pure (a :: rest)

theorem copy_eq {block : List α} {start n : Nat} (h : start + n ≤ block.length) :
    copy block start n = ⟨List.range' start n, some ((block.drop start).take n)⟩ := by
  induction n generalizing start with
  | zero => simp [copy, Reading.pure]
  | succ n ih =>
    have hlt : start < block.length := by omega
    rw [copy, @ih (start + 1) (by omega), read, List.getElem?_eq_getElem hlt]
    simp only [Reading.bind, Reading.pure, List.append_nil, List.singleton_append,
      List.range'_succ]
    rw [List.drop_eq_getElem_cons hlt, List.take_succ_cons]

theorem copy_within {block : List α} {start n bound : Nat} (h : start + n ≤ block.length)
    (hbound : start + n ≤ bound) : (copy block start n).Within bound := by
  rw [copy_eq h]
  refine ⟨rfl, fun i hi => ?_⟩
  have := List.mem_range'_1.mp hi
  omega

/-! ## Scanning -/

variable [DecidableEq α]

/-- The cells from position `i` on are read up to the first one that holds `a`:
its position. -/
def scanFrom (a : α) : List α → Nat → Reading Nat
  | [], i => ⟨[i], none⟩
  | b :: rest, i =>
    if b = a then ⟨[i], some i⟩
    else ⟨i :: (scanFrom a rest (i + 1)).reads, (scanFrom a rest (i + 1)).value⟩

def scan (a : α) (block : List α) : Reading Nat := scanFrom a block 0

theorem scanFrom_found {a : α} {pre : List α} (hpre : a ∉ pre) (post : List α) (i : Nat) :
    scanFrom a (pre ++ a :: post) i = ⟨List.range' i (pre.length + 1), some (i + pre.length)⟩ := by
  induction pre generalizing i with
  | nil => simp [scanFrom]
  | cons b pre ih =>
    rw [List.mem_cons, not_or] at hpre
    rw [List.cons_append, scanFrom, if_neg (Ne.symm hpre.1), ih hpre.2]
    simp [List.range'_succ]
    omega

theorem scanFrom_missing {a : α} {block : List α} (h : a ∉ block) (i : Nat) :
    (scanFrom a block i).value = none := by
  induction block generalizing i with
  | nil => rfl
  | cons b block ih =>
    rw [List.mem_cons, not_or] at h
    rw [scanFrom, if_neg (Ne.symm h.1)]
    exact ih h.2 (i + 1)

/-- A scan stays within a bound when one of the cells below the bound holds what
it looks for, and only then. -/
theorem scan_within {a : α} {block : List α} {bound : Nat} :
    (scan a block).Within bound ↔ a ∈ block.take bound := by
  by_cases hmem : a ∈ block
  · obtain ⟨pre, post, rfl, hpre⟩ := List.eq_append_cons_of_mem hmem
    rw [Reading.Within, scan, scanFrom_found hpre]
    constructor
    · rintro ⟨-, hreads⟩
      have hlt := hreads pre.length (List.mem_range'_1.mpr (by omega))
      rw [List.take_append, List.take_of_length_le (by omega)]
      obtain ⟨n, hn⟩ : ∃ n, bound - pre.length = n + 1 := ⟨bound - pre.length - 1, by omega⟩
      simp [hn]
    · intro htake
      refine ⟨rfl, fun i hi => ?_⟩
      have hi := List.mem_range'_1.mp hi
      by_contra hlong
      rw [List.take_append_of_le_length (by omega)] at htake
      exact hpre (List.mem_of_mem_take htake)
  · have hmissing := scanFrom_missing hmem 0
    refine iff_of_false (fun h => ?_) (fun h => hmem (List.mem_of_mem_take h))
    rw [Reading.Within, scan, hmissing] at h
    exact absurd h.1 (by simp)

/-- The position that a scan finds is the last one that it reads. -/
theorem scan_value_mem {a : α} {block : List α} {size : Nat}
    (h : (scan a block).value = some size) : size ∈ (scan a block).reads := by
  by_cases hmem : a ∈ block
  · obtain ⟨pre, post, rfl, hpre⟩ := List.eq_append_cons_of_mem hmem
    rw [scan, scanFrom_found hpre] at h ⊢
    obtain rfl := Option.some.inj h
    exact List.mem_range'_1.mpr (by omega)
  · rw [scan, scanFrom_missing hmem] at h
    cases h

end Clibcdc.Memory
