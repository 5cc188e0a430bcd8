import Clibcdc.Memory.Checked

/-!
# Blocks of memory

A `Block` is an array of a fixed size.  Its cells are a list that carries the
size, so that an operation cannot change it.

* `overwrite` puts a list of cells over those from an index on.  What would lie
  behind the end is dropped.
* `checkedWrite` and `checkedCopy` are an assignment and a `memcpy`, which fail
  with a fault when an index is out of range.

`overwrite_append_right` and `overwrite_append_left` tell where the new cells
lie in a block that is put together from parts.
-/

namespace Clibcdc.Memory

variable {α ε : Type}

/-! ## Overwriting a list -/

/-- The cells from an index on, with `data` over the first of them. -/
def overwrite : List α → Nat → List α → List α
  | [], _, _ => []
  | a :: cells, i + 1, data => a :: overwrite cells i data
  | a :: cells, 0, [] => a :: cells
  | _ :: cells, 0, d :: data => d :: overwrite cells 0 data

@[simp]
theorem length_overwrite (cells : List α) (i : Nat) (data : List α) :
    (overwrite cells i data).length = cells.length := by
  induction cells, i, data using overwrite.induct with
  | case1 => rfl
  | case2 a cells i data ih => simp [overwrite, ih]
  | case3 => rfl
  | case4 a cells d data ih => simp [overwrite, ih]

@[simp]
theorem overwrite_nil (cells : List α) (i : Nat) : overwrite cells i [] = cells := by
  induction cells generalizing i with
  | nil => rfl
  | cons a cells ih =>
    cases i with
    | zero => rfl
    | succ i => rw [overwrite, ih]

/-- What is written cell by cell. -/
theorem overwrite_cons (cells : List α) (i : Nat) (d : α) (data : List α) :
    overwrite cells i (d :: data) = overwrite (cells.set i d) (i + 1) data := by
  induction cells generalizing i with
  | nil => rfl
  | cons a cells ih =>
    cases i with
    | zero => rfl
    | succ i => rw [overwrite, ih, List.set_cons_succ, overwrite]

theorem overwrite_append_right (before cells : List α) (i : Nat) (data : List α) :
    overwrite (before ++ cells) (before.length + i) data = before ++ overwrite cells i data := by
  induction before with
  | nil => simp
  | cons a before ih =>
    have hindex : (a :: before).length + i = before.length + i + 1 := by
      rw [List.length_cons]
      omega
    rw [List.cons_append, hindex, overwrite, ih, List.cons_append]

theorem overwrite_append_left {cells : List α} {i : Nat} {data : List α}
    (h : i + data.length ≤ cells.length) (after : List α) :
    overwrite (cells ++ after) i data = overwrite cells i data ++ after := by
  induction cells, i, data using overwrite.induct with
  | case1 i data =>
    rw [List.length_nil] at h
    rw [List.eq_nil_of_length_eq_zero (show data.length = 0 by omega)]
    simp
  | case2 a cells i data ih =>
    rw [List.length_cons] at h
    simp only [List.cons_append, overwrite]
    rw [ih (by omega)]
  | case3 a cells => rfl
  | case4 a cells d data ih =>
    simp only [List.length_cons] at h
    simp only [List.cons_append, overwrite]
    rw [ih (by omega)]

theorem overwrite_all {cells data : List α} (h : cells.length = data.length) :
    overwrite cells 0 data = data := by
  induction cells generalizing data with
  | nil => exact (List.eq_nil_of_length_eq_zero h.symm).symm
  | cons a cells ih =>
    cases data with
    | nil => cases h
    | cons d data =>
      rw [overwrite]
      congr 1
      exact ih (Nat.succ.inj h)

/-- The first part is overwritten as a whole. -/
theorem overwrite_first {old new : List α} (h : old.length = new.length) (after : List α) :
    overwrite (old ++ after) 0 new = new ++ after := by
  rw [overwrite_append_left (by omega), overwrite_all h]

/-- A part is overwritten as a whole. -/
theorem overwrite_part {before old after new : List α} {i : Nat} (hi : i = before.length)
    (h : old.length = new.length) :
    overwrite (before ++ (old ++ after)) i new = before ++ (new ++ after) := by
  rw [hi, ← Nat.add_zero before.length, overwrite_append_right, overwrite_first h]

/-- The first cells are overwritten. -/
theorem overwrite_front {cells data : List α} (h : data.length ≤ cells.length) :
    overwrite cells 0 data = data ++ cells.drop data.length := by
  have hlength : (cells.take data.length).length = data.length := by
    rw [List.length_take]
    omega
  have hfirst := overwrite_first hlength (cells.drop data.length)
  rwa [List.take_append_drop] at hfirst

/-- A cell holds what has been written over it, or what it held. -/
theorem getElem?_overwrite (cells : List α) (i : Nat) (data : List α) {k : Nat}
    (hk : k < cells.length) :
    (overwrite cells i data)[k]? =
      if i ≤ k ∧ k < i + data.length then data[k - i]? else cells[k]? := by
  induction cells, i, data using overwrite.induct generalizing k with
  | case1 => cases hk
  | case2 a cells i data ih =>
    cases k with
    | zero => simp [overwrite]
    | succ k =>
      rw [overwrite, List.getElem?_cons_succ, ih (Nat.lt_of_succ_lt_succ hk), Nat.succ_sub_succ,
        List.getElem?_cons_succ]
      exact if_congr (by omega) rfl rfl
  | case3 a cells => simp [overwrite]
  | case4 a cells d data ih =>
    cases k with
    | zero => simp [overwrite]
    | succ k =>
      rw [overwrite, List.getElem?_cons_succ, ih (Nat.lt_of_succ_lt_succ hk), List.length_cons,
        Nat.sub_zero, Nat.sub_zero, List.getElem?_cons_succ, List.getElem?_cons_succ]
      exact if_congr (by omega) rfl rfl

/-! ## Blocks -/

structure Block (α : Type) (n : Nat) where
  cells : List α
  size : cells.length = n
  deriving DecidableEq

namespace Block

variable {n m : Nat}

@[ext]
theorem ext {b b' : Block α n} (h : b.cells = b'.cells) : b = b' := by
  cases b
  cases b'
  simpa using h

/-- `memset` over a whole block. -/
def fill (a : α) : Block α n := ⟨List.replicate n a, List.length_replicate⟩

/-- A cell at an index that is known to be in range. -/
def get (b : Block α n) (i : Fin n) : α := b.cells.get (i.cast b.size.symm)

def overwrite (b : Block α n) (i : Nat) (data : List α) : Block α n :=
  ⟨Memory.overwrite b.cells i data, by rw [length_overwrite, b.size]⟩

def set (b : Block α n) (i : Nat) (a : α) : Block α n :=
  ⟨b.cells.set i a, by rw [List.length_set, b.size]⟩

@[simp] theorem cells_overwrite (b : Block α n) (i : Nat) (data : List α) :
    (b.overwrite i data).cells = Memory.overwrite b.cells i data := rfl

@[simp] theorem cells_set (b : Block α n) (i : Nat) (a : α) :
    (b.set i a).cells = b.cells.set i a := rfl

@[simp] theorem overwrite_nil (b : Block α n) (i : Nat) : b.overwrite i [] = b :=
  ext (Memory.overwrite_nil _ _)

theorem overwrite_cons (b : Block α n) (i : Nat) (d : α) (data : List α) :
    b.overwrite i (d :: data) = (b.set i d).overwrite (i + 1) data :=
  ext (Memory.overwrite_cons _ _ _ _)

theorem get_eq {b : Block α n} {i : Fin n} {a : α} (hcell : b.cells[i.val]? = some a) :
    b.get i = a := by
  rw [get, List.get_eq_getElem]
  exact Option.some.inj ((List.getElem?_eq_getElem _).symm.trans hcell)

theorem getElem?_get (b : Block α n) (i : Fin n) : b.cells[i.val]? = some (b.get i) :=
  List.getElem?_eq_getElem (i.cast b.size.symm).isLt

theorem get_set_ne (b : Block α n) {i : Nat} {j : Fin n} (h : i ≠ j) (a : α) :
    (b.set i a).get j = b.get j := by
  apply get_eq
  rw [cells_set, List.getElem?_set_ne h, getElem?_get]

theorem get_set (b : Block α n) (i : Fin n) (a : α) : (b.set i a).get i = a := by
  apply get_eq
  rw [cells_set, List.getElem?_set_self]
  rw [b.size]
  exact i.isLt

variable (fault : ε)

/-- A cell at any index. -/
def checkedRead (b : Block α n) (i : Nat) : Except ε α := Memory.checkedRead fault b.cells i

/-- An assignment to a cell. -/
def checkedWrite (b : Block α n) (i : Nat) (a : α) : Except ε (Block α n) :=
  if i < n then .ok (b.set i a) else .error fault

/-- `memcpy(&b[i], &source[start], count)`. -/
def checkedCopy (b : Block α n) (i : Nat) (source : Block α m) (start count : Nat) :
    Except ε (Block α n) :=
  if start + count ≤ m ∧ i + count ≤ n then
    .ok (b.overwrite i ((source.cells.drop start).take count))
  else .error fault

variable {fault}

theorem checkedRead_eq {b : Block α n} {i : Nat} {a : α} (h : b.cells[i]? = some a) :
    b.checkedRead fault i = .ok a := by
  rw [checkedRead, Memory.checkedRead, h]

theorem checkedWrite_eq {b : Block α n} {i : Nat} (h : i < n) (a : α) :
    b.checkedWrite fault i a = .ok (b.set i a) := if_pos h

theorem checkedCopy_eq {b : Block α n} {source : Block α m} {i start count : Nat}
    (hsource : start + count ≤ m) (h : i + count ≤ n) :
    b.checkedCopy fault i source start count =
      .ok (b.overwrite i ((source.cells.drop start).take count)) := if_pos ⟨hsource, h⟩

end Block

end Clibcdc.Memory
