import Mathlib.Data.List.Basic

/-!
# Checked reads and checked arithmetic

A read past the end of a block, and an unsigned result that wraps around, have
a value in the machine that is not the value meant.  The operations here fail
in their place, with a fault that the caller names.

Each operation has the condition under which it does not fail as a lemma.
-/

namespace Clibcdc.Memory

variable {α β ε : Type} (fault : ε)

/-- The cell at an index. -/
def checkedRead (block : List α) (i : Nat) : Except ε α :=
  match block[i]? with
  | some a => .ok a
  | none => .error fault

/-- A difference of unsigned values. -/
def checkedSub (a b : Nat) : Except ε Nat :=
  if b ≤ a then .ok (a - b) else .error fault

/-- A sum of unsigned values in a type whose values are below `limit`. -/
def checkedAdd (limit a b : Nat) : Except ε Nat :=
  if a + b < limit then .ok (a + b) else .error fault

/-- A value that is stored in a type whose values are below `limit`. -/
def checkedCast (limit a : Nat) : Except ε Nat :=
  if a < limit then .ok a else .error fault

variable {fault}

theorem checkedRead_eq {block : List α} {i : Nat} (h : i < block.length) :
    checkedRead fault block i = .ok block[i] := by
  rw [checkedRead, List.getElem?_eq_getElem h]

theorem checkedSub_eq {a b : Nat} (h : b ≤ a) : checkedSub fault a b = .ok (a - b) := if_pos h

theorem checkedAdd_eq {limit a b : Nat} (h : a + b < limit) :
    checkedAdd fault limit a b = .ok (a + b) := if_pos h

theorem checkedCast_eq {limit a : Nat} (h : a < limit) : checkedCast fault limit a = .ok a :=
  if_pos h

/-- What does not fail is followed by the rest of the computation. -/
theorem checked_bind (a : α) (f : α → Except ε β) : (Except.ok a >>= f) = f a := rfl

/-- A computation that does not fail has not failed on the way. -/
theorem checked_bind_ok {x : Except ε α} {f : α → Except ε β} {b : β} (h : (x >>= f) = .ok b) :
    ∃ a, x = .ok a ∧ f a = .ok b := by
  cases x with
  | error e => cases h
  | ok a => exact ⟨a, rfl, h⟩

/-- A computation that fails has failed on the way. -/
theorem checked_bind_error {x : Except ε α} {f : α → Except ε β} {e : ε}
    (h : (x >>= f) = .error e) : x = .error e ∨ ∃ a, x = .ok a ∧ f a = .error e := by
  cases x with
  | error e' => exact .inl (Except.error.inj h ▸ rfl)
  | ok a => exact .inr ⟨a, rfl, h⟩

end Clibcdc.Memory
