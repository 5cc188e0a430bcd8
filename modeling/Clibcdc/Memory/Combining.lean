import Mathlib.Data.List.SplitBy

/-!
# Combining writes

A buffer that combines writes for a device that is written a block at a time.

A `Combiner` keeps writes back while each joins the one before it, and passes
them on as a run.  A write that stands alone is passed on at once.  What is
passed on is what `List.splitBy` makes of the writes (`pushAll_flush`).
-/

namespace Clibcdc.Memory

variable {α : Type}

/-! ## Runs -/

structure Combiner (α : Type) where
  joins : α → α → Bool
  alone : α → Bool
  joins_of_alone : ∀ {a b}, alone a = true ∨ alone b = true → joins a b = false

namespace Combiner

variable (C : Combiner α)

/-- What is kept back, passed on. -/
def flush : List α → List (List α)
  | [] => []
  | a :: pending => [a :: pending]

/-- A write: the runs that are passed on, and what is kept back. -/
def push (pending : List α) (a : α) : List (List α) × List α :=
  if C.alone a then (flush pending ++ [[a]], [])
  else if pending.getLast?.any (C.joins · a) then ([], pending ++ [a])
  else (flush pending, [a])

def pushAll (pending : List α) : List α → List (List α) × List α
  | [] => ([], pending)
  | a :: as => ((C.push pending a).1 ++ (pushAll (C.push pending a).2 as).1,
      (pushAll (C.push pending a).2 as).2)

def runs (as : List α) : List (List α) := as.splitBy C.joins

theorem flatten_runs (as : List α) : (C.runs as).flatten = as := List.flatten_splitBy _ _

variable {C}

@[simp] theorem pushAll_nil (pending : List α) : C.pushAll pending [] = ([], pending) := rfl

theorem pushAll_append (pending as bs : List α) :
    C.pushAll pending (as ++ bs) = ((C.pushAll pending as).1 ++
      (C.pushAll (C.pushAll pending as).2 bs).1, (C.pushAll (C.pushAll pending as).2 bs).2) := by
  induction as generalizing pending with
  | nil => rfl
  | cons a as ih => simp [pushAll, ih]

theorem flush_some {b : α} {pending : List α} (hlast : pending.getLast? = some b) :
    flush pending = [pending] := by
  cases pending with
  | nil => cases hlast
  | cons c pending => rfl

@[simp] theorem push_alone {a : α} (h : C.alone a = true) (pending : List α) :
    C.push pending a = (flush pending ++ [[a]], []) := if_pos h

theorem push_first {a : α} (h : C.alone a = false) : C.push [] a = ([], [a]) := by
  simp [push, h, flush]

theorem push_joins {a b : α} {pending : List α} (hlast : pending.getLast? = some b)
    (h : C.joins b a = true) : C.push pending a = ([], pending ++ [a]) := by
  have hnot : C.alone a = false := by
    by_contra ha
    rw [Bool.not_eq_false] at ha
    simp [C.joins_of_alone (.inr ha)] at h
  simp [push, hnot, hlast, h]

theorem push_other {a b : α} {pending : List α} (halone : C.alone a = false)
    (hlast : pending.getLast? = some b) (h : C.joins b a = false) :
    C.push pending a = ([pending], [a]) := by
  simp [push, halone, hlast, h, flush_some hlast]

/-- A write that joins what is kept back. -/
theorem pushAll_joins {a : α} {pending : List α} (halone : C.alone a = false)
    (h : ∀ b, pending.getLast? = some b → C.joins b a = true) (as : List α) :
    C.pushAll pending (a :: as) = C.pushAll (pending ++ [a]) as := by
  cases hlast : pending.getLast? with
  | none =>
    rw [List.getLast?_eq_none_iff] at hlast
    subst hlast
    simp [pushAll, push_first halone]
  | some b => simp [pushAll, push_joins hlast (h b hlast)]

/-- A write that does not join what is kept back, which is passed on. -/
theorem pushAll_other {a b : α} {pending : List α} (hlast : pending.getLast? = some b)
    (h : C.joins b a = false) (as : List α) :
    C.pushAll pending (a :: as) =
      (pending :: (C.pushAll [] (a :: as)).1, (C.pushAll [] (a :: as)).2) := by
  have hpush : C.push pending a = (pending :: (C.push [] a).1, (C.push [] a).2) := by
    cases halone : C.alone a with
    | true =>
      rw [push_alone halone, push_alone halone, flush_some hlast]
      rfl
    | false => rw [push_other halone hlast h, push_first halone]
  simp [pushAll, hpush]

theorem flush_eq {pending : List α} (hchain : pending.IsChain fun a b => C.joins a b = true) :
    flush pending = C.runs pending := by
  cases pending with
  | nil => rfl
  | cons a pending => exact (List.splitBy_of_isChain (List.cons_ne_nil a pending) hchain).symm

/-- A write that stands alone is a run. -/
theorem runs_alone {a : α} (h : C.alone a = true) (as : List α) :
    C.runs (a :: as) = [a] :: C.runs as := by
  have hsplit : ([a] ++ as).splitBy C.joins = [a].splitBy C.joins ++ as.splitBy C.joins :=
    List.splitBy_append fun b hb c _ => by
      obtain rfl : a = b := by simpa using hb
      exact C.joins_of_alone (.inl h)
  exact hsplit

theorem push_kept (pending : List α) (a : α) : (C.push pending a).2 = [] ↔ C.alone a = true := by
  unfold push
  split_ifs with halone hjoins
  · simp [halone]
  · simp [halone]
  · simp [halone]

/-- Nothing is kept back behind a write that stands alone, and only there. -/
theorem pushAll_kept (as : List α) :
    (C.pushAll [] as).2 = [] ↔ ∀ a, as.getLast? = some a → C.alone a = true := by
  induction as using List.reverseRecOn with
  | nil => simp
  | append_singleton as a =>
    rw [pushAll_append, List.getLast?_concat]
    simp [pushAll, push_kept]

/-- The runs that are passed on, and what is kept back at the end, are the
maximal runs of the writes. -/
theorem pushAll_flush {pending : List α} (hchain : pending.IsChain fun a b => C.joins a b = true)
    (as : List α) :
    (C.pushAll pending as).1 ++ flush (C.pushAll pending as).2 = C.runs (pending ++ as) := by
  induction as generalizing pending with
  | nil => rw [pushAll_nil, List.nil_append, List.append_nil, flush_eq hchain]
  | cons a as ih =>
    rw [pushAll, List.append_assoc]
    by_cases halone : C.alone a = true
    · have hsplit : C.runs (pending ++ a :: as) = C.runs pending ++ C.runs (a :: as) :=
        List.splitBy_append_cons as fun b _ => C.joins_of_alone (.inr halone)
      rw [push_alone halone, ih .nil, List.nil_append, hsplit, flush_eq hchain, runs_alone halone,
        List.append_assoc, List.singleton_append]
    · rw [Bool.not_eq_true] at halone
      cases hlast : pending.getLast? with
      | none =>
        rw [List.getLast?_eq_none_iff] at hlast
        subst hlast
        rw [push_first halone, ih (.singleton a)]
        rfl
      | some b =>
        cases hjoins : C.joins b a with
        | true =>
          rw [push_joins hlast hjoins, ih, List.nil_append, List.append_assoc,
            List.singleton_append]
          rw [List.isChain_append]
          refine ⟨hchain, .singleton a, ?_⟩
          intro x hx y hy
          obtain rfl : b = x := by simpa [hlast] using hx
          obtain rfl : a = y := by simpa using hy
          exact hjoins
        | false =>
          have hsplit : C.runs (pending ++ a :: as) = C.runs pending ++ C.runs (a :: as) :=
            List.splitBy_append_cons as fun x hx => by
              obtain rfl : b = x := by simpa [hlast] using hx
              exact hjoins
          rw [push_other halone hlast hjoins, ih (.singleton a), hsplit, ← flush_eq hchain,
            flush_some hlast]
          rfl

end Combiner

end Clibcdc.Memory
