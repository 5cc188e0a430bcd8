import Mathlib.Data.List.Forall2

/-!
# Scanning a word with a partial automaton

`scan step stop s n w` reads `w` from the state `s`, counting positions from
`n`.  It ends in one of three ways: a state of `stop` is reached, no
transition leaves the state, or the word is used up.

* `scan_append_of_ended`, `scan_append_of_stuck` and `scan_append_of_stopped`
  say what more input does to a scan: only a scan that used up its word goes
  on.
* `scan_ended`, `scan_stopped` and `scan_stuck` read back what was read, from
  a relation between states and words that every transition keeps.
* `Spelling step text reads` says that every transition into a state adds one
  symbol to the text of that state.  It exists when the transitions form a
  tree, and `Spelling.spells` is then such a relation.
-/

namespace Clibcdc.Automata

variable {σ α κ : Type}

/-- How the scan of a word ends.  `stuck` and `stopped` carry the position of
the first symbol that was not consumed. -/
inductive Scan (σ : Type) where
  | ended (s : σ)
  | stuck (n : Nat)
  | stopped (s : σ) (n : Nat)
  deriving DecidableEq, Repr

/-- Read a word from state `s`, whose first symbol is at position `n`. -/
def scan (step : σ → α → Option σ) (stop : σ → Bool) : σ → Nat → List α → Scan σ
  | s, n, [] => if stop s then .stopped s n else .ended s
  | s, n, a :: w =>
    if stop s then .stopped s n
    else
      match step s a with
      | none => .stuck n
      | some s' => scan step stop s' (n + 1) w

variable {step : σ → α → Option σ} {stop : σ → Bool}

/-! ## More input -/

theorem scan_of_stop {s : σ} (h : stop s = true) (n : Nat) (w : List α) :
    scan step stop s n w = .stopped s n := by
  cases w <;> simp [scan, h]

/-- A scan that used up its word goes on with what is appended. -/
theorem scan_append_of_ended {s s' : σ} {n : Nat} {w : List α} (v : List α)
    (h : scan step stop s n w = .ended s') :
    scan step stop s n (w ++ v) = scan step stop s' (n + w.length) v := by
  induction w generalizing s n with
  | nil =>
    by_cases hs : stop s
    · simp [scan, hs] at h
    · obtain rfl : s = s' := by simpa [scan, hs] using h
      simp
  | cons a w ih =>
    by_cases hs : stop s
    · simp [scan, hs] at h
    · cases ha : step s a with
      | none => simp [scan, hs, ha] at h
      | some s₁ =>
        have hw : scan step stop s₁ (n + 1) w = .ended s' := by
          simpa [scan, hs, ha] using h
        have hn : n + (a :: w).length = n + 1 + w.length := by
          simp only [List.length_cons]; omega
        rw [hn, ← ih hw]
        simp [scan, hs, ha]

/-- A stuck scan stays stuck at the same position. -/
theorem scan_append_of_stuck {s : σ} {n k : Nat} {w : List α} (v : List α)
    (h : scan step stop s n w = .stuck k) :
    scan step stop s n (w ++ v) = .stuck k := by
  induction w generalizing s n with
  | nil => by_cases hs : stop s <;> simp [scan, hs] at h
  | cons a w ih =>
    by_cases hs : stop s
    · simp [scan, hs] at h
    · cases ha : step s a with
      | none => simpa [scan, hs, ha] using h
      | some s₁ =>
        have hw : scan step stop s₁ (n + 1) w = .stuck k := by
          simpa [scan, hs, ha] using h
        simpa [scan, hs, ha] using ih hw

/-- A scan that reached a stop state stopped for good. -/
theorem scan_append_of_stopped {s s' : σ} {n k : Nat} {w : List α} (v : List α)
    (h : scan step stop s n w = .stopped s' k) :
    scan step stop s n (w ++ v) = .stopped s' k := by
  induction w generalizing s n with
  | nil =>
    by_cases hs : stop s
    · obtain ⟨rfl, rfl⟩ : s = s' ∧ n = k := by simpa [scan, hs] using h
      simpa using scan_of_stop hs n v
    · simp [scan, hs] at h
  | cons a w ih =>
    by_cases hs : stop s
    · obtain ⟨rfl, rfl⟩ : s = s' ∧ n = k := by simpa [scan, hs] using h
      simpa using scan_of_stop hs n (a :: (w ++ v))
    · cases ha : step s a with
      | none => simp [scan, hs, ha] at h
      | some s₁ =>
        have hw : scan step stop s₁ (n + 1) w = .stopped s' k := by
          simpa [scan, hs, ha] using h
        simpa [scan, hs, ha] using ih hw

/-- The positions of a scan are relative to the one it starts at. -/
theorem scan_stopped_add {s s' : σ} {n k : Nat} {w : List α} (m : Nat)
    (h : scan step stop s n w = .stopped s' k) :
    scan step stop s (n + m) w = .stopped s' (k + m) := by
  induction w generalizing s n with
  | nil =>
    by_cases hs : stop s
    · obtain ⟨rfl, rfl⟩ : s = s' ∧ n = k := by simpa [scan, hs] using h
      exact scan_of_stop hs _ _
    · simp [scan, hs] at h
  | cons a w ih =>
    by_cases hs : stop s
    · obtain ⟨rfl, rfl⟩ : s = s' ∧ n = k := by simpa [scan, hs] using h
      exact scan_of_stop hs _ _
    · cases ha : step s a with
      | none => simp [scan, hs, ha] at h
      | some s₁ =>
        have hw : scan step stop s₁ (n + 1) w = .stopped s' k := by
          simpa [scan, hs, ha] using h
        have hn : n + m + 1 = n + 1 + m := by omega
        simpa [scan, hs, ha, hn] using ih hw

/-- Symbols that leave the state as it is only move the position. -/
theorem scan_append_of_loop {s : σ} {w : List α} (n : Nat) (v : List α) (hs : stop s = false)
    (hw : ∀ a ∈ w, step s a = some s) :
    scan step stop s n (w ++ v) = scan step stop s (n + w.length) v := by
  induction w generalizing n with
  | nil => rfl
  | cons a w ih =>
    have ha : step s a = some s := hw a List.mem_cons_self
    have hrest := ih (n + 1) fun b hb => hw b (List.mem_cons_of_mem a hb)
    have hn : n + (a :: w).length = n + 1 + w.length := by
      simp only [List.length_cons]; omega
    rw [hn, ← hrest]
    simp [scan, hs, ha]

/-- One transition. -/
theorem scan_cons {s s' : σ} {a : α} (n : Nat) (w : List α) (hs : stop s = false)
    (ha : step s a = some s') :
    scan step stop s n (a :: w) = scan step stop s' (n + 1) w := by
  simp [scan, hs, ha]

/-! ## Reading back what was read

`P s p` says what is known when the automaton is in state `s` and has read
`p`.  When every transition keeps it, a scan keeps it. -/

section Invariant

variable {P : σ → List α → Prop}

theorem scan_ended (hstep : ∀ s s' a p, P s p → step s a = some s' → P s' (p ++ [a]))
    {s s' : σ} {n : Nat} {p w : List α} (hp : P s p)
    (hw : scan step stop s n w = .ended s') :
    stop s' = false ∧ P s' (p ++ w) := by
  induction w generalizing s n p with
  | nil =>
    by_cases hs : stop s
    · simp [scan, hs] at hw
    · obtain rfl : s = s' := by simpa [scan, hs] using hw
      exact ⟨by simpa using hs, by simpa using hp⟩
  | cons a w ih =>
    by_cases hs : stop s
    · simp [scan, hs] at hw
    · cases ha : step s a with
      | none => simp [scan, hs, ha] at hw
      | some s₁ =>
        have hw' : scan step stop s₁ (n + 1) w = .ended s' := by
          simpa [scan, hs, ha] using hw
        simpa using ih (hstep s s₁ a p hp ha) hw'

theorem scan_stopped (hstep : ∀ s s' a p, P s p → step s a = some s' → P s' (p ++ [a]))
    {s s' : σ} {n k : Nat} {p w : List α} (hp : P s p)
    (hw : scan step stop s n w = .stopped s' k) :
    stop s' = true ∧ ∃ u v, w = u ++ v ∧ k = n + u.length ∧ P s' (p ++ u) := by
  induction w generalizing s n p with
  | nil =>
    by_cases hs : stop s
    · obtain ⟨rfl, rfl⟩ : s = s' ∧ n = k := by simpa [scan, hs] using hw
      exact ⟨hs, [], [], by simp, by simp, by simpa using hp⟩
    · simp [scan, hs] at hw
  | cons a w ih =>
    by_cases hs : stop s
    · obtain ⟨rfl, rfl⟩ : s = s' ∧ n = k := by simpa [scan, hs] using hw
      exact ⟨hs, [], a :: w, by simp, by simp, by simpa using hp⟩
    · cases ha : step s a with
      | none => simp [scan, hs, ha] at hw
      | some s₁ =>
        have hw' : scan step stop s₁ (n + 1) w = .stopped s' k := by
          simpa [scan, hs, ha] using hw
        obtain ⟨hstop, u, v, rfl, rfl, hu⟩ := ih (hstep s s₁ a p hp ha) hw'
        refine ⟨hstop, a :: u, v, rfl, ?_, by simpa using hu⟩
        simp only [List.length_cons]
        omega

end Invariant

/-- A stuck scan used up a word, and the next symbol is the one it is stuck
at. -/
theorem scan_stuck {s : σ} {n k : Nat} {w : List α}
    (hw : scan step stop s n w = .stuck k) :
    ∃ u a v s', w = u ++ a :: v ∧ k = n + u.length ∧
      scan step stop s n u = .ended s' ∧ scan step stop s n (u ++ [a]) = .stuck k := by
  induction w generalizing s n with
  | nil => by_cases hs : stop s <;> simp [scan, hs] at hw
  | cons a w ih =>
    by_cases hs : stop s
    · simp [scan, hs] at hw
    · cases ha : step s a with
      | none =>
        obtain rfl : n = k := by simpa [scan, hs, ha] using hw
        exact ⟨[], a, w, s, by simp, by simp, by simp [scan, hs], by simp [scan, hs, ha]⟩
      | some s₁ =>
        have hw' : scan step stop s₁ (n + 1) w = .stuck k := by
          simpa [scan, hs, ha] using hw
        obtain ⟨u, b, v, s', rfl, rfl, hu, hb⟩ := ih hw'
        refine ⟨a :: u, b, v, s', rfl, ?_, by simpa [scan, hs, ha] using hu, ?_⟩
        · simp only [List.length_cons]
          omega
        · rw [List.cons_append, scan_cons n _ (by simpa using hs) ha, hb]

/-! ## Trees -/

/-- Every transition into a state appends one symbol to the state's text, and
the symbol reads the input of the transition. -/
structure Spelling (step : σ → α → Option σ) (text : σ → List κ)
    (reads : κ → α → Prop) : Prop where
  step_text : ∀ {s s' : σ} {a : α}, step s a = some s' →
    ∃ c, text s' = text s ++ [c] ∧ reads c a

/-- The text of a state spells the word read, whatever the transition. -/
theorem Spelling.spells {text : σ → List κ} {reads : κ → α → Prop}
    (h : Spelling step text reads) (s s' : σ) (a : α) (p : List α)
    (hp : List.Forall₂ reads (text s) p) (hs : step s a = some s') :
    List.Forall₂ reads (text s') (p ++ [a]) := by
  obtain ⟨c, htext, hc⟩ := h.step_text hs
  rw [htext]
  exact List.rel_append hp (.cons hc .nil)

end Clibcdc.Automata
