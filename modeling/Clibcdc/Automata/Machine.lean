import Mathlib.Data.List.Basic

/-!
# Machines and their runs

A `Machine` says what an action makes of a state, if the action is possible
there.  A run is a list of actions, each possible where it stands.

* `invariant`: what every step keeps holds in every state that a run reaches.
* `Along`: a condition on the steps of a run.  `invariant_along` is the rule
  for what only the steps that meet the condition keep.
* A `Simulation` relates the states of two machines: a step of the first that
  meets a condition is followed by a run of the second.  Then every run of the
  first along the condition is followed by a run of the second
  (`Simulation.run`).  `run_map` is the rule for step by step.
-/

namespace Clibcdc.Automata

variable {σ τ α β : Type}

structure Machine (σ α : Type) where
  step : σ → α → Option σ

namespace Machine

def run (M : Machine σ α) : σ → List α → Option σ
  | s, [] => some s
  | s, a :: as => (M.step s a).bind fun s' => run M s' as

variable {M : Machine σ α}

theorem run_cons {s s' : σ} {a : α} {as : List α} :
    M.run s (a :: as) = some s' ↔ ∃ t, M.step s a = some t ∧ M.run t as = some s' := by
  rw [run, Option.bind_eq_some_iff]

theorem run_append {s s' : σ} {as bs : List α} :
    M.run s (as ++ bs) = some s' ↔ ∃ t, M.run s as = some t ∧ M.run t bs = some s' := by
  induction as generalizing s with
  | nil => simp [run]
  | cons a as ih =>
    rw [List.cons_append, run_cons]
    constructor
    · rintro ⟨u, hstep, hrun⟩
      obtain ⟨t, has, hbs⟩ := ih.mp hrun
      exact ⟨t, run_cons.mpr ⟨u, hstep, has⟩, hbs⟩
    · rintro ⟨t, hrun, hbs⟩
      obtain ⟨u, hstep, has⟩ := run_cons.mp hrun
      exact ⟨u, hstep, ih.mpr ⟨t, has, hbs⟩⟩

theorem run_singleton {s : σ} {a : α} : M.run s [a] = M.step s a := by
  simp [run]

/-- What every step keeps, every run keeps. -/
theorem invariant {I : σ → Prop} (hkeep : ∀ {s s' a}, I s → M.step s a = some s' → I s')
    {s s' : σ} {as : List α} (hs : I s) (hrun : M.run s as = some s') : I s' := by
  induction as generalizing s with
  | nil =>
    obtain rfl := Option.some.inj hrun
    exact hs
  | cons a as ih =>
    obtain ⟨t, hstep, hrest⟩ := run_cons.mp hrun
    exact ih (hkeep hs hstep) hrest

/-! ## Conditions along a run -/

/-- The condition holds of each action of a run, in the state in which it is
taken. -/
def Along (M : Machine σ α) (C : σ → α → Prop) : σ → List α → Prop
  | _, [] => True
  | s, a :: as => C s a ∧ ∀ s', M.step s a = some s' → Along M C s' as

instance Along.decidable {C : σ → α → Prop} [∀ s a, Decidable (C s a)] (M : Machine σ α) :
    ∀ s as, Decidable (M.Along C s as)
  | _, [] => isTrue trivial
  | s, a :: as =>
    match hstep : M.step s a with
    | none => decidable_of_iff (C s a)
        ⟨fun h => ⟨h, fun s' hs' => by cases hstep.symm.trans hs'⟩, fun h => h.1⟩
    | some t =>
      have := Along.decidable (C := C) M t as
      decidable_of_iff (C s a ∧ M.Along C t as)
        ⟨fun h => ⟨h.1, fun s' hs' => Option.some.inj (hstep.symm.trans hs') ▸ h.2⟩,
          fun h => ⟨h.1, h.2 t hstep⟩⟩

/-- A condition on the actions alone can be added. -/
theorem Along.and_of_forall {C : σ → α → Prop} {P : α → Prop} {s : σ} {as : List α}
    (h : M.Along C s as) (hall : ∀ a ∈ as, P a) : M.Along (fun s a => C s a ∧ P a) s as := by
  induction as generalizing s with
  | nil => trivial
  | cons a as ih =>
    exact ⟨⟨h.1, hall a List.mem_cons_self⟩,
      fun s' hstep => ih (h.2 s' hstep) fun b hb => hall b (List.mem_cons_of_mem a hb)⟩

/-- What the steps that meet the condition keep, every run that meets it
keeps. -/
theorem invariant_along {I : σ → Prop} {C : σ → α → Prop}
    (hkeep : ∀ {s s' a}, I s → C s a → M.step s a = some s' → I s') {s s' : σ} {as : List α}
    (hs : I s) (halong : M.Along C s as) (hrun : M.run s as = some s') : I s' := by
  induction as generalizing s with
  | nil =>
    obtain rfl := Option.some.inj hrun
    exact hs
  | cons a as ih =>
    obtain ⟨t, hstep, hrest⟩ := run_cons.mp hrun
    exact ih (hkeep hs halong.1 hstep) (halong.2 t hstep) hrest

/-! ## Simulation -/

/-- A step of `M` that meets the condition, between related states, is followed
by a run of `N`. -/
def Simulation (M : Machine σ α) (C : σ → α → Prop) (N : Machine τ β) (R : σ → τ → Prop) : Prop :=
  ∀ {s s' t a}, R s t → C s a → M.step s a = some s' → ∃ bs t', N.run t bs = some t' ∧ R s' t'

theorem Simulation.run {C : σ → α → Prop} {N : Machine τ β} {R : σ → τ → Prop}
    (hsim : Simulation M C N R) {s s' : σ} {t : τ} {as : List α} (hs : R s t)
    (halong : M.Along C s as) (hrun : M.run s as = some s') :
    ∃ bs t', N.run t bs = some t' ∧ R s' t' := by
  induction as generalizing s t with
  | nil =>
    obtain rfl := Option.some.inj hrun
    exact ⟨[], t, rfl, hs⟩
  | cons a as ih =>
    obtain ⟨u, hstep, hrest⟩ := run_cons.mp hrun
    obtain ⟨bs, v, hbs, hu⟩ := hsim hs halong.1 hstep
    obtain ⟨bs', t', hbs', hs'⟩ := ih hu (halong.2 u hstep) hrest
    exact ⟨bs ++ bs', t', run_append.mpr ⟨v, hbs, hbs'⟩, hs'⟩

/-- When each step is followed by one step, whose action is a function of the
first, so is each run. -/
theorem run_map {N : Machine τ β} {R : σ → τ → Prop} {f : α → β}
    (hstep : ∀ {s s' t a}, R s t → M.step s a = some s' → ∃ t', N.step t (f a) = some t' ∧ R s' t')
    {s s' : σ} {t : τ} {as : List α} (hs : R s t) (hrun : M.run s as = some s') :
    ∃ t', N.run t (as.map f) = some t' ∧ R s' t' := by
  induction as generalizing s t with
  | nil =>
    obtain rfl := Option.some.inj hrun
    exact ⟨t, rfl, hs⟩
  | cons a as ih =>
    obtain ⟨u, hu, hrest⟩ := run_cons.mp hrun
    obtain ⟨v, hv, hnext⟩ := hstep hs hu
    obtain ⟨t', ht', hs'⟩ := ih hnext hrest
    exact ⟨t', run_cons.mpr ⟨v, hv, ht'⟩, hs'⟩

end Machine

end Clibcdc.Automata
