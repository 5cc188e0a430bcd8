import Mathlib.Data.List.Basic

/-!
# Draining a word and feeding it in pieces

A `Lexer` takes items off the front of a word, as long as `look` finds one.
`norm` is what it does to the front of the word that it keeps.

* `drain` takes items until none is left, and keeps the rest.
* An item at the front of a word is `Stable` under `v` when it is still the
  item at the front after `v` has been appended.
* `drain_append`: draining a word and then the rest with `v` appended is
  draining both at once, as long as every item on the way is stable.
* `feed` reads a word in pieces and drains whenever a trigger says so.
  `feed_append` is the same law for it: whatever the trigger, what has been
  taken plus what the rest still holds is what the whole word holds.

A word `Reaches` what is left of it on the way, and feeding `Visits` the words
that it looks at.
-/

namespace Clibcdc.Automata

variable {α ε : Type}

structure Lexer (α ε : Type) where
  look : List α → Option (ε × List α)
  norm : List α → List α
  look_shrinks : ∀ {w e rest}, look w = some (e, rest) → rest.length < w.length
  look_norm_append : ∀ w v, look (norm w ++ v) = look (w ++ v)
  norm_norm_append : ∀ w v, norm (norm w ++ v) = norm (w ++ v)

namespace Lexer

variable (L : Lexer α ε)

/-! ## Draining -/

def drainFrom : Nat → List α → List ε × List α
  | 0, w => ([], L.norm w)
  | fuel + 1, w =>
    match L.look w with
    | none => ([], L.norm w)
    | some (e, rest) => (e :: (drainFrom fuel rest).1, (drainFrom fuel rest).2)

/-- Each item takes at least one symbol. -/
def drain (w : List α) : List ε × List α := L.drainFrom w.length w

theorem look_nil : L.look [] = none := by
  cases h : L.look [] with
  | none => rfl
  | some item => exact absurd (L.look_shrinks h) (Nat.not_lt_zero _)

theorem drainFrom_fuel {fuel fuel' : Nat} {w : List α} (h : w.length ≤ fuel)
    (h' : w.length ≤ fuel') : L.drainFrom fuel w = L.drainFrom fuel' w := by
  induction fuel generalizing fuel' w with
  | zero =>
    obtain rfl : w = [] := List.length_eq_zero_iff.mp (by omega)
    cases fuel' with
    | zero => rfl
    | succ fuel' => simp [drainFrom, L.look_nil]
  | succ fuel ih =>
    cases fuel' with
    | zero =>
      obtain rfl : w = [] := List.length_eq_zero_iff.mp (by omega)
      simp [drainFrom, L.look_nil]
    | succ fuel' =>
      cases hlook : L.look w with
      | none => simp [drainFrom, hlook]
      | some item =>
        have hlt := L.look_shrinks hlook
        simp [drainFrom, hlook, @ih fuel' item.2 (by omega) (by omega)]

theorem drain_of_none {w : List α} (h : L.look w = none) : L.drain w = ([], L.norm w) := by
  rw [drain]
  cases w.length with
  | zero => rfl
  | succ fuel => simp [drainFrom, h]

theorem drain_of_some {w rest : List α} {e : ε} (h : L.look w = some (e, rest)) :
    L.drain w = (e :: (L.drain rest).1, (L.drain rest).2) := by
  have hlt := L.look_shrinks h
  obtain ⟨fuel, hfuel⟩ : ∃ fuel, w.length = fuel + 1 := ⟨w.length - 1, by omega⟩
  rw [drain, hfuel]
  simp only [drainFrom, h, drain]
  rw [L.drainFrom_fuel (by omega) (Nat.le_refl rest.length)]

theorem drain_nil : L.drain [] = ([], L.norm []) := L.drain_of_none L.look_nil

/-- The front that is kept drains like the front that was given. -/
theorem drain_norm_append (w v : List α) : L.drain (L.norm w ++ v) = L.drain (w ++ v) := by
  cases h : L.look (w ++ v) with
  | none =>
    rw [L.drain_of_none h, L.drain_of_none (by rw [L.look_norm_append, h]), L.norm_norm_append]
  | some item => rw [L.drain_of_some h, L.drain_of_some (by rw [L.look_norm_append, h])]

theorem drain_norm (w : List α) : L.drain (L.norm w) = L.drain w := by
  simpa using L.drain_norm_append w []

/-- Induction along the items of a word. -/
theorem drain_induction {motive : List α → Prop} (waits : ∀ w, L.look w = none → motive w)
    (takes : ∀ w e rest, L.look w = some (e, rest) → motive rest → motive w) (w : List α) :
    motive w := by
  induction hlen : w.length using Nat.strongRecOn generalizing w with
  | ind n ih =>
    cases h : L.look w with
    | none => exact waits w h
    | some item =>
      have hlt := L.look_shrinks h
      exact takes w item.1 item.2 h (ih _ (by omega) item.2 rfl)

/-- Nothing is left to take from what a drain keeps. -/
theorem look_drain (w : List α) : L.look (L.drain w).2 = none := by
  induction w using L.drain_induction with
  | waits w h =>
    have hnorm := L.look_norm_append w []
    simp only [List.append_nil] at hnorm
    rw [L.drain_of_none h, hnorm, h]
  | takes w e rest h ih => rwa [L.drain_of_some h]

/-! ## Fusion -/

/-- The item at the front of `w`, if there is one, does not change when `v` is
appended. -/
def Stable (w v : List α) : Prop :=
  ∀ e rest, L.look w = some (e, rest) → L.look (w ++ v) = some (e, rest ++ v)

variable {L}

/-- What is left of a word after some of its items have been taken. -/
inductive Reaches (L : Lexer α ε) : List α → List α → Prop
  | refl (w : List α) : Reaches L w w
  | takes {w rest r : List α} {e : ε} (hlook : L.look w = some (e, rest))
      (hrest : Reaches L rest r) : Reaches L w r

/-- What `look` keeps holds on the way. -/
theorem Reaches.keeps {P : List α → Prop} {w r : List α} (h : L.Reaches w r)
    (hkeep : ∀ w e rest, P w → L.look w = some (e, rest) → P rest) (hw : P w) : P r := by
  induction h with
  | refl w => exact hw
  | takes hlook _ ih => exact ih (hkeep _ _ _ hw hlook)

/-- The items of a drain are those at the front of what it reaches. -/
theorem mem_drain {w : List α} {e : ε} :
    e ∈ (L.drain w).1 ↔ ∃ r rest, L.Reaches w r ∧ L.look r = some (e, rest) := by
  induction w using L.drain_induction with
  | waits w h =>
    rw [L.drain_of_none h]
    constructor
    · intro hmem
      cases hmem
    · rintro ⟨r, rest, hreach, hlook⟩
      cases hreach with
      | refl => cases h.symm.trans hlook
      | takes hlook' _ => cases h.symm.trans hlook'
  | takes w e' rest h ih =>
    rw [L.drain_of_some h, List.mem_cons, ih]
    constructor
    · rintro (rfl | ⟨r, rest', hreach, hlook⟩)
      · exact ⟨w, rest, .refl w, h⟩
      · exact ⟨r, rest', .takes h hreach, hlook⟩
    · rintro ⟨r, rest', hreach, hlook⟩
      cases hreach with
      | refl =>
        obtain ⟨rfl, -⟩ := Prod.mk.inj (Option.some.inj (h.symm.trans hlook))
        exact .inl rfl
      | takes hlook' hreach =>
        obtain ⟨-, rfl⟩ := Prod.mk.inj (Option.some.inj (h.symm.trans hlook'))
        exact .inr ⟨r, rest', hreach, hlook⟩

/-- Draining in two steps. -/
theorem drain_append {v w : List α} (hstable : ∀ r, L.Reaches w r → L.Stable r v) :
    L.drain (w ++ v) =
      ((L.drain w).1 ++ (L.drain ((L.drain w).2 ++ v)).1, (L.drain ((L.drain w).2 ++ v)).2) := by
  induction w using L.drain_induction with
  | waits w h => rw [L.drain_of_none h, L.drain_norm_append, List.nil_append]
  | takes w e rest h ih =>
    rw [L.drain_of_some (hstable w (.refl w) e rest h), L.drain_of_some h,
      ih fun r hr => hstable r (.takes h hr)]
    rfl

/-- What a drain keeps is the front, normalised, of something that it reaches. -/
theorem drain_rest (w : List α) :
    ∃ r, L.Reaches w r ∧ L.look r = none ∧ (L.drain w).2 = L.norm r := by
  induction w using L.drain_induction with
  | waits w h => exact ⟨w, .refl w, h, by rw [L.drain_of_none h]⟩
  | takes w e rest h ih =>
    obtain ⟨r, hreach, hlook, hrest⟩ := ih
    exact ⟨r, .takes h hreach, hlook, by rw [L.drain_of_some h, hrest]⟩

/-! ## Feeding -/

/-- Append the pieces one by one, and drain when the trigger says so. -/
def feed (L : Lexer α ε) (trigger : List α → Bool) :
    List α → List (List α) → List ε × List α
  | w, [] => ([], w)
  | w, piece :: pieces =>
    if trigger (w ++ piece) then
      ((L.drain (w ++ piece)).1 ++ (feed L trigger (L.drain (w ++ piece)).2 pieces).1,
        (feed L trigger (L.drain (w ++ piece)).2 pieces).2)
    else feed L trigger (w ++ piece) pieces

theorem feed_cons (trigger : List α → Bool) (w piece : List α) (pieces : List (List α)) :
    feed L trigger w (piece :: pieces) =
      ((feed L trigger w [piece]).1 ++ (feed L trigger (feed L trigger w [piece]).2 pieces).1,
        (feed L trigger (feed L trigger w [piece]).2 pieces).2) := by
  by_cases htrigger : trigger (w ++ piece) = true
  · simp [feed, htrigger]
  · simp [feed, htrigger]

theorem feed_concat (trigger : List α → Bool) (w : List α) (pieces : List (List α))
    (piece : List α) :
    feed L trigger w (pieces ++ [piece]) =
      ((feed L trigger w pieces).1 ++ (feed L trigger (feed L trigger w pieces).2 [piece]).1,
        (feed L trigger (feed L trigger w pieces).2 [piece]).2) := by
  induction pieces generalizing w with
  | nil => rfl
  | cons first pieces ih =>
    rw [List.cons_append, feed_cons, feed_cons trigger w first pieces, ih, List.append_assoc]

/-- When the last piece always drains, nothing is left to take behind it. -/
theorem look_feed {trigger : List α → Bool} {pieces : List (List α)} {piece : List α}
    (htrigger : ∀ w, trigger (w ++ piece) = true) (w : List α) :
    L.look (feed L trigger w (pieces ++ [piece])).2 = none := by
  rw [feed_concat]
  simp only [feed, if_pos (htrigger _)]
  exact L.look_drain _

theorem feed_of_trigger {trigger : List α → Bool} {w piece : List α}
    (h : trigger (w ++ piece) = true) :
    feed L trigger w [piece] = L.drain (w ++ piece) := by
  simp [feed, h]

theorem feed_of_not_trigger {trigger : List α → Bool} {w piece : List α}
    (h : trigger (w ++ piece) = false) : feed L trigger w [piece] = ([], w ++ piece) := by
  simp [feed, h]

/-- Empty pieces bring nothing. -/
theorem feed_nil (trigger : List α → Bool) (hnorm : L.norm [] = []) {pieces : List (List α)}
    (hpieces : pieces.flatten = []) : feed L trigger [] pieces = ([], []) := by
  induction pieces with
  | nil => rfl
  | cons piece pieces ih =>
    rw [List.flatten_cons, List.append_eq_nil_iff] at hpieces
    obtain ⟨rfl, hpieces⟩ := hpieces
    simp [feed, drain_nil, hnorm, ih hpieces]

/-- One of the pieces behind `w` ends at position `n` of the word, or `w` does. -/
def Cut (w : List α) (pieces : List (List α)) (n : Nat) : Prop :=
  ∃ pre, pre <+: pieces ∧ (w ++ pre.flatten).length = n

theorem cut_cons {w piece : List α} {pieces : List (List α)} {n : Nat} :
    Cut w (piece :: pieces) n ↔ n = w.length ∨ Cut (w ++ piece) pieces n := by
  constructor
  · rintro ⟨pre, hpre, rfl⟩
    cases pre with
    | nil => exact .inl (by simp)
    | cons first pre =>
      rw [List.cons_prefix_cons] at hpre
      obtain ⟨rfl, hpre⟩ := hpre
      exact .inr ⟨pre, hpre, by simp⟩
  · rintro (rfl | ⟨pre, hpre, rfl⟩)
    · exact ⟨[], List.nil_prefix, by simp⟩
    · exact ⟨piece :: pre, by simpa using hpre, by simp⟩

theorem Cut.le {w : List α} {pieces : List (List α)} {n : Nat} (h : Cut w pieces n) :
    n ≤ (w ++ pieces.flatten).length := by
  obtain ⟨pre, ⟨post, rfl⟩, rfl⟩ := h
  simp

/-- The last piece ends with the word. -/
theorem cut_length (w : List α) (pieces : List (List α)) :
    Cut w pieces (w ++ pieces.flatten).length := ⟨pieces, List.prefix_refl pieces, rfl⟩

/-- Either no item is taken and the word is kept, or there is a first cut at
which an item is taken.  The word is one that `norm` does not change. -/
theorem feed_cut (trigger : List α → Bool) {w word : List α} {pieces : List (List α)}
    (hnorm : ∀ n, L.norm (word.take n) = word.take n) (hword : w ++ pieces.flatten = word)
    (hw : trigger w = true → L.look w = none) :
    (feed L trigger w pieces = ([], word) ∧
      ∀ n, Cut w pieces n → trigger (word.take n) = true → L.look (word.take n) = none) ∨
    ∃ n post e rest, Cut w pieces n ∧ trigger (word.take n) = true ∧
      L.look (word.take n) = some (e, rest) ∧
      (∀ m, Cut w pieces m → m < n → trigger (word.take m) = true → L.look (word.take m) = none) ∧
      post.flatten = word.drop n ∧ post <:+ pieces ∧
      feed L trigger w pieces =
        ((L.drain (word.take n)).1 ++ (feed L trigger (L.drain (word.take n)).2 post).1,
          (feed L trigger (L.drain (word.take n)).2 post).2) := by
  subst hword
  induction pieces generalizing w with
  | nil =>
    refine .inl ⟨by simp [feed], fun n hcut => ?_⟩
    obtain ⟨pre, hpre, rfl⟩ := hcut
    obtain rfl := List.prefix_nil.mp hpre
    simpa using hw
  | cons piece pieces ih =>
    have hassoc : w ++ (piece :: pieces).flatten = w ++ piece ++ pieces.flatten := by simp
    rw [hassoc] at hnorm ⊢
    have htake : (w ++ piece ++ pieces.flatten).take (w ++ piece).length = w ++ piece :=
      List.take_left
    have hstart : (w ++ piece ++ pieces.flatten).take w.length = w := by simp
    by_cases htaken : trigger (w ++ piece) = true ∧ L.look (w ++ piece) ≠ none
    · obtain ⟨item, hlook⟩ := Option.ne_none_iff_exists'.mp htaken.2
      refine .inr ⟨(w ++ piece).length, pieces, item.1, item.2,
        cut_cons.mpr (.inr ⟨[], List.nil_prefix, by simp⟩), by rw [htake]; exact htaken.1,
        by rw [htake]; exact hlook, fun m hcut hm => ?_, by simp, List.suffix_cons piece pieces,
        by rw [htake, feed, if_pos htaken.1]⟩
      rcases cut_cons.mp hcut with rfl | ⟨pre, -, rfl⟩
      · rwa [hstart]
      · simp only [List.length_append] at hm
        omega
    · have hwaits : trigger (w ++ piece) = true → L.look (w ++ piece) = none := by
        intro htrigger
        by_contra hlook
        exact htaken ⟨htrigger, hlook⟩
      -- the piece changes nothing but the word that is kept
      have hfeed : feed L trigger w [piece] = ([], w ++ piece) := by
        by_cases htrigger : trigger (w ++ piece) = true
        · have hpiece := hnorm (w ++ piece).length
          rw [htake] at hpiece
          rw [feed_of_trigger htrigger, L.drain_of_none (hwaits htrigger), hpiece]
        · exact feed_of_not_trigger (by simpa using htrigger)
      rw [feed_cons, hfeed]
      rcases ih hwaits hnorm with
        ⟨hall, hnone⟩ | ⟨n, post, e, rest, hcut, h₁, h₂, hearly, hpost, hsuffix, h₃⟩
      · refine .inl ⟨by simp [hall], fun n hcut => ?_⟩
        rcases cut_cons.mp hcut with rfl | hcut
        · rwa [hstart]
        · exact hnone n hcut
      · refine .inr ⟨n, post, e, rest, cut_cons.mpr (.inr hcut), h₁, h₂, fun m hcut' hm => ?_,
          hpost, hsuffix.trans (List.suffix_cons piece pieces), by simp [h₃]⟩
        rcases cut_cons.mp hcut' with rfl | hcut'
        · rwa [hstart]
        · exact hearly m hcut' hm

/-- A word `r` that is looked at while the pieces are fed, and what is still to
come behind it. -/
inductive Visits (L : Lexer α ε) (trigger : List α → Bool) :
    List α → List (List α) → List α → List α → Prop
  | here {w piece r : List α} {pieces : List (List α)} (htrigger : trigger (w ++ piece) = true)
      (hreach : L.Reaches (w ++ piece) r) : Visits L trigger w (piece :: pieces) r pieces.flatten
  | later {w piece r v : List α} {pieces : List (List α)}
      (hlater : Visits L trigger (feed L trigger w [piece]).2 pieces r v) :
      Visits L trigger w (piece :: pieces) r v

/-- The items that are fed are those at the front of the words looked at. -/
theorem mem_feed {trigger : List α → Bool} {w : List α} {pieces : List (List α)} {e : ε} :
    e ∈ (feed L trigger w pieces).1 ↔
      ∃ r v rest, Visits L trigger w pieces r v ∧ L.look r = some (e, rest) := by
  induction pieces generalizing w with
  | nil =>
    constructor
    · intro hmem
      cases hmem
    · rintro ⟨r, v, rest, hvisits, -⟩
      cases hvisits
  | cons piece pieces ih =>
    rw [feed_cons, List.mem_append, ih]
    constructor
    · rintro (hmem | ⟨r, v, rest, hvisits, hlook⟩)
      · by_cases htrigger : trigger (w ++ piece) = true
        · rw [feed_of_trigger htrigger, mem_drain] at hmem
          obtain ⟨r, rest, hreach, hlook⟩ := hmem
          exact ⟨r, _, rest, .here htrigger hreach, hlook⟩
        · rw [feed_of_not_trigger (by simpa using htrigger)] at hmem
          cases hmem
      · exact ⟨r, v, rest, .later hvisits, hlook⟩
    · rintro ⟨r, v, rest, hvisits, hlook⟩
      cases hvisits with
      | here htrigger hreach =>
        left
        rw [feed_of_trigger htrigger, mem_drain]
        exact ⟨r, rest, hreach, hlook⟩
      | later hlater => exact .inr ⟨r, v, rest, hlater, hlook⟩

/-- What has been taken, and what the rest still holds, is what the whole word
holds, when no item that is looked at depends on what is still to come. -/
theorem feed_append {trigger : List α → Bool} {w : List α} {pieces : List (List α)}
    (hstable : ∀ r v, Visits L trigger w pieces r v → L.Stable r v) :
    L.drain (w ++ pieces.flatten) =
      ((feed L trigger w pieces).1 ++ (L.drain (feed L trigger w pieces).2).1,
        (L.drain (feed L trigger w pieces).2).2) := by
  induction pieces generalizing w with
  | nil =>
    rw [List.flatten_nil, List.append_nil]
    rfl
  | cons piece pieces ih =>
    have hrest := ih fun r v h => hstable r v (.later h)
    rw [List.flatten_cons, ← List.append_assoc, feed_cons]
    by_cases htrigger : trigger (w ++ piece) = true
    · rw [feed_of_trigger htrigger] at hrest ⊢
      rw [drain_append fun r hr => hstable r _ (.here htrigger hr), hrest, List.append_assoc]
    · rw [feed_of_not_trigger (by simpa using htrigger)] at hrest ⊢
      exact hrest

/-- What is known while a word is fed: `atRest w v` when `w` is kept and `v` is
still to come, and `draining w v` while items are taken from `w`. -/
structure FeedInvariant (L : Lexer α ε) (trigger : List α → Bool)
    (atRest draining : List α → List α → Prop) : Prop where
  takes : ∀ {w v e rest}, draining w v → L.look w = some (e, rest) → draining rest v
  waits : ∀ {w v}, draining w v → L.look w = none → atRest (L.norm w) v
  drains : ∀ {w piece v}, atRest w (piece ++ v) → trigger (w ++ piece) = true →
    draining (w ++ piece) v
  reads : ∀ {w piece v}, atRest w (piece ++ v) → trigger (w ++ piece) = false →
    atRest (w ++ piece) v

namespace FeedInvariant

variable {trigger : List α → Bool} {atRest draining : List α → List α → Prop} {w : List α}
  {pieces : List (List α)}

/-- One piece keeps the invariant. -/
theorem step (hinv : FeedInvariant L trigger atRest draining) {piece v : List α}
    (hw : atRest w (piece ++ v)) : atRest (feed L trigger w [piece]).2 v := by
  by_cases htrigger : trigger (w ++ piece) = true
  · obtain ⟨r, hreach, hlook, hrest⟩ := drain_rest (L := L) (w ++ piece)
    rw [feed_of_trigger htrigger, hrest]
    refine hinv.waits (hreach.keeps (fun _ _ _ h => hinv.takes h) ?_) hlook
    exact hinv.drains hw htrigger
  · rw [feed_of_not_trigger (by simpa using htrigger)]
    exact hinv.reads hw (by simpa using htrigger)

theorem atRest_feed (hinv : FeedInvariant L trigger atRest draining)
    (hw : atRest w pieces.flatten) : atRest (feed L trigger w pieces).2 [] := by
  induction pieces generalizing w with
  | nil => exact hw
  | cons piece pieces ih =>
    rw [feed_cons]
    exact ih (hinv.step hw)

theorem visits (hinv : FeedInvariant L trigger atRest draining) (hw : atRest w pieces.flatten)
    {r v : List α} (hvisits : Visits L trigger w pieces r v) : draining r v := by
  induction hvisits with
  | here htrigger hreach =>
    refine hreach.keeps (P := (draining · _)) (fun _ _ _ h => hinv.takes h) ?_
    exact hinv.drains hw htrigger
  | later _ ih => exact ih (hinv.step hw)

end FeedInvariant

end Lexer

end Clibcdc.Automata
