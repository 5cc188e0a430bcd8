import Clibcdc.Session.Lifecycle
import Clibcdc.Session.Listening

/-!
# A life from end to end

What `Clibcdc.Session.EndToEnd` says about a session holds over the whole life of
an object, with a listener that comes and goes: from `openPort` on, through the
calls, to the last handle that the destructor closes.

A life follows a run of the system (`Lives`), and so one of the exchange of
frames.  The two differ in the listener and in what it has heard, and the reader
thread of the system is never told to end: that of the life returns from where
the other one waits in `select`.
-/

namespace Clibcdc

open Clibcdc.Automata Clibcdc.Parser Clibcdc.Reader

/-! ## The listener -/

/-- Whether a listener is registered behind the actions. -/
def registered : Bool → List LifetimeAction → Bool
  | listener, [] => listener
  | _, .setAsyncListener listener :: actions => registered listener actions
  | listener, _ :: actions => registered listener actions

theorem registered_append (listener : Bool) (actions actions' : List LifetimeAction) :
    registered listener (actions ++ actions') =
      registered (registered listener actions) actions' := by
  induction actions generalizing listener with
  | nil => rfl
  | cons action actions ih => cases action <;> exact ih _

theorem loopTest_impl (l : Lifetime) : l.loopTest.system.impl = l.system.impl := by
  unfold Lifetime.loopTest
  split_ifs <;> rfl

theorem selectRound_heard {l l' : Lifetime} {answer : SelectAnswer}
    (h : l.selectRound answer = some l') : Heard l.system.impl l'.system.impl := by
  rcases answer with _ | _ | _ | _ | buflen
  · obtain rfl := Option.some.inj h
    exact throws_heard l.system l.system.impl _
  · obtain rfl := Option.some.inj h
    exact .refl _
  · obtain rfl := Option.some.inj h
    rw [loopTest_impl]
    exact .refl _
  · obtain rfl := Option.some.inj h
    exact throws_heard l.system l.system.impl _
  · obtain ⟨system, hstep, rfl⟩ := Option.map_eq_some_iff.mp h
    rw [loopTest_impl]
    exact system_heard hstep

theorem lifetime_step_heard {l l' : Lifetime} {action : LifetimeAction}
    (hkeeps : ∀ listener, action ≠ .setAsyncListener listener)
    (hstep : lifetime.step l action = some l') : Heard l.system.impl l'.system.impl := by
  have hact := Lifetime.act_of_step hstep
  -- the owner by itself does not touch the system
  have hsame : ∀ {l' : Lifetime}, l'.system = l.system → Heard l.system.impl l'.system.impl := by
    intro l' hsystem
    rw [hsystem]
    exact .refl _
  cases action with
  | openPort outcome =>
    simp only [Lifetime.act, Option.ite_none_right_eq_some] at hact
    obtain ⟨-, hact⟩ := hact
    split at hact <;> exact hsame (by rw [← Option.some.inj hact])
  | createMyEvent ok =>
    simp only [Lifetime.act] at hact
    split at hact
    · split_ifs at hact <;> exact hsame (by rw [← Option.some.inj hact])
    · cases hact
  | startThread ok =>
    simp only [Lifetime.act, Option.ite_none_right_eq_some] at hact
    obtain ⟨-, hact⟩ := hact
    split_ifs at hact <;> exact hsame (by rw [← Option.some.inj hact])
  | waitStart outcome =>
    simp only [Lifetime.act, Option.ite_none_right_eq_some] at hact
    obtain ⟨-, hact⟩ := hact
    split_ifs at hact <;> exact hsame (by rw [← Option.some.inj hact])
  | setAsyncListener listener => exact absurd rfl (hkeeps listener)
  | client action =>
    simp only [Lifetime.act, Option.ite_none_right_eq_some, Option.map_eq_some_iff] at hact
    obtain ⟨-, system, hsystem, rfl⟩ := hact
    exact system_heard hsystem
  | signalEnd ok =>
    simp only [Lifetime.act, Option.ite_none_right_eq_some] at hact
    obtain ⟨-, hact⟩ := hact
    split_ifs at hact <;> exact hsame (by rw [← Option.some.inj hact])
  | join =>
    simp only [Lifetime.act, Option.ite_none_right_eq_some] at hact
    exact hsame (by rw [← Option.some.inj hact.2])
  | close =>
    simp only [Lifetime.act] at hact
    split at hact
    · exact hsame (by rw [← Option.some.inj hact])
    · cases hact
  | transmit sent =>
    simp only [Lifetime.act, Option.map_eq_some_iff] at hact
    obtain ⟨system, hsystem, rfl⟩ := hact
    exact system_heard hsystem
  | signalStart ok =>
    simp only [Lifetime.act, Option.ite_none_right_eq_some] at hact
    obtain ⟨-, hact⟩ := hact
    split_ifs at hact
    · exact hsame (by rw [← Option.some.inj hact])
    · obtain rfl := Option.some.inj hact
      exact throws_heard l.system l.system.impl _
  | select answer =>
    simp only [Lifetime.act, Option.ite_none_right_eq_some] at hact
    exact selectRound_heard hact.2
  | round =>
    simp only [Lifetime.act, Option.ite_none_right_eq_some, Option.map_eq_some_iff] at hact
    obtain ⟨-, system, hsystem, rfl⟩ := hact
    rw [loopTest_impl]
    exact system_heard hsystem
  | signal =>
    simp only [Lifetime.act, Option.ite_none_right_eq_some, Option.map_eq_some_iff] at hact
    obtain ⟨-, system, hsystem, rfl⟩ := hact
    exact system_heard hsystem

theorem lifetime_run_heard {l l' : Lifetime} {actions : List LifetimeAction}
    (hkeeps : ∀ listener, .setAsyncListener listener ∉ actions)
    (hrun : lifetime.run l actions = some l') : Heard l.system.impl l'.system.impl := by
  induction actions generalizing l with
  | nil =>
    obtain rfl := Option.some.inj hrun
    exact .refl _
  | cons action actions ih =>
    obtain ⟨l₁, hstep, hrest⟩ := Machine.run_cons.mp hrun
    have hfirst : Heard l.system.impl l₁.system.impl :=
      lifetime_step_heard (fun listener h => hkeeps listener (h ▸ List.mem_cons_self)) hstep
    exact hfirst.trans (ih (fun listener h => hkeeps listener (List.mem_cons_of_mem _ h)) hrest)

/-- The object knows whether a listener is registered. -/
theorem lifetime_registered {l l' : Lifetime} {actions : List LifetimeAction}
    (hrun : lifetime.run l actions = some l') :
    l'.system.impl.asyncListener = registered l.system.impl.asyncListener actions := by
  induction actions generalizing l with
  | nil =>
    obtain rfl := Option.some.inj hrun
    rfl
  | cons action actions ih =>
    obtain ⟨l₁, hstep, hrest⟩ := Machine.run_cons.mp hrun
    have hnext :
        l₁.system.impl.asyncListener = registered l.system.impl.asyncListener [action] := by
      by_cases hsets : ∃ listener, action = .setAsyncListener listener
      · obtain ⟨listener, rfl⟩ := hsets
        have hact := Lifetime.act_of_step hstep
        simp only [Lifetime.act, Option.ite_none_right_eq_some] at hact
        rw [← Option.some.inj hact.2]
        rfl
      · obtain ⟨-, -, hlistener, -⟩ :=
          lifetime_step_heard (fun listener h => hsets ⟨listener, h⟩) hstep
        rw [hlistener]
        cases action with
        | setAsyncListener listener => exact absurd ⟨listener, rfl⟩ hsets
        | _ => rfl
    rw [ih hrest, hnext, ← registered_append]
    rfl

theorem lifetime_registered_start {msgParser : CDCMessageParserPrivate} {l : Lifetime}
    {before : List LifetimeAction} (hbefore : lifetime.run (.start msgParser) before = some l) :
    l.system.impl.asyncListener = registered false before := lifetime_registered hbefore

/-- Over the whole life of an object, from `openPort` to the last handle that is
closed, and whatever the system and the device do: between two registrations the
listener is called with the payloads of the asynchronous messages dispatched, in
order, when there is one, and is not called when there is none. -/
theorem lifetime_heard {msgParser : CDCMessageParserPrivate} {before during : List LifetimeAction}
    {l l' : Lifetime} (hbefore : lifetime.run (.start msgParser) before = some l)
    (hduring : lifetime.run l during = some l')
    (hkeeps : ∀ listener, .setAsyncListener listener ∉ during) :
    ∃ effects, l'.system.impl.log = l.system.impl.log ++ effects ∧
      listenerCalls effects = if registered false before then
        (dispatchedMessages effects).filterMap messagePayload else [] := by
  obtain ⟨effects, hlog, -, hcalls⟩ := lifetime_run_heard hkeeps hduring
  rw [lifetime_registered_start hbefore] at hcalls
  exact ⟨effects, hlog, hcalls⟩

/-! ## Lives in which nothing goes wrong -/

/-- The actions of a life in which the library calls succeed, no wait runs out
of time, and the device keeps to its protocol. -/
def Lifetime.Regular (l : Lifetime) : LifetimeAction → Prop
  | .openPort outcome => outcome = .opened
  | .createMyEvent ok | .startThread ok | .signalEnd ok | .signalStart ok => ok = true
  | .waitStart outcome => outcome = .signalled
  | .client action => action.Regular
  | .transmit sent =>
    DeviceSends l.system.client.calls l.system.impl.portOutput l.system.sent sent
  | .select (.ready none) | .select (.ready (some (some _))) => True
  | .select .failed | .select .timedOut | .select (.ready (some none)) => False
  | .setAsyncListener _ | .join | .close | .round | .signal => True

instance (l : Lifetime) : DecidablePred l.Regular
  | .openPort outcome => inferInstanceAs (Decidable (outcome = .opened))
  | .createMyEvent ok | .startThread ok | .signalEnd ok | .signalStart ok =>
    inferInstanceAs (Decidable (ok = true))
  | .waitStart outcome => inferInstanceAs (Decidable (outcome = .signalled))
  | .client action => inferInstanceAs (Decidable action.Regular)
  | .transmit sent => inferInstanceAs (Decidable
      (DeviceSends l.system.client.calls l.system.impl.portOutput l.system.sent sent))
  | .select (.ready none) | .select (.ready (some (some _))) => inferInstanceAs (Decidable True)
  | .select .failed | .select .timedOut | .select (.ready (some none)) =>
    inferInstanceAs (Decidable False)
  | .setAsyncListener _ | .join | .close | .round | .signal => inferInstanceAs (Decidable True)

/-! ## The system that a life follows -/

/-- The life stands where a system does, but for the listener, and its reader
thread may have returned. -/
structure Lives (l : Lifetime) (s : System) : Prop where
  system : l.system.quiet = { s with reader := l.system.reader }.quiet
  reader : l.system.reader = s.reader ∨ l.system.reader = .returned ∧ s.reader = .selecting
  owner : l.owner ≠ .aborted ∧ ∀ e, l.owner ≠ .threw e
  ends : l.run = false ∨ l.system.reader = .returned → 0 < l.readEndEvent

namespace Lives

variable {l l' : Lifetime} {s : System}

theorem start (msgParser : CDCMessageParserPrivate) :
    Lives (.start msgParser) (.start msgParser) where
  system := rfl
  reader := .inl rfl
  owner := by simp [Lifetime.start]
  ends := by simp [Lifetime.start, System.start]

/-- A reader thread that has not returned stands where that of the system does. -/
theorem same_reader (h : Lives l s) (hreader : l.system.reader ≠ .returned) :
    l.system.reader = s.reader :=
  h.reader.resolve_right fun hreturned => hreader hreturned.1

theorem same_system (h : Lives l s) (hreader : l.system.reader ≠ .returned) :
    l.system.quiet = s.quiet := by
  rw [h.system, h.same_reader hreader]

/-- What does not depend on the listener. -/
theorem same_results (h : Lives l s) :
    l.system.client = s.client ∧ l.system.sent = s.sent ∧
      l.system.impl.portOutput = s.impl.portOutput ∧
      dispatchedMessages l.system.impl.log = dispatchedMessages s.impl.log := by
  have hclient : l.system.client = s.client := by simpa using congrArg System.client h.system
  have hsent : l.system.sent = s.sent := by simpa using congrArg System.sent h.system
  have himpl : l.system.impl.quiet = s.impl.quiet := by simpa using congrArg System.impl h.system
  have houtput := congrArg CDCImplPrivate.portOutput himpl
  have hlog := congrArg (fun self => dispatchedMessages self.log) himpl
  exact ⟨hclient, hsent, by simpa using houtput, by simpa using hlog⟩

/-- What the owner does by itself. -/
theorem owner_step (h : Lives l s) (hsystem : l'.system = l.system)
    (hrun : l'.run = l.run) (hend : l.readEndEvent ≤ l'.readEndEvent)
    (howner : l'.owner ≠ .aborted ∧ ∀ e, l'.owner ≠ .threw e) : Lives l' s where
  system := by rw [hsystem]; exact h.system
  reader := by rw [hsystem]; exact h.reader
  owner := howner
  ends := by
    rw [hsystem, hrun]
    exact fun hends => Nat.lt_of_lt_of_le (h.ends hends) hend

/-- A step of the client or of the device, for which it does not matter where the
reader thread stands. -/
theorem outside_step (h : Lives l s) {action : SystemAction} (haction : ¬ action.OfReader)
    {system' : System} (hstep : l.system.step action = some system') :
    ∃ s', s.step action = some s' ∧ Lives { l with system := system' } s' := by
  cases action with
  | client action =>
    obtain ⟨s₁, hs₁, hquiet⟩ := step_quiet h.system (fun h => by cases h) hstep
    simp only [System.step, Option.ite_none_left_eq_some, Option.map_eq_some_iff] at hstep hs₁
    obtain ⟨hruns, ⟨impl₁, client₁⟩, hsteps₁, rfl⟩ := hs₁
    obtain ⟨-, ⟨impl, client⟩, -, rfl⟩ := hstep
    have hreader : s.reader ≠ .terminated := by
      rcases h.reader with hsame | ⟨-, hselecting⟩
      · rwa [← hsame]
      · simp [hselecting]
    have hstep' : s.step (.client action) = some { s with impl := impl₁, client := client₁ } := by
      simp only [System.step, if_neg hreader, hsteps₁, Option.map_some]
    exact ⟨_, hstep', { h with system := hquiet }⟩
  | transmit sent =>
    obtain rfl := Option.some.inj hstep
    exact ⟨_, rfl, { h with system := congrArg (fun t : System =>
      { t with port := t.port ++ sent.bytes, sent := t.sent ++ [sent] }) h.system }⟩
  | read buflen => exact absurd trivial haction
  | round => exact absurd trivial haction
  | signal => exact absurd trivial haction

/-- The test of the loop. -/
theorem loopTest (h : Lives l s) : Lives l.loopTest s := by
  unfold Lifetime.loopTest
  split_ifs with htest
  · have hreader : s.reader = .selecting := by
      rw [← h.same_reader (by simp [htest.1]), htest.1]
    exact {
      system := congrArg (fun t : System => { t with reader := .returned }) h.system
      reader := .inr ⟨rfl, hreader⟩
      owner := h.owner
      ends := fun _ => h.ends (.inl htest.2) }
  · exact h

/-- A step of a reader thread that has not returned. -/
theorem of_same (h : Lives l s) {system s' : System} (hsame : system.quiet = s'.quiet)
    (hreader : s'.reader ≠ .returned) {run : Bool} (hrun : run = false → 0 < l.readEndEvent) :
    Lives { l with system, run } s' := by
  have hreader' : system.reader = s'.reader := by simpa using congrArg System.reader hsame
  exact {
    system := by
      show system.quiet = { s' with reader := system.reader }.quiet
      rw [hreader', hsame]
    reader := .inl hreader'
    owner := h.owner
    ends := fun hends =>
      hends.elim hrun fun hreturned => absurd (hreader'.symm.trans hreturned) hreader }

end Lives

/-! ## A life follows the exchange -/

/-- A life follows the exchange of frames. -/
theorem lifetime_follows :
    Machine.Simulation lifetime Lifetime.Regular exchange
      fun l t => ∃ s, Lives l s ∧ Follows s t := by
  intro l l' t action hlives hregular hstep
  obtain ⟨s, h, hfollows⟩ := hlives
  have hact := Lifetime.act_of_step hstep
  -- the owner by itself moves neither the system nor the exchange
  have howner : Lives l' s → ∃ bs t', exchange.run t bs = some t' ∧
      ∃ s, Lives l' s ∧ Follows s t' := fun h' => ⟨[], t, rfl, s, h', hfollows⟩
  have hsystem : ∀ {a : SystemAction} {s' : System}, s.Regular a → system.step s a = some s' →
      (s'.reader ≠ .returned → Lives l' s') → ∃ bs t', exchange.run t bs = some t' ∧
        ∃ s, Lives l' s ∧ Follows s t' := by
    intro a s' ha hs' h'
    obtain ⟨bs, t', hbs, ht'⟩ := system_follows hfollows ha hs'
    exact ⟨bs, t', hbs, s', h' ht'.running.1, ht'⟩
  -- a step of a reader thread that has not returned
  have hreads : ∀ {a : SystemAction} {system' : System}, s.Regular a → l.system.reader ≠ .returned →
      l.system.step a = some system' →
      (∀ s', system'.quiet = s'.quiet → s'.reader ≠ .returned → Lives l' s') →
      ∃ bs t', exchange.run t bs = some t' ∧ ∃ s, Lives l' s ∧ Follows s t' := by
    intro a system' ha hreader hsteps h'
    obtain ⟨s', hs', hsame⟩ :=
      step_quiet (h.same_system hreader) (fun _ => hfollows.decodes) hsteps
    exact hsystem ha hs' (h' s' hsame)
  cases action with
  | openPort outcome =>
    obtain rfl : outcome = .opened := hregular
    simp only [Lifetime.act, openPort, Option.ite_none_right_eq_some] at hact
    obtain ⟨-, hact⟩ := hact
    obtain rfl := Option.some.inj hact
    exact howner (h.owner_step rfl rfl (Nat.le_refl _) (by simp))
  | createMyEvent ok =>
    obtain rfl : ok = true := hregular
    simp only [Lifetime.act, if_true] at hact
    split at hact
    · obtain rfl := Option.some.inj hact
      refine howner (h.owner_step rfl rfl (Nat.le_refl _) ?_)
      dsimp only
      split_ifs <;> simp
    · cases hact
  | startThread ok =>
    obtain rfl : ok = true := hregular
    simp only [Lifetime.act, if_true, Option.ite_none_right_eq_some] at hact
    obtain ⟨-, hact⟩ := hact
    obtain rfl := Option.some.inj hact
    exact howner (h.owner_step rfl rfl (Nat.le_refl _) (by simp))
  | waitStart outcome =>
    obtain rfl : outcome = .signalled := hregular
    simp only [Lifetime.act, if_true, Option.ite_none_right_eq_some] at hact
    obtain ⟨-, hact⟩ := hact
    obtain rfl := Option.some.inj hact
    exact howner (h.owner_step rfl rfl (Nat.le_refl _) (by simp))
  | setAsyncListener listener =>
    simp only [Lifetime.act, Option.ite_none_right_eq_some] at hact
    obtain ⟨-, hact⟩ := hact
    obtain rfl := Option.some.inj hact
    exact howner { h with system := h.system }
  | client action =>
    simp only [Lifetime.act, Option.ite_none_right_eq_some, Option.map_eq_some_iff] at hact
    obtain ⟨-, system', hstep', rfl⟩ := hact
    obtain ⟨s', hs', h'⟩ := h.outside_step (by simp [SystemAction.OfReader]) hstep'
    exact hsystem (a := .client action) hregular hs' fun _ => h'
  | transmit sent =>
    simp only [Lifetime.act, Option.map_eq_some_iff] at hact
    obtain ⟨system', hstep', rfl⟩ := hact
    obtain ⟨s', hs', h'⟩ := h.outside_step (by simp [SystemAction.OfReader]) hstep'
    have hsends : s.Regular (.transmit sent) := by
      obtain ⟨hclient, hsent, houtput, -⟩ := h.same_results
      show DeviceSends s.client.calls s.impl.portOutput s.sent sent
      rw [← hclient, ← hsent, ← houtput]
      exact hregular
    exact hsystem hsends hs' fun _ => h'
  | signalEnd ok =>
    obtain rfl : ok = true := hregular
    simp only [Lifetime.act, if_true, Option.ite_none_right_eq_some] at hact
    obtain ⟨-, hact⟩ := hact
    obtain rfl := Option.some.inj hact
    exact howner (h.owner_step rfl rfl (Nat.le_succ _) (by simp))
  | join =>
    simp only [Lifetime.act, Option.ite_none_right_eq_some] at hact
    obtain ⟨-, hact⟩ := hact
    obtain rfl := Option.some.inj hact
    exact howner (h.owner_step rfl rfl (Nat.le_refl _) (by simp))
  | close =>
    simp only [Lifetime.act] at hact
    split at hact
    · obtain rfl := Option.some.inj hact
      refine howner (h.owner_step rfl rfl (Nat.le_refl _) ?_)
      dsimp only
      split_ifs <;> simp
    · cases hact
  | signalStart ok =>
    obtain rfl : ok = true := hregular
    simp only [Lifetime.act, if_true, Option.ite_none_right_eq_some] at hact
    obtain ⟨-, hact⟩ := hact
    obtain rfl := Option.some.inj hact
    exact howner (h.owner_step rfl rfl (Nat.le_refl _) h.owner)
  | select answer =>
    simp only [Lifetime.act, Option.ite_none_right_eq_some] at hact
    obtain ⟨⟨-, hreader, hpossible⟩, hround⟩ := hact
    have hstays : l.system.reader ≠ .returned := by simp [hreader]
    have hends : ∀ run : Bool, run = decide (l.readEndEvent = 0) → run = false →
        0 < l.readEndEvent := by
      intro run hrun hfalse
      rw [hfalse] at hrun
      exact Nat.pos_of_ne_zero (of_decide_eq_false hrun.symm)
    rcases answer with _ | _ | _ | _ | buflen
    · exact hregular.elim
    · exact hregular.elim
    · obtain rfl := Option.some.inj hround
      exact howner (Lives.loopTest { h with
        ends := fun hstopped =>
          hstopped.elim (hends _ rfl) fun hreturned => h.ends (.inr hreturned) })
    · exact hregular.elim
    · obtain ⟨system', hread, rfl⟩ := Option.map_eq_some_iff.mp hround
      exact hreads (a := .read buflen) trivial hstays hread fun s' hsame hs' =>
        (h.of_same hsame hs' (hends _ rfl)).loopTest
  | round =>
    simp only [Lifetime.act, Option.ite_none_right_eq_some, Option.map_eq_some_iff] at hact
    obtain ⟨-, system', hround, rfl⟩ := hact
    have hstays : l.system.reader ≠ .returned := by
      intro hreturned
      simp [System.step, hreturned] at hround
    exact hreads (a := .round) trivial hstays hround fun s' hsame hs' =>
      (h.of_same hsame hs' fun hrun => h.ends (.inl hrun)).loopTest
  | signal =>
    simp only [Lifetime.act, Option.ite_none_right_eq_some, Option.map_eq_some_iff] at hact
    obtain ⟨-, system', hsignal, rfl⟩ := hact
    have hstays : l.system.reader ≠ .returned := by
      intro hreturned
      simp [System.step, hreturned] at hsignal
    exact hreads (a := .signal) trivial hstays hsignal fun s' hsame hs' =>
      h.of_same hsame hs' fun hrun => h.ends (.inl hrun)

/-- A call, and an asynchronous message before a listener is registered. -/
def deafStart : List LifetimeAction :=
  [.openPort .opened, .createMyEvent true, .createMyEvent true, .createMyEvent true,
    .createMyEvent true, .startThread true, .signalStart true, .waitStart .signalled,
    .client (.call .test), .client (.send (.written 2)),
    .transmit ⟨.async ⟨[cr], by decide⟩, true⟩, .transmit ⟨.test, false⟩,
    .select (.ready (some (some 1024))), .round, .round, .signal, .client (.wait .signalled),
    .client .check, .client .answer, .setAsyncListener true]

/-- An asynchronous message for the listener, and the end. -/
def heardEnd : List LifetimeAction :=
  [.round, .transmit ⟨.async ⟨[7], by decide⟩, true⟩, .select (.ready (some (some 1024))),
    .round, .signalEnd true, .round, .select (.ready none), .join, .close, .close, .close, .close,
    .close]

theorem heardEnd_keeps : ∀ listener, .setAsyncListener listener ∉ heardEnd := by
  simp [heardEnd]

theorem exists_heardEnd :
    ∃ l l', lifetime.run (.start (.new listedOnly)) deafStart = some l ∧
      lifetime.run l heardEnd = some l' ∧ l'.owner = .destroyed ∧
      l'.system.client.results.length = 1 := by
  have hfinal : (lifetime.run (.start (.new listedOnly)) (deafStart ++ heardEnd)).map
      (fun l => (l.owner, l.system.client.results.length)) = some (.destroyed, 1) := by
    decide
  obtain ⟨l', hrun, hl'⟩ := Option.map_eq_some_iff.mp hfinal
  obtain ⟨l, hbefore, hduring⟩ := Machine.run_append.mp hrun
  obtain ⟨howner, hresults⟩ := Prod.mk.inj hl'
  exact ⟨l, l', hbefore, hduring, howner, hresults⟩

theorem lifetime_heard_test :
    ∃ l l', lifetime.run (.start (.new listedOnly)) deafStart = some l ∧
      lifetime.run l heardEnd = some l' ∧
      ∃ effects, l'.system.impl.log = l.system.impl.log ++ effects ∧
        listenerCalls effects = (dispatchedMessages effects).filterMap messagePayload := by
  obtain ⟨l, l', hbefore, hduring, -, -⟩ := exists_heardEnd
  exact ⟨l, l', hbefore, hduring, lifetime_heard hbefore hduring heardEnd_keeps⟩

end Clibcdc
