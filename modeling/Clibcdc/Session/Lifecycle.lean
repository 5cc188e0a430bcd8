import Clibcdc.Session.System

/-!
# The life of an object

`init` and the destructor of `CDCImplPrivate` on Linux, around the session of
`Clibcdc.Session.System`.

* The thread of the owner constructs the object, makes its calls and destroys
  it.  `init` opens the port, creates four events, starts the reader thread and
  waits until it has signalled `readStartEvent`.  The destructor signals
  `readEndEvent`, joins the reader thread, and closes the handles.
* The reader thread signals `readStartEvent` and runs its loop.  `select`
  reports `readEndEvent` when its counter is not 0.  Then the thread finishes
  the round and returns.
* An exception of `init` leaves an object that is not constructed, so that the
  destructor does not run.  When the reader thread has been started by then,
  the `std::thread` is destroyed while it is joinable, which ends the process.
  So does an exception in the destructor, and one that leaves the reader thread.

Each action is a system call, or what a thread does between two of them.  The
bytes that the object frees are left out, and so is `readMsgThread` of Windows,
for which see `Clibcdc.Reader.Overlapped`.
-/

namespace Clibcdc

open Clibcdc.Automata Clibcdc.Parser Clibcdc.Reader

/-! ## Handles -/

inductive Handle where
  | portHandle | newMsgEvent | readEndEvent | readStartEvent | readEndResponse
  deriving DecidableEq, Repr

/-- The events, in the order in which `init` creates them. -/
def Handle.created : List Handle := [.newMsgEvent, .readEndEvent, .readStartEvent, .readEndResponse]

/-- The handles, in the order in which the destructor closes them. -/
def Handle.destroyed : List Handle :=
  [.readStartEvent, .newMsgEvent, .readEndEvent, .readEndResponse, .portHandle]

/-- How `openPort` ends: a call of it fails, or the port is open. -/
inductive OpenOutcome where
  | openFailed | noTerminal | getFailed | setFailed | sleepFailed | flushFailed | opened
  deriving DecidableEq, Repr

/-- `openPort`.  The handle stays open when a call behind `open` fails. -/
def openPort : OpenOutcome → Except CdcException Unit × List Handle
  | .openFailed => (.error ⟨.implException, "Port handle creation failed with error "⟩, [])
  | .noTerminal =>
    (.error ⟨.implException, "Specified file is not associated with terminal "⟩, [.portHandle])
  | .getFailed =>
    (.error ⟨.implException, "Port parameters getting failed with error "⟩, [.portHandle])
  | .setFailed =>
    (.error ⟨.implException, "Port parameters setting failed with error "⟩, [.portHandle])
  | .sleepFailed =>
    (.error ⟨.implException, "Sleeping before flushing the port not elapsed"⟩, [.portHandle])
  | .flushFailed =>
    (.error ⟨.implException, "Port flushing failed with error"⟩, [.portHandle])
  | .opened => (.ok (), [.portHandle])

/-! ## The threads -/

/-- Where the owner stands.  `creating` and `destroying` carry the handles that
are still to be created or closed. -/
inductive OwnerPhase where
  | opening
  | creating (left : List Handle)
  | launching | awaiting | constructed | joining
  | destroying (left : List Handle)
  | destroyed
  | threw (e : CdcException)
  | aborted
  deriving DecidableEq, Repr

/-- Where the reader thread stands on its way into its loop. -/
inductive Launch where
  | none | starting | looping
  deriving DecidableEq, Repr

/-- `run` is the variable of the reader thread, and `opened` lists the handles
that are open. -/
structure Lifetime where
  system : System
  owner : OwnerPhase
  launch : Launch
  run : Bool
  opened : List Handle
  readStartEvent : Nat
  readEndEvent : Nat

/-- What `select` and the `read` behind it answer: the number of bytes, when the
port is ready and the `read` does not fail. -/
inductive SelectAnswer where
  | failed
  | timedOut
  | ready (port : Option (Option Nat))
  deriving DecidableEq, Repr

inductive LifetimeAction where
  | openPort (outcome : OpenOutcome)
  | createMyEvent (ok : Bool)
  | startThread (ok : Bool)
  | waitStart (outcome : WaitOutcome)
  | setAsyncListener (listener : Bool)
  | client (action : ClientAction)
  | signalEnd (ok : Bool)
  | join
  | close
  | transmit (sent : SentFrame)
  | signalStart (ok : Bool)
  | select (answer : SelectAnswer)
  | round
  | signal

namespace Lifetime

def start (msgParser : CDCMessageParserPrivate) : Lifetime where
  system := { System.start msgParser with impl := .init msgParser }
  owner := .opening
  launch := .none
  run := true
  opened := []
  readStartEvent := 0
  readEndEvent := 0

/-- The process runs: neither thread has ended it. -/
def Alive (l : Lifetime) : Prop := l.owner ≠ .aborted ∧ l.system.reader ≠ .terminated

instance (l : Lifetime) : Decidable l.Alive :=
  inferInstanceAs (Decidable (l.owner ≠ .aborted ∧ l.system.reader ≠ .terminated))

/-- An exception in the reader thread. -/
def readerThrows (l : Lifetime) (e : CdcException) : Lifetime :=
  { l with system := l.system.throws l.system.impl e }

/-- The end of a round: the test of the loop. -/
def loopTest (l : Lifetime) : Lifetime :=
  if l.system.reader = .selecting ∧ l.run = false then
    { l with system := { l.system with reader := .returned } }
  else l

/-- `BUFF_SIZE`, how many bytes a `read` takes at most. -/
def buffSize : Nat := 1024

/-- `select` has no timeout and waits until something is ready, and a `read`
takes at most as many bytes as its buffer has. -/
def SelectPossible (l : Lifetime) : SelectAnswer → Prop
  | .failed => True
  | .timedOut => False
  | .ready none => 0 < l.readEndEvent
  | .ready (some none) => True
  | .ready (some (some buflen)) => buflen ≤ buffSize

instance (l : Lifetime) : DecidablePred l.SelectPossible
  | .failed => inferInstanceAs (Decidable True)
  | .timedOut => inferInstanceAs (Decidable False)
  | .ready none => inferInstanceAs (Decidable (0 < l.readEndEvent))
  | .ready (some none) => inferInstanceAs (Decidable True)
  | .ready (some (some buflen)) => inferInstanceAs (Decidable (buflen ≤ buffSize))

/-- A round of the reader thread, up to the loop of `processAllMessages`. -/
def selectRound (l : Lifetime) : SelectAnswer → Option Lifetime
  | .failed => some (l.readerThrows
      ⟨.receiveException, "Waiting for event in read cycle failed with error "⟩)
  | .timedOut => some l
  | .ready port =>
    match port with
    | none => some { l with run := l.readEndEvent = 0 }.loopTest
    | some none => some (l.readerThrows
        ⟨.receiveException, "Appending data from COM-port failed with error "⟩)
    | some (some buflen) => (l.system.step (.read buflen)).map fun system =>
        { l with system, run := l.readEndEvent = 0 }.loopTest

/-- An action of a process that runs. -/
def act (l : Lifetime) : LifetimeAction → Option Lifetime
  | .openPort outcome =>
    if l.owner = .opening then
      match openPort outcome with
      | (.error e, opened) => some { l with opened, owner := .threw e }
      | (.ok (), opened) => some { l with opened, owner := .creating Handle.created }
    else none
  | .createMyEvent ok =>
    match l.owner with
    | .creating (handle :: left) =>
      if ok then some { l with
        opened := l.opened ++ [handle]
        owner := if left = [] then .launching else .creating left }
      else some { l with
        owner := .threw ⟨.implException, "Create new message event failed with error "⟩ }
    | _ => none
  | .startThread ok =>
    if l.owner = .launching then
      if ok then some { l with owner := .awaiting, launch := .starting }
      else some { l with owner := .threw ⟨.std, "system_error"⟩ }
    else none
  | .waitStart outcome =>
    if l.owner = .awaiting ∧ outcome.Possible .linux l.readStartEvent then
      if outcome = .signalled then some { l with owner := .constructed, readStartEvent := 0 }
      -- the thread that has been started is joinable
      else some { l with owner := .aborted }
    else none
  | .setAsyncListener listener =>
    if l.owner = .constructed ∧ l.system.client.phase = .idle then
      some { l with
        system := { l.system with impl := { l.system.impl with asyncListener := listener } } }
    else none
  | .client action =>
    if l.owner = .constructed then
      (l.system.step (.client action)).map fun system => { l with system }
    else none
  | .signalEnd ok =>
    if l.owner = .constructed ∧ l.system.client.phase = .idle then
      if ok then some { l with owner := .joining, readEndEvent := l.readEndEvent + 1 }
      else some { l with owner := .aborted }
    else none
  | .join =>
    if l.owner = .joining ∧ l.system.reader = .returned then
      some { l with owner := .destroying Handle.destroyed }
    else none
  | .close =>
    match l.owner with
    | .destroying (handle :: left) => some { l with
        opened := l.opened.erase handle
        owner := if left = [] then .destroyed else .destroying left }
    | _ => none
  | .transmit sent => (l.system.step (.transmit sent)).map fun system => { l with system }
  | .signalStart ok =>
    if l.launch = .starting then
      if ok then some { l with launch := .looping, readStartEvent := l.readStartEvent + 1 }
      else some ({ l with launch := .looping }.readerThrows
        ⟨.implException, "Signaling new message event failed with error "⟩)
    else none
  | .select answer =>
    if l.launch = .looping ∧ l.system.reader = .selecting ∧ l.SelectPossible answer then
      l.selectRound answer
    else none
  | .round =>
    if l.launch = .looping then
      (l.system.step .round).map fun system => { l with system }.loopTest
    else none
  | .signal =>
    if l.launch = .looping then
      (l.system.step .signal).map fun system => { l with system }
    else none

def step (l : Lifetime) (action : LifetimeAction) : Option Lifetime :=
  if l.Alive then l.act action else none

end Lifetime

def lifetime : Machine Lifetime LifetimeAction := ⟨Lifetime.step⟩

/-- The handles that an action passes to the system. -/
def LifetimeAction.uses (l : Lifetime) : LifetimeAction → List Handle
  | .waitStart _ | .signalStart _ => [.readStartEvent]
  | .client (.send _) | .client (.writeFile _) => [.portHandle]
  | .client (.wait _) => [.newMsgEvent]
  | .signalEnd _ => [.readEndEvent]
  | .close =>
    match l.owner with
    | .destroying left => left.take 1
    | _ => []
  | .select _ => [.portHandle, .readEndEvent]
  | .signal => [.newMsgEvent]
  | _ => []

/-- What the client, the device and the reader thread in its loop do. -/
def LifetimeAction.OfSession : LifetimeAction → Prop
  | .setAsyncListener _ | .client _ | .transmit _ | .select _ | .round | .signal => True
  | _ => False

/-! ## Handles are used while they are open -/

namespace Lifetime

/-- All five handles are open. -/
def AllOpen (l : Lifetime) : Prop := l.opened = .portHandle :: Handle.created

/-- What holds where the owner stands. -/
def OwnerSound (l : Lifetime) : OwnerPhase → Prop
  | .opening => l.launch = .none ∧ l.opened = []
  | .creating left => l.launch = .none ∧ left ≠ [] ∧
      ∃ done, done ++ left = Handle.created ∧ l.opened = .portHandle :: done
  | .launching => l.launch = .none ∧ l.AllOpen
  | .awaiting => l.launch ≠ .none ∧ l.AllOpen
  | .constructed => l.launch = .looping ∧ l.AllOpen
  | .joining => l.launch = .looping ∧ l.AllOpen ∧ 0 < l.readEndEvent
  | .destroying left => l.launch = .looping ∧ l.system.reader = .returned ∧ left ≠ [] ∧
      left <:+ Handle.destroyed ∧ l.opened.Perm left
  | .destroyed => l.launch = .looping ∧ l.system.reader = .returned ∧ l.opened = []
  | .threw _ => l.launch = .none
  | .aborted => True

structure Sound (l : Lifetime) : Prop where
  owner : l.OwnerSound l.owner
  signalled : 0 < l.readStartEvent → l.launch = .looping

theorem sound_start (msgParser : CDCMessageParserPrivate) : (start msgParser).Sound :=
  ⟨⟨rfl, rfl⟩, fun h => absurd h (Nat.lt_irrefl 0)⟩

/-- The owner's part of the state is as it was, and the reader thread has moved
only if it could. -/
structure SameOwner (l l' : Lifetime) : Prop where
  owner : l'.owner = l.owner
  launch : l'.launch = l.launch
  opened : l'.opened = l.opened
  readStartEvent : l'.readStartEvent = l.readStartEvent
  readEndEvent : l'.readEndEvent = l.readEndEvent
  reader : l.system.reader = .returned → l'.system.reader = .returned

theorem SameOwner.sound {l l' : Lifetime} (hsame : SameOwner l l') (h : l.Sound) : l'.Sound := by
  obtain ⟨howner, hlaunch, hopened, hstart, hend, hreader⟩ := hsame
  refine ⟨?_, by rw [hstart, hlaunch]; exact h.signalled⟩
  have hl := h.owner
  rw [howner]
  cases hphase : l.owner <;> rw [hphase] at hl <;>
    simp only [OwnerSound, AllOpen, hlaunch, hopened, hend] at hl ⊢
  case destroying left => exact ⟨hl.1, hreader hl.2.1, hl.2.2⟩
  case destroyed => exact ⟨hl.1, hreader hl.2.1, hl.2.2⟩
  all_goals exact hl

theorem loopTest_sameOwner (l : Lifetime) : SameOwner l l.loopTest := by
  unfold loopTest
  split_ifs
  · exact ⟨rfl, rfl, rfl, rfl, rfl, fun _ => rfl⟩
  · exact ⟨rfl, rfl, rfl, rfl, rfl, id⟩

/-- The client and the device leave the reader thread where it is. -/
theorem system_step_reader {s s' : System} {action : SystemAction}
    (hstep : s.step action = some s') (hreader : s.reader = .returned) : s'.reader = .returned := by
  cases action with
  | client action =>
    simp only [System.step, hreader, reduceCtorEq, if_false, Option.map_eq_some_iff] at hstep
    obtain ⟨⟨impl, client⟩, -, rfl⟩ := hstep
    rfl
  | transmit sent =>
    obtain rfl := Option.some.inj hstep
    exact hreader
  | read buflen => simp [System.step, hreader] at hstep
  | round => simp [System.step, hreader] at hstep
  | signal => simp [System.step, hreader] at hstep

theorem sameOwner_of_system {l : Lifetime} {system : System} {action : SystemAction}
    (hstep : l.system.step action = some system) (run : Bool) :
    SameOwner l { l with system, run } :=
  ⟨rfl, rfl, rfl, rfl, rfl, fun hreader => system_step_reader hstep hreader⟩

theorem SameOwner.trans {l l₁ l₂ : Lifetime} (h : SameOwner l l₁) (h' : SameOwner l₁ l₂) :
    SameOwner l l₂ :=
  ⟨h'.owner.trans h.owner, h'.launch.trans h.launch, h'.opened.trans h.opened,
    h'.readStartEvent.trans h.readStartEvent, h'.readEndEvent.trans h.readEndEvent,
    fun hreader => h'.reader (h.reader hreader)⟩

/-- A thread that waits in `select` has not returned. -/
theorem sameOwner_of_selecting {l l' : Lifetime} (hreader : l.system.reader = .selecting)
    (howner : l'.owner = l.owner) (hlaunch : l'.launch = l.launch) (hopened : l'.opened = l.opened)
    (hstart : l'.readStartEvent = l.readStartEvent) (hend : l'.readEndEvent = l.readEndEvent) :
    SameOwner l l' :=
  ⟨howner, hlaunch, hopened, hstart, hend, fun h => by simp [hreader] at h⟩

theorem selectRound_sameOwner {l l' : Lifetime} {answer : SelectAnswer}
    (hreader : l.system.reader = .selecting) (h : l.selectRound answer = some l') :
    SameOwner l l' := by
  unfold selectRound at h
  split at h
  · obtain rfl := Option.some.inj h
    exact sameOwner_of_selecting hreader rfl rfl rfl rfl rfl
  · obtain rfl := Option.some.inj h
    exact sameOwner_of_selecting hreader rfl rfl rfl rfl rfl
  · split at h
    · obtain rfl := Option.some.inj h
      obtain ⟨howner, hlaunch, hopened, hstart, hend, -⟩ :=
        loopTest_sameOwner { l with run := l.readEndEvent = 0 }
      exact sameOwner_of_selecting hreader howner hlaunch hopened hstart hend
    · obtain rfl := Option.some.inj h
      exact sameOwner_of_selecting hreader rfl rfl rfl rfl rfl
    · obtain ⟨system, hread, rfl⟩ := Option.map_eq_some_iff.mp h
      exact (sameOwner_of_system hread _).trans (loopTest_sameOwner _)

/-- The session leaves the owner where it stands. -/
theorem session_sameOwner {l l' : Lifetime} {action : LifetimeAction} (haction : action.OfSession)
    (h : l.act action = some l') : SameOwner l l' := by
  cases action <;> simp only [LifetimeAction.OfSession] at haction
  case setAsyncListener listener =>
    simp only [act, Option.ite_none_right_eq_some] at h
    obtain rfl := Option.some.inj h.2
    exact ⟨rfl, rfl, rfl, rfl, rfl, id⟩
  case client action =>
    simp only [act, Option.ite_none_right_eq_some, Option.map_eq_some_iff] at h
    obtain ⟨-, system, hstep, rfl⟩ := h
    exact sameOwner_of_system hstep l.run
  case transmit sent =>
    simp only [act, Option.map_eq_some_iff] at h
    obtain ⟨system, hstep, rfl⟩ := h
    exact sameOwner_of_system hstep l.run
  case select answer =>
    simp only [act, Option.ite_none_right_eq_some] at h
    obtain ⟨⟨-, hreader, -⟩, hround⟩ := h
    exact selectRound_sameOwner hreader hround
  case round =>
    simp only [act, Option.ite_none_right_eq_some, Option.map_eq_some_iff] at h
    obtain ⟨-, system, hstep, rfl⟩ := h
    exact (sameOwner_of_system hstep l.run).trans (loopTest_sameOwner _)
  case signal =>
    simp only [act, Option.ite_none_right_eq_some, Option.map_eq_some_iff] at h
    obtain ⟨-, system, hstep, rfl⟩ := h
    exact sameOwner_of_system hstep l.run

theorem Sound.step {l l' : Lifetime} {action : LifetimeAction} (h : l.Sound)
    (hstep : lifetime.step l action = some l') : l'.Sound := by
  have hact : l.act action = some l' := by
    change l.step action = some l' at hstep
    simp only [Lifetime.step, Option.ite_none_right_eq_some] at hstep
    exact hstep.2
  by_cases hsession : action.OfSession
  · exact (session_sameOwner hsession hact).sound h
  have howner := h.owner
  have hsignalled := h.signalled
  cases action <;> simp only [LifetimeAction.OfSession, not_true_eq_false] at hsession
  case openPort outcome =>
    simp only [act, Option.ite_none_right_eq_some] at hact
    obtain ⟨hphase, hact⟩ := hact
    rw [hphase] at howner
    cases outcome <;> obtain rfl := Option.some.inj hact
    case opened => exact ⟨⟨howner.1, by simp [Handle.created], [], rfl, rfl⟩, hsignalled⟩
    all_goals exact ⟨howner.1, hsignalled⟩
  case createMyEvent ok =>
    simp only [act] at hact
    split at hact
    · next handle left hphase =>
      rw [hphase] at howner
      obtain ⟨hlaunch, -, done, hdone, hopened⟩ := howner
      split_ifs at hact with hok hleft <;> obtain rfl := Option.some.inj hact
      · subst hleft
        exact ⟨⟨hlaunch, by rw [AllOpen, hopened, ← hdone]; rfl⟩, hsignalled⟩
      · exact ⟨⟨hlaunch, hleft, done ++ [handle], by simpa using hdone, by rw [hopened]; rfl⟩,
          hsignalled⟩
      · exact ⟨hlaunch, hsignalled⟩
    · cases hact
  case startThread ok =>
    simp only [act, Option.ite_none_right_eq_some] at hact
    obtain ⟨hphase, hact⟩ := hact
    rw [hphase] at howner
    split_ifs at hact <;> obtain rfl := Option.some.inj hact
    · refine ⟨⟨by simp, howner.2⟩, fun hstart => ?_⟩
      exact absurd ((hsignalled hstart).symm.trans howner.1) (by simp)
    · exact ⟨howner.1, hsignalled⟩
  case waitStart outcome =>
    simp only [act, Option.ite_none_right_eq_some] at hact
    obtain ⟨⟨hphase, hpossible⟩, hact⟩ := hact
    rw [hphase] at howner
    split_ifs at hact with hout <;> obtain rfl := Option.some.inj hact
    · subst hout
      exact ⟨⟨hsignalled hpossible, howner.2⟩, fun hstart => absurd hstart (Nat.lt_irrefl 0)⟩
    · exact ⟨trivial, hsignalled⟩
  case signalEnd ok =>
    simp only [act, Option.ite_none_right_eq_some] at hact
    obtain ⟨⟨hphase, -⟩, hact⟩ := hact
    rw [hphase] at howner
    split_ifs at hact <;> obtain rfl := Option.some.inj hact
    · exact ⟨⟨howner.1, howner.2, Nat.succ_pos _⟩, hsignalled⟩
    · exact ⟨trivial, hsignalled⟩
  case join =>
    simp only [act, Option.ite_none_right_eq_some] at hact
    obtain ⟨⟨hphase, hreader⟩, hact⟩ := hact
    rw [hphase] at howner
    obtain rfl := Option.some.inj hact
    refine ⟨⟨howner.1, hreader, by simp [Handle.destroyed], List.suffix_refl _, ?_⟩, hsignalled⟩
    have hopened : l.opened = _ := howner.2.1
    show l.opened.Perm Handle.destroyed
    rw [hopened]
    decide
  case close =>
    simp only [act] at hact
    split at hact
    · next handle left hphase =>
      rw [hphase] at howner
      obtain ⟨hlaunch, hreader, -, hsuffix, hopened⟩ := howner
      obtain rfl := Option.some.inj hact
      have herase : (l.opened.erase handle).Perm left := by
        have := hopened.erase handle
        rwa [List.erase_cons_head] at this
      by_cases hleft : left = []
      · subst hleft
        exact ⟨⟨hlaunch, hreader, herase.eq_nil⟩, hsignalled⟩
      · refine ⟨?_, hsignalled⟩
        simp only [if_neg hleft]
        exact ⟨hlaunch, hreader, hleft, (List.suffix_cons handle left).trans hsuffix, herase⟩
    · cases hact
  case signalStart ok =>
    simp only [act, Option.ite_none_right_eq_some] at hact
    obtain ⟨hlaunch, hact⟩ := hact
    -- the owner waits for the signal, or has ended the process
    have hnext : ∀ l₂ : Lifetime, l₂.owner = l.owner → l₂.launch = .looping →
        l₂.opened = l.opened → l₂.Sound := by
      intro l₂ howner₂ hlaunch₂ hopened₂
      refine ⟨?_, fun _ => hlaunch₂⟩
      rw [howner₂]
      cases hphase : l.owner <;> rw [hphase] at howner <;>
        simp only [OwnerSound, AllOpen, hlaunch, hlaunch₂, hopened₂] at howner ⊢
      case awaiting => exact ⟨by simp, howner.2⟩
      all_goals simp at howner
    split_ifs at hact <;> obtain rfl := Option.some.inj hact
    · exact hnext _ rfl rfl rfl
    · exact hnext _ rfl rfl rfl

theorem Sound.run {msgParser : CDCMessageParserPrivate} {l : Lifetime}
    {actions : List LifetimeAction}
    (hrun : lifetime.run (.start msgParser) actions = some l) : l.Sound :=
  Machine.invariant (fun h hstep => h.step hstep) (sound_start msgParser) hrun

/-- The reader thread has been started and has not ended. -/
def ReaderRuns (l : Lifetime) : Prop :=
  l.launch ≠ .none ∧ l.system.reader ≠ .returned

/-- While the reader thread runs, no handle is closed. -/
theorem Sound.allOpen {l : Lifetime} (h : l.Sound) (halive : l.owner ≠ .aborted)
    (hruns : l.ReaderRuns) : l.AllOpen := by
  obtain ⟨hlaunch, hreader⟩ := hruns
  have howner := h.owner
  cases hphase : l.owner <;> rw [hphase] at howner <;>
    simp only [OwnerSound] at howner
  case opening | creating | launching | threw => simp_all
  case awaiting | constructed => exact howner.2
  case joining => exact howner.2.1
  case destroying | destroyed => simp_all
  case aborted => exact absurd hphase halive

/-- The thread that has been started is waited for. -/
theorem Sound.awaiting {l : Lifetime} (h : l.Sound) (halive : l.owner ≠ .aborted)
    (hlaunch : l.launch = .starting) : l.AllOpen := by
  have howner := h.owner
  cases hphase : l.owner <;> rw [hphase] at howner <;>
    simp only [OwnerSound, hlaunch, reduceCtorEq, false_and] at howner
  case awaiting => exact howner.2
  case aborted => exact absurd hphase halive

theorem AllOpen.mem {l : Lifetime} (h : l.AllOpen) (handle : Handle) : handle ∈ l.opened := by
  rw [h]
  cases handle <;> decide

/-- An action passes open handles to the system. -/
theorem Sound.uses {l l' : Lifetime} {action : LifetimeAction} (h : l.Sound)
    (hstep : lifetime.step l action = some l') : ∀ handle ∈ action.uses l, handle ∈ l.opened := by
  change l.step action = some l' at hstep
  simp only [Lifetime.step, Option.ite_none_right_eq_some] at hstep
  obtain ⟨⟨halive, -⟩, hact⟩ := hstep
  have howner := h.owner
  cases action <;> simp only [act, Option.ite_none_right_eq_some] at hact
  case waitStart outcome =>
    rw [hact.1.1] at howner
    exact fun handle _ => howner.2.mem handle
  case client action =>
    rw [hact.1] at howner
    exact fun handle _ => howner.2.mem handle
  case signalEnd ok =>
    rw [hact.1.1] at howner
    exact fun handle _ => howner.2.mem handle
  case signalStart ok => exact fun handle _ => (h.awaiting halive hact.1).mem handle
  case select answer =>
    have hruns : l.ReaderRuns := ⟨by simp [hact.1.1], by simp [hact.1.2.1]⟩
    exact fun handle _ => (h.allOpen halive hruns).mem handle
  case signal =>
    obtain ⟨hlaunch, hact⟩ := hact
    obtain ⟨system, hsignal, -⟩ := Option.map_eq_some_iff.mp hact
    simp only [System.step, Option.ite_none_right_eq_some] at hsignal
    have hruns : l.ReaderRuns := ⟨by simp [hlaunch], by simp [hsignal.1]⟩
    exact fun handle _ => (h.allOpen halive hruns).mem handle
  case close =>
    split at hact
    · next handle left hphase =>
      rw [hphase] at howner
      obtain ⟨-, -, -, -, hopened⟩ := howner
      intro handle' hmem
      simp only [LifetimeAction.uses, hphase, List.take_succ_cons, List.take_zero,
        List.mem_singleton] at hmem
      rw [hmem, hopened.mem_iff]
      exact List.mem_cons_self
    · cases hact
  all_goals
    intro handle hmem
    simp only [LifetimeAction.uses, List.not_mem_nil] at hmem

end Lifetime

/-- In every run of an object, from its construction to its destruction and
however its threads are interleaved:

* each step passes only open handles to the system,
* an object that is constructed has a reader thread that has entered its loop,
* a constructor that throws leaves no reader thread behind,
* and once the destructor has run the reader thread has returned and every
  handle is closed. -/
theorem lifetime_handles {msgParser : CDCMessageParserPrivate} {l : Lifetime}
    {actions : List LifetimeAction}
    (hrun : lifetime.run (.start msgParser) actions = some l) :
    (∀ action l', lifetime.step l action = some l' →
        ∀ handle ∈ action.uses l, handle ∈ l.opened) ∧
      (l.owner = .constructed → l.launch = .looping) ∧
      (∀ e, l.owner = .threw e → l.launch = .none) ∧
      (l.owner = .destroyed → l.system.reader = .returned ∧ l.opened = []) := by
  have hsound := Lifetime.Sound.run hrun
  have howner := hsound.owner
  refine ⟨fun action l' hstep => hsound.uses hstep, ?_, ?_, ?_⟩
  · intro hphase
    rw [hphase] at howner
    exact howner.1
  · intro e hphase
    rw [hphase] at howner
    exact howner
  · intro hphase
    rw [hphase] at howner
    exact howner.2

/-! ## The destructor comes to its end -/

/-- A round that goes on has taken something from the buffer. -/
theorem beginRound_length {self self' : CDCImplPrivate} {w rest : UString} {begun : RoundStart}
    (h : beginRound self w = (.ok begun, self', rest)) :
    (begun = .ends → rest.length = w.length) ∧ (begun ≠ .ends → rest.length < w.length) := by
  cases hlook : (lexer self.msgParser.stateType).look w with
  | none =>
    obtain ⟨last, hwait⟩ := beginRound_wait hlook
    obtain ⟨hends, -, hrest⟩ : begun = .ends ∧ self' = _ ∧ rest = repair w := by
      simpa using h.symm.trans hwait
    rw [hrest, hends]
    exact ⟨fun _ => repair_length w, fun hne => absurd rfl hne⟩
  | some found =>
    obtain ⟨item, rest₀⟩ := found
    have hshrinks := (lexer self.msgParser.stateType).look_shrinks hlook
    obtain ⟨last, htake⟩ := processRound_take .linux hlook
    rw [processRound_begin, h] at htake
    cases begun with
    | ends =>
      -- a round that ends the loop has found no item
      obtain ⟨hfalse, -⟩ := Prod.mk.inj htake
      cases hresult : performResult .linux (withParse self last) item <;>
        simp [hresult, Except.map] at hfalse
    | goesOn =>
      obtain ⟨-, -, hrest⟩ : _ ∧ _ ∧ rest = rest₀ := by simpa using htake
      rw [hrest]
      exact ⟨by simp, fun _ => hshrinks⟩
    | signals =>
      have hrest : rest = rest₀ := by
        rcases hevent : self'.setMyEvent .linux with ⟨_ | _, self''⟩ <;>
          simp only [hevent, Prod.mk.injEq] at htake <;> exact htake.2.2
      rw [hrest]
      exact ⟨by simp, fun _ => hshrinks⟩

/-- The actions of the reader thread in its loop. -/
def LifetimeAction.ofReader : LifetimeAction → Bool
  | .select _ | .round | .signal => true
  | _ => false

namespace Lifetime

/-- The steps that a loop of `processAllMessages` takes at most. -/
def processingSteps (n : Nat) : Nat := 2 * n + 1

/-- The steps that the reader thread still takes at most, once its end has been
signalled: those of the round in which it is, and of the one that reports the
end. -/
def stepsLeft (l : Lifetime) : Nat :=
  let n := l.system.receivedBytes.length
  let last := 1 + processingSteps (n + buffSize)
  match l.system.reader with
  | .selecting => last
  | .processing => processingSteps n + if l.run then last else 0
  | .signalling => 1 + processingSteps n + if l.run then last else 0
  | .returned | .terminated => 0

theorem system_throws_ended (s : System) (self : CDCImplPrivate) (e : CdcException) :
    (s.throws self e).reader = .returned ∨ (s.throws self e).reader = .terminated := by
  unfold System.throws threadHandler
  split_ifs
  · exact .inl rfl
  · exact .inr rfl

theorem stepsLeft_ended {l : Lifetime}
    (h : l.system.reader = .returned ∨ l.system.reader = .terminated) : l.stepsLeft = 0 := by
  rcases h with h | h <;> simp [stepsLeft, h]

theorem loopTest_ended {l : Lifetime}
    (h : l.system.reader = .returned ∨ l.system.reader = .terminated) : l.loopTest = l := by
  rcases h with h | h <;> simp [loopTest, h]

/-- What a step of the reader thread in the loop of `processAllMessages` makes
of its buffer. -/
theorem system_round_cases {s s' : System} (h : s.step .round = some s') :
    s.reader = .processing ∧
      ((s'.reader = .returned ∨ s'.reader = .terminated) ∨
        (s'.reader = .selecting ∧ s'.receivedBytes.length = s.receivedBytes.length) ∨
        ((s'.reader = .processing ∨ s'.reader = .signalling) ∧
          s'.receivedBytes.length < s.receivedBytes.length)) := by
  simp only [System.step, Option.ite_none_right_eq_some] at h
  obtain ⟨hreader, h⟩ := h
  refine ⟨hreader, ?_⟩
  rcases hbegin : beginRound s.impl s.receivedBytes with ⟨e | begun, impl, rest⟩
  · rw [hbegin] at h
    obtain rfl := Option.some.inj h
    exact .inl (system_throws_ended _ _ _)
  · rw [hbegin] at h
    obtain ⟨hends, hgoes⟩ := beginRound_length hbegin
    obtain rfl := Option.some.inj h
    cases begun with
    | ends => exact .inr (.inl ⟨rfl, hends rfl⟩)
    | goesOn => exact .inr (.inr ⟨.inl rfl, hgoes (by simp)⟩)
    | signals => exact .inr (.inr ⟨.inr rfl, hgoes (by simp)⟩)

theorem system_signal_cases {s s' : System} (h : s.step .signal = some s') :
    s.reader = .signalling ∧
      ((s'.reader = .returned ∨ s'.reader = .terminated) ∨
        (s'.reader = .processing ∧ s'.receivedBytes = s.receivedBytes)) := by
  simp only [System.step, Option.ite_none_right_eq_some] at h
  obtain ⟨hreader, h⟩ := h
  refine ⟨hreader, ?_⟩
  rcases hevent : s.impl.setMyEvent .linux with ⟨e | _, impl⟩
  · rw [hevent] at h
    obtain rfl := Option.some.inj h
    exact .inl (system_throws_ended _ _ _)
  · rw [hevent] at h
    obtain rfl := Option.some.inj h
    exact .inr ⟨rfl, rfl⟩

/-- A read leads into the loop of `processAllMessages`, or back to `select`. -/
theorem system_read_cases {s s' : System} {buflen : Nat} (h : s.step (.read buflen) = some s') :
    (s'.reader = .processing ∨ s'.reader = .selecting) ∧
      s'.receivedBytes.length ≤ s.receivedBytes.length + buflen := by
  simp only [System.step, appendDataFromPort, Option.ite_none_right_eq_some] at h
  obtain ⟨-, h⟩ := h
  obtain rfl := Option.some.inj h
  constructor
  · dsimp only
    split_ifs
    · exact .inl rfl
    · exact .inr rfl
  · rw [List.length_append, List.length_take]
    omega

/-- Once the end has been signalled, each step of the reader thread leaves fewer
of them. -/
theorem stepsLeft_reader {l l' : Lifetime} {action : LifetimeAction} (hend : 0 < l.readEndEvent)
    (haction : action.ofReader = true) (h : l.act action = some l') :
    l'.stepsLeft + 1 ≤ l.stepsLeft := by
  cases action <;> simp only [LifetimeAction.ofReader, Bool.false_eq_true] at haction
  case select answer =>
    simp only [act, Option.ite_none_right_eq_some] at h
    obtain ⟨⟨-, hreader, hpossible⟩, h⟩ := h
    have hleft : 1 ≤ l.stepsLeft := by
      simp only [stepsLeft, hreader]
      omega
    have hended : ∀ {l₂ : Lifetime},
        l₂.system.reader = .returned ∨ l₂.system.reader = .terminated →
        l₂.stepsLeft + 1 ≤ l.stepsLeft := by
      intro l₂ hl₂
      rw [stepsLeft_ended hl₂]
      exact hleft
    have hrun : decide (l.readEndEvent = 0) = false := by simpa using Nat.pos_iff_ne_zero.mp hend
    unfold selectRound at h
    split at h
    · obtain rfl := Option.some.inj h
      exact hended (system_throws_ended _ _ _)
    · exact absurd hpossible id
    · split at h
      · obtain rfl := Option.some.inj h
        apply hended
        simp [loopTest, hreader, hrun]
      · obtain rfl := Option.some.inj h
        exact hended (system_throws_ended _ _ _)
      · next buflen =>
        obtain ⟨system, hread, rfl⟩ := Option.map_eq_some_iff.mp h
        obtain ⟨hphase, hlength⟩ := system_read_cases hread
        have hbuflen : buflen ≤ buffSize := hpossible
        rcases hphase with hphase | hphase
        · simp only [loopTest, hphase, reduceCtorEq, false_and, if_false, stepsLeft, hreader, hrun,
            Bool.false_eq_true, processingSteps]
          omega
        · apply hended
          simp [loopTest, hphase, hrun]
  case round =>
    simp only [act, Option.ite_none_right_eq_some, Option.map_eq_some_iff] at h
    obtain ⟨-, system, hround, rfl⟩ := h
    obtain ⟨hreader, hcases⟩ := system_round_cases hround
    have hleft : 1 ≤ l.stepsLeft := by
      simp only [stepsLeft, hreader, processingSteps]
      omega
    rcases hcases with hended | ⟨hphase, hlength⟩ | ⟨hphase | hphase, hlength⟩
    · rw [loopTest_ended hended, stepsLeft_ended hended]
      exact hleft
    · cases hrun : l.run with
      | true =>
        simp only [loopTest, hphase, hrun, Bool.true_eq_false, and_false, if_false, stepsLeft,
          hreader, hlength, if_true, processingSteps]
        omega
      | false =>
        rw [stepsLeft_ended (.inl (by simp [loopTest, hphase]))]
        exact hleft
    · simp only [loopTest, hphase, reduceCtorEq, false_and, if_false, stepsLeft, hreader,
        processingSteps]
      split_ifs <;> omega
    · simp only [loopTest, hphase, reduceCtorEq, false_and, if_false, stepsLeft, hreader,
        processingSteps]
      split_ifs <;> omega
  case signal =>
    simp only [act, Option.ite_none_right_eq_some, Option.map_eq_some_iff] at h
    obtain ⟨-, system, hsignal, rfl⟩ := h
    obtain ⟨hreader, hcases⟩ := system_signal_cases hsignal
    rcases hcases with hended | ⟨hphase, hsame⟩
    · rw [stepsLeft_ended hended]
      simp only [stepsLeft, hreader]
      omega
    · simp only [stepsLeft, hreader, hphase, hsame]
      omega

theorem stepsLeft_congr {l l' : Lifetime} (hreader : l'.system.reader = l.system.reader)
    (hbytes : l'.system.receivedBytes = l.system.receivedBytes) (hrun : l'.run = l.run) :
    l'.stepsLeft = l.stepsLeft := by
  simp only [stepsLeft, hreader, hbytes, hrun]

/-- The owner never resets the end event, and does not touch the session.  A
reader thread that cannot signal its start has ended. -/
theorem owner_frame {l l' : Lifetime} {action : LifetimeAction} (haction : ¬ action.OfSession)
    (h : l.act action = some l') :
    l.readEndEvent ≤ l'.readEndEvent ∧
      (l'.system = l.system ∧ l'.run = l.run ∨
        (l'.system.reader = .returned ∨ l'.system.reader = .terminated)) := by
  cases action <;> simp only [LifetimeAction.OfSession, not_true_eq_false] at haction
  case openPort outcome =>
    simp only [act, Option.ite_none_right_eq_some] at h
    obtain ⟨-, h⟩ := h
    split at h <;> obtain rfl := Option.some.inj h <;> exact ⟨Nat.le_refl _, .inl ⟨rfl, rfl⟩⟩
  case createMyEvent ok =>
    simp only [act] at h
    split at h
    · split_ifs at h <;> obtain rfl := Option.some.inj h <;>
        exact ⟨Nat.le_refl _, .inl ⟨rfl, rfl⟩⟩
    · cases h
  case close =>
    simp only [act] at h
    split at h
    · obtain rfl := Option.some.inj h
      exact ⟨Nat.le_refl _, .inl ⟨rfl, rfl⟩⟩
    · cases h
  case join =>
    simp only [act, Option.ite_none_right_eq_some] at h
    obtain rfl := Option.some.inj h.2
    exact ⟨Nat.le_refl _, .inl ⟨rfl, rfl⟩⟩
  case signalEnd ok =>
    simp only [act, Option.ite_none_right_eq_some] at h
    obtain ⟨-, h⟩ := h
    split_ifs at h <;> obtain rfl := Option.some.inj h
    · exact ⟨Nat.le_succ _, .inl ⟨rfl, rfl⟩⟩
    · exact ⟨Nat.le_refl _, .inl ⟨rfl, rfl⟩⟩
  case signalStart ok =>
    simp only [act, Option.ite_none_right_eq_some] at h
    obtain ⟨-, h⟩ := h
    split_ifs at h <;> obtain rfl := Option.some.inj h
    · exact ⟨Nat.le_refl _, .inl ⟨rfl, rfl⟩⟩
    · exact ⟨Nat.le_refl _, .inr (system_throws_ended _ _ _)⟩
  all_goals
    simp only [act, Option.ite_none_right_eq_some] at h
    obtain ⟨-, h⟩ := h
    split_ifs at h <;> obtain rfl := Option.some.inj h <;>
      exact ⟨Nat.le_refl _, .inl ⟨rfl, rfl⟩⟩

/-- Any other action leaves the reader thread its steps. -/
theorem stepsLeft_other {l l' : Lifetime} {action : LifetimeAction}
    (haction : action.ofReader = false) (h : l.act action = some l') :
    l'.stepsLeft ≤ l.stepsLeft := by
  by_cases hsession : action.OfSession
  · cases action <;> simp only [LifetimeAction.ofReader, Bool.true_eq_false] at haction
    case setAsyncListener listener =>
      simp only [act, Option.ite_none_right_eq_some] at h
      obtain rfl := Option.some.inj h.2
      exact Nat.le_of_eq (stepsLeft_congr rfl rfl rfl)
    case client action =>
      simp only [act, System.step, Option.ite_none_right_eq_some, Option.map_eq_some_iff] at h
      obtain ⟨-, system, hclient, rfl⟩ := h
      split_ifs at hclient
      obtain ⟨⟨impl, client⟩, -, rfl⟩ := Option.map_eq_some_iff.mp hclient
      exact Nat.le_of_eq (stepsLeft_congr rfl rfl rfl)
    case transmit sent =>
      simp only [act, System.step, Option.map_some] at h
      obtain rfl := Option.some.inj h
      exact Nat.le_of_eq (stepsLeft_congr rfl rfl rfl)
    all_goals simp only [LifetimeAction.OfSession] at hsession
  · obtain ⟨-, ⟨hsystem, hrun⟩ | hended⟩ := owner_frame hsession h
    · exact Nat.le_of_eq (stepsLeft_congr (by rw [hsystem]) (by rw [hsystem]) hrun)
    · rw [stepsLeft_ended hended]
      exact Nat.zero_le _

/-- The counter of the end event is never reset. -/
theorem readEndEvent_step {l l' : Lifetime} {action : LifetimeAction}
    (h : l.act action = some l') : l.readEndEvent ≤ l'.readEndEvent := by
  by_cases hsession : action.OfSession
  · exact Nat.le_of_eq (session_sameOwner hsession h).readEndEvent.symm
  · exact (owner_frame hsession h).1

theorem act_of_step {l l' : Lifetime} {action : LifetimeAction}
    (h : lifetime.step l action = some l') : l.act action = some l' := by
  change l.step action = some l' at h
  simp only [Lifetime.step, Option.ite_none_right_eq_some] at h
  exact h.2

/-- However the other threads run, the reader thread takes no more steps than
are left to it. -/
theorem stepsLeft_run {l l' : Lifetime} {actions : List LifetimeAction}
    (hend : 0 < l.readEndEvent) (hrun : lifetime.run l actions = some l') :
    (actions.filter LifetimeAction.ofReader).length + l'.stepsLeft ≤ l.stepsLeft ∧
      0 < l'.readEndEvent := by
  induction actions generalizing l with
  | nil =>
    obtain rfl := Option.some.inj hrun
    exact ⟨by simp, hend⟩
  | cons action actions ih =>
    obtain ⟨u, hstep, hrest⟩ := Machine.run_cons.mp hrun
    have hact := act_of_step hstep
    obtain ⟨hsteps, hend'⟩ := ih (Nat.lt_of_lt_of_le hend (readEndEvent_step hact)) hrest
    refine ⟨?_, hend'⟩
    cases haction : action.ofReader with
    | true =>
      have hfewer := stepsLeft_reader hend haction hact
      simp only [List.filter_cons, haction, if_true, List.length_cons]
      omega
    | false =>
      have hsame := stepsLeft_other haction hact
      simp only [List.filter_cons, haction, Bool.false_eq_true, if_false]
      omega

/-- The reader thread can go on until it has ended. -/
theorem reader_proceeds {l : Lifetime} (halive : l.Alive) (hlaunch : l.launch = .looping)
    (hend : 0 < l.readEndEvent) :
    l.system.reader = .returned ∨
      ∃ action l', action.ofReader = true ∧ lifetime.step l action = some l' := by
  have hstep : ∀ {action l'}, l.act action = some l' → lifetime.step l action = some l' := by
    intro action l' hact
    show l.step action = some l'
    rw [Lifetime.step, if_pos halive]
    exact hact
  cases hreader : l.system.reader with
  | returned => exact .inl rfl
  | terminated => exact absurd hreader halive.2
  | selecting =>
    right
    have hselect : l.act (.select (.ready none)) = l.selectRound (.ready none) :=
      if_pos ⟨hlaunch, hreader, hend⟩
    exact ⟨.select (.ready none), _, rfl, hstep hselect⟩
  | processing =>
    right
    have hround : ∃ system, l.system.step .round = some system := by
      simp only [System.step, if_pos hreader]
      rcases beginRound l.system.impl l.system.receivedBytes with ⟨_ | _, _, _⟩ <;>
        exact ⟨_, rfl⟩
    obtain ⟨system, hround⟩ := hround
    have hact : l.act .round = some { l with system }.loopTest := by
      simp only [act, if_pos hlaunch, hround, Option.map_some]
    exact ⟨.round, _, rfl, hstep hact⟩
  | signalling =>
    right
    have hsignal : ∃ system, l.system.step .signal = some system := by
      simp only [System.step, if_pos hreader]
      rcases l.system.impl.setMyEvent .linux with ⟨_ | _, _⟩ <;> exact ⟨_, rfl⟩
    obtain ⟨system, hsignal⟩ := hsignal
    have hact : l.act .signal = some { l with system } := by
      simp only [act, if_pos hlaunch, hsignal, Option.map_some]
    exact ⟨.signal, _, rfl, hstep hact⟩

end Lifetime

/-- Once the destructor has signalled the end, the reader thread takes a bounded
number of steps, however the device and the other actions are interleaved with
them and however much the device still sends: it makes one more read at most, of
no more than `buffSize` bytes.  Unless the process is ended, the destructor never
waits in vain: the thread can go on, or it can be joined. -/
theorem lifetime_stops {msgParser : CDCMessageParserPrivate} {l l' : Lifetime}
    {before actions : List LifetimeAction}
    (hbefore : lifetime.run (.start msgParser) before = some l) (howner : l.owner = .joining)
    (hrun : lifetime.run l actions = some l') :
    (actions.filter LifetimeAction.ofReader).length ≤
        4 * l.system.receivedBytes.length + 2 * Lifetime.buffSize + 4 ∧
      (l'.Alive → l'.owner = .joining →
        ∃ action l'', (action = .join ∨ action.ofReader = true) ∧
          lifetime.step l' action = some l'') := by
  have hsound := (Lifetime.Sound.run hbefore).owner
  rw [howner] at hsound
  obtain ⟨hlaunch, -, hend⟩ := hsound
  obtain ⟨hsteps, hend'⟩ := Lifetime.stepsLeft_run hend hrun
  constructor
  · have hleft : l.stepsLeft ≤ 4 * l.system.receivedBytes.length + 2 * Lifetime.buffSize + 4 := by
      unfold Lifetime.stepsLeft Lifetime.processingSteps
      cases l.system.reader with
      | selecting => dsimp only; omega
      | processing => dsimp only; split_ifs <;> omega
      | signalling => dsimp only; split_ifs <;> omega
      | returned => exact Nat.zero_le _
      | terminated => exact Nat.zero_le _
    omega
  · intro halive howner'
    have hsound' := (Lifetime.Sound.run (Machine.run_append.mpr ⟨l, hbefore, hrun⟩)).owner
    rw [howner'] at hsound'
    rcases Lifetime.reader_proceeds halive hsound'.1 hend' with
      hreturned | ⟨action, l'', hreader, hstep⟩
    · have hjoin : lifetime.step l' .join =
          some { l' with owner := .destroying Handle.destroyed } := by
        show l'.step .join = _
        rw [Lifetime.step, if_pos halive]
        exact if_pos ⟨howner', hreturned⟩
      exact ⟨.join, _, .inl rfl, hjoin⟩
    · exact ⟨action, l'', .inr hreader, hstep⟩

/-- A life: the object is constructed, and destroyed while an answer arrives. -/
def shortLife : List LifetimeAction :=
  [.openPort .opened, .createMyEvent true, .createMyEvent true, .createMyEvent true,
    .createMyEvent true, .startThread true, .signalStart true, .waitStart .signalled,
    .transmit ⟨.test, false⟩, .signalEnd true]

theorem lifetime_handles_short :
    ∃ l l', lifetime.run (.start (.new listedOnly)) shortLife = some l ∧
      lifetime.step l (.select (.ready (some (some 4)))) = some l' ∧
      ∀ handle ∈ LifetimeAction.uses l (.select (.ready (some (some 4)))), handle ∈ l.opened := by
  obtain ⟨l', hrun⟩ := Option.isSome_iff_exists.mp (show (lifetime.run (.start (.new listedOnly))
    (shortLife ++ [.select (.ready (some (some 4)))])).isSome = true by decide)
  obtain ⟨l, hlife, hselect⟩ := Machine.run_append.mp hrun
  rw [Machine.run_singleton] at hselect
  obtain ⟨hopen, -⟩ := lifetime_handles hlife
  exact ⟨l, l', hlife, hselect, hopen _ l' hselect⟩

theorem lifetime_stops_short :
    ∃ l l', lifetime.run (.start (.new listedOnly)) shortLife = some l ∧
      lifetime.run l [.select (.ready (some (some 4))), .round, .signal, .round] = some l' ∧
      4 ≤ 4 * l.system.receivedBytes.length + 2 * Lifetime.buffSize + 4 := by
  obtain ⟨l', hrun⟩ := Option.isSome_iff_exists.mp (show (lifetime.run (.start (.new listedOnly))
    (shortLife ++ [.select (.ready (some (some 4))), .round, .signal, .round])).isSome = true by
      decide)
  obtain ⟨l, hlife, hend⟩ := Machine.run_append.mp hrun
  have howner : l.owner = .joining := by
    have hsame : (lifetime.run (.start (.new listedOnly)) shortLife).map (·.owner) =
        some .joining := by decide
    rw [hlife] at hsame
    exact Option.some.inj hsame
  exact ⟨l, l', hlife, hend, (lifetime_stops hlife howner hend).1⟩

end Clibcdc
