import Clibcdc.Automata.Machine
import Clibcdc.Reader.Resync

/-!
# The reader thread of Windows, call by call

`readMsgThread` of `CDCImpl_Win.cpp` with all of its system calls.  The thread
waits for a character event, and then reads one byte after the other until a
read completes without one.  Each step of `ReadingThread.step` is one call, with
what the operating system answers, and the code behind it up to the next call.

* `ReadFile` sets `bytesTotal` to 0 before it does anything else, so that
  `bytesTotal` is 0 behind a delayed read.
* The wait of the read loop answers with what `GetOverlappedResult` then gives.
  That of a character event leaves a value in `bytesTotal` that means nothing.
* The branches of `WAIT_TIMEOUT` are kept, although the waits are infinite.
* `reads` is no variable of the thread.  It records how the reads have
  completed.

The thread makes of its reads what `readingLoop` makes of them
(`Follows.run`).
-/

namespace Clibcdc.Reader

open Clibcdc.Automata Clibcdc.Parser

/-! ## System calls -/

/-- What a call answers that may be delayed. -/
inductive CallAnswer (α : Type) where
  | completed (result : α)
  | failed
  | pending
  deriving DecidableEq, Repr

/-- What `WaitForMultipleObjects` reports.  For the overlapped call it carries
what `GetOverlappedResult` gives, if it does not fail. -/
inductive WaitAnswer (α : Type) where
  | overlapped (result : Option α)
  | readEnd
  | timedOut
  | failed
  deriving DecidableEq, Repr

/-- The calls of the thread with their answers.  A read that has completed
carries the byte, if there is one. -/
inductive SystemAnswer where
  | setCommMask (ok : Bool)
  | createEvent (ok : Bool)
  | setStartEvent (ok : Bool)
  | waitCommEvent (answer : CallAnswer Unit)
  | commWait (answer : WaitAnswer Nat)
  | readFile (answer : CallAnswer (Option Byte))
  | readWait (answer : WaitAnswer (Option Byte))
  deriving DecidableEq, Repr

/-- The bytes that the port delivers with an answer. -/
def SystemAnswer.bytes : SystemAnswer → UString
  | .readFile (.completed b) => b.toList
  | .readWait (.overlapped (some b)) => b.toList
  | _ => []

/-! ## The thread -/

/-- The call that the thread makes next, or how it has ended. -/
inductive ReadingPhase where
  | settingMask | creatingEvent | starting
  | waitingComm | commPending | reading | readPending
  | returned (code : Nat)
  | terminated
  deriving DecidableEq, Repr

structure ReadingThread where
  self : CDCImplPrivate
  phase : ReadingPhase
  receivedBytes : UString
  bytesTotal : Nat
  byteRead : Byte
  fWaitingOnRead : Bool
  run : Bool
  reads : List ReadFileResult

namespace ReadingThread

def start (self : CDCImplPrivate) : ReadingThread where
  self := self
  phase := .settingMask
  receivedBytes := []
  bytesTotal := 0
  byteRead := 0
  fWaitingOnRead := false
  run := true
  reads := []

/-- An exception runs into the handlers of the thread. -/
def throws (t : ReadingThread) (self : CDCImplPrivate) (e : CdcException) : ReadingThread :=
  match threadHandler handledWindows self e with
  | .returned self code => { t with self, phase := .returned code }
  | .terminated self _ | .running self _ => { t with self, phase := .terminated }

/-- The head of the reading loop: a read is issued unless one is pending. -/
def readingHead (t : ReadingThread) : ReadingThread :=
  { t with phase := if t.fWaitingOnRead then .readPending else .reading }

/-- The tests of the two loops, `while (bytesTotal)` and `while (run)`. -/
def loopTest (t : ReadingThread) : ReadingThread :=
  if t.bytesTotal ≠ 0 then t.readingHead
  else { t with phase := if t.run then .waitingComm else .returned 0 }

/-- A read has completed: the buffer is processed behind a carriage return, and
the next read can be issued. -/
def completes (t : ReadingThread) (result : ReadFileResult) (receivedBytes : UString)
    (byteRead : Byte) (bytesTotal : Nat) : ReadingThread :=
  let t := { t with byteRead, bytesTotal, reads := t.reads ++ [result] }
  match processByte t.self receivedBytes byteRead with
  | (.error e, self, receivedBytes) => { t with receivedBytes }.throws self e
  | (.ok (), self, receivedBytes) =>
    { t with self, receivedBytes, fWaitingOnRead := false }.loopTest

def step (t : ReadingThread) (answer : SystemAnswer) : Option ReadingThread :=
  match t.phase, answer with
  | .settingMask, .setCommMask ok =>
    if ok then some { t with phase := .creatingEvent }
    else some (t.throws t.self ⟨.receiveException, "SetCommMask failed with error "⟩)
  | .creatingEvent, .createEvent ok =>
    if ok then some { t with phase := .starting }
    else some (t.throws t.self
      ⟨.receiveException, "Create read char event failed with error "⟩)
  | .starting, .setStartEvent ok =>
    if ok then some { t with phase := .waitingComm }
    else some (t.throws t.self
      ⟨.implException, "Signaling anew message event failed with error "⟩)
  | .waitingComm, .waitCommEvent answer =>
    match answer with
    | .completed () => some t.readingHead
    | .failed => some (t.throws t.self
        ⟨.receiveException, "Waiting for char event failed with error "⟩)
    | .pending => some { t with phase := .commPending }
  | .commPending, .commWait answer =>
    match answer with
    | .overlapped none => some (t.throws t.self
        ⟨.receiveException, "Waiting for char event failed with error "⟩)
    | .overlapped (some bytesTotal) => some { t with bytesTotal }.readingHead
    | .readEnd => some { t with run := false }.readingHead
    -- a wait that fails is passed over here
    | .timedOut | .failed => some t.readingHead
  | .reading, .readFile answer =>
    match answer with
    | .completed b =>
      -- the byte is appended whether or not there is a new one
      let byteRead := b.getD t.byteRead
      some (t.completes (.immediate byteRead) (t.receivedBytes ++ [byteRead]) byteRead
        b.toList.length)
    | .failed => some (t.throws t.self ⟨.receiveException, "Reading failed with error "⟩)
    | .pending =>
      some { t with phase := .readPending, bytesTotal := 0, fWaitingOnRead := true }
  | .readPending, .readWait answer =>
    match answer with
    | .overlapped none => some (t.throws t.self
        ⟨.receiveException, "Waiting for reading event failed with error "⟩)
    | .overlapped (some b) =>
      let byteRead := b.getD t.byteRead
      let receivedBytes := if b.isSome then t.receivedBytes ++ [byteRead] else t.receivedBytes
      some (t.completes (.delayed b) receivedBytes byteRead b.toList.length)
    | .readEnd => some { t with run := false }.loopTest
    | .timedOut => some t.loopTest
    | .failed => some (t.throws t.self
        ⟨.receiveException, "Waiting for event in read cycle failed with error "⟩)
  | _, _ => none

end ReadingThread

def readingThread : Machine ReadingThread SystemAnswer := ⟨ReadingThread.step⟩

/-! ## What a step can do -/

/-- The call has failed. -/
def SystemAnswer.HasFailed : SystemAnswer → Prop
  | .setCommMask ok | .createEvent ok | .setStartEvent ok => ok = false
  | .waitCommEvent answer => answer = .failed
  | .commWait answer => answer = .overlapped none ∨ answer = .failed
  | .readFile answer => answer = .failed
  | .readWait answer => answer = .overlapped none ∨ answer = .failed

/-- The answers that the thread takes for an error. -/
def SystemAnswer.Fails : SystemAnswer → Prop
  | .setCommMask ok | .createEvent ok | .setStartEvent ok => ok = false
  | .waitCommEvent answer => answer = .failed
  | .commWait answer => answer = .overlapped none
  | .readFile answer => answer = .failed
  | .readWait answer => answer = .overlapped none ∨ answer = .failed

instance : DecidablePred SystemAnswer.Fails
  | .setCommMask ok | .createEvent ok | .setStartEvent ok =>
    inferInstanceAs (Decidable (ok = false))
  | .waitCommEvent answer => inferInstanceAs (Decidable (answer = .failed))
  | .commWait answer => inferInstanceAs (Decidable (answer = .overlapped none))
  | .readFile answer => inferInstanceAs (Decidable (answer = .failed))
  | .readWait answer => inferInstanceAs (Decidable (answer = .overlapped none ∨ answer = .failed))

/-- A call that has failed is taken for an error, unless it is the wait for a
character event: that is passed over. -/
theorem SystemAnswer.fails_iff (answer : SystemAnswer) :
    answer.Fails ↔ answer.HasFailed ∧ answer ≠ .commWait .failed := by
  cases answer with
  | commWait answer => cases answer <;> simp [Fails, HasFailed]
  | _ => simp [Fails, HasFailed]

/-- The thread makes another call. -/
def ReadingPhase.Callable : ReadingPhase → Prop
  | .returned _ | .terminated => False
  | _ => True

/-- The thread runs, or has returned because its end was asked for. -/
def ReadingPhase.Regular : ReadingPhase → Prop
  | .returned code => code = 0
  | .terminated => False
  | _ => True

/-- Nothing has been read. -/
structure SameReads (t t' : ReadingThread) : Prop where
  self : t'.self = t.self
  receivedBytes : t'.receivedBytes = t.receivedBytes
  byteRead : t'.byteRead = t.byteRead
  reads : t'.reads = t.reads

/-- The thread passes on to its next call, or a call has failed, or a read has
completed. -/
inductive Moves (t : ReadingThread) (answer : SystemAnswer) : ReadingThread → Prop
  | passes {t' : ReadingThread} (hsame : SameReads t t') (hphase : t'.phase.Regular)
      (hfails : ¬ answer.Fails) (hbytes : answer.bytes = []) : Moves t answer t'
  | fails {e : CdcException} (he : handledWindows e.identity = true) (hfails : answer.Fails)
      (hbytes : answer.bytes = []) : Moves t answer (t.throws t.self e)
  | reads {result : ReadFileResult} {bytesTotal : Nat} (hresult : result ≠ .failed)
      (hfails : ¬ answer.Fails)
      (hbytes : result.bytes = answer.bytes ∨ answer = .readFile (.completed none)) :
      Moves t answer (t.completes result (t.receivedBytes ++ result.bytes)
        (result.byte.getD t.byteRead) bytesTotal)

namespace ReadingThread

theorem readingHead_same (t : ReadingThread) :
    SameReads t t.readingHead ∧ t.readingHead.phase.Regular := by
  refine ⟨⟨rfl, rfl, rfl, rfl⟩, ?_⟩
  unfold readingHead
  split_ifs <;> trivial

theorem loopTest_same (t : ReadingThread) :
    SameReads t t.loopTest ∧ t.loopTest.phase.Regular := by
  unfold loopTest
  split_ifs with htotal hrun
  · exact t.readingHead_same
  · exact ⟨⟨rfl, rfl, rfl, rfl⟩, trivial⟩
  · exact ⟨⟨rfl, rfl, rfl, rfl⟩, rfl⟩

/-- A call whose answer is a success or a failure leads on or throws. -/
theorem moves_of_ok {t t' next : ReadingThread} {answer : SystemAnswer} {ok : Bool}
    {e : CdcException} (hstep : (if ok then some next else some (t.throws t.self e)) = some t')
    (hsame : SameReads t next) (hphase : next.phase.Regular)
    (he : handledWindows e.identity = true) (hfails : answer.Fails ↔ ok = false)
    (hbytes : answer.bytes = []) : Moves t answer t' := by
  cases ok with
  | true =>
    obtain rfl := Option.some.inj hstep
    exact .passes hsame hphase (by simp [hfails]) hbytes
  | false =>
    obtain rfl := Option.some.inj hstep
    exact .fails he (hfails.mpr rfl) hbytes

theorem moves_of_step {t t' : ReadingThread} {answer : SystemAnswer}
    (hstep : t.step answer = some t') : Moves t answer t' := by
  have hhead : ∀ u : ReadingThread, SameReads t u → SameReads t u.readingHead := by
    intro u hu
    obtain ⟨hsame, -⟩ := u.readingHead_same
    exact ⟨hsame.self.trans hu.self, hsame.receivedBytes.trans hu.receivedBytes,
      hsame.byteRead.trans hu.byteRead, hsame.reads.trans hu.reads⟩
  unfold step at hstep
  split at hstep
  · exact moves_of_ok hstep ⟨rfl, rfl, rfl, rfl⟩ trivial rfl Iff.rfl rfl
  · exact moves_of_ok hstep ⟨rfl, rfl, rfl, rfl⟩ trivial rfl Iff.rfl rfl
  · exact moves_of_ok hstep ⟨rfl, rfl, rfl, rfl⟩ trivial rfl Iff.rfl rfl
  · -- `WaitCommEvent`
    split at hstep <;> obtain rfl := Option.some.inj hstep
    · exact .passes t.readingHead_same.1 t.readingHead_same.2 (by simp [SystemAnswer.Fails]) rfl
    · exact .fails rfl rfl rfl
    · exact .passes ⟨rfl, rfl, rfl, rfl⟩ trivial (by simp [SystemAnswer.Fails]) rfl
  · -- the wait for a character event
    split at hstep <;> obtain rfl := Option.some.inj hstep
    · exact .fails rfl rfl rfl
    · exact .passes (hhead _ ⟨rfl, rfl, rfl, rfl⟩) (readingHead_same _).2
        (by simp [SystemAnswer.Fails]) rfl
    · exact .passes (hhead _ ⟨rfl, rfl, rfl, rfl⟩) (readingHead_same _).2
        (by simp [SystemAnswer.Fails]) rfl
    · exact .passes t.readingHead_same.1 t.readingHead_same.2 (by simp [SystemAnswer.Fails]) rfl
    · exact .passes t.readingHead_same.1 t.readingHead_same.2 (by simp [SystemAnswer.Fails]) rfl
  · -- `ReadFile`
    split at hstep <;> obtain rfl := Option.some.inj hstep
    · next b =>
      refine @Moves.reads t _ (.immediate (b.getD t.byteRead)) _ (by simp)
        (by simp [SystemAnswer.Fails]) ?_
      cases b with
      | none => exact .inr rfl
      | some b => exact .inl rfl
    · exact .fails rfl rfl rfl
    · exact .passes ⟨rfl, rfl, rfl, rfl⟩ trivial (by simp [SystemAnswer.Fails]) rfl
  · -- the wait for a read
    split at hstep <;> obtain rfl := Option.some.inj hstep
    · exact .fails rfl (.inl rfl) rfl
    · next b =>
      have hreads := @Moves.reads t (.readWait (.overlapped (some b))) (.delayed b)
        b.toList.length (by simp) (by simp [SystemAnswer.Fails]) (.inl rfl)
      cases b with
      | none => simpa [ReadFileResult.bytes, ReadFileResult.byte] using hreads
      | some b => exact hreads
    · obtain ⟨hsame, hphase⟩ := loopTest_same { t with run := false }
      exact .passes ⟨hsame.self, hsame.receivedBytes, hsame.byteRead, hsame.reads⟩ hphase
        (by simp [SystemAnswer.Fails]) rfl
    · exact .passes t.loopTest_same.1 t.loopTest_same.2 (by simp [SystemAnswer.Fails]) rfl
    · exact .fails rfl (.inr rfl) rfl
  · cases hstep

end ReadingThread

/-! ## The reading loop -/

theorem readingLoop_cons {result : ReadFileResult} (hresult : result ≠ .failed)
    (more : List ReadFileResult) (self : CDCImplPrivate) (w : UString) (byteRead : Byte) :
    readingLoop (result :: more) self w byteRead =
      match processByte self (w ++ result.bytes) (result.byte.getD byteRead) with
      | (.error e, self, _) => threadHandler handledWindows self e
      | (.ok (), self, w) => readingLoop more self w (result.byte.getD byteRead) := by
  rcases result with _ | b | _ | b
  · exact absurd rfl hresult
  · rfl
  · have hbytes : w ++ (ReadFileResult.delayed none).bytes = w := List.append_nil w
    rw [hbytes]
    rfl
  · rfl

namespace ReadingThread

/-- A thread that has ended makes no more calls. -/
theorem callable_of_step {t t' : ReadingThread} {answer : SystemAnswer}
    (hstep : t.step answer = some t') : t.phase.Callable := by
  unfold step at hstep
  split at hstep <;> simp_all [ReadingPhase.Callable]

theorem regular_of_step {t t' : ReadingThread} {answer : SystemAnswer}
    (hstep : t.step answer = some t') : t.phase.Regular := by
  have hcallable := callable_of_step hstep
  cases hphase : t.phase <;> simp_all [ReadingPhase.Callable, ReadingPhase.Regular]

theorem throws_irregular {t : ReadingThread} {self : CDCImplPrivate} {e : CdcException} :
    ¬ (t.throws self e).phase.Regular := by
  unfold throws threadHandler
  split_ifs
  · exact Nat.one_ne_zero
  · exact id

section Completes

variable {t : ReadingThread} {result : ReadFileResult} {receivedBytes rest : UString}
  {byteRead : Byte} {bytesTotal : Nat} {self' : CDCImplPrivate}

theorem completes_of_ok
    (h : processByte t.self receivedBytes byteRead = (.ok (), self', rest)) :
    (t.completes result receivedBytes byteRead bytesTotal).phase.Regular ∧
      SameReads
        { t with self := self', receivedBytes := rest, byteRead, reads := t.reads ++ [result] }
        (t.completes result receivedBytes byteRead bytesTotal) := by
  unfold completes
  simp only [h]
  obtain ⟨hsame, hphase⟩ := loopTest_same { t with
    self := self', receivedBytes := rest, byteRead, bytesTotal, reads := t.reads ++ [result]
    fWaitingOnRead := false }
  exact ⟨hphase, hsame.self, hsame.receivedBytes, hsame.byteRead, hsame.reads⟩

theorem completes_of_error {e : CdcException}
    (h : processByte t.self receivedBytes byteRead = (.error e, self', rest)) :
    t.completes result receivedBytes byteRead bytesTotal =
      { t with
        receivedBytes := rest, byteRead, bytesTotal
        reads := t.reads ++ [result] }.throws self' e := by
  unfold completes
  simp only [h]

end Completes

end ReadingThread

/-- The thread stands where the reading loop stands behind its reads. -/
def Follows (before : CDCImplPrivate) (t : ReadingThread) : Prop :=
  t.phase.Regular → ∀ more, readingLoop (t.reads ++ more) before [] 0 =
    readingLoop more t.self t.receivedBytes t.byteRead

theorem Follows.start (before : CDCImplPrivate) : Follows before (.start before) := fun _ _ => rfl

theorem Follows.step {before : CDCImplPrivate} {t t' : ReadingThread} {answer : SystemAnswer}
    (h : Follows before t) (hstep : readingThread.step t answer = some t') : Follows before t' := by
  have hloop := h (ReadingThread.regular_of_step hstep)
  intro hregular more
  cases ReadingThread.moves_of_step hstep with
  | passes hsame hphase hfails hbytes =>
    rw [hsame.self, hsame.receivedBytes, hsame.byteRead, hsame.reads]
    exact hloop more
  | fails he hfails hbytes => exact absurd hregular ReadingThread.throws_irregular
  | @reads result bytesTotal hresult hfails hbytes =>
    have hmore := hloop (result :: more)
    rw [readingLoop_cons hresult] at hmore
    rcases hprocess : processByte t.self (t.receivedBytes ++ result.bytes)
      (result.byte.getD t.byteRead) with ⟨_ | _, self', rest⟩
    · rw [ReadingThread.completes_of_error hprocess] at hregular
      exact absurd hregular ReadingThread.throws_irregular
    · obtain ⟨-, hsame⟩ :=
        @ReadingThread.completes_of_ok t result _ _ _ bytesTotal _ hprocess
      rw [hprocess] at hmore
      rw [hsame.self, hsame.receivedBytes, hsame.byteRead, hsame.reads, List.append_assoc]
      exact hmore

/-- A thread that has not failed has made of its reads what the reading loop
makes of them. -/
theorem Follows.run {before : CDCImplPrivate} {t : ReadingThread} {answers : List SystemAnswer}
    (hrun : readingThread.run (.start before) answers = some t) : Follows before t :=
  Machine.invariant (fun h hstep => h.step hstep) (.start before) hrun

/-! ## The bytes that are read -/

/-- No call is taken for an error, and a read that completes at once has a byte.
With the timeouts that `openPort` sets, a read that finds no byte is pending until
they have passed, so that only a delayed read completes without one. -/
def SystemAnswer.Works (answer : SystemAnswer) : Prop :=
  ¬ answer.Fails ∧ answer ≠ .readFile (.completed none)

instance : DecidablePred SystemAnswer.Works := fun answer =>
  inferInstanceAs (Decidable (¬ answer.Fails ∧ answer ≠ .readFile (.completed none)))

/-- Everything that the port has delivered has been read, once and in order. -/
structure HasRead (before : CDCImplPrivate) (bytes : UString) (t : ReadingThread) : Prop where
  follows : Follows before t
  regular : t.phase.Regular
  reads : .failed ∉ t.reads
  bytes : t.reads.flatMap (·.bytes) = bytes

namespace HasRead

variable {before : CDCImplPrivate} {bytes : UString} {t t' : ReadingThread}

theorem start (before : CDCImplPrivate) : HasRead before [] (.start before) :=
  ⟨.start before, trivial, List.not_mem_nil, rfl⟩

/-- The reads so far, as what the lexer makes of them. -/
theorem feed (h : HasRead before bytes t) (hwrites : before.eventWrites = []) :
    t.receivedBytes = ((lexer before.msgParser.stateType).feed lastIsCr []
        (t.reads.map (·.bytes))).2 ∧
      After .windows before ((lexer before.msgParser.stateType).feed lastIsCr []
        (t.reads.map (·.bytes))).1 t.self := by
  obtain ⟨self', hloop, hafter⟩ := @readingLoop_feed before hwrites t.reads h.reads [] 0 (by simp)
  have hfollows := h.follows h.regular []
  rw [List.append_nil, hloop] at hfollows
  obtain ⟨rfl, hrest⟩ := ThreadState.running.inj hfollows
  exact ⟨hrest.symm, hafter⟩

theorem step (hwrites : before.eventWrites = []) {answer : SystemAnswer}
    (h : HasRead before bytes t) (hworks : answer.Works)
    (hstep : readingThread.step t answer = some t') :
    HasRead before (bytes ++ answer.bytes) t' := by
  have hfollows := h.follows.step hstep
  cases ReadingThread.moves_of_step hstep with
  | passes hsame hphase hfails hbytes =>
    refine ⟨hfollows, hphase, ?_, ?_⟩
    · rw [hsame.reads]
      exact h.reads
    · rw [hsame.reads, hbytes, List.append_nil]
      exact h.bytes
  | fails he hfails hbytes => exact absurd hfails hworks.1
  | @reads result bytesTotal hresult hfails hbytes =>
    -- the writes to the event succeed, and so does the processing
    obtain ⟨-, hafter⟩ := h.feed hwrites
    obtain ⟨self', rest, hprocess⟩ : ∃ self' rest,
        processByte t.self (t.receivedBytes ++ result.bytes) (result.byte.getD t.byteRead) =
          (.ok (), self', rest) := by
      unfold processByte
      split_ifs
      · obtain ⟨self', hall, -⟩ := processAllMessages_eq .windows hafter.eventWrites
          (t.receivedBytes ++ result.bytes)
        exact ⟨self', _, hall⟩
      · exact ⟨_, _, rfl⟩
    obtain ⟨hphase, hsame⟩ :=
      @ReadingThread.completes_of_ok t result _ _ _ bytesTotal _ hprocess
    refine ⟨hfollows, hphase, ?_, ?_⟩
    · rw [hsame.reads]
      simpa [h.reads] using hresult.symm
    · rw [hsame.reads, List.flatMap_append, h.bytes, List.flatMap_singleton,
        hbytes.resolve_right hworks.2]

theorem run (hwrites : before.eventWrites = []) {answers : List SystemAnswer}
    (h : HasRead before bytes t) (hworks : ∀ answer ∈ answers, answer.Works)
    (hrun : readingThread.run t answers = some t') :
    HasRead before (bytes ++ answers.flatMap SystemAnswer.bytes) t' := by
  induction answers generalizing t bytes with
  | nil =>
    obtain rfl := Option.some.inj hrun
    simpa using h
  | cons answer answers ih =>
    obtain ⟨u, hstep, hrest⟩ := Machine.run_cons.mp hrun
    have hu := h.step hwrites (hworks answer List.mem_cons_self) hstep
    rw [List.flatMap_cons, ← List.append_assoc]
    exact ih hu (fun a ha => hworks a (List.mem_cons_of_mem answer ha)) hrest

end HasRead

/-! ## A stream of frames -/

/-- A condition on what is kept and what is still to come, with the fact that a
buffer which ends with a carriage return has been processed. -/
def RestsAtCr (types : Nat → MessageType) (P : UString → UString → Prop) (w v : UString) : Prop :=
  P w v ∧ EndsCr (w ++ v) ∧ (EndsCr w → (lexer types).look w = none ∧ repair w = w)

def DrainsAtCr (P : UString → UString → Prop) (w v : UString) : Prop :=
  P w v ∧ EndsCr (w ++ v) ∧ EndsCr w

/-- The Windows reader processes its buffer behind each carriage return. -/
theorem lastIsCr_invariant {types : Nat → MessageType} {P : UString → UString → Prop}
    (hP : Lexer.FeedInvariant (lexer types) lastIsCr P P) :
    Lexer.FeedInvariant (lexer types) lastIsCr (RestsAtCr types P) (DrainsAtCr P) where
  takes {w v item rest} h hlook := by
    obtain ⟨u, rfl⟩ := look_rest hlook
    refine ⟨hP.takes h.1 hlook, h.2.1.of_suffix ?_, h.2.2.of_suffix (List.suffix_append u rest)⟩
    rw [List.append_assoc]
    exact List.suffix_append u _
  waits {w v} h hlook := by
    refine ⟨hP.waits h.1 hlook, h.2.1.repair_append, fun _ => ⟨?_, repair_idem w⟩⟩
    have hnorm := (lexer types).look_norm_append w []
    rw [List.append_nil, List.append_nil] at hnorm
    exact hnorm.trans hlook
  drains {w piece v} h htrigger := by
    have hne : w ++ piece ≠ [] := by
      intro hnil
      rw [hnil] at htrigger
      cases htrigger
    have hends := h.2.1
    rw [← List.append_assoc] at hends
    exact ⟨hP.drains h.1 htrigger, hends, (lastIsCr_iff hne).mp htrigger⟩
  reads {w piece v} h htrigger := by
    have hends := h.2.1
    rw [← List.append_assoc] at hends
    refine ⟨hP.reads h.1 htrigger, hends, fun hcr => ?_⟩
    have hnil : w ++ piece = [] := by
      by_contra hne
      rw [(lastIsCr_iff hne).mpr hcr] at htrigger
      cases htrigger
    rw [hnil]
    exact ⟨Lexer.look_nil _, rfl⟩

theorem endsCr_bytesOf (sents : List SentFrame) : EndsCr (bytesOf sents) := by
  rcases List.eq_nil_or_concat' sents with rfl | ⟨init, sent, rfl⟩
  · intro b hb
    cases hb
  · have hsplit : bytesOf (init ++ [sent]) =
        (bytesOf init ++ sent.head :: sent.frame.body) ++ [cr] := by
      simp [bytesOf, SentFrame.bytes]
    intro b hb
    rw [hsplit, List.getLast?_concat] at hb
    exact (Option.some.inj hb).symm

/-- However a stream of sized frames is cut into reads, the Windows reader takes
it apart into its frames. -/
theorem feed_lastIsCr_frames (parser : CDCMessageParserPrivate) {reads : List UString}
    {sents : List SentFrame} (hsized : ∀ sent ∈ sents, sent.frame.Sized)
    (hbytes : reads.flatten = bytesOf sents) :
    (lexer parser.stateType).feed lastIsCr [] reads = (sents.map frameItem, []) := by
  have hinv := lastIsCr_invariant (framed_invariant parser lastIsCr)
  have hrest : RestsAtCr parser.stateType Framed [] reads.flatten := by
    refine ⟨⟨sents, hsized, ?_⟩, ?_, fun _ => ⟨Lexer.look_nil _, rfl⟩⟩
    · rw [List.nil_append, hbytes]
    · rw [List.nil_append, hbytes]
      exact endsCr_bytesOf sents
  have hdrain := Lexer.feed_append fun r v hvisits =>
    (hinv.visits hrest hvisits).1.stable parser
  have hend := hinv.atRest_feed hrest
  obtain ⟨hlook, hrepair⟩ := hend.2.2 (by simpa using hend.2.1)
  rw [List.nil_append, hbytes, drain_frames parser hsized, Lexer.drain_of_none _ hlook,
    List.append_nil, Prod.mk.injEq] at hdrain
  exact Prod.ext hdrain.1.symm (repair_eq_nil.mp hdrain.2.symm)

/-- Both ports do the same with a stream of sized frames: however the reads of
the Linux thread cut it, and whatever the calls of the Windows thread answer as
long as they work, the threads log the same, keep the same last response and the
same error, and have nothing left in their buffers. -/
theorem readers_agree {self : CDCImplPrivate} (hwrites : self.eventWrites = [])
    {sents : List SentFrame} (hsized : ∀ sent ∈ sents, sent.frame.Sized) {reads : List UString}
    (hreads : ∀ read ∈ reads, read ≠ []) (hcut : reads.flatten = bytesOf sents)
    {answers : List SystemAnswer} {t : ReadingThread} (hworks : ∀ answer ∈ answers, answer.Works)
    (hdelivered : answers.flatMap SystemAnswer.bytes = bytesOf sents)
    (hrun : readingThread.run (.start self) answers = some t) :
    ∃ self', readMsgThread (reads.map portRead) self [] = .running self' [] ∧
      t.phase.Regular ∧ t.receivedBytes = [] ∧ t.self.log = self'.log ∧
      t.self.lastResponse = self'.lastResponse ∧
      t.self.lastReceptionError = self'.lastReceptionError := by
  obtain ⟨self', hthread, hafter⟩ := readMsgThread_feed hwrites [] reads
  rw [feed_frames self.msgParser hsized hreads (Lexer.look_nil _) (by rw [List.nil_append, hcut])]
    at hthread hafter
  have hread := (HasRead.start self).run hwrites hworks hrun
  obtain ⟨hrest, hwindows⟩ := hread.feed hwrites
  have hbytes : (t.reads.map (·.bytes)).flatten = bytesOf sents := by
    rw [← hdelivered, ← List.flatMap_def, hread.bytes, List.nil_append]
  rw [feed_lastIsCr_frames self.msgParser hsized hbytes] at hrest hwindows
  refine ⟨self', hthread, hread.regular, hrest, ?_⟩
  obtain ⟨last, heq⟩ := hafter.state
  obtain ⟨last', heq'⟩ := hwindows.state
  rw [perform_eq .linux hafter.writes hafter.decodes] at heq
  rw [perform_eq .windows hwindows.writes hwindows.decodes] at heq'
  rw [heq, heq']
  exact ⟨rfl, rfl, rfl⟩

/-- The calls of a thread that reads `<OK` with its carriage return, and then
waits for the next character. -/
def overlappedReads : List SystemAnswer :=
  [.setCommMask true, .createEvent true, .setStartEvent true, .waitCommEvent .pending,
    .commWait (.overlapped (some 0)), .readFile (.completed (some (chr '<'))), .readFile .pending,
    .readWait (.overlapped (some (some (chr 'O')))), .readFile (.completed (some (chr 'K'))),
    .readFile (.completed (some cr)), .readFile .pending, .readWait (.overlapped (some none)),
    .waitCommEvent .pending]

theorem readers_agree_test :
    ∃ self' t, readingThread.run (.start (.init (.new listedOnly))) overlappedReads = some t ∧
      readMsgThread ([ascii "<OK", [cr]].map portRead) (.init (.new listedOnly)) [] =
        .running self' [] ∧ t.receivedBytes = [] ∧ t.self.log = self'.log := by
  obtain ⟨t, hrun⟩ := Option.isSome_iff_exists.mp (show (readingThread.run
    (.start (.init (.new listedOnly))) overlappedReads).isSome = true by decide)
  obtain ⟨self', hthread, -, hrest, hlog, -⟩ := @readers_agree (.init (.new listedOnly)) rfl
    [⟨.test, false⟩] (by decide) [ascii "<OK", [cr]] (by decide) (by decide) overlappedReads t
    (by decide) (by decide) hrun
  exact ⟨self', t, hrun, hthread, hrest, hlog⟩

/-! ## The end of the thread -/

/-- The read end event has been reported. -/
def SystemAnswer.EndsReading (answer : SystemAnswer) : Prop :=
  answer = .commWait .readEnd ∨ answer = .readWait .readEnd

/-- A wait that is infinite does not run out of time. -/
def SystemAnswer.InTime (answer : SystemAnswer) : Prop :=
  answer ≠ .commWait .timedOut ∧ answer ≠ .readWait .timedOut

instance : DecidablePred SystemAnswer.InTime := fun answer =>
  inferInstanceAs (Decidable (answer ≠ .commWait .timedOut ∧ answer ≠ .readWait .timedOut))

/-- While the thread waits for a read, the read is pending and has delivered
nothing.  At any other call no read is pending. -/
def ReadingThread.Settled (t : ReadingThread) : Prop :=
  match t.phase with
  | .readPending => t.fWaitingOnRead = true ∧ t.bytesTotal = 0
  | .returned _ | .terminated => True
  | _ => t.fWaitingOnRead = false

namespace ReadingThread

variable {t t' : ReadingThread} {answer : SystemAnswer}

theorem readingHead_settled (h : t.fWaitingOnRead = false) : t.readingHead.Settled := by
  unfold readingHead Settled
  simp only [h, Bool.false_eq_true, if_false]

theorem loopTest_settled (h : t.fWaitingOnRead = false ∨ t.bytesTotal = 0 ∧ t.run = false) :
    t.loopTest.Settled := by
  unfold loopTest
  rcases h with h | ⟨htotal, hrun⟩
  · split_ifs with htotal hrun
    · exact readingHead_settled h
    · exact h
    · trivial
  · rw [if_neg (by simp [htotal]), hrun]
    trivial

theorem throws_settled {self : CDCImplPrivate} {e : CdcException} : (t.throws self e).Settled := by
  unfold throws threadHandler
  split_ifs <;> trivial

theorem completes_settled {result : ReadFileResult} {receivedBytes : UString} {byteRead : Byte}
    {bytesTotal : Nat} : (t.completes result receivedBytes byteRead bytesTotal).Settled := by
  rcases h : processByte t.self receivedBytes byteRead with ⟨_ | _, self', rest⟩
  · rw [completes_of_error h]
    exact throws_settled
  · unfold completes
    simp only [h]
    exact loopTest_settled (.inl rfl)

theorem Settled.step (h : t.Settled) (hintime : answer.InTime)
    (hstep : readingThread.step t answer = some t') : t'.Settled := by
  change t.step answer = some t' at hstep
  unfold ReadingThread.step at hstep
  unfold Settled at h
  split at hstep
  · next hphase =>
    rw [hphase] at h
    split_ifs at hstep <;> obtain rfl := Option.some.inj hstep
    · exact h
    · exact throws_settled
  · next hphase =>
    rw [hphase] at h
    split_ifs at hstep <;> obtain rfl := Option.some.inj hstep
    · exact h
    · exact throws_settled
  · next hphase =>
    rw [hphase] at h
    split_ifs at hstep <;> obtain rfl := Option.some.inj hstep
    · exact h
    · exact throws_settled
  · next hphase =>
    rw [hphase] at h
    split at hstep <;> obtain rfl := Option.some.inj hstep
    · exact readingHead_settled h
    · exact throws_settled
    · exact h
  · next hphase =>
    rw [hphase] at h
    split at hstep <;> obtain rfl := Option.some.inj hstep
    · exact throws_settled
    · exact readingHead_settled h
    · exact readingHead_settled h
    · exact readingHead_settled h
    · exact readingHead_settled h
  · next hphase =>
    split at hstep <;> obtain rfl := Option.some.inj hstep
    · exact completes_settled
    · exact throws_settled
    · exact ⟨rfl, rfl⟩
  · next hphase =>
    rw [hphase] at h
    split at hstep <;> obtain rfl := Option.some.inj hstep
    · exact throws_settled
    · exact completes_settled
    · exact loopTest_settled (.inr ⟨h.2, rfl⟩)
    · exact absurd rfl hintime.2
    · exact throws_settled
  · cases hstep

/-- The thread has ended, or is in the reading loop for the last time. -/
def LastReads (t : ReadingThread) : Prop :=
  t.run = false ∧ match t.phase with
    | .reading | .readPending | .returned _ | .terminated => True
    | _ => False

/-- How many more calls the thread makes in its last reading loop when no more
bytes arrive. -/
def callsLeft (t : ReadingThread) : Nat :=
  match t.phase with
  | .reading => 2
  | .readPending => 1
  | _ => 0

/-- The reading loop goes on only behind a byte. -/
theorem loopTest_lastReads (hrun : t.run = false)
    (h : t.fWaitingOnRead = false ∨ t.bytesTotal = 0) :
    t.loopTest.LastReads ∧ t.loopTest.callsLeft ≤ 2 * t.bytesTotal := by
  unfold loopTest
  split_ifs with htotal hrun'
  · have hwaiting := h.resolve_right htotal
    unfold readingHead LastReads callsLeft
    simp only [hwaiting, Bool.false_eq_true, if_false]
    exact ⟨⟨hrun, trivial⟩, by omega⟩
  · exact absurd hrun' (by simp [hrun])
  · exact ⟨⟨hrun, trivial⟩, Nat.zero_le _⟩

theorem throws_lastReads {self : CDCImplPrivate} {e : CdcException} (hrun : t.run = false) :
    (t.throws self e).LastReads ∧ (t.throws self e).callsLeft = 0 := by
  unfold throws threadHandler
  split_ifs <;> exact ⟨⟨hrun, trivial⟩, rfl⟩

theorem completes_lastReads {result : ReadFileResult} {receivedBytes : UString} {byteRead : Byte}
    {bytesTotal : Nat} (hrun : t.run = false) :
    (t.completes result receivedBytes byteRead bytesTotal).LastReads ∧
      (t.completes result receivedBytes byteRead bytesTotal).callsLeft ≤ 2 * bytesTotal := by
  rcases h : processByte t.self receivedBytes byteRead with ⟨_ | _, self', rest⟩
  · rw [completes_of_error h]
    obtain ⟨hlast, hcalls⟩ := @throws_lastReads { t with
      receivedBytes := rest, byteRead, bytesTotal, reads := t.reads ++ [result] } self' _ hrun
    exact ⟨hlast, hcalls ▸ Nat.zero_le _⟩
  · unfold completes
    simp only [h]
    exact loopTest_lastReads hrun (.inl rfl)

/-- A call of the last reading loop is a read or a wait for one, and without a
byte fewer calls are left behind it. -/
theorem LastReads.step (h : t.LastReads) (hsettled : t.Settled) (hintime : answer.InTime)
    (hstep : readingThread.step t answer = some t') :
    t'.LastReads ∧ 1 + t'.callsLeft ≤ t.callsLeft + 2 * answer.bytes.length ∧
      ∀ char, answer ≠ .waitCommEvent char := by
  obtain ⟨hrun, hphases⟩ := h
  change t.step answer = some t' at hstep
  unfold ReadingThread.step at hstep
  unfold Settled at hsettled
  split at hstep
  case h_6 hphase =>
    have hcalls : t.callsLeft = 2 := by simp only [callsLeft, hphase]
    split at hstep <;> obtain rfl := Option.some.inj hstep
    · next b =>
      obtain ⟨hlast, hleft⟩ := @completes_lastReads t (.immediate (b.getD t.byteRead))
        (t.receivedBytes ++ [b.getD t.byteRead]) (b.getD t.byteRead) b.toList.length hrun
      refine ⟨hlast, ?_, by simp⟩
      show _ ≤ t.callsLeft + 2 * b.toList.length
      omega
    · obtain ⟨hlast, hleft⟩ := @throws_lastReads t t.self
        ⟨.receiveException, "Reading failed with error "⟩ hrun
      exact ⟨hlast, by omega, by simp⟩
    · refine ⟨⟨hrun, trivial⟩, ?_, by simp⟩
      show 1 + 1 ≤ _
      omega
  case h_7 hphase =>
    rw [hphase] at hsettled
    have hcalls : t.callsLeft = 1 := by simp only [callsLeft, hphase]
    split at hstep <;> obtain rfl := Option.some.inj hstep
    · obtain ⟨hlast, hleft⟩ := @throws_lastReads t t.self
        ⟨.receiveException, "Waiting for reading event failed with error "⟩ hrun
      exact ⟨hlast, by omega, by simp⟩
    · next b =>
      obtain ⟨hlast, hleft⟩ := @completes_lastReads t (.delayed b)
        (if b.isSome then t.receivedBytes ++ [b.getD t.byteRead] else t.receivedBytes)
        (b.getD t.byteRead) b.toList.length hrun
      refine ⟨hlast, ?_, by simp⟩
      show _ ≤ t.callsLeft + 2 * b.toList.length
      omega
    · obtain ⟨hlast, hleft⟩ := @loopTest_lastReads { t with run := false } rfl (.inr hsettled.2)
      have htotal : ({ t with run := false } : ReadingThread).bytesTotal = 0 := hsettled.2
      exact ⟨hlast, by omega, by simp⟩
    · exact absurd rfl hintime.2
    · obtain ⟨hlast, hleft⟩ := @throws_lastReads t t.self
        ⟨.receiveException, "Waiting for event in read cycle failed with error "⟩ hrun
      exact ⟨hlast, by omega, by simp⟩
  case h_8 => cases hstep
  all_goals
    next hphase => simp [hphase] at hphases

/-- The report of the read end event begins the last reading loop, or ends it
while its read is pending. -/
theorem lastReads_of_ends (hsettled : t.Settled) (hends : answer.EndsReading)
    (hstep : readingThread.step t answer = some t') :
    t'.LastReads ∧ t'.callsLeft ≤ 2 ∧
      (answer = .readWait .readEnd → t'.phase = .returned 0 ∧ t'.fWaitingOnRead = true) := by
  change t.step answer = some t' at hstep
  unfold Settled at hsettled
  unfold ReadingThread.step at hstep
  rcases hends with rfl | rfl
  · have hphase : t.phase = .commPending := by
      cases hphase : t.phase <;> simp [hphase] at hstep ⊢
    simp only [hphase] at hsettled hstep
    obtain rfl := Option.some.inj hstep
    unfold readingHead LastReads callsLeft
    simp only [hsettled, Bool.false_eq_true, if_false]
    exact ⟨⟨trivial, trivial⟩, Nat.le_refl 2, by simp⟩
  · have hphase : t.phase = .readPending := by
      cases hphase : t.phase <;> simp [hphase] at hstep ⊢
    simp only [hphase] at hsettled hstep
    obtain rfl := Option.some.inj hstep
    have hloop : ({ t with phase := .readPending, run := false } : ReadingThread).loopTest =
        { t with phase := .returned 0, run := false } := by
      simp [loopTest, hsettled.2]
    rw [hloop]
    exact ⟨⟨rfl, trivial⟩, Nat.zero_le 2, fun _ => ⟨rfl, hsettled.1⟩⟩

theorem Settled.run {answers : List SystemAnswer} (h : t.Settled)
    (hintime : ∀ answer ∈ answers, answer.InTime)
    (hrun : readingThread.run t answers = some t') : t'.Settled := by
  induction answers generalizing t with
  | nil =>
    obtain rfl := Option.some.inj hrun
    exact h
  | cons answer answers ih =>
    obtain ⟨u, hstep, hrest⟩ := Machine.run_cons.mp hrun
    exact ih (h.step (hintime answer List.mem_cons_self) hstep)
      (fun a ha => hintime a (List.mem_cons_of_mem answer ha)) hrest

theorem LastReads.run {answers : List SystemAnswer} (h : t.LastReads) (hsettled : t.Settled)
    (hintime : ∀ answer ∈ answers, answer.InTime)
    (hrun : readingThread.run t answers = some t') :
    t'.LastReads ∧
      answers.length + t'.callsLeft ≤
        t.callsLeft + 2 * (answers.flatMap SystemAnswer.bytes).length ∧
      ∀ answer ∈ answers, ∀ char, answer ≠ .waitCommEvent char := by
  induction answers generalizing t with
  | nil =>
    obtain rfl := Option.some.inj hrun
    exact ⟨h, by simp, by simp⟩
  | cons answer answers ih =>
    obtain ⟨u, hstep, hrest⟩ := Machine.run_cons.mp hrun
    have hanswer := hintime answer List.mem_cons_self
    obtain ⟨hlast, hcalls, hchar⟩ := h.step hsettled hanswer hstep
    obtain ⟨hlast', hcalls', hchars⟩ := ih hlast (hsettled.step hanswer hstep)
      (fun a ha => hintime a (List.mem_cons_of_mem answer ha)) hrest
    refine ⟨hlast', ?_, ?_⟩
    · rw [List.length_cons, List.flatMap_cons, List.length_append]
      omega
    · intro a ha
      rcases List.mem_cons.mp ha with rfl | ha
      · exact hchar
      · exact hchars a ha

/-- The thread has ended, or every answer to its next call is a step. -/
def Proceeds (t : ReadingThread) : Prop :=
  (∃ code, t.phase = .returned code) ∨ t.phase = .terminated ∨
    (∀ answer, ∃ t', readingThread.step t (.readFile answer) = some t') ∨
    ∀ answer, ∃ t', readingThread.step t (.readWait answer) = some t'

theorem LastReads.proceeds (h : t.LastReads) : t.Proceeds := by
  obtain ⟨-, hphases⟩ := h
  cases hphase : t.phase with
  | returned code => exact .inl ⟨code, hphase⟩
  | terminated => exact .inr (.inl hphase)
  | reading =>
    refine .inr (.inr (.inl fun answer => ?_))
    show ∃ t', t.step (.readFile answer) = some t'
    unfold ReadingThread.step
    simp only [hphase]
    cases answer <;> exact ⟨_, rfl⟩
  | readPending =>
    refine .inr (.inr (.inr fun answer => ?_))
    show ∃ t', t.step (.readWait answer) = some t'
    unfold ReadingThread.step
    simp only [hphase]
    rcases answer with (_ | _) | _ | _ | _ <;> exact ⟨_, rfl⟩
  | _ => simp [hphase] at hphases

end ReadingThread

/-- Once the read end event has been reported, the Windows thread waits for no
more characters, and ends within two calls of the last byte that arrives.  A wait
is one call, together with the `GetOverlappedResult` behind it.  When the event is
reported while the thread waits for a read, the thread has returned, and the read
is still pending. -/
theorem readingThread_stops {self : CDCImplPrivate} {pre post : List SystemAnswer}
    {answer : SystemAnswer} {t : ReadingThread}
    (hrun : readingThread.run (.start self) (pre ++ answer :: post) = some t)
    (hends : answer.EndsReading) (hintime : ∀ a ∈ pre ++ post, a.InTime) :
    (∀ a ∈ post, ∀ char, a ≠ .waitCommEvent char) ∧
      post.length + t.callsLeft ≤ 2 + 2 * (post.flatMap SystemAnswer.bytes).length ∧
      t.Proceeds ∧
      (answer = .readWait .readEnd →
        post = [] ∧ t.phase = .returned 0 ∧ t.fWaitingOnRead = true) := by
  obtain ⟨u, hpre, hrest⟩ := Machine.run_append.mp hrun
  obtain ⟨v, hstep, hpost⟩ := Machine.run_cons.mp hrest
  have hsettled : u.Settled := ReadingThread.Settled.run (by trivial)
    (fun a ha => hintime a (List.mem_append_left post ha)) hpre
  obtain ⟨hlast, hcalls, hreturned⟩ := ReadingThread.lastReads_of_ends hsettled hends hstep
  have hanswer : answer.InTime := by
    rcases hends with rfl | rfl <;> exact ⟨by simp, by simp⟩
  obtain ⟨hlast', hcalls', hchars⟩ := hlast.run (hsettled.step hanswer hstep)
    (fun a ha => hintime a (List.mem_append_right pre ha)) hpost
  refine ⟨hchars, by omega, hlast'.proceeds, fun hread => ?_⟩
  obtain ⟨hphase, hwaiting⟩ := hreturned hread
  cases post with
  | nil =>
    obtain rfl := Option.some.inj hpost
    exact ⟨rfl, hphase, hwaiting⟩
  | cons a post =>
    -- a thread that has returned makes no more calls
    obtain ⟨w, hnext, -⟩ := Machine.run_cons.mp hpost
    have hregular := ReadingThread.callable_of_step hnext
    simp [hphase, ReadingPhase.Callable] at hregular

theorem readingThread_stops_pending :
    ∃ t, readingThread.run (.start (.init (.new listedOnly)))
        (overlappedReads ++ .commWait .readEnd :: [.readFile .pending, .readWait .readEnd]) =
          some t ∧ t.Proceeds := by
  obtain ⟨t, hrun⟩ := Option.isSome_iff_exists.mp (show (readingThread.run
    (.start (.init (.new listedOnly)))
    (overlappedReads ++ .commWait .readEnd :: [.readFile .pending, .readWait .readEnd])).isSome =
      true by decide)
  obtain ⟨-, -, hproceeds, -⟩ := readingThread_stops hrun (.inl rfl) (by decide)
  exact ⟨t, hrun, hproceeds⟩

end Clibcdc.Reader
