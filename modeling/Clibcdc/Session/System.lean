import Clibcdc.Session.Exchange

/-!
# The client, the reader thread and the device

The client, the Linux reader thread and the device, with the bytes that the
device has sent and the thread has not read.

The reader thread takes small steps.  A read takes some of the bytes at the
port.  Each round of `processAllMessages` then is one step, or two when it
stores a response, since the event is signalled in a step of its own.  So the
client can run between any two rounds, and between the response and its signal.

`beginMessage` and `beginRound` are `processMessage` and `processRound` up to
the signal (`processMessage_begin`, `processRound_begin`).  A thread that runs
alone does with a read what `readPort` does (`reader_reads`).
-/

namespace Clibcdc

open Clibcdc.Automata Clibcdc.Parser Clibcdc.Reader

namespace Reader

/-! ## A round, up to the signal -/

/-- `processMessage`, up to `setMyEvent(newMsgEvent)`.  The event is to be
signalled when the answer is `true`. -/
def beginMessage (self : CDCImplPrivate) (parsedMessage : ParsedMessage) :
    Except CdcException Bool × CDCImplPrivate :=
  let self := self.emit (.dispatched parsedMessage)
  if parsedMessage.parseResult.msgType = .msgAsync then
    if self.asyncListener then
      match getParsedDRData parsedMessage.message with
      | .error e => (.error e, self)
      | .ok userData => (.ok false, self.emit (.listenerCalled userData))
    else (.ok false, self)
  else
    (.ok true, { self with lastResponse := parsedMessage }.emit (.responseStored parsedMessage))

theorem processMessage_begin (platform : Platform) (self : CDCImplPrivate)
    (parsedMessage : ParsedMessage) :
    processMessage platform self parsedMessage =
      match beginMessage self parsedMessage with
      | (.error e, self) => (.error e, self)
      | (.ok false, self) => (.ok (), self)
      | (.ok true, self) => self.setMyEvent platform := by
  unfold processMessage beginMessage
  by_cases hasync : parsedMessage.parseResult.msgType = .msgAsync
  · simp only [if_pos hasync]
    split_ifs
    · cases getParsedDRData parsedMessage.message <;> rfl
    · rfl
  · simp only [if_neg hasync]

/-- How a round begins: it ends the loop, or goes on with the next round, or
is to signal the event first. -/
inductive RoundStart where
  | ends | goesOn | signals
  deriving DecidableEq, Repr

/-- `processRound`, up to `setMyEvent(newMsgEvent)`. -/
def beginRound (self : CDCImplPrivate) (msgBuffer : UString) :
    Except CdcException RoundStart × CDCImplPrivate × UString :=
  if msgBuffer = [] then (.ok .ends, self, msgBuffer)
  else
    match parseNextMessage self msgBuffer with
    | (.error e, self, msgBuffer) => (.error e, self, msgBuffer)
    | (.ok parsedMessage, self, msgBuffer) =>
      match parsedMessage.parseResult.resultType with
      | .parseNotComplete => (.ok .ends, self, msgBuffer)
      | .parseBadFormat =>
        let rest := discardLine msgBuffer parsedMessage.parseResult.lastPosition
        let self := self.emit (.bytesDropped (msgBuffer.take (msgBuffer.length - rest.length)))
        (.ok .goesOn, self.setLastReceptionError "Bad message format", rest)
      | .parseOk =>
        let msgBuffer := erase msgBuffer (parsedMessage.parseResult.lastPosition + 1)
        match beginMessage self parsedMessage with
        | (.error e, self) => (.error e, self, msgBuffer)
        | (.ok false, self) => (.ok .goesOn, self, msgBuffer)
        | (.ok true, self) => (.ok .signals, self, msgBuffer)

theorem processRound_begin (platform : Platform) (self : CDCImplPrivate) (msgBuffer : UString) :
    processRound platform self msgBuffer =
      match beginRound self msgBuffer with
      | (.error e, self, msgBuffer) => (.error e, self, msgBuffer)
      | (.ok .ends, self, msgBuffer) => (.ok false, self, msgBuffer)
      | (.ok .goesOn, self, msgBuffer) => (.ok true, self, msgBuffer)
      | (.ok .signals, self, msgBuffer) =>
        match self.setMyEvent platform with
        | (.error e, self) => (.error e, self, msgBuffer)
        | (.ok (), self) => (.ok true, self, msgBuffer) := by
  by_cases hempty : msgBuffer = []
  · rw [processRound, beginRound, if_pos hempty, if_pos hempty]
  rw [processRound, beginRound, if_neg hempty, if_neg hempty]
  obtain ⟨last, -, hparse⟩ := parseNextMessage_eq self msgBuffer
  rw [hparse]
  cases htype : last.resultType with
  | parseOk =>
    simp only [htype, processMessage_begin]
    rcases beginMessage _ _ with ⟨_ | _ | _, self'⟩
    · rfl
    · rfl
    · rcases self'.setMyEvent platform with ⟨_ | _, self''⟩ <;> rfl
  | parseBadFormat => simp only [htype]
  | parseNotComplete => simp only [htype]

/-- A round that finds no item ends the loop. -/
theorem beginRound_wait {self : CDCImplPrivate} {msgBuffer : UString}
    (h : (lexer self.msgParser.stateType).look msgBuffer = none) :
    ∃ last, beginRound self msgBuffer = (.ok .ends, withParse self last, repair msgBuffer) := by
  by_cases hempty : msgBuffer = []
  · subst hempty
    exact ⟨self.msgParser.lastParseResult, rfl⟩
  obtain ⟨last, hverdict, hparse⟩ := parseNextMessage_eq self msgBuffer
  refine ⟨last, ?_⟩
  rw [look_eq_none, ← hverdict, verdictOf_eq_wait] at h
  rw [beginRound, if_neg hempty, hparse]
  simp only [h]

/-- A round that finds a message dispatches it. -/
theorem beginRound_message {self : CDCImplPrivate} {msgBuffer rest : UString}
    {parsedMessage : ParsedMessage}
    (h : (lexer self.msgParser.stateType).look msgBuffer = some (.message parsedMessage, rest)) :
    ∃ last, beginRound self msgBuffer =
      match beginMessage (withParse self last) parsedMessage with
      | (.error e, self) => (.error e, self, rest)
      | (.ok false, self) => (.ok .goesOn, self, rest)
      | (.ok true, self) => (.ok .signals, self, rest) := by
  obtain ⟨last, hverdict, hparse⟩ := parseNextMessage_eq self msgBuffer
  refine ⟨last, ?_⟩
  rw [beginRound, if_neg (ne_nil_of_look h), hparse]
  cases htype : last.resultType with
  | parseOk =>
    have haccept : verdict self.msgParser.stateType (repair msgBuffer) =
        .accept last.lastPosition last.msgType := by
      rw [← hverdict, verdictOf, htype]
    have hlast : (⟨last.msgType, .parseOk, last.lastPosition⟩ : ParseResult) = last := by
      rw [← htype]
    rw [look_accept haccept, hlast, Option.some.injEq, Prod.mk.injEq, Item.message.injEq] at h
    obtain ⟨rfl, rfl⟩ := h
    simp only [htype, if_true, erase, repair_drop (Nat.succ_pos last.lastPosition)]
  | parseBadFormat =>
    rw [verdictOf, htype] at hverdict
    rw [look_reject hverdict.symm] at h
    cases h
  | parseNotComplete =>
    rw [verdictOf, htype] at hverdict
    rw [look_eq_none.mpr hverdict.symm] at h
    cases h

/-- A frame is dispatched to the listener, or it is stored and to be
signalled. -/
theorem beginMessage_frame {self : CDCImplPrivate} (hlistener : self.asyncListener = true)
    (sent : SentFrame) :
    beginMessage self sent.frame.message = (.ok (!isAsync sent), storeFrame self sent) := by
  obtain ⟨frame, swapped⟩ := sent
  cases frame with
  | async payload =>
    have hdata : getParsedDRData (Frame.async payload).message.message = .ok payload.data :=
      getParsedDRData_eq payload
    have htype : (Frame.async payload).message.parseResult.msgType = .msgAsync := rfl
    simp [beginMessage, htype, hdata, hlistener, CDCImplPrivate.emit, storeFrame, storeEffects,
      isAsync, Frame.msgType]
  | _ =>
    simp [beginMessage, Frame.message, Frame.msgType, CDCImplPrivate.emit, storeFrame,
      storeEffects, isAsync]

end Reader

/-! ## The machine -/

/-- Where the reader thread stands: it waits for bytes, or is in the loop of
`processAllMessages`, or is to signal the event.  At last it has returned, or
an exception has left it and ended the process. -/
inductive ReaderPhase where
  | selecting | processing | signalling | returned | terminated
  deriving DecidableEq, Repr

structure System where
  impl : CDCImplPrivate
  client : Client
  reader : ReaderPhase
  /-- The buffer of the reader thread. -/
  receivedBytes : UString
  /-- The bytes that have been sent and not been read. -/
  port : UString
  /-- The frames that the device has sent. -/
  sent : List SentFrame

inductive SystemAction where
  | client (action : ClientAction)
  | transmit (sent : SentFrame)
  | read (buflen : Nat)
  | round
  | signal

def System.start (msgParser : CDCMessageParserPrivate) : System where
  impl := { CDCImplPrivate.init msgParser with asyncListener := true }
  client := .new
  reader := .selecting
  receivedBytes := []
  port := []
  sent := []

/-- An exception in the thread runs into its handler. -/
def System.throws (s : System) (self : CDCImplPrivate) (e : CdcException) : System :=
  match threadHandler handledLinux self e with
  | .terminated self _ => { s with impl := self, receivedBytes := [], reader := .terminated }
  | .returned self _ | .running self _ =>
    { s with impl := self, receivedBytes := [], reader := .returned }

def System.step (s : System) : SystemAction → Option System
  | .client action =>
    if s.reader = .terminated then none
    else (s.client.step .linux s.impl action).map fun (impl, client) => { s with impl, client }
  | .transmit sent => some { s with port := s.port ++ sent.bytes, sent := s.sent ++ [sent] }
  | .read buflen =>
    if s.reader = .selecting then
      match appendDataFromPort (some (s.port.take buflen)) s.receivedBytes with
      | .error e => some (s.throws s.impl e)
      | .ok (receivedBytes, messageEnd) => some { s with
          receivedBytes, port := s.port.drop buflen
          reader := if messageEnd.isSome then .processing else .selecting }
    else none
  | .round =>
    if s.reader = .processing then
      match beginRound s.impl s.receivedBytes with
      | (.error e, impl, _) => some (s.throws impl e)
      | (.ok start, impl, receivedBytes) => some { s with
          impl, receivedBytes
          reader := match start with
            | .ends => .selecting
            | .goesOn => .processing
            | .signals => .signalling }
    else none
  | .signal =>
    if s.reader = .signalling then
      match s.impl.setMyEvent .linux with
      | (.error e, impl) => some (s.throws impl e)
      | (.ok (), impl) => some { s with impl, reader := .processing }
    else none

def system : Machine System SystemAction := ⟨System.step⟩

/-! ## A thread that runs alone -/

/-- The steps of the reader thread. -/
def SystemAction.OfReader : SystemAction → Prop
  | .read _ | .round | .signal => True
  | .client _ | .transmit _ => False

/-- The rounds of a thread that runs alone are those of `processAllMessages`. -/
theorem reader_processes {s : System} (hreader : s.reader = .processing) {fuel : Nat}
    {self' : CDCImplPrivate} {rest : UString}
    (h : processAllMessagesLoop .linux fuel s.impl s.receivedBytes = (.ok (), self', rest)) :
    ∃ actions, (∀ a ∈ actions, SystemAction.OfReader a) ∧ system.run s actions =
      some { s with impl := self', receivedBytes := rest, reader := .selecting } := by
  induction fuel generalizing s with
  | zero => cases h
  | succ fuel ih =>
    rw [processAllMessagesLoop, processRound_begin] at h
    -- the step of the machine is the beginning of the round
    have hround : system.step s .round = match beginRound s.impl s.receivedBytes with
        | (.error e, impl, _) => some (s.throws impl e)
        | (.ok start, impl, receivedBytes) => some { s with
            impl, receivedBytes
            reader := match start with
              | .ends => .selecting
              | .goesOn => .processing
              | .signals => .signalling } := if_pos hreader
    rcases hbegin : beginRound s.impl s.receivedBytes with ⟨_ | start, impl, receivedBytes⟩
    · rw [hbegin] at h
      cases h
    rw [hbegin] at h hround
    cases start with
    | ends =>
      obtain ⟨rfl, rfl⟩ := Prod.mk.inj (Prod.mk.inj h).2
      exact ⟨[.round], by simp [SystemAction.OfReader], Machine.run_singleton.trans hround⟩
    | goesOn =>
      obtain ⟨actions, hactions, hrun⟩ := @ih { s with impl, receivedBytes } hreader h
      refine ⟨.round :: actions, by simpa [SystemAction.OfReader] using hactions, ?_⟩
      exact Machine.run_cons.mpr ⟨_, by simpa [hreader] using hround, hrun⟩
    | signals =>
      rcases hevent : impl.setMyEvent .linux with ⟨_ | _, impl'⟩
      · simp [hevent] at h
      · simp only [hevent] at h
        have hsignal : system.step
            { s with impl, receivedBytes, reader := .signalling } .signal =
              some { s with impl := impl', receivedBytes } := by
          simp [system, System.step, hevent, hreader]
        obtain ⟨actions, hactions, hrun⟩ := @ih { s with impl := impl', receivedBytes } hreader h
        refine ⟨.round :: .signal :: actions, by simpa [SystemAction.OfReader] using hactions, ?_⟩
        exact Machine.run_cons.mpr ⟨_, hround, Machine.run_cons.mpr ⟨_, hsignal, hrun⟩⟩

/-- A thread that runs alone does with a read what `readPort` does. -/
theorem reader_reads {s : System} (hreader : s.reader = .selecting) {buflen : Nat}
    {self' : CDCImplPrivate} {rest : UString}
    (h : readPort s.impl s.receivedBytes (some (some (s.port.take buflen))) =
      (.ok (), self', rest)) :
    ∃ actions, (∀ a ∈ actions, SystemAction.OfReader a) ∧ system.run s actions = some { s with
      impl := self', receivedBytes := rest, port := s.port.drop buflen } := by
  rw [readPort, appendDataFromPort] at h
  have hread : system.step s (.read buflen) = some { s with
      receivedBytes := s.receivedBytes ++ s.port.take buflen, port := s.port.drop buflen
      reader := if (find (s.receivedBytes ++ s.port.take buflen) cr 0).isSome
        then .processing else .selecting } := if_pos hreader
  cases hfind : find (s.receivedBytes ++ s.port.take buflen) cr 0 with
  | none =>
    simp only [hfind] at h
    obtain ⟨rfl, rfl⟩ := Prod.mk.inj (Prod.mk.inj h).2
    refine ⟨[.read buflen], by simp [SystemAction.OfReader], Machine.run_singleton.trans ?_⟩
    rw [hread, hfind, ← hreader]
    rfl
  | some messageEnd =>
    simp only [hfind] at h
    rw [hfind] at hread
    obtain ⟨actions, hactions, hrun⟩ := @reader_processes { s with
      receivedBytes := s.receivedBytes ++ s.port.take buflen, port := s.port.drop buflen
      reader := .processing } rfl _ _ _ h
    refine ⟨.read buflen :: actions, by simpa [SystemAction.OfReader] using hactions, ?_⟩
    rw [← hreader] at hrun
    exact Machine.run_cons.mpr ⟨_, hread, hrun⟩

end Clibcdc
