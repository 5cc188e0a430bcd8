import Clibcdc.Session.EndToEnd

/-!
# Listeners that come and go

The client may register a listener and unregister it at any moment.

* `Heard`: whatever a step of the system dispatches, the listener is called with
  the payloads of the asynchronous messages among it when there is a listener,
  and is not called when there is none.
* `quiet` takes the listener and its calls out of a state.  A system whose
  listener comes and goes makes the steps of one that has none (`step_quiet`), so
  long as each payload can be cut out of its message, which is so for the frames
  of a device that keeps to its protocol (`Follows.decodes`).
-/

namespace Clibcdc

open Clibcdc.Automata Clibcdc.Parser Clibcdc.Reader

/-! ## What the listener hears -/

/-- The payload of an asynchronous message. -/
def messagePayload (parsedMessage : ParsedMessage) : Option UString :=
  if parsedMessage.parseResult.msgType = .msgAsync then
    (getParsedDRData parsedMessage.message).toOption
  else none

theorem messagePayload_frame (sent : SentFrame) :
    messagePayload sent.frame.message = payloadOf sent := by
  obtain ⟨frame, swapped⟩ := sent
  cases frame with
  | async payload =>
    have hdata : getParsedDRData (Frame.async payload).message.message = .ok payload.data :=
      getParsedDRData_eq payload
    have htype : (Frame.async payload).message.parseResult.msgType = .msgAsync := rfl
    rw [messagePayload, if_pos htype, hdata]
    rfl
  | _ => rfl

/-- What is logged between two states: the listener has heard the asynchronous
messages dispatched, or there is none. -/
def Heard (self self' : CDCImplPrivate) : Prop :=
  ∃ effects, self'.log = self.log ++ effects ∧ self'.asyncListener = self.asyncListener ∧
    listenerCalls effects =
      if self.asyncListener then (dispatchedMessages effects).filterMap messagePayload else []

namespace Heard

variable {self self' self'' : CDCImplPrivate}

theorem refl (self : CDCImplPrivate) : Heard self self :=
  ⟨[], by simp, rfl, by simp [listenerCalls, dispatchedMessages]⟩

theorem of_same (hlog : self'.log = self.log)
    (hlistener : self'.asyncListener = self.asyncListener) : Heard self self' :=
  ⟨[], by simp [hlog], hlistener, by simp [listenerCalls, dispatchedMessages]⟩

theorem trans (h : Heard self self') (h' : Heard self' self'') : Heard self self'' := by
  obtain ⟨effects, hlog, hlistener, hcalls⟩ := h
  obtain ⟨effects', hlog', hlistener', hcalls'⟩ := h'
  refine ⟨effects ++ effects', ?_, hlistener'.trans hlistener, ?_⟩
  · rw [hlog', hlog, List.append_assoc]
  · rw [hlistener] at hcalls'
    unfold listenerCalls dispatchedMessages at hcalls hcalls' ⊢
    rw [List.filterMap_append, List.filterMap_append, hcalls, hcalls']
    split_ifs
    · rw [List.filterMap_append]
    · rfl

/-- An effect that is neither a dispatch nor a call of the listener. -/
theorem emit (self : CDCImplPrivate) {effect : Effect}
    (hdispatch : dispatchedMessages [effect] = []) (hcall : listenerCalls [effect] = []) :
    Heard self (self.emit effect) :=
  ⟨[effect], rfl, rfl, by rw [hcall, hdispatch]; simp⟩

end Heard

theorem setMyEvent_heard (platform : Platform) (self : CDCImplPrivate) :
    Heard self (self.setMyEvent platform).2 := by
  unfold CDCImplPrivate.setMyEvent
  split
  · exact .of_same rfl rfl
  · exact Heard.trans (.of_same rfl rfl) (.emit _ rfl rfl)

theorem beginMessage_heard (self : CDCImplPrivate) (parsedMessage : ParsedMessage) :
    Heard self (beginMessage self parsedMessage).2 := by
  unfold beginMessage
  by_cases hasync : parsedMessage.parseResult.msgType = .msgAsync
  · by_cases hlistener : self.asyncListener = true
    · have hlistener' : (self.emit (.dispatched parsedMessage)).asyncListener = true := hlistener
      simp only [if_pos hasync, if_pos hlistener']
      cases hdata : getParsedDRData parsedMessage.message with
      | error e =>
        refine ⟨[.dispatched parsedMessage], rfl, rfl, ?_⟩
        simp [listenerCalls, dispatchedMessages, messagePayload, hdata, Except.toOption]
      | ok userData =>
        refine ⟨[.dispatched parsedMessage, .listenerCalled userData],
          by simp [CDCImplPrivate.emit], rfl, ?_⟩
        simp [listenerCalls, dispatchedMessages, messagePayload, hasync, hdata, hlistener,
          Except.toOption]
    · have hlistener' : ¬ (self.emit (.dispatched parsedMessage)).asyncListener = true := hlistener
      simp only [if_pos hasync, if_neg hlistener']
      refine ⟨[.dispatched parsedMessage], rfl, rfl, ?_⟩
      simp [listenerCalls, hlistener]
  · simp only [if_neg hasync]
    refine ⟨[.dispatched parsedMessage, .responseStored parsedMessage],
      by simp [CDCImplPrivate.emit], rfl, ?_⟩
    simp [listenerCalls, dispatchedMessages, messagePayload, hasync]

theorem setLastReceptionError_heard (self : CDCImplPrivate) (descr : String) :
    Heard self (self.setLastReceptionError descr) := by
  have hset : Heard self { self with lastReceptionError := descr } := .of_same rfl rfl
  exact hset.trans (.emit _ rfl rfl)

theorem beginRound_heard (self : CDCImplPrivate) (msgBuffer : UString) :
    Heard self (beginRound self msgBuffer).2.1 := by
  unfold beginRound
  split_ifs
  · exact .refl self
  obtain ⟨last, -, hparse⟩ := parseNextMessage_eq self msgBuffer
  rw [hparse]
  have hparsed : Heard self (withParse self last) := .of_same rfl rfl
  cases htype : last.resultType with
  | parseNotComplete =>
    simp only [htype]
    exact hparsed
  | parseBadFormat =>
    simp only [htype]
    exact hparsed.trans ((Heard.emit _ rfl rfl).trans (setLastReceptionError_heard _ _))
  | parseOk =>
    simp only [htype]
    generalize hmessage : ParsedMessage.mk _ last = parsedMessage
    have hheard := hparsed.trans (beginMessage_heard (withParse self last) parsedMessage)
    rcases hbegin : beginMessage (withParse self last) parsedMessage with ⟨_ | _ | _, self'⟩
    all_goals
      rw [hbegin] at hheard
      exact hheard

theorem throws_heard (s : System) (self : CDCImplPrivate) (e : CdcException) :
    Heard self (s.throws self e).impl := by
  unfold System.throws threadHandler
  by_cases hhandled : handledLinux e.identity = true
  · simp only [if_pos hhandled]
    exact (setLastReceptionError_heard self e.cause).trans (.of_same rfl rfl)
  · simp only [if_neg hhandled]
    exact .refl self

theorem client_heard {client client' : Client} {self self' : CDCImplPrivate} {action : ClientAction}
    (h : client.step .linux self action = some (self', client')) : Heard self self' := by
  cases Client.step_steps h <;> exact .of_same rfl rfl

theorem system_heard {s s' : System} {action : SystemAction} (h : s.step action = some s') :
    Heard s.impl s'.impl := by
  cases action with
  | client action =>
    simp only [System.step, Option.ite_none_left_eq_some, Option.map_eq_some_iff] at h
    obtain ⟨-, ⟨impl, client⟩, hstep, rfl⟩ := h
    exact client_heard hstep
  | transmit sent =>
    obtain rfl := Option.some.inj h
    exact .refl _
  | read buflen =>
    simp only [System.step, appendDataFromPort, Option.ite_none_right_eq_some] at h
    obtain ⟨-, h⟩ := h
    obtain rfl := Option.some.inj h
    exact .refl _
  | round =>
    simp only [System.step, Option.ite_none_right_eq_some] at h
    obtain ⟨-, h⟩ := h
    have hheard := beginRound_heard s.impl s.receivedBytes
    rcases hround : beginRound s.impl s.receivedBytes with ⟨_ | _, impl, rest⟩
    · rw [hround] at h hheard
      obtain rfl := Option.some.inj h
      exact hheard.trans (throws_heard s impl _)
    · rw [hround] at h hheard
      obtain rfl := Option.some.inj h
      exact hheard
  | signal =>
    simp only [System.step, Option.ite_none_right_eq_some] at h
    obtain ⟨-, h⟩ := h
    have hheard := setMyEvent_heard .linux s.impl
    rcases hsignal : s.impl.setMyEvent .linux with ⟨_ | _, impl⟩
    · rw [hsignal] at h hheard
      obtain rfl := Option.some.inj h
      exact hheard.trans (throws_heard s impl _)
    · rw [hsignal] at h hheard
      obtain rfl := Option.some.inj h
      exact hheard

/-! ## Without the listener -/

/-- The calls of the listener are left out. -/
def unheard (effects : List Effect) : List Effect :=
  effects.filter fun
    | .listenerCalled _ => false
    | _ => true

theorem unheard_append (effects effects' : List Effect) :
    unheard (effects ++ effects') = unheard effects ++ unheard effects' := List.filter_append ..

theorem dispatchedMessages_unheard (effects : List Effect) :
    dispatchedMessages (unheard effects) = dispatchedMessages effects := by
  induction effects with
  | nil => rfl
  | cons effect effects ih =>
    cases effect with
    | dispatched parsedMessage => exact congrArg (parsedMessage :: ·) ih
    | _ => exact ih

/-- What is left of a state without its listener and what it has heard. -/
def CDCImplPrivate.quiet (self : CDCImplPrivate) : CDCImplPrivate :=
  { self with asyncListener := false, log := unheard self.log }

def System.quiet (s : System) : System := { s with impl := s.impl.quiet }

@[simp] theorem quiet_portOutput (self : CDCImplPrivate) :
    self.quiet.portOutput = self.portOutput := rfl

@[simp] theorem quiet_dispatched (self : CDCImplPrivate) :
    dispatchedMessages self.quiet.log = dispatchedMessages self.log :=
  dispatchedMessages_unheard self.log

@[simp] theorem System.quiet_impl (s : System) : s.quiet.impl = s.impl.quiet := rfl

@[simp] theorem System.quiet_client (s : System) : s.quiet.client = s.client := rfl

@[simp] theorem System.quiet_reader (s : System) : s.quiet.reader = s.reader := rfl

@[simp] theorem System.quiet_receivedBytes (s : System) :
    s.quiet.receivedBytes = s.receivedBytes := rfl

@[simp] theorem System.quiet_sent (s : System) : s.quiet.sent = s.sent := rfl

theorem emit_quiet (self : CDCImplPrivate) {effect : Effect} (h : unheard [effect] = [effect]) :
    (self.emit effect).quiet = self.quiet.emit effect := by
  simp only [CDCImplPrivate.emit, CDCImplPrivate.quiet, unheard_append, h]

theorem setMyEvent_quiet (platform : Platform) (self : CDCImplPrivate) :
    self.quiet.setMyEvent platform =
      ((self.setMyEvent platform).1, (self.setMyEvent platform).2.quiet) := by
  have hwrites : self.quiet.eventWrites = self.eventWrites := rfl
  have hsignalled : unheard [.newMsgSignalled] = [.newMsgSignalled] := rfl
  unfold CDCImplPrivate.setMyEvent
  rw [hwrites]
  rcases self.eventWrites with _ | ⟨_ | _, eventWrites⟩
  · simp only [CDCImplPrivate.emit, CDCImplPrivate.quiet, unheard_append, hsignalled]
  · rfl
  · simp only [CDCImplPrivate.emit, CDCImplPrivate.quiet, unheard_append, hsignalled]

theorem setLastReceptionError_quiet (self : CDCImplPrivate) (descr : String) :
    (self.setLastReceptionError descr).quiet = self.quiet.setLastReceptionError descr :=
  @emit_quiet { self with lastReceptionError := descr } (.errorRecorded descr) rfl

/-- The payload of the message that is next in the buffer can be cut out. -/
def NextDecodes (self : CDCImplPrivate) (msgBuffer : UString) : Prop :=
  msgBuffer ≠ [] → ∀ parsedMessage, (parseNextMessage self msgBuffer).1 = .ok parsedMessage →
    parsedMessage.parseResult.resultType = .parseOk →
    parsedMessage.parseResult.msgType = .msgAsync →
    ∃ userData, getParsedDRData parsedMessage.message = .ok userData

theorem beginMessage_quiet (self : CDCImplPrivate) {parsedMessage : ParsedMessage}
    (hdecodes : parsedMessage.parseResult.msgType = .msgAsync →
      ∃ userData, getParsedDRData parsedMessage.message = .ok userData) :
    beginMessage self.quiet parsedMessage =
      ((beginMessage self parsedMessage).1, (beginMessage self parsedMessage).2.quiet) := by
  have hdispatched := @emit_quiet self (.dispatched parsedMessage) rfl
  unfold beginMessage
  by_cases hasync : parsedMessage.parseResult.msgType = .msgAsync
  · have hnone : (self.quiet.emit (.dispatched parsedMessage)).asyncListener = false := rfl
    simp only [if_pos hasync, hnone]
    by_cases hlistener : (self.emit (.dispatched parsedMessage)).asyncListener = true
    · obtain ⟨userData, hdata⟩ := hdecodes hasync
      simp only [if_pos hlistener, hdata]
      refine congrArg (Prod.mk _) ?_
      rw [← hdispatched]
      simp [CDCImplPrivate.quiet, CDCImplPrivate.emit, unheard]
    · simp only [if_neg hlistener, ← hdispatched]
      rfl
  · simp only [if_neg hasync]
    refine congrArg (Prod.mk _) ?_
    rw [emit_quiet _ rfl, ← hdispatched]
    rfl

theorem parseNextMessage_quiet (self : CDCImplPrivate) (msgBuffer : UString) :
    parseNextMessage self.quiet msgBuffer = ((parseNextMessage self msgBuffer).1,
      (parseNextMessage self msgBuffer).2.1.quiet, (parseNextMessage self msgBuffer).2.2) := by
  have hparser : self.quiet.msgParser = self.msgParser := rfl
  unfold parseNextMessage
  dsimp only
  rw [hparser]
  cases parseData self.msgParser (repair msgBuffer) with
  | error e => rfl
  | ok parseResult =>
    dsimp only
    cases parseResult.resultType with
    | parseOk => cases substr (repair msgBuffer) 0 (parseResult.lastPosition + 1) <;> rfl
    | parseNotComplete => rfl
    | parseBadFormat => rfl

theorem beginRound_quiet {self : CDCImplPrivate} {msgBuffer : UString}
    (hdecodes : NextDecodes self msgBuffer) :
    beginRound self.quiet msgBuffer = ((beginRound self msgBuffer).1,
      (beginRound self msgBuffer).2.1.quiet, (beginRound self msgBuffer).2.2) := by
  unfold beginRound
  rw [parseNextMessage_quiet]
  split_ifs with hempty
  · rfl
  replace hdecodes := hdecodes hempty
  rcases hparse : parseNextMessage self msgBuffer with ⟨_ | parsedMessage, self', msgBuffer'⟩
  · rfl
  rw [hparse] at hdecodes
  dsimp only
  cases htype : parsedMessage.parseResult.resultType with
  | parseNotComplete => rfl
  | parseBadFormat =>
    dsimp only
    rw [setLastReceptionError_quiet, emit_quiet self' rfl]
  | parseOk =>
    dsimp only
    rw [beginMessage_quiet self' (hdecodes parsedMessage rfl htype)]
    rcases beginMessage self' parsedMessage with ⟨_ | _ | _, self''⟩ <;> rfl

theorem throws_quiet (s : System) (self : CDCImplPrivate) (e : CdcException) :
    s.quiet.throws self.quiet e = (s.throws self e).quiet := by
  unfold System.throws threadHandler
  by_cases hhandled : handledLinux e.identity = true
  · simp only [if_pos hhandled, ← setLastReceptionError_quiet]
    rfl
  · simp only [if_neg hhandled]
    rfl

theorem commandToBuffer_quiet (self : CDCImplPrivate) (cmd : Command) :
    commandToBuffer self.quiet cmd =
      ((commandToBuffer self cmd).1, (commandToBuffer self cmd).2.quiet) := by
  unfold commandToBuffer
  cases commandText cmd with
  | error e => rfl
  | ok tmpStr =>
    have hlength : self.quiet.m_transmitBufferLen = self.m_transmitBufferLen := rfl
    dsimp only
    rw [hlength]
    split_ifs <;> rfl

theorem startCall_quiet (self : CDCImplPrivate) (op : Operation) :
    startCall .linux self.quiet op =
      ((startCall .linux self op).1, (startCall .linux self op).2.quiet) := by
  unfold startCall
  cases op.command with
  | error e => rfl
  | ok cmd =>
    have hreception : checkReception self.quiet = checkReception self := rfl
    dsimp only
    rw [hreception]
    cases checkReception self with
    | error e => rfl
    | ok _ =>
      dsimp only [startSend]
      rw [commandToBuffer_quiet]
      rcases commandToBuffer self cmd with ⟨_ | buffCmd, self'⟩ <;> rfl

theorem client_quiet (client : Client) (self : CDCImplPrivate) (action : ClientAction) :
    client.step .linux self.quiet action =
      (client.step .linux self action).map fun (impl, client) => (impl.quiet, client) := by
  obtain ⟨phase, calls, results⟩ := client
  cases phase with
  | idle =>
    cases action with
    | call op =>
      simp only [Client.step, startCall_quiet]
      rcases startCall .linux self op with ⟨_ | phase, self'⟩ <;> rfl
    | _ => rfl
  | sending op cmd dataToWrite =>
    cases action with
    | send outcome =>
      simp only [Client.step]
      split_ifs
      · cases outcome <;> rfl
      · rfl
    | _ => rfl
  | writing op cmd =>
    cases action with
    | writeFile outcome =>
      simp only [Client.step, writeFile]
      cases outcome with
      | eventFailed => rfl
      | _ =>
        dsimp only
        rw [commandToBuffer_quiet]
        rcases commandToBuffer self cmd with ⟨_ | buffCmd, self'⟩ <;> rfl
    | _ => rfl
  | waiting op cmd =>
    cases action with
    | wait outcome =>
      have hevent : self.quiet.newMsgEvent = self.newMsgEvent := rfl
      simp only [Client.step, hevent]
      split_ifs
      · cases outcome <;> rfl
      · rfl
    | _ => rfl
  | checking op cmd =>
    cases action with
    | check =>
      have hresponse : self.quiet.lastResponse = self.lastResponse := rfl
      simp only [Client.step, hresponse]
      cases checkResponse cmd self.lastResponse <;> rfl
    | _ => rfl
  | answering op cmd =>
    cases action with
    | answer => rfl
    | _ => rfl

/-- The steps of a system do not depend on its listener. -/
theorem system_quiet {s : System} {action : SystemAction}
    (hdecodes : action = .round → s.reader = .processing → NextDecodes s.impl s.receivedBytes) :
    s.quiet.step action = (s.step action).map System.quiet := by
  cases action with
  | client action =>
    simp only [System.step, System.quiet_reader, System.quiet_impl, System.quiet_client,
      client_quiet]
    split_ifs
    · rfl
    · cases s.client.step .linux s.impl action <;> rfl
  | transmit sent => rfl
  | read buflen =>
    by_cases hselecting : s.reader = .selecting
    · simp only [System.step, System.quiet_reader, hselecting, if_true, appendDataFromPort]
      rfl
    · simp only [System.step, System.quiet_reader, hselecting, if_false]
      rfl
  | round =>
    by_cases hprocessing : s.reader = .processing
    · simp only [System.step, System.quiet_reader, hprocessing, if_true, System.quiet_impl,
        System.quiet_receivedBytes, beginRound_quiet (hdecodes rfl hprocessing)]
      rcases beginRound s.impl s.receivedBytes with ⟨e | start, impl, rest⟩
      · exact congrArg some (throws_quiet s impl e)
      · rfl
    · simp only [System.step, System.quiet_reader, hprocessing, if_false]
      rfl
  | signal =>
    by_cases hsignalling : s.reader = .signalling
    · simp only [System.step, System.quiet_reader, hsignalling, if_true, System.quiet_impl,
        setMyEvent_quiet]
      rcases s.impl.setMyEvent .linux with ⟨e | _, impl⟩
      · exact congrArg some (throws_quiet s impl e)
      · rfl
    · simp only [System.step, System.quiet_reader, hsignalling, if_false]
      rfl

theorem nextDecodes_quiet {self : CDCImplPrivate} {msgBuffer : UString} :
    NextDecodes self.quiet msgBuffer ↔ NextDecodes self msgBuffer := by
  unfold NextDecodes
  rw [parseNextMessage_quiet]

/-- Two systems that differ in their listeners make the same steps. -/
theorem step_quiet {s s' t : System} (h : s.quiet = t.quiet) {action : SystemAction}
    (hdecodes : action = .round → t.reader = .processing → NextDecodes t.impl t.receivedBytes)
    (hstep : s.step action = some s') :
    ∃ t', t.step action = some t' ∧ s'.quiet = t'.quiet := by
  have hdecodes' : action = .round → s.reader = .processing →
      NextDecodes s.impl s.receivedBytes := by
    have hreader : s.reader = t.reader := by simpa using congrArg System.reader h
    have himpl : s.impl.quiet = t.impl.quiet := by simpa using congrArg System.impl h
    have hbytes : s.receivedBytes = t.receivedBytes := by
      simpa using congrArg System.receivedBytes h
    rw [hreader, hbytes, ← nextDecodes_quiet, himpl, nextDecodes_quiet]
    exact hdecodes
  have hquiet := system_quiet hdecodes'
  rw [h, system_quiet hdecodes, hstep] at hquiet
  obtain ⟨t', hstep', ht'⟩ := Option.map_eq_some_iff.mp hquiet
  exact ⟨t', hstep', ht'.symm⟩

theorem throws_stops (s : System) (self : CDCImplPrivate) (e : CdcException) :
    (s.throws self e).reader = .returned ∨ (s.throws self e).reader = .terminated := by
  unfold System.throws threadHandler
  split_ifs
  · exact .inl rfl
  · exact .inr rfl

/-- The frames of a device that keeps to its protocol can be decoded. -/
theorem Follows.decodes {s : System} {t : Exchange} (h : Follows s t)
    (hreader : s.reader = .processing) : NextDecodes s.impl s.receivedBytes := by
  intro hempty parsedMessage hparse hok hasync
  by_contra hfails
  obtain ⟨last, hnext⟩ : ∃ last, parseNextMessage s.impl s.receivedBytes =
      (.ok parsedMessage, withParse s.impl last, repair s.receivedBytes) := by
    obtain ⟨last, -, hnext⟩ := parseNextMessage_eq s.impl s.receivedBytes
    rw [hnext] at hparse ⊢
    exact ⟨last, by rw [← Except.ok.inj hparse]⟩
  have hlistener : (withParse s.impl last).asyncListener = true := by
    rw [h.impl]
    exact h.good.listener
  -- the round would throw, and the thread would stop
  have hround : ∃ e self' rest, beginRound s.impl s.receivedBytes = (.error e, self', rest) := by
    cases hdata : getParsedDRData parsedMessage.message with
    | ok userData => exact absurd ⟨userData, hdata⟩ hfails
    | error e =>
      refine ⟨e, (withParse s.impl last).emit (.dispatched parsedMessage),
        erase (repair s.receivedBytes) (parsedMessage.parseResult.lastPosition + 1), ?_⟩
      have hemitted : ((withParse s.impl last).emit (.dispatched parsedMessage)).asyncListener =
          true := hlistener
      unfold beginRound beginMessage
      rw [if_neg hempty, hnext]
      simp only [hok, if_pos hasync, if_pos hemitted, hdata]
  obtain ⟨e, self', rest, hround⟩ := hround
  have hstep : system.step s .round = some (s.throws self' e) := by
    simp only [system, System.step, if_pos hreader, hround]
  obtain ⟨-, t', -, h'⟩ := h.round_step hstep
  rcases throws_stops s self' e with hreturned | hterminated
  · exact h'.running.1 hreturned
  · exact h'.running.2 hterminated

end Clibcdc
