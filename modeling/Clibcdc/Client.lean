import Clibcdc.Command

/-!
# The client thread

The client thread makes one call after the other.  A call is
`processCommand`, between whose steps the reader thread can run, and what the
public operation makes of the last response behind it.

`Client.step` puts the steps in order: the start of the call, the writes of
`sendCommand`, the wait for the event, the check of the last response, and the
answer.  An exception ends the call.

* On Linux the call starts up to the first `selectEvents` of `sendCommand`, and
  each round of the loop of `sendCommand` is a step.
* On Windows the call starts up to `resetMyEvent`, and the rest of
  `sendCommand` is a step.
-/

namespace Clibcdc

/-! ## Where a call stands -/

inductive ClientPhase where
  | idle
  | sending (op : Operation) (cmd : Command) (dataToWrite : UString)
  | writing (op : Operation) (cmd : Command)
  | waiting (op : Operation) (cmd : Command)
  | checking (op : Operation) (cmd : Command)
  | answering (op : Operation) (cmd : Command)
  deriving DecidableEq, Repr

/-- The calls made so far, and how those that have ended did. -/
structure Client where
  phase : ClientPhase
  calls : List Operation
  results : List (Except CdcException Answer)

def Client.new : Client := ⟨.idle, [], []⟩

inductive ClientAction where
  | call (op : Operation)
  | send (outcome : SendOutcome)
  | writeFile (outcome : WriteFileOutcome)
  | wait (outcome : WaitOutcome)
  | check
  | answer
  deriving DecidableEq, Repr

/-- `write` accepts at most the bytes that it is given. -/
def SendOutcome.Possible (dataToWrite : UString) : SendOutcome → Prop
  | .written writeResult => writeResult ≤ dataToWrite.length
  | .selectFailed | .selectTimedOut | .writeFailed => True

/-- The time runs out when the event is not signalled, and the event is
reported when it is. -/
def WaitOutcome.Possible (platform : Platform) (newMsgEvent : Nat) : WaitOutcome → Prop
  | .waitFailed => True
  | .timedOut => newMsgEvent = 0
  | .readFailed => platform = .linux ∧ 0 < newMsgEvent
  | .signalled => 0 < newMsgEvent

instance (dataToWrite : UString) : DecidablePred (SendOutcome.Possible dataToWrite)
  | .written writeResult => inferInstanceAs (Decidable (writeResult ≤ dataToWrite.length))
  | .selectFailed | .selectTimedOut | .writeFailed => inferInstanceAs (Decidable True)

instance (platform : Platform) (newMsgEvent : Nat) :
    DecidablePred (WaitOutcome.Possible platform newMsgEvent)
  | .waitFailed => inferInstanceAs (Decidable True)
  | .timedOut => inferInstanceAs (Decidable (newMsgEvent = 0))
  | .readFailed => inferInstanceAs (Decidable (platform = .linux ∧ 0 < newMsgEvent))
  | .signalled => inferInstanceAs (Decidable (0 < newMsgEvent))

/-! ## The steps of a call -/

/-- The loop of `sendCommand` ends when nothing is left to write. -/
def sendLoop (op : Operation) (cmd : Command) (dataToWrite : UString) : ClientPhase :=
  if dataToWrite = [] then .waiting op cmd else .sending op cmd dataToWrite

/-- The start of `sendCommand`. -/
def startSend (platform : Platform) (self : CDCImplPrivate) (op : Operation) (cmd : Command) :
    Except CdcException ClientPhase × CDCImplPrivate :=
  match platform with
  | .linux =>
    match commandToBuffer self cmd with
    | (.error e, self) => (.error e, self)
    | (.ok buffCmd, self) => (.ok (sendLoop op cmd (buffCmd.cmd.take buffCmd.len)), self)
  | .windows => (.ok (.writing op cmd), self.resetMyEvent .windows)

/-- The start of a call, up to the start of `sendCommand`. -/
def startCall (platform : Platform) (self : CDCImplPrivate) (op : Operation) :
    Except CdcException ClientPhase × CDCImplPrivate :=
  match op.command with
  | .error e => (.error e, self)
  | .ok cmd =>
    match checkReception self with
    | .error e => (.error e, self)
    | .ok () => startSend platform self op cmd

namespace Client

def finish (client : Client) (result : Except CdcException Answer) : Client :=
  { client with phase := .idle, results := client.results ++ [result] }

/-- A step of a call leads to the next phase, or its exception ends the call. -/
def proceed (client : Client) :
    Except CdcException ClientPhase × CDCImplPrivate → CDCImplPrivate × Client
  | (.error e, self) => (self, client.finish (.error e))
  | (.ok phase, self) => (self, { client with phase })

def step (platform : Platform) (self : CDCImplPrivate) (client : Client) (action : ClientAction) :
    Option (CDCImplPrivate × Client) :=
  match client.phase, action with
  | .idle, .call op =>
    some ({ client with calls := client.calls ++ [op] }.proceed (startCall platform self op))
  | .sending op cmd dataToWrite, .send outcome =>
    if outcome.Possible dataToWrite then
      match sendRound self dataToWrite outcome with
      | (.error e, self) => some (client.proceed (.error e, self))
      | (.ok dataToWrite, self) => some (client.proceed (.ok (sendLoop op cmd dataToWrite), self))
    else none
  | .writing op cmd, .writeFile outcome =>
    match writeFile self cmd outcome with
    | (.error e, self) => some (client.proceed (.error e, self))
    | (.ok (), self) => some (client.proceed (.ok (.waiting op cmd), self))
  | .waiting op cmd, .wait outcome =>
    if outcome.Possible platform self.newMsgEvent then
      match waitForMyEvent platform self outcome with
      | (.error e, self) => some (client.proceed (.error e, self))
      | (.ok (), self) => some (client.proceed (.ok (.checking op cmd), self))
    else none
  | .checking op cmd, .check =>
    match checkResponse cmd self.lastResponse with
    | .error e => some (client.proceed (.error e, self))
    | .ok () => some (client.proceed (.ok (.answering op cmd), self))
  | .answering op _, .answer => some (self, client.finish (op.answer self.lastResponse))
  | _, _ => none

/-! ## What a step can do -/

/-- The steps of the client, with what makes each possible. -/
inductive Steps (self : CDCImplPrivate) (client : Client) :
    Platform → ClientAction → CDCImplPrivate → Client → Prop
  | refused {platform : Platform} {op : Operation} {e : CdcException}
      (hphase : client.phase = .idle) (herror : startCall platform self op = (.error e, self)) :
      Steps self client platform (.call op) self
        ({ client with calls := client.calls ++ [op] }.finish (.error e))
  | started {op : Operation} {cmd : Command} {text buffer : UString} {bufferLen : Nat}
      (hphase : client.phase = .idle) (hreception : self.receptionStopped = false)
      (hcommand : op.command = .ok cmd) (htext : commandText cmd = .ok text) :
      Steps self client .linux (.call op)
        { self with m_transmitBuffer := buffer, m_transmitBufferLen := bufferLen }
        { client with calls := client.calls ++ [op], phase := .sending op cmd text }
  | reset {op : Operation} {cmd : Command} (hphase : client.phase = .idle)
      (hreception : self.receptionStopped = false) (hcommand : op.command = .ok cmd) :
      Steps self client .windows (.call op) { self with newMsgEvent := 0 }
        { client with calls := client.calls ++ [op], phase := .writing op cmd }
  | written {platform : Platform} {op : Operation} {cmd : Command} {dataToWrite : UString}
      {writeResult : Nat} (hphase : client.phase = .sending op cmd dataToWrite)
      (hwritten : writeResult ≤ dataToWrite.length) :
      Steps self client platform (.send (.written writeResult))
        { self with portOutput := self.portOutput ++ dataToWrite.take writeResult }
        { client with phase := sendLoop op cmd (dataToWrite.drop writeResult) }
  | sendFailed {platform : Platform} {op : Operation} {cmd : Command} {dataToWrite : UString}
      {outcome : SendOutcome} {e : CdcException}
      (hphase : client.phase = .sending op cmd dataToWrite)
      (hfailed : ∀ writeResult, outcome ≠ .written writeResult) :
      Steps self client platform (.send outcome) self (client.finish (.error e))
  | wrote {platform : Platform} {op : Operation} {cmd : Command} {text buffer : UString}
      {bufferLen bytesWritten : Nat} (hphase : client.phase = .writing op cmd)
      (htext : commandText cmd = .ok text) :
      Steps self client platform (.writeFile (.completed bytesWritten))
        { self with
          m_transmitBuffer := buffer, m_transmitBufferLen := bufferLen
          portOutput := self.portOutput ++ text.take bytesWritten }
        { client with phase := .waiting op cmd }
  | writeFailed {platform : Platform} {op : Operation} {cmd : Command}
      {outcome : WriteFileOutcome} {e : CdcException} {buffer : UString} {bufferLen : Nat}
      (hphase : client.phase = .writing op cmd) :
      Steps self client platform (.writeFile outcome)
        { self with m_transmitBuffer := buffer, m_transmitBufferLen := bufferLen }
        (client.finish (.error e))
  | signalled {platform : Platform} {op : Operation} {cmd : Command}
      (hphase : client.phase = .waiting op cmd) (hevent : 0 < self.newMsgEvent) :
      Steps self client platform (.wait .signalled) (self.consumeMyEvent platform)
        { client with phase := .checking op cmd }
  | waitFailed {platform : Platform} {op : Operation} {cmd : Command} {outcome : WaitOutcome}
      {e : CdcException} (hphase : client.phase = .waiting op cmd)
      (hfailed : outcome ≠ .signalled) :
      Steps self client platform (.wait outcome) self (client.finish (.error e))
  | accepted {platform : Platform} {op : Operation} {cmd : Command}
      (hphase : client.phase = .checking op cmd)
      (hcheck : checkResponse cmd self.lastResponse = .ok ()) :
      Steps self client platform .check self { client with phase := .answering op cmd }
  | rejected {platform : Platform} {op : Operation} {cmd : Command} {e : CdcException}
      (hphase : client.phase = .checking op cmd)
      (hcheck : checkResponse cmd self.lastResponse = .error e) :
      Steps self client platform .check self (client.finish (.error e))
  | answered {platform : Platform} {op : Operation} {cmd : Command}
      (hphase : client.phase = .answering op cmd) :
      Steps self client platform .answer self (client.finish (op.answer self.lastResponse))

end Client

/-- A call whose command can be sent starts with its first write on Linux. -/
theorem startCall_linux {self : CDCImplPrivate} {op : Operation} {cmd : Command} {text : UString}
    (hreception : self.receptionStopped = false) (hcommand : op.command = .ok cmd)
    (htext : commandText cmd = .ok text) :
    ∃ buffer bufferLen, startCall .linux self op = (.ok (.sending op cmd text),
      { self with m_transmitBuffer := buffer, m_transmitBufferLen := bufferLen }) := by
  obtain ⟨body, hbody⟩ := commandText_ends htext
  obtain ⟨buffer, bufferLen, hbuffer, htake⟩ := commandToBuffer_ok self htext
  have hne : text ≠ [] := by simp [hbody]
  refine ⟨buffer, bufferLen, ?_⟩
  simp only [startCall, hcommand, checkReception, hreception, Bool.false_eq_true, if_false,
    startSend, hbuffer, htake, sendLoop, if_neg hne]

/-- Once the reception has stopped, or when the command cannot be made, a call
ends where it starts. -/
theorem startCall_refused {platform : Platform} {self : CDCImplPrivate} {op : Operation}
    (h : (∃ e, op.command = .error e) ∨ self.receptionStopped = true) :
    ∃ e, startCall platform self op = (.error e, self) ∧ e.identity = .sendException := by
  cases hcommand : op.command with
  | error e => exact ⟨e, by rw [startCall, hcommand], command_error hcommand⟩
  | ok cmd =>
    have hreception : self.receptionStopped = true := by simpa [hcommand] using h
    exact ⟨⟨.sendException, "Reading is actually stopped"⟩,
      by simp [startCall, hcommand, checkReception, hreception], rfl⟩

/-- The start of a call on Linux leaves the object as it was, but for the
transmit buffer. -/
theorem startCall_linux_cases (self : CDCImplPrivate) (op : Operation) :
    (∃ e, startCall .linux self op = (.error e, self)) ∨
    ∃ cmd text buffer bufferLen, self.receptionStopped = false ∧ op.command = .ok cmd ∧
      commandText cmd = .ok text ∧ startCall .linux self op = (.ok (.sending op cmd text),
        { self with m_transmitBuffer := buffer, m_transmitBufferLen := bufferLen }) := by
  by_cases hrefused : (∃ e, op.command = .error e) ∨ self.receptionStopped = true
  · obtain ⟨e, hstart, -⟩ := @startCall_refused .linux self op hrefused
    exact .inl ⟨e, hstart⟩
  obtain ⟨hcommand, hreception⟩ := not_or.mp hrefused
  obtain ⟨cmd, hcmd⟩ : ∃ cmd, op.command = .ok cmd := by
    cases hop : op.command with
    | error e => exact absurd ⟨e, hop⟩ hcommand
    | ok cmd => exact ⟨cmd, rfl⟩
  rw [Bool.not_eq_true] at hreception
  cases htext : commandText cmd with
  | error e =>
    left
    refine ⟨e, ?_⟩
    simp [startCall, hcmd, checkReception, hreception, startSend, commandToBuffer, htext]
  | ok text =>
    obtain ⟨buffer, bufferLen, hstart⟩ := startCall_linux hreception hcmd htext
    exact .inr ⟨cmd, text, buffer, bufferLen, hreception, hcmd, htext, hstart⟩

theorem startCall_windows_cases (self : CDCImplPrivate) (op : Operation) :
    (∃ e, startCall .windows self op = (.error e, self)) ∨
    ∃ cmd, self.receptionStopped = false ∧ op.command = .ok cmd ∧
      startCall .windows self op = (.ok (.writing op cmd), { self with newMsgEvent := 0 }) := by
  by_cases hrefused : (∃ e, op.command = .error e) ∨ self.receptionStopped = true
  · obtain ⟨e, hstart, -⟩ := @startCall_refused .windows self op hrefused
    exact .inl ⟨e, hstart⟩
  obtain ⟨hcommand, hreception⟩ := not_or.mp hrefused
  cases hop : op.command with
  | error e => exact absurd ⟨e, hop⟩ hcommand
  | ok cmd =>
    right
    rw [Bool.not_eq_true] at hreception
    refine ⟨cmd, hreception, rfl, ?_⟩
    simp [startCall, hop, checkReception, hreception, startSend, CDCImplPrivate.resetMyEvent]

/-- The rest of `sendCommand` on Windows writes the command, or fails and has
changed at most the transmit buffer. -/
theorem writeFile_cases (self : CDCImplPrivate) (cmd : Command) (outcome : WriteFileOutcome) :
    (∃ text buffer bufferLen bytesWritten, outcome = .completed bytesWritten ∧
      commandText cmd = .ok text ∧ writeFile self cmd outcome = (.ok (), { self with
        m_transmitBuffer := buffer, m_transmitBufferLen := bufferLen
        portOutput := self.portOutput ++ text.take bytesWritten })) ∨
    ∃ e buffer bufferLen, writeFile self cmd outcome = (.error e, { self with
      m_transmitBuffer := buffer, m_transmitBufferLen := bufferLen }) := by
  cases htext : commandText cmd with
  | error e =>
    right
    cases outcome <;>
      exact ⟨_, self.m_transmitBuffer, self.m_transmitBufferLen,
        by simp [writeFile, commandToBuffer, htext]; rfl⟩
  | ok text =>
    obtain ⟨buffer, bufferLen, hbuffer, htake⟩ := commandToBuffer_ok self htext
    cases outcome with
    | completed bytesWritten =>
      left
      exact ⟨text, buffer, bufferLen, bytesWritten, rfl, rfl,
        by simp only [writeFile, hbuffer, htake]⟩
    | eventFailed =>
      exact .inr ⟨_, self.m_transmitBuffer, self.m_transmitBufferLen, rfl⟩
    | writeFailed | timedOut | waitFailed | resultFailed =>
      exact .inr ⟨_, buffer, bufferLen, by simp only [writeFile, hbuffer]; rfl⟩

theorem Client.step_steps {platform : Platform} {self self' : CDCImplPrivate}
    {client client' : Client} {action : ClientAction}
    (h : client.step platform self action = some (self', client')) :
    Steps self client platform action self' client' := by
  unfold Client.step at h
  split at h
  · next op hphase =>
    cases platform with
    | linux =>
      rcases startCall_linux_cases self op with
        ⟨e, hstart⟩ | ⟨cmd, text, buffer, bufferLen, hreception, hcommand, htext, hstart⟩
      · rw [hstart] at h
        obtain ⟨rfl, rfl⟩ := Prod.mk.inj (Option.some.inj h)
        exact .refused hphase hstart
      · rw [hstart] at h
        obtain ⟨rfl, rfl⟩ := Prod.mk.inj (Option.some.inj h)
        exact .started hphase hreception hcommand htext
    | windows =>
      rcases startCall_windows_cases self op with
        ⟨e, hstart⟩ | ⟨cmd, hreception, hcommand, hstart⟩
      · rw [hstart] at h
        obtain ⟨rfl, rfl⟩ := Prod.mk.inj (Option.some.inj h)
        exact .refused hphase hstart
      · rw [hstart] at h
        obtain ⟨rfl, rfl⟩ := Prod.mk.inj (Option.some.inj h)
        exact .reset hphase hreception hcommand
  · next op cmd dataToWrite outcome hphase =>
    split_ifs at h with hpossible
    cases outcome with
    | written writeResult =>
      obtain ⟨rfl, rfl⟩ := Prod.mk.inj (Option.some.inj h)
      exact .written hphase hpossible
    | selectFailed | selectTimedOut | writeFailed =>
      obtain ⟨rfl, rfl⟩ := Prod.mk.inj (Option.some.inj h)
      exact .sendFailed hphase (by simp)
  · next op cmd outcome hphase =>
    rcases writeFile_cases self cmd outcome with
      ⟨text, buffer, bufferLen, bytesWritten, rfl, htext, hwrite⟩ | ⟨e, buffer, bufferLen, hwrite⟩
    · rw [hwrite] at h
      obtain ⟨rfl, rfl⟩ := Prod.mk.inj (Option.some.inj h)
      exact .wrote hphase htext
    · rw [hwrite] at h
      obtain ⟨rfl, rfl⟩ := Prod.mk.inj (Option.some.inj h)
      exact .writeFailed hphase
  · next op cmd outcome hphase =>
    split_ifs at h with hpossible
    cases outcome with
    | signalled =>
      obtain ⟨rfl, rfl⟩ := Prod.mk.inj (Option.some.inj h)
      exact .signalled hphase hpossible
    | waitFailed | timedOut | readFailed =>
      obtain ⟨rfl, rfl⟩ := Prod.mk.inj (Option.some.inj h)
      exact .waitFailed hphase (by simp)
  · next op cmd hphase =>
    cases hcheck : checkResponse cmd self.lastResponse with
    | ok _ =>
      rw [hcheck] at h
      obtain ⟨rfl, rfl⟩ := Prod.mk.inj (Option.some.inj h)
      exact .accepted hphase hcheck
    | error e =>
      rw [hcheck] at h
      obtain ⟨rfl, rfl⟩ := Prod.mk.inj (Option.some.inj h)
      exact .rejected hphase hcheck
  · next op cmd hphase =>
    obtain ⟨rfl, rfl⟩ := Prod.mk.inj (Option.some.inj h)
    exact .answered hphase
  · cases h

/-- The client does not start or stop the reception. -/
theorem Client.Steps.receptionStopped {platform : Platform} {self self' : CDCImplPrivate}
    {client client' : Client} {action : ClientAction}
    (h : Steps self client platform action self' client') :
    self'.receptionStopped = self.receptionStopped := by
  cases h with
  | signalled => cases platform <;> rfl
  | _ => rfl

/-- The client does not touch the last response. -/
theorem Client.Steps.lastResponse {platform : Platform} {self self' : CDCImplPrivate}
    {client client' : Client} {action : ClientAction}
    (h : Steps self client platform action self' client') :
    self'.lastResponse = self.lastResponse := by
  cases h with
  | signalled => cases platform <;> rfl
  | _ => rfl

/-! ## The call in progress -/

/-- The call in progress and its command. -/
def ClientPhase.current : ClientPhase → Option (Operation × Command)
  | .idle => none
  | .sending op cmd _ | .writing op cmd | .waiting op cmd | .checking op cmd
  | .answering op cmd => some (op, cmd)

@[simp] theorem current_sendLoop (op : Operation) (cmd : Command) (dataToWrite : UString) :
    (sendLoop op cmd dataToWrite).current = some (op, cmd) := by
  unfold sendLoop
  split_ifs <;> rfl

/-- Every call but the one in progress has ended, and a call in progress
processes its own command. -/
structure Client.Consistent (client : Client) : Prop where
  command : ∀ op cmd, client.phase.current = some (op, cmd) → op.command = .ok cmd
  calls : ∃ done, client.calls = done ++ (client.phase.current.map Prod.fst).toList ∧
    client.results.length = done.length

theorem Client.consistent_new : Client.new.Consistent where
  command := by
    intro op cmd h
    cases h
  calls := ⟨[], rfl, rfl⟩

/-- A call that ends joins the others. -/
theorem Client.Consistent.finish {client : Client} (h : client.Consistent) {op : Operation}
    {cmd : Command} (hcurrent : client.phase.current = some (op, cmd))
    (result : Except CdcException Answer) : (client.finish result).Consistent where
  command := by
    intro op' cmd' h'
    cases h'
  calls := by
    obtain ⟨done, hcalls, hlen⟩ := h.calls
    rw [hcurrent] at hcalls
    refine ⟨done ++ [op], ?_, ?_⟩
    · simpa [Client.finish, ClientPhase.current] using hcalls
    · simp [Client.finish, hlen]

/-- A call that goes on stays the same. -/
theorem Client.Consistent.goesOn {client : Client} (h : client.Consistent) {phase : ClientPhase}
    (hcurrent : phase.current = client.phase.current) :
    ({ client with phase } : Client).Consistent where
  command := by
    intro op cmd h'
    exact h.command op cmd (hcurrent ▸ h')
  calls := by
    obtain ⟨done, hcalls, hlen⟩ := h.calls
    exact ⟨done, by rw [hcurrent]; exact hcalls, hlen⟩

/-- A call that begins is the one in progress. -/
theorem Client.Consistent.begins {client : Client} (h : client.Consistent)
    (hphase : client.phase = .idle) {phase : ClientPhase} {op : Operation} {cmd : Command}
    (hcurrent : phase.current = some (op, cmd)) (hcommand : op.command = .ok cmd) :
    ({ client with calls := client.calls ++ [op], phase } : Client).Consistent where
  command := by
    intro op' cmd' h'
    rw [hcurrent] at h'
    obtain ⟨rfl, rfl⟩ := Prod.mk.inj (Option.some.inj h')
    exact hcommand
  calls := by
    obtain ⟨done, hcalls, hlen⟩ := h.calls
    rw [hphase, ClientPhase.current, Option.map_none, Option.toList_none, List.append_nil] at hcalls
    exact ⟨done, by simp [hcurrent, hcalls], hlen⟩

theorem Client.Steps.consistent {platform : Platform} {self self' : CDCImplPrivate}
    {client client' : Client} {action : ClientAction} (hclient : client.Consistent)
    (h : Steps self client platform action self' client') : client'.Consistent := by
  cases h with
  | @refused _ op _ hphase herror =>
    obtain ⟨done, hcalls, hlen⟩ := hclient.calls
    rw [hphase] at hcalls
    refine ⟨fun _ _ h' => (by cases h'), ⟨done ++ [op], ?_, ?_⟩⟩
    · simpa [Client.finish, ClientPhase.current] using hcalls
    · simp [Client.finish, hlen]
  | started hphase hreception hcommand htext => exact hclient.begins hphase rfl hcommand
  | reset hphase hreception hcommand => exact hclient.begins hphase rfl hcommand
  | written hphase hwritten => exact hclient.goesOn (by rw [hphase, current_sendLoop]; rfl)
  | wrote hphase htext => exact hclient.goesOn (by rw [hphase]; rfl)
  | signalled hphase hevent => exact hclient.goesOn (by rw [hphase]; rfl)
  | accepted hphase hcheck => exact hclient.goesOn (by rw [hphase]; rfl)
  | sendFailed hphase hfailed => exact hclient.finish (by rw [hphase]; rfl) _
  | writeFailed hphase => exact hclient.finish (by rw [hphase]; rfl) _
  | waitFailed hphase hfailed => exact hclient.finish (by rw [hphase]; rfl) _
  | rejected hphase hcheck => exact hclient.finish (by rw [hphase]; rfl) _
  | answered hphase => exact hclient.finish (by rw [hphase]; rfl) _

end Clibcdc
