import Clibcdc.Client
import Clibcdc.Automata.Machine

/-!
# The loop of `sendCommand` on Linux

`write` may accept a part of the bytes that it is given.  The loop of
`sendCommand` then moves its pointer on and subtracts the result from what is
left.

`SendCall` has these two variables: `dataToWrite` counts from the beginning of
the transmit buffer, and `dataLen` is signed.  `Clibcdc.Client` has one word in
their place, the bytes that are left.

* `SendCall.Sends` is the invariant of the loop: what the port has accepted
  ends where the pointer stands, and the pointer and what is left add up to the
  command.
* `sendCommand_prefix` reads off it what the port has accepted at each moment.
* `sendCommand_simulated` connects the two: every run of the loop is a run of
  the client thread.
-/

namespace Clibcdc

open Clibcdc.Automata Clibcdc.Parser

/-! ## The loop -/

/-- A call of `sendCommand`, and how it has ended. -/
structure SendCall where
  self : CDCImplPrivate
  dataToWrite : Nat
  dataLen : Int
  ended : Option (Except CdcException Unit)

namespace SendCall

/-- The head of the loop. -/
def loopHead (call : SendCall) : SendCall :=
  if call.dataLen > 0 then call else { call with ended := some (.ok ()) }

def throw (call : SendCall) (e : CdcException) : SendCall := { call with ended := some (.error e) }

/-- `write` has accepted a number of bytes from the pointer on. -/
def advance (call : SendCall) (writeResult : Nat) : SendCall :=
  { call with
    self := { call.self with
      portOutput := call.self.portOutput ++
        (call.self.m_transmitBuffer.drop call.dataToWrite).take writeResult }
    dataLen := call.dataLen - writeResult
    dataToWrite := call.dataToWrite + writeResult }

/-- A round of the loop.  `write` accepts at most the bytes that it is given. -/
def step (call : SendCall) (outcome : SendOutcome) : Option SendCall :=
  match call.ended with
  | some _ => none
  | none =>
    match outcome with
    | .selectFailed =>
      some (call.throw ⟨.sendException, "Sending message failed with error "⟩)
    | .selectTimedOut => some (call.throw ⟨.sendException, "Waiting for send timeouted"⟩)
    | .writeFailed =>
      some (call.throw ⟨.sendException, "Sending message failed with error "⟩)
    | .written writeResult =>
      if (writeResult : Int) ≤ call.dataLen then some (call.advance writeResult).loopHead
      else none

end SendCall

/-- `sendCommand` up to its first `selectEvents`. -/
def startSendCommand (self : CDCImplPrivate) (cmd : Command) : SendCall :=
  match commandToBuffer self cmd with
  | (.error e, self) => ⟨self, 0, 0, some (.error e)⟩
  | (.ok buffCmd, self) => SendCall.loopHead ⟨self, 0, buffCmd.len, none⟩

def sendCommand : Machine SendCall SendOutcome := ⟨SendCall.step⟩

/-! ## What a round can do -/

@[simp] theorem SendCall.loopHead_self (call : SendCall) : call.loopHead.self = call.self := by
  unfold loopHead
  split_ifs <;> rfl

@[simp] theorem SendCall.loopHead_dataToWrite (call : SendCall) :
    call.loopHead.dataToWrite = call.dataToWrite := by
  unfold loopHead
  split_ifs <;> rfl

@[simp] theorem SendCall.loopHead_dataLen (call : SendCall) :
    call.loopHead.dataLen = call.dataLen := by
  unfold loopHead
  split_ifs <;> rfl

/-- The head of the loop ends a call in no other way than by its return. -/
theorem SendCall.loopHead_ended {call : SendCall} (hended : call.ended = none) :
    call.loopHead.ended = if call.dataLen > 0 then none else some (.ok ()) := by
  unfold loopHead
  split_ifs
  · exact hended
  · rfl

@[simp] theorem SendCall.advance_dataToWrite (call : SendCall) (writeResult : Nat) :
    (call.advance writeResult).dataToWrite = call.dataToWrite + writeResult := rfl

/-- A round writes, or its exception ends the call. -/
theorem SendCall.step_cases {call call' : SendCall} {outcome : SendOutcome}
    (h : call.step outcome = some call') :
    call.ended = none ∧
      ((∃ writeResult : Nat, outcome = .written writeResult ∧
          (writeResult : Int) ≤ call.dataLen ∧ call' = (call.advance writeResult).loopHead) ∨
        ∃ e, (∀ writeResult, outcome ≠ .written writeResult) ∧ e.identity = .sendException ∧
          (∀ left, sendRound call.self left outcome = (.error e, call.self)) ∧
          call' = call.throw e) := by
  cases hended : call.ended with
  | some result => simp [step, hended] at h
  | none =>
    refine ⟨rfl, ?_⟩
    cases outcome with
    | written writeResult =>
      left
      simp only [step, hended] at h
      split_ifs at h with hle
      exact ⟨writeResult, rfl, hle, (Option.some.inj h).symm⟩
    | selectFailed | selectTimedOut | writeFailed =>
      right
      simp only [step, hended] at h
      exact ⟨_, by simp, rfl, fun _ => rfl, (Option.some.inj h).symm⟩

/-! ## The invariant of the loop -/

/-- The call sends `text`, and began with the object `start`. -/
structure SendCall.Sends (start : CDCImplPrivate) (text : UString) (call : SendCall) : Prop where
  buffer : call.self.m_transmitBuffer.take text.length = text
  pointer : call.dataToWrite + call.dataLen = text.length
  left : 0 ≤ call.dataLen
  output : call.self.portOutput = start.portOutput ++ text.take call.dataToWrite
  running : call.ended = none → 0 < call.dataLen
  returned : call.ended = some (.ok ()) → call.dataLen = 0
  threw : ∀ e, call.ended = some (.error e) → e.identity = .sendException ∧ 0 < call.dataLen

section Sends

variable {start : CDCImplPrivate} {text : UString} {call call' : SendCall} {outcome : SendOutcome}

/-- The loop goes on while something is left. -/
theorem SendCall.loopHead_sends
    (hbuffer : call.self.m_transmitBuffer.take text.length = text)
    (hpointer : call.dataToWrite + call.dataLen = text.length) (hleft : 0 ≤ call.dataLen)
    (houtput : call.self.portOutput = start.portOutput ++ text.take call.dataToWrite)
    (hended : call.ended = none) : call.loopHead.Sends start text := by
  by_cases hmore : call.dataLen > 0
  · rw [loopHead, if_pos hmore]
    exact ⟨hbuffer, hpointer, hleft, houtput, fun _ => hmore, by simp [hended], by simp [hended]⟩
  · rw [loopHead, if_neg hmore]
    exact ⟨hbuffer, hpointer, hleft, houtput, by simp, fun _ => by simp only; omega, by simp⟩

/-- The bytes at the pointer are those of the command. -/
theorem SendCall.Sends.at_pointer (h : call.Sends start text) {n : Nat}
    (hn : (n : Int) ≤ call.dataLen) :
    (call.self.m_transmitBuffer.drop call.dataToWrite).take n =
      (text.drop call.dataToWrite).take n := by
  have hpointer := h.pointer
  have hmin : min n (text.length - call.dataToWrite) = n := by omega
  conv_rhs => rw [← h.buffer, List.drop_take, List.take_take, hmin]

theorem SendCall.Sends.advance (h : call.Sends start text) (hended : call.ended = none)
    {writeResult : Nat} (hle : (writeResult : Int) ≤ call.dataLen) :
    (call.advance writeResult).loopHead.Sends start text := by
  refine loopHead_sends h.buffer ?_ ?_ ?_ hended
  · have hpointer := h.pointer
    simp only [SendCall.advance]
    omega
  · simp only [SendCall.advance]
    omega
  · have hbytes := h.at_pointer hle
    simp only [SendCall.advance, h.output, hbytes, List.append_assoc, List.append_cancel_left_eq]
    exact List.take_add.symm

theorem SendCall.Sends.throw (h : call.Sends start text) (hended : call.ended = none)
    {e : CdcException} (he : e.identity = .sendException) : (call.throw e).Sends start text where
  buffer := h.buffer
  pointer := h.pointer
  left := h.left
  output := h.output
  running := by simp [SendCall.throw]
  returned := by simp [SendCall.throw]
  threw := by
    intro e' he'
    obtain rfl : e = e' := by simpa [SendCall.throw] using he'
    exact ⟨he, h.running hended⟩

theorem SendCall.Sends.step (h : call.Sends start text) (hstep : call.step outcome = some call') :
    call'.Sends start text := by
  obtain ⟨hended, hcases⟩ := step_cases hstep
  obtain ⟨writeResult, -, hle, rfl⟩ | ⟨e, -, he, -, rfl⟩ := hcases
  · exact h.advance hended hle
  · exact h.throw hended he

theorem startSendCommand_sends (start : CDCImplPrivate) {cmd : Command}
    (htext : commandText cmd = .ok text) : (startSendCommand start cmd).Sends start text := by
  obtain ⟨buffer, bufferLen, hbuffer, htake⟩ := commandToBuffer_ok start htext
  rw [startSendCommand, hbuffer]
  refine SendCall.loopHead_sends htake ?_ ?_ ?_ rfl
  · simp
  · simp
  · simp

theorem sendCommand_sends {cmd : Command} (htext : commandText cmd = .ok text)
    {outcomes : List SendOutcome}
    (hrun : sendCommand.run (startSendCommand start cmd) outcomes = some call) :
    call.Sends start text :=
  Machine.invariant (fun h hstep => h.step hstep) (startSendCommand_sends start htext) hrun

/-- The size of a command: at most a header of two bytes, its size, a colon, and
255 bytes of data between the first and the last byte. -/
theorem commandText_length {cmd : Command} (htext : commandText cmd = .ok text) :
    text.length ≤ 261 := by
  obtain ⟨msgType, data⟩ := cmd
  cases msgType with
  | msgDataSend | msgUploadDownload | msgDownloadData =>
    by_cases hlarge : data.length > ucharMax
    · simp [commandText, hlarge, bind, Except.bind, pure, Except.pure, throw, throwThe,
        MonadExceptOf.throw] at htext
    · have hdata : data.length ≤ 255 := Nat.not_lt.mp hlarge
      simp [commandText, hlarge, bind, Except.bind, pure, Except.pure] at htext
      have hlen := congrArg List.length htext
      simp [ascii, messageHeaders] at hlen
      omega
  | _ =>
    rw [← Except.ok.inj htext]
    simp [ascii, messageHeaders]

/-- What is left is never negative, and an `int` holds it. -/
theorem sendCommand_dataLen {cmd : Command} (htext : commandText cmd = .ok text)
    {outcomes : List SendOutcome}
    (hrun : sendCommand.run (startSendCommand start cmd) outcomes = some call) :
    0 ≤ call.dataLen ∧ call.dataLen ≤ 261 := by
  have h := sendCommand_sends htext hrun
  have hpointer := h.pointer
  have hlen := commandText_length htext
  exact ⟨h.left, by omega⟩

/-! ## The rounds of a call -/

/-- What a call can still write. -/
def SendCall.remaining (call : SendCall) : Nat :=
  if call.ended = none then call.dataLen.toNat else 0

/-- A round that does not write nothing brings the call nearer to its end. -/
theorem SendCall.Sends.remaining_step (h : call.Sends start text)
    (hstep : call.step outcome = some call') (hwritten : outcome ≠ .written 0) :
    call'.remaining < call.remaining := by
  obtain ⟨hended, hcases⟩ := step_cases hstep
  have hrunning := h.running hended
  have hremaining : call.remaining = call.dataLen.toNat := by
    rw [remaining, if_pos hended]
  obtain ⟨writeResult, rfl, hle, rfl⟩ | ⟨e, -, -, -, rfl⟩ := hcases
  · have hpos : writeResult ≠ 0 := by
      intro hzero
      exact hwritten (by rw [hzero])
    have hnext : (call.advance writeResult).loopHead.remaining ≤
        (call.dataLen - writeResult).toNat := by
      unfold remaining loopHead
      split_ifs <;> simp [SendCall.advance]
    omega
  · have hthrown : (call.throw e).remaining = 0 := rfl
    omega

theorem SendCall.Sends.rounds (h : call.Sends start text) {outcomes : List SendOutcome}
    (hwritten : ∀ outcome ∈ outcomes, outcome ≠ .written 0)
    (hrun : sendCommand.run call outcomes = some call') :
    outcomes.length + call'.remaining ≤ call.remaining := by
  induction outcomes generalizing call with
  | nil =>
    obtain rfl := Option.some.inj hrun
    simp
  | cons outcome outcomes ih =>
    obtain ⟨next, hstep, hrest⟩ := Machine.run_cons.mp hrun
    have hround := h.remaining_step hstep (hwritten outcome List.mem_cons_self)
    have hrounds := ih (h.step hstep) (fun o ho => hwritten o (List.mem_cons_of_mem _ ho)) hrest
    rw [List.length_cons]
    omega

/-- A call that has not ended takes whatever `selectEvents` and `write`
answer. -/
theorem SendCall.Sends.step_possible (h : call.Sends start text) (hended : call.ended = none)
    (hpossible : outcome.Possible (text.drop call.dataToWrite)) :
    ∃ next, call.step outcome = some next := by
  cases outcome with
  | written writeResult =>
    have hpointer := h.pointer
    have hleft := h.left
    have hle : (writeResult : Int) ≤ call.dataLen := by
      have hbytes : writeResult ≤ text.length - call.dataToWrite := by
        simpa [SendOutcome.Possible] using hpossible
      omega
    exact ⟨_, by rw [SendCall.step, hended]; exact if_pos hle⟩
  | selectFailed | selectTimedOut | writeFailed => exact ⟨_, by rw [SendCall.step, hended]⟩

/-! ## What the port has accepted -/

/-- At every moment of a call the port has accepted the beginning of the
command: all of it when the call returns, and not all of it when the call
throws.  When no write accepts nothing, a call has at most as many rounds as
its command has bytes. -/
theorem sendCommand_prefix (self : CDCImplPrivate) {cmd : Command}
    (htext : commandText cmd = .ok text) {outcomes : List SendOutcome}
    (hrun : sendCommand.run (startSendCommand self cmd) outcomes = some call) :
    ∃ sent, call.self.portOutput = self.portOutput ++ sent ∧ sent <+: text ∧
      (call.ended = some (.ok ()) → sent = text) ∧
      (∀ e, call.ended = some (.error e) → e.identity = .sendException ∧ sent ≠ text) ∧
      (call.ended = none → ∀ outcome, SendOutcome.Possible (text.drop sent.length) outcome →
        ∃ next, call.step outcome = some next) ∧
      ((∀ outcome ∈ outcomes, outcome ≠ .written 0) →
        outcomes.length ≤ text.length ∧
          (call.ended = none → outcomes.length < text.length)) := by
  have hstart := startSendCommand_sends self htext
  have h := sendCommand_sends htext hrun
  have hpointer := h.pointer
  have hleft := h.left
  have hsent : (text.take call.dataToWrite).length = call.dataToWrite := by
    rw [List.length_take]
    omega
  refine ⟨text.take call.dataToWrite, h.output, List.take_prefix _ _, ?_, ?_, ?_, ?_⟩
  · intro hended
    have hzero := h.returned hended
    exact List.take_of_length_le (by omega)
  · intro e hended
    obtain ⟨he, hmore⟩ := h.threw e hended
    refine ⟨he, fun hwhole => ?_⟩
    rw [hwhole] at hsent
    omega
  · intro hended outcome hpossible
    rw [hsent] at hpossible
    exact h.step_possible hended hpossible
  · intro hwritten
    have hrounds := hstart.rounds hwritten hrun
    have hbegin : (startSendCommand self cmd).remaining ≤ text.length := by
      have hpointer := hstart.pointer
      have hleft := hstart.left
      unfold SendCall.remaining
      split_ifs <;> omega
    refine ⟨by omega, fun hended => ?_⟩
    have hmore := h.running hended
    rw [SendCall.remaining, if_pos hended] at hrounds
    omega

theorem sendCommand_prefix_sendData :
    ∃ call, sendCommand.run (startSendCommand (.init (.new listedOnly)) ⟨.msgDataSend, [7]⟩)
        [.written 3, .written 0, .written 4] = some call ∧
      call.self.portOutput = ascii ">DS" ++ [1, chr ':', 7, cr] := by
  have hrun : sendCommand.run (startSendCommand (.init (.new listedOnly)) ⟨.msgDataSend, [7]⟩)
      [.written 3, .written 0, .written 4] = some _ := rfl
  obtain ⟨sent, hsent, -, hreturned, -⟩ := sendCommand_prefix _ rfl hrun
  refine ⟨_, hrun, ?_⟩
  rw [hsent, hreturned rfl]
  rfl

end Sends

/-! ## The client thread -/

/-- The client thread stands where the call of `sendCommand` does. -/
structure SendCall.Follows (op : Operation) (cmd : Command) (text : UString) (call : SendCall)
    (s : CDCImplPrivate × Client) : Prop where
  sends : ∃ start, call.Sends start text
  object : s.1 = call.self
  running : call.ended = none → s.2.phase = .sending op cmd (text.drop call.dataToWrite)
  returned : call.ended = some (.ok ()) → s.2.phase = .waiting op cmd
  threw : ∀ e, call.ended = some (.error e) →
    ∃ client : Client, s.2 = client.finish (.error e)

/-- The steps of the client thread on Linux. -/
def clientThread : Machine (CDCImplPrivate × Client) ClientAction :=
  ⟨fun s action => Client.step .linux s.1 s.2 action⟩

/-- What is left after a write is empty exactly when the loop ends. -/
theorem SendCall.Sends.rest_eq_nil {start : CDCImplPrivate} {text : UString} {call : SendCall}
    (h : call.Sends start text) : text.drop call.dataToWrite = [] ↔ call.dataLen = 0 := by
  have hpointer := h.pointer
  have hleft := h.left
  rw [List.drop_eq_nil_iff]
  omega

/-- A round of the loop is a step of the client thread. -/
theorem SendCall.Follows.step {op : Operation} {cmd : Command} {text : UString}
    {call call' : SendCall} {s : CDCImplPrivate × Client} {outcome : SendOutcome}
    (h : call.Follows op cmd text s) (hstep : call.step outcome = some call') :
    ∃ s', clientThread.step s (.send outcome) = some s' ∧ call'.Follows op cmd text s' := by
  obtain ⟨self, client⟩ := s
  obtain ⟨⟨start, hsends⟩, hself, hrunning, -, -⟩ := h
  obtain rfl : self = call.self := hself
  have hnext := hsends.step hstep
  obtain ⟨hended, hcases⟩ := step_cases hstep
  have hphase : client.phase = .sending op cmd (text.drop call.dataToWrite) := hrunning hended
  obtain ⟨writeResult, rfl, hle, rfl⟩ | ⟨e, hfailed, -, hround, rfl⟩ := hcases
  · have hpointer := hsends.pointer
    have hpossible : SendOutcome.Possible (text.drop call.dataToWrite) (.written writeResult) := by
      simp only [SendOutcome.Possible, List.length_drop]
      omega
    have hrest := hnext.rest_eq_nil
    simp only [loopHead_dataToWrite, loopHead_dataLen, advance_dataToWrite] at hrest
    refine ⟨({ call.self with
        portOutput := call.self.portOutput ++ (text.drop call.dataToWrite).take writeResult },
      { client with
        phase := sendLoop op cmd ((text.drop call.dataToWrite).drop writeResult) }),
      ?_, ⟨start, hnext⟩, ?_, ?_, ?_, ?_⟩
    · simp only [clientThread, Client.step, hphase, if_pos hpossible, sendRound, Client.proceed]
    · rw [loopHead_self, SendCall.advance, hsends.at_pointer hle]
    · intro hmore
      have hleft := hnext.running hmore
      rw [loopHead_dataLen] at hleft
      simp only [List.drop_drop, sendLoop, hrest, if_neg (Int.ne_of_gt hleft), loopHead_dataToWrite,
        advance_dataToWrite]
    · intro hdone
      have hleft := hnext.returned hdone
      rw [loopHead_dataLen] at hleft
      simp only [List.drop_drop, sendLoop, hrest, if_pos hleft]
    · intro e he
      rw [loopHead_ended (by exact hended)] at he
      split_ifs at he
      cases he
  · refine ⟨(call.self, client.finish (.error e)), ?_, ⟨start, hnext⟩, rfl, ?_, ?_, ?_⟩
    · have hpossible : SendOutcome.Possible (text.drop call.dataToWrite) outcome := by
        cases outcome with
        | written writeResult => exact absurd rfl (hfailed writeResult)
        | selectFailed | selectTimedOut | writeFailed => trivial
      simp only [clientThread, Client.step, hphase, if_pos hpossible, hround, Client.proceed]
    · simp [SendCall.throw]
    · simp [SendCall.throw]
    · intro e' he'
      obtain rfl : e = e' := by simpa [SendCall.throw] using he'
      exact ⟨client, rfl⟩

/-- A call of an operation begins its `sendCommand`. -/
theorem startSendCommand_follows {op : Operation} {cmd : Command} {text : UString}
    {self : CDCImplPrivate} {client : Client} (hidle : client.phase = .idle)
    (hreception : self.receptionStopped = false) (hcommand : op.command = .ok cmd)
    (htext : commandText cmd = .ok text) :
    ∃ s, clientThread.step (self, client) (.call op) = some s ∧
      (startSendCommand self cmd).Follows op cmd text s := by
  obtain ⟨body, hbody⟩ := commandText_ends htext
  obtain ⟨buffer, bufferLen, hbuffer, htake⟩ := commandToBuffer_ok self htext
  have hne : text ≠ [] := by simp [hbody]
  have hstart : startSendCommand self cmd =
      ⟨{ self with m_transmitBuffer := buffer, m_transmitBufferLen := bufferLen }, 0,
        text.length, none⟩ := by
    have hmore : (text.length : Int) > 0 := by simpa using List.length_pos_iff.mpr hne
    rw [startSendCommand, hbuffer]
    exact if_pos hmore
  refine ⟨({ self with m_transmitBuffer := buffer, m_transmitBufferLen := bufferLen },
    { client with calls := client.calls ++ [op], phase := .sending op cmd text }), ?_,
    ⟨self, startSendCommand_sends self htext⟩, ?_, ?_, ?_, ?_⟩
  · simp only [clientThread, Client.step, hidle, startCall, hcommand, checkReception, hreception,
      Bool.false_eq_true, if_false, startSend, hbuffer, htake, sendLoop, if_neg hne,
      Client.proceed]
  · rw [hstart]
  · simp [hstart]
  · simp [hstart]
  · simp [hstart]

/-- Every run of the loop is a run of the client thread, from the call of the
operation on. -/
theorem sendCommand_simulated {op : Operation} {cmd : Command} {text : UString}
    {self : CDCImplPrivate} {client : Client} {call : SendCall} {outcomes : List SendOutcome}
    (hidle : client.phase = .idle) (hreception : self.receptionStopped = false)
    (hcommand : op.command = .ok cmd) (htext : commandText cmd = .ok text)
    (hrun : sendCommand.run (startSendCommand self cmd) outcomes = some call) :
    ∃ s, clientThread.run (self, client) (.call op :: outcomes.map .send) = some s ∧
      call.Follows op cmd text s := by
  obtain ⟨t, hcall, hfollows⟩ := startSendCommand_follows hidle hreception hcommand htext
  obtain ⟨s, hs, hend⟩ :=
    Machine.run_map (fun hfollows hstep => hfollows.step hstep) hfollows hrun
  exact ⟨s, Machine.run_cons.mpr ⟨t, hcall, hs⟩, hend⟩

end Clibcdc
