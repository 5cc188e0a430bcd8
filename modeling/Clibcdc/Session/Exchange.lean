import Clibcdc.Reader.Framing
import Clibcdc.Session.Decoding
import Clibcdc.Wire

/-!
# Commands and responses, frame by frame

The client and the device exchange commands and frames.  The device answers a
command once the command has been written as a whole, with one frame of the
type of the command, and sends asynchronous messages whenever it likes.

This module leaves out the bytes of the frames: what the device has sent and
the reader thread has not dispatched yet is a queue of frames.  A frame is
dispatched in two steps, because the client can run between the one that stores
a response and the one that signals it.

`Exchange.Good` is the invariant.  It counts the responses: those that have
been stored are those that the client has taken, and those that the event still
reports or is about to report.  So the event reports a response exactly when
the response is that of the call in progress.
-/

namespace Clibcdc

open Clibcdc.Automata Clibcdc.Parser Clibcdc.Reader

/-! ## What a response encodes -/

/-- The status that a byte stands for. -/
def statusOf (status : Byte) : SPIStatus :=
  if status = 0x00 then .spiMode .disabled
  else if status = 0x07 then .spiMode .suspended
  else if status = 0x3F then .spiMode .buffProtect
  else if status = 0x3E then .spiMode .crcmErr
  else if status = 0x80 then .spiMode .readyComm
  else if status = 0x81 then .spiMode .readyProg
  else if status = 0x82 then .spiMode .readyDebug
  else if status = 0x83 then .spiMode .slowMode
  else if status = 0xFF then .spiMode .hwError
  else .dataReady status.toNat

/-- What a response to a call encodes. -/
def Operation.encoded : Operation → Frame → Option Answer
  | .test, .test => some (.bool true)
  | .resetUSBDevice, .resUsb => some .none
  | .resetTRModule, .resTr => some .none
  | .indicateConnectivity, .usbConn => some .none
  | .switchToCustom, .switch => some .none
  | .getUSBDeviceInfo, .usbInfo type version id => some (.deviceInfo {
      type := type.text, typeLen := type.text.length
      firmwareVersion := version.text, fwLen := version.text.length
      serialNumber := id.text, snLen := id.text.length })
  | .getStatus, .spiStat status => some (.spiStatus (statusOf status))
  | .sendData _, .dataSend response => some (.dsResponse response)
  | .enterProgrammingMode, .modeProgram response => some (.pteResponse response)
  | .terminateProgrammingMode, .modeNormal response => some (.pteResponse response)
  | _, _ => none

theorem getParsedSPIStatus_statusOf (status : Byte) :
    getParsedSPIStatus (Frame.spiStat status).bytes = .ok (statusOf status) := by
  have hall : ∀ n < 256, getParsedSPIStatus (Frame.spiStat n.toUInt8).bytes =
      .ok (statusOf n.toUInt8) := by
    decide +kernel
  simpa using hall status.toNat status.toNat_lt

/-- The calls that are answered by a frame, with data that fit. -/
def Operation.Ordinary : Operation → Prop
  | .sendData data => data.length ≤ 255
  | .getTRModuleInfo | .upload _ _ | .download _ _ => False
  | _ => True

instance : DecidablePred Operation.Ordinary
  | .sendData data => inferInstanceAs (Decidable (data.length ≤ 255))
  | .getTRModuleInfo | .upload _ _ | .download _ _ => inferInstanceAs (Decidable False)
  | .test | .resetUSBDevice | .resetTRModule | .indicateConnectivity | .getUSBDeviceInfo
  | .getStatus | .switchToCustom | .enterProgrammingMode | .terminateProgrammingMode =>
    inferInstanceAs (Decidable True)

/-- A call decodes a response of its type to what the response encodes. -/
theorem answer_encoded {op : Operation} {frame : Frame} (hop : op.Ordinary)
    (htype : frame.msgType = op.msgType) :
    ∃ answer, op.encoded frame = some answer ∧ op.answer frame.message = .ok answer := by
  cases op with
  | test =>
    obtain rfl : frame = .test := by cases frame <;> first | rfl | cases htype
    exact ⟨_, rfl, rfl⟩
  | resetUSBDevice =>
    obtain rfl : frame = .resUsb := by cases frame <;> first | rfl | cases htype
    exact ⟨_, rfl, rfl⟩
  | resetTRModule =>
    obtain rfl : frame = .resTr := by cases frame <;> first | rfl | cases htype
    exact ⟨_, rfl, rfl⟩
  | indicateConnectivity =>
    obtain rfl : frame = .usbConn := by cases frame <;> first | rfl | cases htype
    exact ⟨_, rfl, rfl⟩
  | switchToCustom =>
    obtain rfl : frame = .switch := by cases frame <;> first | rfl | cases htype
    exact ⟨_, rfl, rfl⟩
  | getUSBDeviceInfo =>
    cases frame with
    | usbInfo type version id =>
      exact ⟨_, rfl, congrArg (Except.map _) (getParsedDeviceInfo_eq type version id)⟩
    | _ => cases htype
  | getStatus =>
    cases frame with
    | spiStat status => exact ⟨_, rfl, congrArg (Except.map _) (getParsedSPIStatus_statusOf status)⟩
    | _ => cases htype
  | sendData data =>
    cases frame with
    | dataSend response => exact ⟨_, rfl, congrArg (Except.map _) (getParsedDSResponse_eq response)⟩
    | _ => cases htype
  | enterProgrammingMode =>
    cases frame with
    | modeProgram response =>
      exact ⟨_, rfl, congrArg (Except.map _) (getParsedPEResponse_eq response)⟩
    | _ => cases htype
  | terminateProgrammingMode =>
    cases frame with
    | modeNormal response =>
      exact ⟨_, rfl, congrArg (Except.map _) (getParsedPTResponse_eq response)⟩
    | _ => cases htype
  | getTRModuleInfo | upload | download => exact hop.elim

/-! ## What the device sends -/

/-- The bytes of the command of a call. -/
def Operation.wire (op : Operation) : UString :=
  match op.command with
  | .ok cmd => cmd.wire
  | .error _ => []

theorem Operation.Ordinary.command {op : Operation} (hop : op.Ordinary) :
    ∃ cmd, op.command = .ok cmd ∧ commandText cmd = .ok op.wire := by
  cases op with
  | sendData data =>
    have hfits : ¬ (Command.mk .msgDataSend data).TooLarge := fun h => Nat.not_lt.mpr hop h.2
    have hcmd : (Command.mk .msgDataSend data).Constructible := trivial
    exact ⟨_, rfl, by rw [commandText_eq hcmd, if_neg hfits]; rfl⟩
  | getTRModuleInfo | upload | download => exact hop.elim
  | _ => exact ⟨_, rfl, rfl⟩

theorem Operation.Ordinary.wire_ne_nil {op : Operation} (hop : op.Ordinary) : op.wire ≠ [] := by
  obtain ⟨cmd, -, htext⟩ := hop.command
  obtain ⟨body, hbody⟩ := commandText_ends htext
  simp [hbody]

/-- The responses among the frames that the device sends. -/
def responsesOf (sents : List SentFrame) : List Frame :=
  (sents.filter (!isAsync ·)).map (·.frame)

/-- The payload of an asynchronous message. -/
def payloadOf (sent : SentFrame) : Option UString :=
  match sent.frame with
  | .async payload => some payload.data
  | _ => none

/-- The frame answers the call behind those that have been answered: that call
has been made, its command has been written as a whole, and the frame has its
type. -/
def AnswersNext (calls : List Operation) (portOutput : UString) (answered : Nat)
    (frame : Frame) : Prop :=
  ∃ op ∈ calls[answered]?, frame.msgType = op.msgType ∧
    (calls.take (answered + 1)).flatMap Operation.wire <+: portOutput

instance (calls : List Operation) (portOutput : UString) (answered : Nat) :
    DecidablePred (AnswersNext calls portOutput answered) := fun frame =>
  inferInstanceAs (Decidable (∃ op ∈ calls[answered]?, frame.msgType = op.msgType ∧
    (calls.take (answered + 1)).flatMap Operation.wire <+: portOutput))

/-- What the device may send next: an asynchronous message that is not empty,
or the response to a call that has none yet. -/
def DeviceSends (calls : List Operation) (portOutput : UString) (sents : List SentFrame)
    (sent : SentFrame) : Prop :=
  if isAsync sent then sent.frame.Sized
  else AnswersNext calls portOutput (responsesOf sents).length sent.frame

instance (calls : List Operation) (portOutput : UString) (sents : List SentFrame) :
    DecidablePred (DeviceSends calls portOutput sents) := fun sent =>
  inferInstanceAs (Decidable (if isAsync sent then sent.frame.Sized
    else AnswersNext calls portOutput (responsesOf sents).length sent.frame))

/-- What the client does when the library calls succeed and no wait runs out of
time. -/
def ClientAction.Regular : ClientAction → Prop
  | .call op => op.Ordinary
  | .send (.written _) | .wait .signalled | .check | .answer => True
  | _ => False

instance : DecidablePred ClientAction.Regular
  | .call op => inferInstanceAs (Decidable op.Ordinary)
  | .send (.written _) | .wait .signalled | .check | .answer => inferInstanceAs (Decidable True)
  | .send .selectFailed | .send .selectTimedOut | .send .writeFailed | .wait .waitFailed
  | .wait .timedOut | .wait .readFailed | .writeFile _ => inferInstanceAs (Decidable False)

/-! ## The machine -/

structure Exchange where
  impl : CDCImplPrivate
  client : Client
  /-- The frames that have been dispatched. -/
  done : List SentFrame
  /-- The frames that have been sent and not been dispatched. -/
  pending : List SentFrame
  /-- A response has been stored, and is to be signalled. -/
  signalling : Bool

inductive ExchangeAction where
  | client (action : ClientAction)
  | transmit (sent : SentFrame)
  | parse (last : ParseResult)
  | store
  | signal

/-- What dispatching a frame does, but for the signal. -/
def storeEffects : Frame → List Effect
  | .async payload =>
    [.dispatched (Frame.async payload).message, .listenerCalled payload.data]
  | frame => [.dispatched frame.message, .responseStored frame.message]

def storeFrame (self : CDCImplPrivate) (sent : SentFrame) : CDCImplPrivate :=
  { self with
    log := self.log ++ storeEffects sent.frame
    lastResponse := if isAsync sent then self.lastResponse else sent.frame.message }

def Exchange.start (msgParser : CDCMessageParserPrivate) : Exchange where
  impl := { CDCImplPrivate.init msgParser with asyncListener := true }
  client := .new
  done := []
  pending := []
  signalling := false

def Exchange.step (s : Exchange) : ExchangeAction → Option Exchange
  | .client action =>
    if action.Regular then
      (s.client.step .linux s.impl action).map fun (impl, client) => { s with impl, client }
    else none
  | .transmit sent =>
    if DeviceSends s.client.calls s.impl.portOutput (s.done ++ s.pending) sent then
      some { s with pending := s.pending ++ [sent] }
    else none
  | .parse last => some { s with impl := withParse s.impl last }
  | .store =>
    match s.signalling, s.pending with
    | false, sent :: pending => some { s with
        impl := storeFrame s.impl sent, done := s.done ++ [sent], pending
        signalling := !isAsync sent }
    | _, _ => none
  | .signal =>
    match s.signalling, s.impl.setMyEvent .linux with
    | true, (.ok (), impl) => some { s with impl, signalling := false }
    | _, _ => none

def exchange : Machine Exchange ExchangeAction := ⟨Exchange.step⟩

/-! ## The invariant -/

/-- How many responses to the call in progress the client has taken. -/
def ClientPhase.taken : ClientPhase → Nat
  | .idle | .sending _ _ _ | .writing _ _ | .waiting _ _ => 0
  | .checking _ _ | .answering _ _ => 1

/-- How many commands of the call in progress have been written as a whole. -/
def ClientPhase.written : ClientPhase → Nat
  | .idle | .sending _ _ _ => 0
  | .writing _ _ | .waiting _ _ | .checking _ _ | .answering _ _ => 1

/-- What is left to write of the command of the call in progress. -/
def ClientPhase.unsent : ClientPhase → UString
  | .sending _ _ dataToWrite => dataToWrite
  | _ => []

/-- The payloads that the listener has been called with. -/
def listenerCalls (effects : List Effect) : List UString :=
  effects.filterMap fun
    | .listenerCalled userData => some userData
    | _ => none

/-- The response `k` is that of the call `k`, and the result of that call is
what it encodes. -/
def Answered (calls : List Operation) (responses : List Frame) (k : Nat)
    (result : Except CdcException Answer) : Prop :=
  ∃ op frame answer, calls[k]? = some op ∧ responses[k]? = some frame ∧
    op.encoded frame = some answer ∧ result = .ok answer

structure Exchange.Good (s : Exchange) : Prop where
  reception : s.impl.receptionStopped = false
  writes : s.impl.eventWrites = []
  listener : s.impl.asyncListener = true
  consistent : s.client.Consistent
  ordinary : ∀ op ∈ s.client.calls, op.Ordinary
  output : s.impl.portOutput ++ s.client.phase.unsent = s.client.calls.flatMap Operation.wire
  unsent : ∀ op cmd dataToWrite, s.client.phase = .sending op cmd dataToWrite → dataToWrite ≠ []
  counted : s.impl.newMsgEvent + s.signalling.toNat + s.client.results.length +
    s.client.phase.taken = (responsesOf s.done).length
  answered : (responsesOf (s.done ++ s.pending)).length ≤
    s.client.results.length + s.client.phase.written
  types : ∀ (k : Nat) (op : Operation) (frame : Frame), s.client.calls[k]? = some op →
    (responsesOf (s.done ++ s.pending))[k]? = some frame → frame.msgType = op.msgType
  last : ∀ frame, (responsesOf s.done).getLast? = some frame → s.impl.lastResponse = frame.message
  sized : ∀ sent ∈ s.pending, sent.frame.Sized
  results : ∀ k result, s.client.results[k]? = some result →
    Answered s.client.calls (responsesOf (s.done ++ s.pending)) k result
  dispatched : dispatchedMessages s.impl.log = s.done.map (·.frame.message)
  listened : listenerCalls s.impl.log = s.done.filterMap payloadOf

theorem Exchange.good_start (msgParser : CDCMessageParserPrivate) :
    (Exchange.start msgParser).Good where
  reception := rfl
  writes := rfl
  listener := rfl
  consistent := Client.consistent_new
  ordinary := by simp [start, Client.new]
  output := rfl
  unsent := nofun
  counted := rfl
  answered := Nat.le_refl _
  types := nofun
  last := nofun
  sized := nofun
  results := nofun
  dispatched := rfl
  listened := rfl

/-! ## What the device and the reader thread keep -/

theorem responsesOf_append (sents sents' : List SentFrame) :
    responsesOf (sents ++ sents') = responsesOf sents ++ responsesOf sents' := by
  simp [responsesOf]

theorem responsesOf_async {sent : SentFrame} (h : isAsync sent = true) :
    responsesOf [sent] = [] := by
  simp [responsesOf, h]

theorem responsesOf_response {sent : SentFrame} (h : isAsync sent = false) :
    responsesOf [sent] = [sent.frame] := by
  simp [responsesOf, h]

private theorem getElem?_append_some {α : Type} {l : List α} {k : Nat} {a : α} (h : l[k]? = some a)
    (l' : List α) : (l ++ l')[k]? = some a := by
  rw [List.getElem?_append_left (List.getElem?_eq_some_iff.mp h).1, h]

/-- An answer stands when more calls and responses come. -/
theorem Answered.append {calls : List Operation} {responses : List Frame} {k : Nat}
    {result : Except CdcException Answer} (h : Answered calls responses k result)
    (calls' : List Operation) (responses' : List Frame) :
    Answered (calls ++ calls') (responses ++ responses') k result := by
  obtain ⟨op, frame, answer, hop, hframe, hencoded, hresult⟩ := h
  exact ⟨op, frame, answer, getElem?_append_some hop calls', getElem?_append_some hframe responses',
    hencoded, hresult⟩

namespace Exchange.Good

variable {s s' : Exchange}

/-- How many calls there are. -/
theorem calls_length (hs : s.Good) : s.client.calls.length =
    s.client.results.length + (s.client.phase.current.map Prod.fst).toList.length := by
  obtain ⟨done, hcalls, hlen⟩ := hs.consistent.calls
  rw [hcalls, List.length_append, hlen]

/-- A command that the device has received as a whole has been written as a
whole. -/
theorem received (hs : s.Good) {k : Nat} (hk : k < s.client.calls.length)
    (hreceived : (s.client.calls.take (k + 1)).flatMap Operation.wire <+: s.impl.portOutput) :
    k + 1 ≤ s.client.results.length + s.client.phase.written := by
  have hcalls := hs.calls_length
  cases hphase : s.client.phase with
  | idle =>
    simp [hphase, ClientPhase.current] at hcalls
    omega
  | sending op cmd dataToWrite =>
    simp [hphase, ClientPhase.current] at hcalls
    -- the last command has not been written, so it is not among those received
    by_contra hlate
    have hall : s.client.calls.take (k + 1) = s.client.calls :=
      List.take_of_length_le (by simp only [ClientPhase.written] at hlate; omega)
    have houtput := hs.output
    rw [hphase, ClientPhase.unsent] at houtput
    rw [hall, ← houtput] at hreceived
    have hlen := hreceived.length_le
    rw [List.length_append] at hlen
    exact hs.unsent op cmd dataToWrite hphase (List.length_eq_zero_iff.mp (by omega))
  | writing op cmd | waiting op cmd | checking op cmd | answering op cmd =>
    simp [hphase, ClientPhase.current] at hcalls
    simp only [ClientPhase.written]
    omega

/-- A response that the device sends is that of the next call. -/
theorem transmit_response (hs : s.Good) {sent : SentFrame} (hasync : isAsync sent = false)
    (hnext : AnswersNext s.client.calls s.impl.portOutput
      (responsesOf (s.done ++ s.pending)).length sent.frame) :
    ({ s with pending := s.pending ++ [sent] } : Exchange).Good := by
  obtain ⟨op, hop, htype, hreceived⟩ := hnext
  have hop := Option.mem_def.mp hop
  have hresponses : responsesOf (s.done ++ (s.pending ++ [sent])) =
      responsesOf (s.done ++ s.pending) ++ [sent.frame] := by
    rw [← List.append_assoc, responsesOf_append, responsesOf_response hasync]
  refine { hs with answered := ?_, types := ?_, sized := ?_, results := ?_ }
  · rw [hresponses, List.length_append, List.length_singleton]
    exact hs.received (List.getElem?_eq_some_iff.mp hop).1 hreceived
  · intro k op' frame hop' hframe
    rw [hresponses, List.getElem?_append] at hframe
    split_ifs at hframe with hk
    · exact hs.types k op' frame hop' hframe
    · rw [List.getElem?_singleton] at hframe
      split_ifs at hframe with hlast
      obtain rfl : k = (responsesOf (s.done ++ s.pending)).length := by omega
      rw [← Option.some.inj hframe, htype, Option.some.inj (hop.symm.trans hop')]
  · intro sent' hmem
    rcases List.mem_append.mp hmem with hmem | hmem
    · exact hs.sized sent' hmem
    · rw [List.mem_singleton.mp hmem]
      obtain ⟨frame, swapped⟩ := sent
      cases frame with
      | async payload => exact absurd hasync (by simp [isAsync, Frame.msgType])
      | _ => trivial
  · intro k result hk
    have hanswer := (hs.results k result hk).append [] [sent.frame]
    rwa [List.append_nil, ← hresponses] at hanswer

/-- An asynchronous message is no response. -/
theorem transmit_async (hs : s.Good) {sent : SentFrame} (hasync : isAsync sent = true)
    (hsized : sent.frame.Sized) :
    ({ s with pending := s.pending ++ [sent] } : Exchange).Good := by
  have hresponses : responsesOf (s.done ++ (s.pending ++ [sent])) =
      responsesOf (s.done ++ s.pending) := by
    rw [← List.append_assoc, responsesOf_append, responsesOf_async hasync, List.append_nil]
  refine { hs with answered := ?_, types := ?_, sized := ?_, results := ?_ }
  · rw [hresponses]
    exact hs.answered
  · rw [hresponses]
    exact hs.types
  · intro sent' hmem
    rcases List.mem_append.mp hmem with hmem | hmem
    · exact hs.sized sent' hmem
    · rwa [List.mem_singleton.mp hmem]
  · rw [hresponses]
    exact hs.results

theorem parse (hs : s.Good) (last : ParseResult) :
    ({ s with impl := withParse s.impl last } : Exchange).Good :=
  { hs with }

/-- Storing a frame moves it to the frames that have been dispatched, and leaves
a response to be signalled. -/
theorem store (hs : s.Good) {sent : SentFrame} {pending : List SentFrame}
    (hsignalling : s.signalling = false) (hpending : s.pending = sent :: pending) :
    ({ s with
        impl := storeFrame s.impl sent, done := s.done ++ [sent], pending
        signalling := !isAsync sent } : Exchange).Good := by
  have hall : s.done ++ [sent] ++ pending = s.done ++ s.pending := by rw [hpending]; simp
  have hcounted := hs.counted
  rw [hsignalling] at hcounted
  refine { hs with
    counted := ?_, answered := ?_, types := ?_, last := ?_, sized := ?_, results := ?_
    dispatched := ?_, listened := ?_ }
  · rw [responsesOf_append]
    cases hasync : isAsync sent with
    | true => simpa [responsesOf_async hasync, storeFrame] using hcounted
    | false =>
      simp [responsesOf_response hasync, ← hcounted, storeFrame]
      omega
  · rw [hall]
    exact hs.answered
  · rw [hall]
    exact hs.types
  · intro frame hframe
    rw [responsesOf_append] at hframe
    cases hasync : isAsync sent with
    | true =>
      rw [responsesOf_async hasync, List.append_nil] at hframe
      simpa [storeFrame, hasync] using hs.last frame hframe
    | false =>
      rw [responsesOf_response hasync, List.getLast?_concat] at hframe
      simp [storeFrame, hasync, ← Option.some.inj hframe]
  · intro sent' hmem
    exact hs.sized sent' (by rw [hpending]; exact List.mem_cons_of_mem sent hmem)
  · rw [hall]
    exact hs.results
  · rw [List.map_append, ← hs.dispatched, storeFrame, dispatchedMessages, List.filterMap_append]
    obtain ⟨frame, swapped⟩ := sent
    cases frame <;> rfl
  · rw [List.filterMap_append, ← hs.listened, storeFrame, listenerCalls, List.filterMap_append]
    obtain ⟨frame, swapped⟩ := sent
    cases frame <;> rfl

theorem signal (hs : s.Good) (hsignalling : s.signalling = true) :
    ({ s with
        impl := { s.impl with newMsgEvent := s.impl.newMsgEvent + 1 }.emit .newMsgSignalled
        signalling := false } : Exchange).Good := by
  have hcounted := hs.counted
  rw [hsignalling] at hcounted
  refine { hs with counted := ?_, dispatched := ?_, listened := ?_ }
  · rw [← hcounted]
    simp [CDCImplPrivate.emit]
  · simpa [CDCImplPrivate.emit, dispatchedMessages] using hs.dispatched
  · simpa [CDCImplPrivate.emit, listenerCalls] using hs.listened

/-! ## What the client keeps -/

/-- A response that the client has taken is that of its call. -/
theorem response (hs : s.Good) {op : Operation} {cmd : Command}
    (hcurrent : s.client.phase.current = some (op, cmd)) (htaken : s.client.phase.taken = 1) :
    ∃ frame, s.client.calls[s.client.results.length]? = some op ∧
      (responsesOf (s.done ++ s.pending))[s.client.results.length]? = some frame ∧
      frame.msgType = op.msgType ∧ s.impl.lastResponse = frame.message := by
  obtain ⟨done, hcalls, hlen⟩ := hs.consistent.calls
  have hop : s.client.calls[s.client.results.length]? = some op := by
    rw [hcalls, hcurrent, hlen]
    simp
  have hcounted := hs.counted
  have hanswered := hs.answered
  have hwritten : s.client.phase.written ≤ 1 := by
    cases s.client.phase <;> simp [ClientPhase.written]
  rw [responsesOf_append, List.length_append] at hanswered
  -- nothing is pending, so the last response dispatched is the last one sent
  have hpending : responsesOf s.pending = [] := List.length_eq_zero_iff.mp (by omega)
  have hlength : (responsesOf s.done).length = s.client.results.length + 1 := by omega
  obtain ⟨init, frame, hinit⟩ := (List.eq_nil_or_concat' (responsesOf s.done)).resolve_left
    (by intro hnil; simp [hnil] at hlength)
  have hframe : (responsesOf (s.done ++ s.pending))[s.client.results.length]? = some frame := by
    have hinitLength : init.length = s.client.results.length := by
      rw [hinit, List.length_append, List.length_singleton] at hlength
      omega
    rw [responsesOf_append, hpending, List.append_nil, hinit, ← hinitLength]
    simp
  refine ⟨frame, hop, hframe, hs.types _ op frame hop hframe, hs.last frame ?_⟩
  rw [hinit, List.getLast?_concat]

/-- A call begins. -/
theorem call (hs : s.Good) {op : Operation} {cmd : Command} {buffer : UString} {bufferLen : Nat}
    (hop : op.Ordinary) (hphase : s.client.phase = .idle) (hcommand : op.command = .ok cmd) :
    ({ s with
        impl := { s.impl with m_transmitBuffer := buffer, m_transmitBufferLen := bufferLen }
        client := { s.client with
          calls := s.client.calls ++ [op]
          phase := .sending op cmd op.wire } } : Exchange).Good := by
  have houtput := hs.output
  have hcounted := hs.counted
  have hanswered := hs.answered
  have hcalls := hs.calls_length
  rw [hphase] at houtput hcounted hanswered hcalls
  refine { hs with
    consistent := hs.consistent.begins hphase rfl hcommand, ordinary := ?_, output := ?_
    unsent := ?_, counted := hcounted, answered := hanswered, types := ?_, results := ?_ }
  · intro op' hmem
    rcases List.mem_append.mp hmem with hmem | hmem
    · exact hs.ordinary op' hmem
    · rwa [List.mem_singleton.mp hmem]
  · simp only [ClientPhase.unsent, List.append_nil] at houtput
    simp [ClientPhase.unsent, houtput]
  · intro op' cmd' dataToWrite h
    cases h
    exact hop.wire_ne_nil
  · intro k op' frame hop' hframe
    have hk : k < (responsesOf (s.done ++ s.pending)).length :=
      (List.getElem?_eq_some_iff.mp hframe).1
    simp only [ClientPhase.current, ClientPhase.written, Option.map_none, Option.toList_none,
      List.length_nil] at hcalls hanswered
    rw [List.getElem?_append_left (by omega)] at hop'
    exact hs.types k op' frame hop' hframe
  · intro k result hk
    have hanswer := (hs.results k result hk).append [op] []
    rwa [List.append_nil] at hanswer

/-- A write moves bytes from what is left to what has been written. -/
theorem written (hs : s.Good) {op : Operation} {cmd : Command} {dataToWrite : UString}
    (hphase : s.client.phase = .sending op cmd dataToWrite) (writeResult : Nat) :
    ({ s with
        impl := { s.impl with
          portOutput := s.impl.portOutput ++ dataToWrite.take writeResult }
        client := { s.client with
          phase := sendLoop op cmd (dataToWrite.drop writeResult) } } : Exchange).Good := by
  have houtput := hs.output
  have hcounted := hs.counted
  have hanswered := hs.answered
  rw [hphase] at houtput hcounted hanswered
  have hunsent : (sendLoop op cmd (dataToWrite.drop writeResult)).unsent =
      dataToWrite.drop writeResult := by
    unfold sendLoop
    split_ifs with hnil
    · rw [hnil]
      rfl
    · rfl
  have htaken : (sendLoop op cmd (dataToWrite.drop writeResult)).taken = 0 := by
    unfold sendLoop
    split_ifs <;> rfl
  refine { hs with
    consistent := hs.consistent.goesOn (by rw [hphase, current_sendLoop]; rfl)
    output := ?_, unsent := ?_, counted := ?_, answered := Nat.le_add_right_of_le hanswered }
  · rw [hunsent, List.append_assoc, List.take_append_drop]
    exact houtput
  · intro op' cmd' rest h
    simp only [sendLoop] at h
    split_ifs at h with hnil
    cases h
    exact hnil
  · rw [htaken]
    exact hcounted

/-- The event reports one response, that of the call in progress. -/
theorem signalled (hs : s.Good) {op : Operation} {cmd : Command}
    (hphase : s.client.phase = .waiting op cmd) (hevent : 0 < s.impl.newMsgEvent) :
    ({ s with
        impl := s.impl.consumeMyEvent .linux
        client := { s.client with phase := .checking op cmd } } : Exchange).Good := by
  have houtput := hs.output
  have hcounted := hs.counted
  have hanswered := hs.answered
  rw [hphase] at houtput hcounted hanswered
  refine { hs with
    consistent := hs.consistent.goesOn (by rw [hphase]; rfl), output := houtput, unsent := nofun
    counted := ?_, answered := hanswered }
  rw [responsesOf_append, List.length_append] at hanswered
  simp only [ClientPhase.taken, ClientPhase.written, CDCImplPrivate.consumeMyEvent] at *
  omega

theorem checked (hs : s.Good) {op : Operation} {cmd : Command}
    (hphase : s.client.phase = .checking op cmd) :
    ({ s with client := { s.client with phase := .answering op cmd } } : Exchange).Good := by
  have houtput := hs.output
  have hcounted := hs.counted
  have hanswered := hs.answered
  rw [hphase] at houtput hcounted hanswered
  exact { hs with
    consistent := hs.consistent.goesOn (by rw [hphase]; rfl), output := houtput, unsent := nofun
    counted := hcounted, answered := hanswered }

/-- The call in progress ends with what its response encodes. -/
theorem answers (hs : s.Good) {op : Operation} {cmd : Command}
    (hphase : s.client.phase = .answering op cmd) :
    ({ s with client := s.client.finish (op.answer s.impl.lastResponse) } : Exchange).Good := by
  have houtput := hs.output
  have hcounted := hs.counted
  have hanswered := hs.answered
  rw [hphase] at houtput hcounted hanswered
  have hcurrent : s.client.phase.current = some (op, cmd) := by
    rw [hphase]
    rfl
  obtain ⟨frame, hop, hframe, htype, hresponse⟩ := hs.response hcurrent (by rw [hphase]; rfl)
  obtain ⟨answer, hencoded, hanswer⟩ :=
    answer_encoded (hs.ordinary op (List.mem_of_getElem? hop)) htype
  refine { hs with
    consistent := hs.consistent.finish hcurrent _, output := houtput, unsent := nofun
    counted := ?_, answered := ?_, results := ?_ }
  · simp only [Client.finish, ClientPhase.taken, List.length_append, List.length_singleton] at *
    omega
  · simp only [Client.finish, ClientPhase.written, List.length_append, List.length_singleton] at *
    omega
  · intro k result hk
    rw [Client.finish, List.getElem?_append] at hk
    split_ifs at hk with hearlier
    · exact hs.results k result hk
    · rw [List.getElem?_singleton] at hk
      split_ifs at hk with hlast
      obtain rfl : k = s.client.results.length := by omega
      exact ⟨op, frame, answer, hop, hframe, hencoded,
        by rw [← Option.some.inj hk, hresponse, hanswer]⟩

/-- A step of the client, when the library calls succeed. -/
theorem client (hs : s.Good) {action : ClientAction} {impl : CDCImplPrivate} {client : Client}
    (hregular : action.Regular)
    (hsteps : Client.Steps s.impl s.client .linux action impl client) :
    ({ s with impl, client } : Exchange).Good := by
  cases hsteps with
  | @refused _ op e hphase herror =>
    obtain ⟨cmd, hcommand, htext⟩ := Operation.Ordinary.command hregular
    obtain ⟨buffer, bufferLen, hstart⟩ := startCall_linux hs.reception hcommand htext
    cases (Prod.mk.inj (herror.symm.trans hstart)).1
  | @started op cmd text buffer bufferLen hphase hreception hcommand htext =>
    obtain ⟨cmd', hcommand', htext'⟩ := Operation.Ordinary.command hregular
    obtain rfl := Except.ok.inj (hcommand.symm.trans hcommand')
    obtain rfl := Except.ok.inj (htext.symm.trans htext')
    exact hs.call hregular hphase hcommand
  | @written _ op cmd dataToWrite writeResult hphase hwritten => exact hs.written hphase writeResult
  | signalled hphase hevent => exact hs.signalled hphase hevent
  | accepted hphase hcheck => exact hs.checked hphase
  | @rejected _ op cmd e hphase hcheck =>
    have hcurrent : s.client.phase.current = some (op, cmd) := by
      rw [hphase]
      rfl
    obtain ⟨frame, hop, -, htype, hresponse⟩ := hs.response hcurrent (by rw [hphase]; rfl)
    have hcommand := hs.consistent.command op cmd hcurrent
    have haccepted : checkResponse cmd s.impl.lastResponse = .ok () := by
      rw [checkResponse_ok, hresponse, command_msgType hcommand]
      exact .inl htype
    cases haccepted.symm.trans hcheck
  | answered hphase => exact hs.answers hphase
  | @sendFailed _ op cmd dataToWrite outcome e hphase hfailed =>
    cases outcome with
    | written writeResult => exact absurd rfl (hfailed writeResult)
    | _ => exact hregular.elim
  | @waitFailed _ op cmd outcome e hphase hfailed =>
    cases outcome with
    | signalled => exact absurd rfl hfailed
    | _ => exact hregular.elim
  | wrote | writeFailed => exact hregular.elim

/-- The invariant is kept by every step. -/
theorem step {action : ExchangeAction} (hs : s.Good) (hstep : exchange.step s action = some s') :
    s'.Good := by
  cases action with
  | client action =>
    simp only [exchange, Exchange.step] at hstep
    split_ifs at hstep with hregular
    obtain ⟨⟨impl, client⟩, hclient, rfl⟩ := Option.map_eq_some_iff.mp hstep
    exact hs.client hregular (Client.step_steps hclient)
  | transmit sent =>
    simp only [exchange, Exchange.step, DeviceSends] at hstep
    split_ifs at hstep with hasync hsends hsends
    · obtain rfl := Option.some.inj hstep
      exact hs.transmit_async hasync hsends
    · obtain rfl := Option.some.inj hstep
      exact hs.transmit_response (by simpa using hasync) hsends
  | parse last =>
    obtain rfl := Option.some.inj hstep
    exact hs.parse last
  | store =>
    simp only [exchange, Exchange.step] at hstep
    split at hstep
    · next sent pending hsignalling hpending =>
      obtain rfl := Option.some.inj hstep
      exact hs.store hsignalling hpending
    · cases hstep
  | signal =>
    simp only [exchange, Exchange.step, setMyEvent_eq .linux hs.writes] at hstep
    split at hstep
    · next hsignalling hevent =>
      obtain rfl := Option.some.inj hstep
      obtain rfl := (Prod.mk.inj hevent).2
      exact hs.signal hsignalling
    · cases hstep

end Exchange.Good

end Clibcdc
