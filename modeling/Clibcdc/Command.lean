import Clibcdc.Impl
import Clibcdc.Parser.Decoders

/-!
# Commands and the calls of the public interface

What the client thread does for a call of `CDCImpl`: it builds a command,
writes it to the port, waits for the event of a response, checks the type of
the last response and decodes it.

The functions here are the pieces of `processCommand` between which the reader
thread can run.  `Clibcdc.Client` puts them in order.

* What the calls of the operating system answer is an argument.  An event that
  is not signalled is never reported, which is a matter of the step that waits.
* An output parameter is a part of the answer of its call.
-/

namespace Clibcdc

open Clibcdc.Parser

/-! ## Commands -/

structure Command where
  msgType : MessageType
  data : UString
  deriving DecidableEq, Repr

/-- `messageHeaders`.  A type that has no entry reads as the empty header. -/
def messageHeaders : MessageType → UString
  | .msgTest => ascii "OK"
  | .msgResUsb => ascii "R"
  | .msgResTr => ascii "RT"
  | .msgUsbInfo => ascii "I"
  | .msgTrInfo => ascii "IT"
  | .msgUsbConn => ascii "B"
  | .msgSpiStat => ascii "S"
  | .msgDataSend => ascii "DS"
  | .msgSwitch => ascii "U"
  | .msgAsync => ascii "DR"
  | .msgModeNormal => ascii "PT"
  | .msgModeProgram => ascii "PE"
  | .msgUploadDownload => ascii "PM"
  | .msgDownloadData => ascii "PM"
  | .msgError => []

/-- `UCHAR_MAX`. -/
def ucharMax : Nat := 255

def dataTooLarge : CdcException := ⟨.sendException, "Data size too large"⟩

/-- The string that `commandToBuffer` builds. -/
def commandText (cmd : Command) : Except CdcException UString := do
  let tmpStr := ascii ">"
  let tmpStr := if cmd.msgType ≠ .msgTest then tmpStr ++ messageHeaders cmd.msgType else tmpStr
  let tmpStr ← if cmd.msgType = .msgDataSend then
      if cmd.data.length > ucharMax then throw dataTooLarge
      else pure (tmpStr ++ cmd.data.length.toUInt8 :: chr ':' :: cmd.data)
    else pure tmpStr
  let tmpStr ← if cmd.msgType = .msgUploadDownload ∨ cmd.msgType = .msgDownloadData then
      if cmd.data.length > ucharMax then throw dataTooLarge
      else pure (tmpStr ++ cmd.data)
    else pure tmpStr
  pure (tmpStr ++ [cr])

/-- `BuffCommand`: the transmit buffer, and how many of its bytes are the
command. -/
structure BuffCommand where
  cmd : UString
  len : Nat
  deriving DecidableEq, Repr

/-- The transmit buffer grows when it is too small, and never shrinks. -/
def commandToBuffer (self : CDCImplPrivate) (cmd : Command) :
    Except CdcException BuffCommand × CDCImplPrivate :=
  match commandText cmd with
  | .error e => (.error e, self)
  | .ok tmpStr =>
    let sz := tmpStr.length
    let self := if self.m_transmitBufferLen < sz then
        { self with m_transmitBuffer := List.replicate sz 0, m_transmitBufferLen := sz }
      else self
    let self := { self with m_transmitBuffer := tmpStr ++ self.m_transmitBuffer.drop sz }
    (.ok ⟨self.m_transmitBuffer, sz⟩, self)

/-! ## Sending on Linux -/

/-- What `selectEvents` and `write` answer in a round of `sendCommand`. -/
inductive SendOutcome where
  | selectFailed
  | selectTimedOut
  | writeFailed
  | written (writeResult : Nat)
  deriving DecidableEq, Repr

/-- A round of the loop of `sendCommand`: what is left to write. -/
def sendRound (self : CDCImplPrivate) (dataToWrite : UString) :
    SendOutcome → Except CdcException UString × CDCImplPrivate
  | .selectFailed => (.error ⟨.sendException, "Sending message failed with error "⟩, self)
  | .selectTimedOut => (.error ⟨.sendException, "Waiting for send timeouted"⟩, self)
  | .writeFailed => (.error ⟨.sendException, "Sending message failed with error "⟩, self)
  | .written writeResult =>
    (.ok (dataToWrite.drop writeResult),
      { self with portOutput := self.portOutput ++ dataToWrite.take writeResult })

/-! ## Sending on Windows -/

/-- How the calls of `sendCommand` after `resetMyEvent` end on Windows.
`completed` carries how many bytes the port has accepted, which the code does
not look at. -/
inductive WriteFileOutcome where
  | eventFailed
  | writeFailed
  | timedOut
  | waitFailed
  | resultFailed
  | completed (bytesWritten : Nat)
  deriving DecidableEq, Repr

/-- `sendCommand` of `CDCImpl_Win.cpp` behind `resetMyEvent`. -/
def writeFile (self : CDCImplPrivate) (cmd : Command) :
    WriteFileOutcome → Except CdcException Unit × CDCImplPrivate
  | .eventFailed =>
    (.error ⟨.sendException, "Creating send event failed with error "⟩, self)
  | outcome =>
    match commandToBuffer self cmd with
    | (.error e, self) => (.error e, self)
    | (.ok buffCmd, self) =>
      match outcome with
      | .timedOut => (.error ⟨.sendException, "Waiting for send timeouted"⟩, self)
      | .waitFailed | .resultFailed =>
        (.error ⟨.sendException, "Waiting for send failed with error "⟩, self)
      | .completed bytesWritten =>
        (.ok (), { self with
          portOutput := self.portOutput ++ (buffCmd.cmd.take buffCmd.len).take bytesWritten })
      | _ => (.error ⟨.sendException, "Sending message failed with error "⟩, self)

/-! ## Waiting -/

/-- How `waitForMyEvent` ends: the call that waits fails, or the time is up, or
the event is reported.  On Linux the `read` of the event can still fail. -/
inductive WaitOutcome where
  | waitFailed
  | timedOut
  | readFailed
  | signalled
  deriving DecidableEq, Repr

/-- `waitForMyEvent(newMsgEvent, TM_WAIT_RESP)`. -/
def waitForMyEvent (platform : Platform) (self : CDCImplPrivate) :
    WaitOutcome → Except CdcException Unit × CDCImplPrivate
  | .waitFailed =>
    (.error ⟨.receiveException, match platform with
      | .linux => "Waiting in selectEvents failed with error "
      | .windows => "WaitForSingleObject failed with error "⟩, self)
  | .timedOut =>
    (.error ⟨.receiveException, match platform with
      | .linux => "Waiting for event timeout"
      | .windows => "Waiting for event timeouted"⟩, self)
  | .readFailed => (.error ⟨.receiveException, "Waiting for response failed with error "⟩, self)
  | .signalled => (.ok (), self.consumeMyEvent platform)

/-! ## The check of the response -/

/-- What `processCommand` does first. -/
def checkReception (self : CDCImplPrivate) : Except CdcException Unit :=
  if self.receptionStopped then .error ⟨.sendException, "Reading is actually stopped"⟩
  else .ok ()

/-- What `processCommand` does last.  A command without data has the byte 0 for
its target. -/
def checkResponse (cmd : Command) (lastResponse : ParsedMessage) : Except CdcException Unit :=
  if lastResponse.parseResult.msgType ≠ cmd.msgType then
    if ¬ (cmd.msgType = .msgUploadDownload ∧ lastResponse.parseResult.msgType = .msgDownloadData ∧
        cmd.data.headD 0 &&& 0x80 = 0) then
      .error ⟨.receiveException, "Response has bad type."⟩
    else .ok ()
  else .ok ()

/-! ## The calls -/

/-- A call of the public interface that processes a command. -/
inductive Operation where
  | test | resetUSBDevice | resetTRModule | indicateConnectivity
  | getUSBDeviceInfo | getTRModuleInfo | getStatus
  | sendData (data : UString)
  | switchToCustom | enterProgrammingMode | terminateProgrammingMode
  | upload (target : Byte) (data : UString)
  | download (target : Byte) (inputData : UString)
  deriving DecidableEq, Repr

/-- What a call returns.  The output of a download is what it assigns to
`outputData`, if it assigns anything. -/
inductive Answer where
  | none
  | bool (value : Bool)
  | deviceInfo (info : DeviceInfo)
  | moduleInfo (info : Option ModuleInfo)
  | spiStatus (status : SPIStatus)
  | dsResponse (response : DSResponse)
  | pteResponse (response : PTEResponse)
  | pmResponse (response : PMResponse)
  | downloaded (response : PMResponse) (outputData : Option UString)
  deriving DecidableEq, Repr

/-- A byte that is written to a stream is the character of that code. -/
def byteText (b : Byte) : String := String.singleton (Char.ofNat b.toNat)

def verifyUpload (target : Byte) : Except CdcException Unit :=
  if target &&& 0x80 = 0 then
    .error ⟨.sendException, "Download target " ++ byteText target ++
      " is not valid target for upload operation!"⟩
  else .ok ()

def verifyDownload (target : Byte) : Except CdcException Unit :=
  if target &&& 0x80 ≠ 0 then
    .error ⟨.sendException, "Upload target " ++ byteText target ++
      " is not valid target for download operation!"⟩
  else .ok ()

namespace Operation

/-- The command that a call constructs. -/
def command : Operation → Except CdcException Command
  | test => .ok ⟨.msgTest, []⟩
  | resetUSBDevice => .ok ⟨.msgResUsb, []⟩
  | resetTRModule => .ok ⟨.msgResTr, []⟩
  | indicateConnectivity => .ok ⟨.msgUsbConn, []⟩
  | getUSBDeviceInfo => .ok ⟨.msgUsbInfo, []⟩
  | getTRModuleInfo => .ok ⟨.msgTrInfo, []⟩
  | getStatus => .ok ⟨.msgSpiStat, []⟩
  | sendData data => .ok ⟨.msgDataSend, data⟩
  | switchToCustom => .ok ⟨.msgSwitch, []⟩
  | enterProgrammingMode => .ok ⟨.msgModeProgram, []⟩
  | terminateProgrammingMode => .ok ⟨.msgModeNormal, []⟩
  | upload target data => (verifyUpload target).map fun _ => ⟨.msgUploadDownload, target :: data⟩
  | download target inputData =>
    (verifyDownload target).map fun _ => ⟨.msgUploadDownload, target :: inputData⟩

/-- The type of the command of a call. -/
def msgType : Operation → MessageType
  | test => .msgTest
  | resetUSBDevice => .msgResUsb
  | resetTRModule => .msgResTr
  | indicateConnectivity => .msgUsbConn
  | getUSBDeviceInfo => .msgUsbInfo
  | getTRModuleInfo => .msgTrInfo
  | getStatus => .msgSpiStat
  | sendData _ => .msgDataSend
  | switchToCustom => .msgSwitch
  | enterProgrammingMode => .msgModeProgram
  | terminateProgrammingMode => .msgModeNormal
  | upload _ _ | download _ _ => .msgUploadDownload

/-- What a call makes of the last response once its command is processed. -/
def answer (lastResponse : ParsedMessage) : Operation → Except CdcException Answer
  | test => .ok (.bool true)
  | resetUSBDevice | resetTRModule | indicateConnectivity | switchToCustom => .ok .none
  | getUSBDeviceInfo => (getParsedDeviceInfo lastResponse.message).map .deviceInfo
  | getTRModuleInfo => (getParsedModuleInfo lastResponse.message).map .moduleInfo
  | getStatus => (getParsedSPIStatus lastResponse.message).map .spiStatus
  | sendData _ => (getParsedDSResponse lastResponse.message).map .dsResponse
  | enterProgrammingMode => (getParsedPEResponse lastResponse.message).map .pteResponse
  | terminateProgrammingMode => (getParsedPTResponse lastResponse.message).map .pteResponse
  | upload _ _ => (getParsedPMResponse lastResponse.message).map .pmResponse
  | download _ _ =>
    if lastResponse.parseResult.msgType = .msgDownloadData then
      (getParsedPMData lastResponse.message).map fun data => .downloaded .ok (some data)
    else (getParsedPMResponse lastResponse.message).map fun response =>
      .downloaded response Option.none

end Operation

/-! ## What the check accepts -/

/-- The check accepts the type of the command, and download data where an
upload or download command has a target for download. -/
theorem checkResponse_ok {cmd : Command} {lastResponse : ParsedMessage} :
    checkResponse cmd lastResponse = .ok () ↔
      lastResponse.parseResult.msgType = cmd.msgType ∨
      (cmd.msgType = .msgUploadDownload ∧ lastResponse.parseResult.msgType = .msgDownloadData ∧
        cmd.data.headD 0 &&& 0x80 = 0) := by
  unfold checkResponse
  by_cases htype : lastResponse.parseResult.msgType = cmd.msgType
  · simp [htype]
  · by_cases hdownload : cmd.msgType = .msgUploadDownload ∧
        lastResponse.parseResult.msgType = .msgDownloadData ∧ cmd.data.headD 0 &&& 0x80 = 0
    · rw [if_pos htype, if_neg (not_not.mpr hdownload)]
      exact iff_of_true rfl (.inr hdownload)
    · rw [if_pos htype, if_pos hdownload]
      exact iff_of_false nofun (not_or.mpr ⟨htype, hdownload⟩)

theorem verifyUpload_ok {target : Byte} (h : verifyUpload target = .ok ()) :
    target &&& 0x80 ≠ 0 := by
  intro hbit
  rw [verifyUpload, if_pos hbit] at h
  cases h

/-- The command of an upload or a download begins with its target. -/
theorem upload_command {target : Byte} {data : UString} {cmd : Command}
    (h : (Operation.upload target data).command = .ok cmd) :
    verifyUpload target = .ok () ∧ cmd = ⟨.msgUploadDownload, target :: data⟩ := by
  cases hverify : verifyUpload target with
  | error e => simp [Operation.command, hverify, Except.map] at h
  | ok _ => exact ⟨rfl, by simpa [Operation.command, hverify, Except.map] using h.symm⟩

theorem download_command {target : Byte} {inputData : UString} {cmd : Command}
    (h : (Operation.download target inputData).command = .ok cmd) :
    verifyDownload target = .ok () ∧ cmd = ⟨.msgUploadDownload, target :: inputData⟩ := by
  cases hverify : verifyDownload target with
  | error e => simp [Operation.command, hverify, Except.map] at h
  | ok _ => exact ⟨rfl, by simpa [Operation.command, hverify, Except.map] using h.symm⟩

/-- What keeps a command from being made is the target that it names. -/
theorem command_error {op : Operation} {e : CdcException} (h : op.command = .error e) :
    e.identity = .sendException := by
  cases op with
  | upload target data =>
    simp only [Operation.command, verifyUpload] at h
    split_ifs at h
    · rw [← Except.error.inj h]
    · cases h
  | download target inputData =>
    simp only [Operation.command, verifyDownload] at h
    split_ifs at h
    · rw [← Except.error.inj h]
    · cases h
  | _ => cases h

theorem command_msgType {op : Operation} {cmd : Command} (h : op.command = .ok cmd) :
    cmd.msgType = op.msgType := by
  cases op with
  | upload target data => rw [(upload_command h).2, Operation.msgType]
  | download target inputData => rw [(download_command h).2, Operation.msgType]
  | _ => rw [← Except.ok.inj h, Operation.msgType]

/-- A call goes on with a response of its own type, or a download with download
data. -/
theorem accepted_cases {op : Operation} {cmd : Command} {lastResponse : ParsedMessage}
    (hcommand : op.command = .ok cmd) (hcheck : checkResponse cmd lastResponse = .ok ()) :
    lastResponse.parseResult.msgType = op.msgType ∨
      (∃ target inputData, op = .download target inputData) ∧
        lastResponse.parseResult.msgType = .msgDownloadData := by
  rcases checkResponse_ok.mp hcheck with htype | ⟨htype, hdownload, hbit⟩
  · exact .inl (htype.trans (command_msgType hcommand))
  · right
    refine ⟨?_, hdownload⟩
    cases op with
    | upload target data =>
      obtain ⟨hverify, rfl⟩ := upload_command hcommand
      exact absurd hbit (verifyUpload_ok hverify)
    | download target inputData => exact ⟨target, inputData, rfl⟩
    | _ => cases (command_msgType hcommand).symm.trans htype

/-! ## What a command is on the wire -/

/-- A command ends with its carriage return. -/
theorem commandText_ends {cmd : Command} {text : UString} (h : commandText cmd = .ok text) :
    ∃ body, text = body ++ [cr] := by
  unfold commandText at h
  split_ifs at h
  all_goals first
    | exact ⟨_, (Except.ok.inj h).symm⟩
    | cases h

/-- The bytes that `sendCommand` writes are the text of the command, whatever
the transmit buffer held before. -/
theorem commandToBuffer_ok (self : CDCImplPrivate) {cmd : Command} {text : UString}
    (h : commandText cmd = .ok text) :
    ∃ buffer bufferLen, commandToBuffer self cmd =
      (.ok ⟨buffer, text.length⟩,
        { self with m_transmitBuffer := buffer, m_transmitBufferLen := bufferLen }) ∧
      buffer.take text.length = text := by
  rw [commandToBuffer, h]
  by_cases hgrow : self.m_transmitBufferLen < text.length
  · exact ⟨_, _, by simp only [hgrow, if_true]; rfl, List.take_left⟩
  · exact ⟨_, _, by simp only [hgrow, if_false]; rfl, List.take_left⟩

end Clibcdc
