import Clibcdc.Types

/-!
# The response frames of the protocol

What the device sends, stated without the parser.  A frame is built from what
it carries, so that a frame whose fields break the format cannot be written
down; `Frame.bytes` spells it.

* A field of a USB device info is a string whose bytes all belong to the
  field.  None of them ends the field.
* The payload of an asynchronous message has a length that fits in one byte.
* The replies that begin with `<IT:` and `<PM:` are not frames here: they have
  no length and no end mark of their own, so their extent is a matter of the
  buffer they arrive in.  `IsOpen` names the buffers that begin with one, and
  `Reply` adds them to the frames.
* The firmware sometimes sends `>` for the leading `<`.  `SentFrame` is a
  frame with the head it was sent with.
-/

namespace Clibcdc

/-! ## The carried data -/

/-- A string of bytes that satisfy `check`. -/
structure Field (check : Byte → Bool) where
  text : UString
  valid : ∀ b ∈ text, check b = true

/-- A field with one more byte. -/
def Field.push {check : Byte → Bool} (field : Field check) (b : Byte) (hb : check b = true) :
    Field check where
  text := field.text ++ [b]
  valid := by
    intro c hc
    rcases List.mem_append.mp hc with hc | hc
    · exact field.valid c hc
    · rwa [List.mem_singleton.mp hc]

def Field.empty (check : Byte → Bool) : Field check := ⟨[], by simp⟩

def isTypeByte (b : Byte) : Bool := b ≠ chr '#'

def isVersionByte (b : Byte) : Bool := (ascii "0123456789.").contains b

def isIdByte (b : Byte) : Bool := (ascii "0123456789ABCDEFGH").contains b

/-- The payload of an asynchronous message. -/
structure Payload where
  data : UString
  short : data.length ≤ 255

/-- The byte that announces the length of a payload. -/
def Payload.lengthByte (payload : Payload) : Byte := payload.data.length.toUInt8

theorem Payload.lengthByte_toNat (payload : Payload) :
    payload.lengthByte.toNat = payload.data.length := by
  have hlen := payload.short
  simp only [lengthByte, UInt8.toNat_ofNat']
  omega

def DSResponse.text : DSResponse → UString
  | .ok => ascii "OK"
  | .err => ascii "ERR"
  | .busy => ascii "BUSY"

def PTEResponse.text : PTEResponse → UString
  | .ok => ascii "OK"
  | .err1 => ascii "ERR1"

def PMResponse.text : PMResponse → UString
  | .ok => ascii "OK"
  | .err2 => ascii "ERR2"
  | .err3 => ascii "ERR3"
  | .err4 => ascii "ERR4"
  | .err5 => ascii "ERR5"
  | .err6 => ascii "ERR6"
  | .err7 => ascii "ERR7"
  | .busy => ascii "BUSY"

/-! ## Frames -/

inductive Frame where
  | err | test | resUsb | resTr | usbConn | switch
  | spiStat (status : Byte)
  | dataSend (response : DSResponse)
  | modeProgram (response : PTEResponse)
  | modeNormal (response : PTEResponse)
  | usbInfo (type : Field isTypeByte) (version : Field isVersionByte) (id : Field isIdByte)
  | async (payload : Payload)

/-- What stands between the leading byte and the final carriage return. -/
def Frame.body : Frame → UString
  | .err => ascii "ERR"
  | .test => ascii "OK"
  | .resUsb => ascii "R:OK"
  | .resTr => ascii "RT:OK"
  | .usbConn => ascii "B:OK"
  | .switch => ascii "U:OK"
  | .spiStat status => ascii "S:" ++ [status]
  | .dataSend response => ascii "DS:" ++ response.text
  | .modeProgram response => ascii "PE:" ++ response.text
  | .modeNormal response => ascii "PT:" ++ response.text
  | .usbInfo type version id =>
    ascii "I:" ++ (type.text ++ chr '#' :: (version.text ++ chr '#' :: id.text))
  | .async payload => ascii "DR" ++ payload.lengthByte :: chr ':' :: payload.data

/-- The bytes of a frame. -/
def Frame.bytes (frame : Frame) : UString := chr '<' :: (frame.body ++ [cr])

def Frame.msgType : Frame → MessageType
  | .err => .msgError
  | .test => .msgTest
  | .resUsb => .msgResUsb
  | .resTr => .msgResTr
  | .usbConn => .msgUsbConn
  | .switch => .msgSwitch
  | .spiStat _ => .msgSpiStat
  | .dataSend _ => .msgDataSend
  | .modeProgram _ => .msgModeProgram
  | .modeNormal _ => .msgModeNormal
  | .usbInfo _ _ _ => .msgUsbInfo
  | .async _ => .msgAsync

/-- The message that a frame is dispatched as. -/
def Frame.message (frame : Frame) : ParsedMessage where
  message := frame.bytes
  parseResult := ⟨frame.msgType, .parseOk, frame.bytes.length - 1⟩

/-- An asynchronous message with an empty payload ends one byte too early for
`processAsynData`.  Every other frame is sized. -/
def Frame.Sized : Frame → Prop
  | .async payload => payload.data ≠ []
  | _ => True

instance : DecidablePred Frame.Sized
  | .async payload => inferInstanceAs (Decidable (payload.data ≠ []))
  | .err | .test | .resUsb | .resTr | .usbConn | .switch | .spiStat _ | .dataSend _
  | .modeProgram _ | .modeNormal _ | .usbInfo _ _ _ => inferInstanceAs (Decidable True)

theorem Frame.bytes_length (frame : Frame) : frame.bytes.length = frame.body.length + 2 := by
  simp [Frame.bytes]

theorem Frame.bytes_ne_nil (frame : Frame) : frame.bytes ≠ [] := by
  simp [Frame.bytes]

theorem usbInfo_bytes (type : Field isTypeByte) (version : Field isVersionByte)
    (id : Field isIdByte) (y : UString) :
    (Frame.usbInfo type version id).bytes ++ y = ascii "<I:" ++
      (type.text ++ chr '#' :: (version.text ++ chr '#' :: (id.text ++ cr :: y))) := by
  have hhead : ascii "<I:" = chr '<' :: ascii "I:" := rfl
  simp [Frame.bytes, Frame.body, hhead]

theorem async_bytes (payload : Payload) (y : UString) :
    (Frame.async payload).bytes ++ y =
      ascii "<DR" ++ payload.lengthByte :: chr ':' :: (payload.data ++ cr :: y) := by
  have hhead : ascii "<DR" = chr '<' :: ascii "DR" := rfl
  simp [Frame.bytes, Frame.body, hhead]

/-! ## What is not delimited by itself -/

/-- The buffer begins with the header of a reply whose extent the parser reads
off the size of the buffer. -/
def IsOpen (b : UString) : Prop := ascii "<IT:" <+: b ∨ ascii "<PM:" <+: b

instance : DecidablePred IsOpen := fun b =>
  inferInstanceAs (Decidable (ascii "<IT:" <+: b ∨ ascii "<PM:" <+: b))

theorem IsOpen.append {b : UString} (h : IsOpen b) (y : UString) : IsOpen (b ++ y) := by
  rcases h with h | h
  · exact .inl (h.trans (List.prefix_append b y))
  · exact .inr (h.trans (List.prefix_append b y))

/-- The module data of a `<IT:` reply: the standard or the extended block. -/
structure ModuleBlock where
  data : UString
  size : data.length = 16 ∨ data.length = 32

/-- Everything that the device answers with. -/
inductive Reply where
  | ofFrame (frame : Frame)
  | trInfo (block : ModuleBlock)
  | uploadResult (response : PMResponse)
  | downloadData (data : UString)

def Reply.bytes : Reply → UString
  | .ofFrame frame => frame.bytes
  | .trInfo block => ascii "<IT:" ++ block.data ++ [cr]
  | .uploadResult response => ascii "<PM:" ++ response.text ++ [cr]
  | .downloadData data => ascii "<PM:" ++ data ++ [cr]

def Reply.msgType : Reply → MessageType
  | .ofFrame frame => frame.msgType
  | .trInfo _ => .msgTrInfo
  | .uploadResult _ => .msgUploadDownload
  | .downloadData _ => .msgDownloadData

/-- The message that a reply is dispatched as. -/
def Reply.message (reply : Reply) : ParsedMessage where
  message := reply.bytes
  parseResult := ⟨reply.msgType, .parseOk, reply.bytes.length - 1⟩

theorem Reply.bytes_length_pos (reply : Reply) : 0 < reply.bytes.length := by
  cases reply with
  | ofFrame frame => simp [Reply.bytes, Frame.bytes]
  | trInfo block => simp only [Reply.bytes, List.length_append, List.length_singleton]; omega
  | uploadResult response =>
    simp only [Reply.bytes, List.length_append, List.length_singleton]; omega
  | downloadData data => simp only [Reply.bytes, List.length_append, List.length_singleton]; omega

theorem Reply.bytes_head (reply : Reply) : ∃ w, reply.bytes = chr '<' :: w := by
  cases reply <;> exact ⟨_, rfl⟩

/-- A reply ends with its carriage return. -/
theorem Reply.getLast_bytes (reply : Reply) : reply.bytes.getLast? = some cr := by
  cases reply with
  | ofFrame frame => exact List.getLast?_concat (l := chr '<' :: frame.body)
  | trInfo block => exact List.getLast?_concat
  | uploadResult response => exact List.getLast?_concat
  | downloadData data => exact List.getLast?_concat

/-! ## Frames as they are sent -/

/-- A frame, and whether its leading `<` is sent as `>`. -/
structure SentFrame where
  frame : Frame
  swapped : Bool

def SentFrame.head (sent : SentFrame) : Byte := if sent.swapped then chr '>' else chr '<'

def SentFrame.bytes (sent : SentFrame) : UString := sent.head :: (sent.frame.body ++ [cr])

theorem SentFrame.bytes_length (sent : SentFrame) :
    sent.bytes.length = sent.frame.bytes.length := by
  simp [SentFrame.bytes, Frame.bytes]

end Clibcdc
