import Clibcdc.Reader.Dispatch

/-!
# The parser and the decoders agree

The transition table and the offset arithmetic of the decoders describe the
same messages twice.  `parseNextMessage_decodes` is the agreement: the decoder
that the client applies to a message of an accepted type succeeds on it, and
returns what the message spells.

`Spells` says what that is for each type, from the bytes of the message.  Types
that no decoder is applied to spell nothing.
-/

namespace Clibcdc.Reader

open Clibcdc.Automata Clibcdc.Parser

/-- The decoder of `T` succeeds on `m` and returns what `m` spells. -/
def Spells (m : UString) : MessageType → Prop
  | .msgUsbInfo => ∃ info, getParsedDeviceInfo m = .ok info ∧
      m = ascii "<I:" ++ info.type ++ [chr '#'] ++ info.firmwareVersion ++ [chr '#'] ++
        info.serialNumber ++ [cr] ∧
      info.typeLen = info.type.length ∧ info.fwLen = info.firmwareVersion.length ∧
      info.snLen = info.serialNumber.length ∧
      -- each search finds its byte, and no difference of positions wraps
      ∃ first second last, find m (chr '#') 3 = some first ∧
        find m (chr '#') (first + 1) = some second ∧ find m cr (second + 1) = some last ∧
        3 ≤ first ∧ first + 1 ≤ second ∧ second + 1 ≤ last
  | .msgTrInfo => (m.length = 21 ∨ m.length = 37) ∧
      ∃ info, getParsedModuleInfo m = .ok (some info) ∧
        info.serialNumber.length = 4 ∧ info.osBuild.length = 2 ∧ info.reserved.length = 8 ∧
        info.ibk.length = 16 ∧
        m = ascii "<IT:" ++ (info.serialNumber ++ [info.osVersion, info.trType] ++ info.osBuild ++
          info.reserved ++ if m.length = 37 then info.ibk else []) ++ [cr] ∧
        (m.length = 21 → info.ibk = List.replicate 16 0)
  | .msgSpiStat => ∃ spiStatus status, getParsedSPIStatus m = .ok spiStatus ∧
      m[3]? = some status ∧ spiStatus.value = status.toNat
  | .msgDataSend => 4 + 1 ≤ m.length ∧ ∃ response, getParsedDSResponse m = .ok response ∧
      m = ascii "<DS:" ++ response.text ++ [cr]
  | .msgModeProgram => 4 + 1 ≤ m.length ∧ ∃ response, getParsedPEResponse m = .ok response ∧
      m = ascii "<PE:" ++ response.text ++ [cr]
  | .msgModeNormal => 4 + 1 ≤ m.length ∧ ∃ response, getParsedPTResponse m = .ok response ∧
      m = ascii "<PT:" ++ response.text ++ [cr]
  | .msgUploadDownload => 4 + 1 ≤ m.length ∧ ∃ response, getParsedPMResponse m = .ok response ∧
      m = ascii "<PM:" ++ response.text ++ [cr]
  | .msgDownloadData => 4 + 1 ≤ m.length ∧ ∃ data, getParsedPMData m = .ok data ∧
      m = ascii "<PM:" ++ data ++ [cr]
  | .msgAsync => 5 + 1 ≤ m.length ∧ ∃ userData n, getParsedDRData m = .ok userData ∧
      m = ascii "<DR" ++ [n, chr ':'] ++ userData ++ [cr] ∧ m[3]? = some n ∧
      userData.length = n.toNat
  | .msgError | .msgTest | .msgResUsb | .msgResTr | .msgUsbConn | .msgSwitch => True

/-- A header of four bytes and a response. -/
private theorem headed_length (header : UString) {text : UString} (hheader : header.length = 4) :
    4 + 1 ≤ (header ++ text ++ [cr]).length := by
  simp only [List.length_append, List.length_singleton]
  omega

theorem frame_spells (frame : Frame) : Spells frame.bytes frame.msgType := by
  cases frame with
  | spiStat status =>
    obtain ⟨spiStatus, hparsed, hvalue⟩ := getParsedSPIStatus_eq status
    exact ⟨spiStatus, status, hparsed, rfl, hvalue⟩
  | dataSend response =>
    exact ⟨headed_length (ascii "<DS:") rfl, response, getParsedDSResponse_eq response,
      rfl⟩
  | modeProgram response =>
    exact ⟨headed_length (ascii "<PE:") rfl, response, getParsedPEResponse_eq response,
      rfl⟩
  | modeNormal response =>
    exact ⟨headed_length (ascii "<PT:") rfl, response, getParsedPTResponse_eq response,
      rfl⟩
  | usbInfo type version id =>
    obtain ⟨hfirst, hsecond, hlast⟩ := usbInfo_finds type version id
    have hbytes := usbInfo_bytes type version id []
    rw [List.append_nil] at hbytes
    exact ⟨_, getParsedDeviceInfo_eq type version id, by simp [hbytes], rfl, rfl, rfl, _, _, _,
      hfirst, hsecond, hlast, by omega, by omega, by omega⟩
  | async payload =>
    have hbytes := async_bytes payload []
    rw [List.append_nil] at hbytes
    refine ⟨?_, payload.data, payload.lengthByte, getParsedDRData_eq payload, by simp [hbytes], rfl,
      payload.lengthByte_toNat.symm⟩
    rw [Frame.bytes_length]
    simp [Frame.body, ascii]
  | _ => trivial

theorem reply_spells (reply : Reply) : Spells reply.bytes reply.msgType := by
  cases reply with
  | ofFrame frame => exact frame_spells frame
  | trInfo block =>
    obtain ⟨info, hparsed, hserial, hbuild, hreserved, hibk, hdata, hzeros⟩ :=
      getParsedModuleInfo_eq block.size
    have hlen : (Reply.trInfo block).bytes.length = block.data.length + 5 := by
      simp [Reply.bytes, ascii]
    have hextended : ((Reply.trInfo block).bytes.length = 37) = (block.data.length = 32) := by
      rw [hlen]
      exact propext ⟨fun h => by omega, fun h => by omega⟩
    refine ⟨?_, info, hparsed, hserial, hbuild, hreserved, hibk, ?_, fun h => hzeros (by omega)⟩
    · rcases block.size with h | h <;> omega
    · simp only [hextended, hdata]
      rfl
  | uploadResult response =>
    exact ⟨headed_length (ascii "<PM:") rfl, response, getParsedPMResponse_eq response,
      rfl⟩
  | downloadData data =>
    exact ⟨headed_length (ascii "<PM:") rfl, data, getParsedPMData_eq data, rfl⟩

/-- Every message that `parseNextMessage` accepts is decoded to what it
spells. -/
theorem parseNextMessage_decodes {self self' : CDCImplPrivate} {msgBuffer rest : UString}
    {parsedMessage : ParsedMessage} (hlisted : self.msgParser.Listed)
    (hparse : parseNextMessage self msgBuffer = (.ok parsedMessage, self', rest))
    (hok : parsedMessage.parseResult.resultType = .parseOk) :
    Spells parsedMessage.message parsedMessage.parseResult.msgType := by
  obtain ⟨last, hverdict, heq⟩ := parseNextMessage_eq self msgBuffer
  rw [heq] at hparse
  obtain rfl := Except.ok.inj (Prod.mk.inj hparse).1
  have htype : last.resultType = .parseOk := hok
  rw [verdictOf, htype] at hverdict
  obtain ⟨reply, y, hw, hlast, ht⟩ := verdict_accept_reply hverdict.symm
  have hpos := reply.bytes_length_pos
  have htake : (repair msgBuffer).take (last.lastPosition + 1) = reply.bytes := by
    rw [hw, hlast, Nat.sub_add_cancel hpos, List.take_left]
  simp only [htype, if_true, htake, ht, replyState_listed hlisted]
  exact reply_spells reply

theorem parseNextMessage_decodes_async :
    Spells (ascii "<DR" ++ [1, chr ':', cr, cr]) .msgAsync :=
  @parseNextMessage_decodes (.init (.new listedOnly))
    (withParse (.init (.new listedOnly)) ⟨.msgAsync, .parseOk, 6⟩)
    (ascii ">DR" ++ [1, chr ':', cr, cr, chr '<']) (ascii "<DR" ++ [1, chr ':', cr, cr, chr '<'])
    ⟨ascii "<DR" ++ [1, chr ':', cr, cr], ⟨.msgAsync, .parseOk, 6⟩⟩ rfl (by decide +kernel) rfl

end Clibcdc.Reader
