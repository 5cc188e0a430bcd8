import Clibcdc.Frame
import Clibcdc.Parser.Verdict

/-!
# The parser recognises the frames

`verdict_frame`: a buffer that begins with a frame is accepted at the last byte
of the frame, with the frame's type, whatever follows.  The one exception is
the asynchronous message with an empty payload, which waits for one more byte.

A frame with a fixed text is one scan of the transition map, computed from the
table.  The two that carry a field of their own length continue in a special
state.
-/

namespace Clibcdc.Parser

open Clibcdc.Automata

/-! ## Verdicts from scans -/

section Scans

variable (types : Nat → MessageType)

/-- A scan that stops in a finite state accepts. -/
theorem verdict_of_finite {w : UString} {s k : Nat}
    (hscan : plainScan initialState 0 w = .stopped s k) (hs : isFiniteState s = true)
    (y : UString) : verdict types (w ++ y) = .accept (k - 1) (types s) := by
  rw [verdict, plainScan, scan_append_of_stopped y hscan]
  simp [hs]

theorem plainScan_usbInfo : plainScan initialState 0 (ascii "<I:") = .stopped 17 3 := by
  decide

theorem plainScan_trInfo : plainScan initialState 0 (ascii "<IT:") = .stopped 21 4 := by
  decide

theorem plainScan_pmResp : plainScan initialState 0 (ascii "<PM:") = .stopped 95 4 := by
  decide

/-- A state with no row for a byte of its own takes any byte. -/
theorem plainStep_any {state next : Nat}
    (honly : ∀ row ∈ initTransitionMap, row.1.1 = state → row.1.2 = inputAll)
    (hall : initTransitionMap.lookup (state, inputAll) = some next)
    (hnext : next ≠ noTransition) (b : Byte) : plainStep state b = some next := by
  have hmiss : initTransitionMap.lookup (state, b.toNat) = none := by
    rw [List.lookup_eq_none_iff]
    intro row hmem
    have hlt := b.toNat_lt
    have hne : (state, b.toNat) ≠ row.1 := by
      intro heq
      have hinput := honly row hmem (by rw [← heq])
      rw [← heq] at hinput
      simp only [inputAll] at hinput
      omega
    simpa using hne
  have hdo : doTransition state b = next := by rw [doTransition, hmiss, hall]
  rw [plainStep, hdo, if_neg hnext]

/-- Behind `<DR` the transition map takes any byte, then a colon. -/
theorem plainScan_asynData (n : Byte) :
    plainScan initialState 0 (ascii "<DR" ++ [n, chr ':']) = .stopped 50 5 := by
  have hhead : plainScan initialState 0 (ascii "<DR") = .ended 48 := by decide
  have hn : plainStep 48 n = some 49 := plainStep_any (by decide) rfl (by decide) n
  have htail : plainScan 49 4 [chr ':'] = .stopped 50 5 := by decide
  rw [plainScan, scan_append_of_ended _ hhead, scan_cons _ _ rfl hn]
  exact htail

theorem verdict_trInfo (w : UString) :
    verdict types (ascii "<IT:" ++ w) = trInfoVerdict types (ascii "<IT:" ++ w) := by
  rw [verdict, plainScan, scan_append_of_stopped w plainScan_trInfo]
  rfl

theorem verdict_pmResp (w : UString) :
    verdict types (ascii "<PM:" ++ w) = pmRespVerdict types (ascii "<PM:" ++ w) := by
  rw [verdict, plainScan, scan_append_of_stopped w plainScan_pmResp]
  rfl

/-- The verdict behind the header of an asynchronous message.  An empty
payload, and only that, waits for a byte too many. -/
theorem verdict_asynData (n : Byte) (w : UString) :
    verdict types (ascii "<DR" ++ n :: chr ':' :: w) =
      if w.length ≤ 1 ∨ w.length ≤ n.toNat then .wait
      else if w[n.toNat]? = some cr then .accept (5 + n.toNat) (types 52)
      else .reject (5 + n.toNat) := by
  have hdata : ascii "<DR" ++ n :: chr ':' :: w = ascii "<DR" ++ [n, chr ':'] ++ w := rfl
  have hspecial : verdict types (ascii "<DR" ++ n :: chr ':' :: w) =
      asynDataVerdict types (ascii "<DR" ++ n :: chr ':' :: w) := by
    rw [hdata, verdict, plainScan, scan_append_of_stopped w (plainScan_asynData n)]
    rfl
  have hthird : (ascii "<DR" ++ n :: chr ':' :: w)[3]? = some n := rfl
  have hlen : (ascii "<DR" ++ n :: chr ':' :: w).length = w.length + 5 := by simp [ascii]
  have hat : (ascii "<DR" ++ n :: chr ':' :: w)[5 + n.toNat]? = w[n.toNat]? := by
    rw [hdata, List.getElem?_append_right (by simp [ascii])]
    simp [ascii]
  rw [hspecial, asynDataVerdict, hthird, hlen]
  simp only
  by_cases hone : w.length ≤ 1
  · rw [if_pos (by omega), if_pos (.inl hone)]
  · rw [if_neg (by omega)]
    by_cases hmore : w.length ≤ n.toNat
    · rw [if_pos (by omega), if_pos (.inr hmore)]
    · rw [if_neg (by omega), if_neg (by omega), crVerdict, hat]

end Scans

/-! ## The text of a USB device info -/

theorem checkUSBDeviceVersion_eq (b : Byte) : checkUSBDeviceVersion b = isVersionByte b := by
  have h : ∀ n < 256, checkUSBDeviceVersion n.toUInt8 = isVersionByte n.toUInt8 := by
    decide +kernel
  simpa using h b.toNat b.toNat_lt

theorem checkUSBDeviceId_eq (b : Byte) : checkUSBDeviceId b = isIdByte b := by
  have h : ∀ n < 256, checkUSBDeviceId n.toUInt8 = isIdByte n.toUInt8 := by
    decide +kernel
  simpa using h b.toNat b.toNat_lt

theorem usbStep_hash_type : usbStep (.reading .type) (chr '#') = some (.reading .version) := rfl

theorem usbStep_hash_version : usbStep (.reading .version) (chr '#') = some (.reading .id) := rfl

theorem usbStep_cr : usbStep (.reading .id) cr = some .done := rfl

/-- A byte that ends no section stays in the section that allows it. -/
theorem usbStep_stays {activeSection : UsbSection} {b : Byte}
    (hend : ¬ (b = cr ∧ activeSection = .id)) (hhash : b ≠ chr '#') :
    usbStep (.reading activeSection) b =
      if activeSection.check b then some (.reading activeSection) else none := by
  simp [usbStep, hend, hhash]

private theorem isVersionByte_hash : isVersionByte (chr '#') = false := by decide

private theorem isIdByte_hash : isIdByte (chr '#') = false := by decide

private theorem isIdByte_cr : isIdByte cr = false := by decide

theorem usbStep_type {b : Byte} (hb : isTypeByte b = true) :
    usbStep (.reading .type) b = some (.reading .type) := by
  rw [usbStep_stays (by simp) (by simpa [isTypeByte] using hb)]
  rfl

theorem usbStep_version {b : Byte} (hb : isVersionByte b = true) :
    usbStep (.reading .version) b = some (.reading .version) := by
  have hhash : b ≠ chr '#' := by
    rintro rfl
    simp [isVersionByte_hash] at hb
  rw [usbStep_stays (by simp) hhash, UsbSection.check, checkUSBDeviceVersion_eq, if_pos hb]

theorem usbStep_id {b : Byte} (hb : isIdByte b = true) :
    usbStep (.reading .id) b = some (.reading .id) := by
  have hhash : b ≠ chr '#' := by
    rintro rfl
    simp [isIdByte_hash] at hb
  have hcr : b ≠ cr := by
    rintro rfl
    simp [isIdByte_cr] at hb
  rw [usbStep_stays (by simp [hcr]) hhash, UsbSection.check, checkUSBDeviceId_eq, if_pos hb]

/-- The type of a device info allows any byte, so its first byte is read. -/
theorem usbScan_short {w : UString} (h : w.length ≤ 1) (n : Nat) :
    ∃ s, usbScan (.reading .type) n w = .ended s := by
  match w, h with
  | [], _ => exact ⟨_, rfl⟩
  | [b], _ =>
    by_cases hhash : b = chr '#'
    · exact ⟨.reading .version, by rw [hhash, usbScan, scan_cons n [] rfl usbStep_hash_type]; rfl⟩
    · have hstep := usbStep_type (b := b) (by simpa [isTypeByte] using hhash)
      exact ⟨.reading .type, by rw [usbScan, scan_cons n [] rfl hstep]; rfl⟩

/-- The verdict behind the header of a device info is that of its scan. -/
theorem verdict_usbInfo (types : Nat → MessageType) (w : UString) :
    verdict types (ascii "<I:" ++ w) =
      match usbScan (.reading .type) 3 w with
      | .ended _ => .wait
      | .stuck k => .reject k
      | .stopped _ k => .accept (k - 1) (types 19) := by
  have hspecial : verdict types (ascii "<I:" ++ w) =
      usbInfoVerdict types (ascii "<I:" ++ w) 3 := by
    rw [verdict, plainScan, scan_append_of_stopped w plainScan_usbInfo]
    rfl
  have hdrop : (ascii "<I:" ++ w).drop 3 = w := rfl
  rw [hspecial, usbInfoVerdict, hdrop]
  by_cases hshort : w.length ≤ 1
  · obtain ⟨s, hs⟩ := usbScan_short hshort 3
    rw [hs]
    exact ite_self _
  · exact if_neg (by simp [ascii]; omega)

/-- The text of a device info takes the scan through the three sections. -/
theorem usbScan_text (type : Field isTypeByte) (version : Field isVersionByte)
    (id : Field isIdByte) (n : Nat) (y : UString) :
    usbScan (.reading .type) n
        (type.text ++ chr '#' :: (version.text ++ chr '#' :: (id.text ++ cr :: y))) =
      .stopped .done (n + type.text.length + version.text.length + id.text.length + 3) := by
  rw [usbScan, scan_append_of_loop n _ rfl fun b hb => usbStep_type (type.valid b hb),
    scan_cons _ _ rfl usbStep_hash_type,
    scan_append_of_loop _ _ rfl fun b hb => usbStep_version (version.valid b hb),
    scan_cons _ _ rfl usbStep_hash_version,
    scan_append_of_loop _ _ rfl fun b hb => usbStep_id (id.valid b hb),
    scan_cons _ _ rfl usbStep_cr, scan_of_stop rfl]
  congr 1
  omega

/-! ## Every frame is accepted -/

/-- The finite state that a frame ends in. -/
def finalState : Frame → Nat
  | .err => 5
  | .test => 8
  | .resUsb => 103
  | .resTr => 15
  | .usbConn => 28
  | .switch => 57
  | .spiStat _ => 32
  | .dataSend .ok => 38
  | .dataSend .err => 42
  | .dataSend .busy => 47
  | .modeProgram .ok => 63
  | .modeProgram .err1 => 68
  | .modeNormal .ok => 73
  | .modeNormal .err1 => 78
  | .usbInfo _ _ _ => 19
  | .async _ => 52

/-- The types of the finite states that frames end in. -/
def finalTypes : List (Nat × MessageType) := [
  (5, .msgError), (8, .msgTest), (103, .msgResUsb), (15, .msgResTr), (28, .msgUsbConn),
  (57, .msgSwitch), (32, .msgSpiStat), (38, .msgDataSend), (42, .msgDataSend),
  (47, .msgDataSend), (63, .msgModeProgram), (68, .msgModeProgram), (73, .msgModeNormal),
  (78, .msgModeNormal), (19, .msgUsbInfo), (52, .msgAsync)]

theorem finalTypes_listed :
    ∀ row ∈ finalTypes, isFiniteState row.1 = true ∧ row.1 ≠ 97 ∧ listedType row.1 = row.2 := by
  decide

theorem finalState_mem (frame : Frame) : (finalState frame, frame.msgType) ∈ finalTypes := by
  rcases frame with _ | _ | _ | _ | _ | _ | _ | response | response | response | _ | _
  case dataSend => cases response <;> simp [finalState, Frame.msgType, finalTypes]
  case modeProgram => cases response <;> simp [finalState, Frame.msgType, finalTypes]
  case modeNormal => cases response <;> simp [finalState, Frame.msgType, finalTypes]
  all_goals simp [finalState, Frame.msgType, finalTypes]

/-- Every parser gives a frame its type. -/
theorem finalState_type (self : CDCMessageParserPrivate) (frame : Frame) :
    self.stateType (finalState frame) = frame.msgType := by
  obtain ⟨hfinite, h97, htype⟩ := finalTypes_listed _ (finalState_mem frame)
  rw [stateType_eq_listedType self hfinite h97, htype]

/-- The scan of a frame whose text the transition map spells out. -/
theorem plainScan_frame (frame : Frame) (htype : frame.msgType ≠ .msgUsbInfo)
    (hasync : frame.msgType ≠ .msgAsync) :
    plainScan initialState 0 frame.bytes =
      .stopped (finalState frame) frame.bytes.length := by
  rcases frame with _ | _ | _ | _ | _ | _ | status | response | response | response | _ | _
  case spiStat =>
    have hhead : plainScan initialState 0 (ascii "<S:") = .ended 30 := by decide
    have hstatus : plainStep 30 status = some 31 :=
      plainStep_any (by decide) rfl (by decide) status
    have htail : plainScan 31 4 [cr] = .stopped 32 5 := by decide
    have hbytes : (Frame.spiStat status).bytes = ascii "<S:" ++ [status, cr] := rfl
    rw [hbytes, plainScan, scan_append_of_ended _ hhead, scan_cons _ _ rfl hstatus]
    exact htail
  case dataSend => cases response <;> decide
  case modeProgram => cases response <;> decide
  case modeNormal => cases response <;> decide
  case usbInfo => exact absurd rfl htype
  case async => exact absurd rfl hasync
  all_goals decide

theorem verdict_usbInfo_frame (types : Nat → MessageType) (type : Field isTypeByte)
    (version : Field isVersionByte) (id : Field isIdByte) (y : UString) :
    verdict types ((Frame.usbInfo type version id).bytes ++ y) =
      .accept ((Frame.usbInfo type version id).bytes.length - 1) (types 19) := by
  rw [usbInfo_bytes, verdict_usbInfo, usbScan_text, Frame.bytes_length]
  simp [Frame.body, ascii]
  omega

/-- An asynchronous message waits for a byte behind it when its payload is
empty. -/
theorem verdict_async_frame (types : Nat → MessageType) (payload : Payload) (y : UString)
    (hsized : payload.data ≠ [] ∨ y ≠ []) :
    verdict types ((Frame.async payload).bytes ++ y) =
      .accept ((Frame.async payload).bytes.length - 1) (types 52) := by
  have hmore : 0 < payload.data.length + y.length := by
    rcases hsized with h | h
    · exact Nat.add_pos_left (List.length_pos_iff.mpr h) _
    · exact Nat.add_pos_right _ (List.length_pos_iff.mpr h)
  have hcr : (payload.data ++ cr :: y)[payload.data.length]? = some cr := by
    rw [List.getElem?_append_right (Nat.le_refl _)]
    simp
  rw [async_bytes, verdict_asynData, payload.lengthByte_toNat, if_neg, if_pos hcr,
    Frame.bytes_length]
  · simp [Frame.body, ascii]
    omega
  · simp only [List.length_append, List.length_cons]
    omega

/-- A buffer that begins with a frame is accepted at the end of the frame. -/
theorem verdict_frame (types : Nat → MessageType) (frame : Frame) (y : UString)
    (hsized : frame.Sized ∨ y ≠ []) :
    verdict types (frame.bytes ++ y) =
      .accept (frame.bytes.length - 1) (types (finalState frame)) := by
  by_cases husb : frame.msgType = .msgUsbInfo
  · cases frame with
    | usbInfo type version id => exact verdict_usbInfo_frame types type version id y
    | _ => cases husb
  by_cases hasync : frame.msgType = .msgAsync
  · cases frame with
    | async payload => exact verdict_async_frame types payload y hsized
    | _ => cases hasync
  obtain ⟨hfinite, -, -⟩ := finalTypes_listed _ (finalState_mem frame)
  exact verdict_of_finite types (plainScan_frame frame husb hasync) hfinite y

end Clibcdc.Parser
