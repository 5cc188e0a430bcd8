import Clibcdc.Parser.Frames

/-!
# The parser accepts nothing but the frames

The converse of `verdict_frame`, for buffers that do not begin with `<IT:` or
`<PM:`.

* `verdict_append`: a verdict is final.  More bytes change it only when it is
  `wait`.
* `verdict_accept_frame`: what is accepted is a frame.

Both read back what a scan has consumed: from the texts of the table's states
(`spelled_append`), and from the sections of a device info (`UsbRead`).
-/

namespace Clibcdc.Parser

open Clibcdc.Automata

/-! ## What a scan has read -/

/-- What is read where every position allows one byte only. -/
theorem spelled_append {text u : UString} {inputs : List (List Nat)}
    (h : List.Forall₂ InputReads (text.map (fun b => [b.toNat]) ++ inputs) u) :
    ∃ v, u = text ++ v ∧ List.Forall₂ InputReads inputs v := by
  induction text generalizing u with
  | nil => exact ⟨u, rfl, h⟩
  | cons b text ih =>
    cases h with
    | cons hb hu =>
      obtain ⟨v, rfl, hv⟩ := ih hu
      rcases hb with hb | hb
      · obtain rfl := UInt8.toNat_inj.mp (List.mem_singleton.mp hb)
        exact ⟨v, rfl, hv⟩
      · have hlt := b.toNat_lt
        have heq : inputAll = b.toNat := List.mem_singleton.mp hb
        simp only [inputAll] at heq
        omega

theorem eq_of_spelled (text : UString) {u : UString}
    (h : List.Forall₂ InputReads (text.map fun b => [b.toNat]) u) : u = text := by
  rw [← List.append_nil (text.map _)] at h
  obtain ⟨v, rfl, hv⟩ := spelled_append h
  rw [List.forall₂_nil_left_iff.mp hv, List.append_nil]

/-- The frames without a byte that is free. -/
def fixedFrames : List Frame := [
  .err, .test, .resUsb, .resTr, .usbConn, .switch, .dataSend .ok, .dataSend .err,
  .dataSend .busy, .modeProgram .ok, .modeProgram .err1, .modeNormal .ok, .modeNormal .err1]

private theorem fixedFrames_text :
    ∀ frame ∈ fixedFrames,
      stateText (finalState frame) = frame.bytes.map fun b => [b.toNat] := by
  decide +kernel

private theorem spiStat_text :
    stateText 32 = (ascii "<S:").map (fun b => [b.toNat]) ++ [[inputAll], [cr.toNat]] := by
  decide +kernel

/-- The finite states that the transition map reaches by itself end a fixed
frame or an SPI status. -/
private theorem finite_cases {s : Nat} (hstate : s ∈ reachableStates)
    (hfin : isFiniteState s = true) : s = 32 ∨ ∃ frame ∈ fixedFrames, finalState frame = s := by
  have hspecial : ∀ s ∈ initSpecialStates, isFiniteState s = false := by decide
  have hfinal : ∀ s ∈ [5, 8, 103, 15, 28, 32, 38, 42, 47, 57, 63, 68, 73, 78],
      s = 32 ∨ ∃ frame ∈ fixedFrames, finalState frame = s := by
    decide
  rcases reachableStates_stop s hstate (by simp [plainStop, hfin]) with hmem | hmem
  · exact hfinal s hmem
  · simp [hspecial s hmem] at hfin

/-- A scan that stops in a finite state has read a frame. -/
theorem plainScan_finite_frame {data : UString} {s k : Nat}
    (h : plainScan initialState 0 data = .stopped s k) (hfin : isFiniteState s = true) :
    ∃ frame y, data = frame.bytes ++ y ∧ k = frame.bytes.length ∧ finalState frame = s := by
  obtain ⟨-, u, y, rfl, rfl, hstate, hu⟩ := scan_stopped hasRead_step hasRead_initial h
  simp only [List.nil_append, Nat.zero_add] at hu ⊢
  rcases finite_cases hstate hfin with rfl | ⟨frame, hframe, rfl⟩
  · rw [spiStat_text] at hu
    obtain ⟨v, rfl, hv⟩ := spelled_append hu
    cases hv with
    | @cons _ status _ v _ hv =>
      obtain rfl := eq_of_spelled [cr] hv
      exact ⟨.spiStat status, y, rfl, rfl, rfl⟩
  · rw [fixedFrames_text frame hframe] at hu
    obtain rfl := eq_of_spelled _ hu
    exact ⟨frame, y, rfl, rfl, rfl⟩

/-! ## The four headers -/

/-- How a buffer is read: the transition map decides, or one of the headers
hands over to a special state. -/
inductive Reading (data : UString) : Prop where
  | plain (h : ∀ s k, plainScan initialState 0 data = .stopped s k → isFiniteState s = true)
  | usbInfo (w : UString) (h : data = ascii "<I:" ++ w)
  | asynData (n : Byte) (w : UString) (h : data = ascii "<DR" ++ n :: chr ':' :: w)
  | unsized (h : IsOpen data)

theorem reading (data : UString) : Reading data := by
  by_cases hplain : ∀ s k, plainScan initialState 0 data = .stopped s k → isFiniteState s = true
  · exact .plain hplain
  push Not at hplain
  obtain ⟨s, k, hscan, hfin⟩ := hplain
  have hcases := plainScan_special hscan (by simpa using hfin)
  obtain ⟨-, u, w, rfl, -, -, hu⟩ := scan_stopped hasRead_step hasRead_initial hscan
  obtain ⟨h17, h21, h50, h95⟩ := special_texts
  rw [List.nil_append] at hu
  obtain ⟨rfl, -⟩ | ⟨rfl, -⟩ | ⟨rfl, -⟩ | ⟨rfl, -⟩ := hcases
  · rw [h17] at hu
    exact .usbInfo w (by rw [eq_of_spelled _ hu])
  · rw [h21] at hu
    exact .unsized (.inl ⟨w, by rw [eq_of_spelled _ hu]⟩)
  · rw [h50] at hu
    obtain ⟨v, rfl, hv⟩ := spelled_append hu
    cases hv with
    | @cons _ n _ v _ hv =>
      obtain rfl := eq_of_spelled [chr ':'] hv
      exact .asynData n w (by simp)
  · rw [h95] at hu
    exact .unsized (.inr ⟨w, by rw [eq_of_spelled _ hu]⟩)

section Verdicts

variable {types : Nat → MessageType} {b : UString}

theorem verdict_plain (h : ∀ s k, plainScan initialState 0 b = .stopped s k →
    isFiniteState s = true) :
    verdict types b =
      match plainScan initialState 0 b with
      | .ended _ => .wait
      | .stuck k => .reject k
      | .stopped s k => .accept (k - 1) (types s) := by
  rw [verdict]
  cases hscan : plainScan initialState 0 b with
  | ended s => rfl
  | stuck k => rfl
  | stopped s k => simp [h s k hscan]

/-! ## Verdicts are final -/

/-- More bytes do not change a verdict, unless it is to wait. -/
theorem verdict_append (y : UString) (hopen : ¬ IsOpen b) (h : verdict types b ≠ .wait) :
    verdict types (b ++ y) = verdict types b := by
  obtain hplain | ⟨w, rfl⟩ | ⟨n, w, rfl⟩ | hopen' := reading b
  · rw [verdict_plain hplain] at h ⊢
    cases hscan : plainScan initialState 0 b with
    | ended s => simp [hscan] at h
    | stuck k => rw [verdict, plainScan, scan_append_of_stuck y hscan]
    | stopped s k => exact verdict_of_finite types hscan (hplain s k hscan) y
  · rw [verdict_usbInfo] at h
    rw [List.append_assoc, verdict_usbInfo, verdict_usbInfo]
    cases hscan : usbScan (.reading .type) 3 w with
    | ended s => simp [hscan] at h
    | stuck k => rw [usbScan, scan_append_of_stuck y hscan]
    | stopped s k => rw [usbScan, scan_append_of_stopped y hscan]
  · have hassoc : ascii "<DR" ++ n :: chr ':' :: w ++ y =
        ascii "<DR" ++ n :: chr ':' :: (w ++ y) := by simp
    rw [verdict_asynData] at h
    rw [hassoc, verdict_asynData, verdict_asynData]
    split_ifs at h with hshort
    · exact absurd rfl h
    · rw [if_neg hshort, if_neg (by rw [List.length_append]; omega),
        List.getElem?_append_left (by omega)]
    · rw [if_neg hshort, if_neg (by rw [List.length_append]; omega),
        List.getElem?_append_left (by omega)]
  · exact absurd hopen' hopen

/-! ## What is accepted is a frame -/

end Verdicts

/-- What the scan of a device info has read in each of its states. -/
def UsbRead : UsbState → UString → Prop
  | .reading .type, p => ∃ type : Field isTypeByte, p = type.text
  | .reading .version, p => ∃ (type : Field isTypeByte) (version : Field isVersionByte),
      p = type.text ++ chr '#' :: version.text
  | .reading .id, p =>
    ∃ (type : Field isTypeByte) (version : Field isVersionByte) (id : Field isIdByte),
      p = type.text ++ chr '#' :: (version.text ++ chr '#' :: id.text)
  | .done, p =>
    ∃ (type : Field isTypeByte) (version : Field isVersionByte) (id : Field isIdByte),
      p = type.text ++ chr '#' :: (version.text ++ chr '#' :: (id.text ++ [cr]))

theorem usbRead_nil : UsbRead (.reading .type) [] := ⟨Field.empty _, rfl⟩

theorem usbRead_step (s s' : UsbState) (b : Byte) (p : UString) (h : UsbRead s p)
    (hstep : usbStep s b = some s') : UsbRead s' (p ++ [b]) := by
  rcases s with activeSection | _
  swap
  · simp [usbStep] at hstep
  by_cases hhash : b = chr '#'
  · subst hhash
    cases activeSection with
    | type =>
      obtain ⟨type, rfl⟩ := h
      obtain rfl : UsbState.reading .version = s' := by
        simpa [usbStep_hash_type] using hstep
      exact ⟨type, Field.empty _, rfl⟩
    | version =>
      obtain ⟨type, version, rfl⟩ := h
      obtain rfl : UsbState.reading .id = s' := by
        simpa [usbStep_hash_version] using hstep
      exact ⟨type, version, Field.empty _, by simp [Field.empty]⟩
    | id => simp [usbStep, show ¬ chr '#' = cr by decide] at hstep
  by_cases hend : b = cr ∧ activeSection = .id
  · obtain ⟨rfl, rfl⟩ := hend
    obtain ⟨type, version, id, rfl⟩ := h
    obtain rfl : UsbState.done = s' := by simpa [usbStep_cr] using hstep
    exact ⟨type, version, id, by simp⟩
  rw [usbStep_stays hend hhash] at hstep
  split_ifs at hstep with hcheck
  obtain rfl : UsbState.reading activeSection = s' := by simpa using hstep
  cases activeSection with
  | type =>
    obtain ⟨type, rfl⟩ := h
    exact ⟨type.push b (by simpa [isTypeByte] using hhash), rfl⟩
  | version =>
    obtain ⟨type, version, rfl⟩ := h
    rw [UsbSection.check, checkUSBDeviceVersion_eq] at hcheck
    exact ⟨type, version.push b hcheck, by simp [Field.push]⟩
  | id =>
    obtain ⟨type, version, id, rfl⟩ := h
    rw [UsbSection.check, checkUSBDeviceId_eq] at hcheck
    exact ⟨type, version, id.push b hcheck, by simp [Field.push]⟩

section Verdicts

variable {types : Nat → MessageType} {b : UString}

theorem verdict_usbInfo_accept {w : UString} {p : Nat} {t : MessageType}
    (h : verdict types (ascii "<I:" ++ w) = .accept p t) :
    ∃ frame y, ascii "<I:" ++ w = Frame.bytes frame ++ y ∧
      p = frame.bytes.length - 1 ∧ t = types (finalState frame) := by
  rw [verdict_usbInfo] at h
  cases hscan : usbScan (.reading .type) 3 w with
  | ended s => simp [hscan] at h
  | stuck k => simp [hscan] at h
  | stopped s k =>
    simp only [hscan, Verdict.accept.injEq] at h
    obtain ⟨hstop, u, y, rfl, rfl, hu⟩ := scan_stopped usbRead_step usbRead_nil hscan
    obtain rfl : s = .done := by simpa [usbStop] using hstop
    obtain ⟨type, version, id, hu⟩ := hu
    rw [List.nil_append] at hu
    refine ⟨.usbInfo type version id, y, ?_, ?_, h.2.symm⟩
    · rw [usbInfo_bytes]
      simp [hu]
    · rw [← h.1, hu, Frame.bytes_length]
      simp [Frame.body, ascii]
      omega

theorem verdict_asynData_accept {n : Byte} {w : UString} {p : Nat} {t : MessageType}
    (h : verdict types (ascii "<DR" ++ n :: chr ':' :: w) = .accept p t) :
    ∃ frame y, ascii "<DR" ++ n :: chr ':' :: w = Frame.bytes frame ++ y ∧
      p = frame.bytes.length - 1 ∧ t = types (finalState frame) := by
  rw [verdict_asynData] at h
  split_ifs at h with hshort hcr
  obtain ⟨rfl, rfl⟩ : 5 + n.toNat = p ∧ types 52 = t := by simpa using h
  obtain ⟨hlt, hcr⟩ := List.getElem?_eq_some_iff.mp hcr
  have htake : (w.take n.toNat).length = n.toNat := List.length_take_of_le (by omega)
  refine ⟨.async ⟨w.take n.toNat, ?_⟩, w.drop (n.toNat + 1), ?_, ?_, rfl⟩
  · have := n.toNat_lt
    omega
  · have hw : w = w.take n.toNat ++ cr :: w.drop (n.toNat + 1) := by
      rw [← hcr, ← List.drop_eq_getElem_cons hlt, List.take_append_drop]
    rw [async_bytes, Payload.lengthByte]
    simp only [htake]
    rw [← hw]
    simp
  · rw [Frame.bytes_length]
    simp [Frame.body, ascii, htake]
    omega

/-- What is accepted is a frame, at its last byte and with its state. -/
theorem verdict_accept_frame {p : Nat} {t : MessageType} (hopen : ¬ IsOpen b)
    (h : verdict types b = .accept p t) :
    ∃ frame y, b = Frame.bytes frame ++ y ∧ p = frame.bytes.length - 1 ∧
      t = types (finalState frame) := by
  obtain hplain | ⟨w, rfl⟩ | ⟨n, w, rfl⟩ | hopen' := reading b
  · rw [verdict_plain hplain] at h
    cases hscan : plainScan initialState 0 b with
    | ended s => simp [hscan] at h
    | stuck k => simp [hscan] at h
    | stopped s k =>
      obtain ⟨frame, y, hb, rfl, rfl⟩ := plainScan_finite_frame hscan (hplain s k hscan)
      obtain ⟨rfl, rfl⟩ : frame.bytes.length - 1 = p ∧ types (finalState frame) = t := by
        simpa [hscan] using h
      exact ⟨frame, y, hb, rfl, rfl⟩
  · exact verdict_usbInfo_accept h
  · exact verdict_asynData_accept h
  · exact absurd hopen' hopen

end Verdicts

end Clibcdc.Parser
