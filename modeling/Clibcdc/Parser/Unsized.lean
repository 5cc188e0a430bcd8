import Clibcdc.Parser.Soundness

/-!
# The replies without a length

The verdicts of buffers that begin with `<IT:` or `<PM:`.  Both are taken from
the size of the buffer: a module info ends at its 21st or 37th byte, an upload
result is a buffer of 7 or 9 bytes, and anything else that begins with `<PM:`
is download data up to the last byte of the buffer.
-/

namespace Clibcdc.Parser

open Clibcdc.Automata

section Verdicts

variable (types : Nat → MessageType)

/-! ## Module info -/

theorem verdict_trInfo_eq (w : UString) :
    verdict types (ascii "<IT:" ++ w) =
      if w.length = 17 ∧ w[16]? = some cr then .accept 20 (types 23)
      else if 33 ≤ w.length then
        if w[32]? = some cr then .accept 36 (types 23) else .reject 36
      else .wait := by
  have hat : ∀ k, (ascii "<IT:" ++ w)[4 + k]? = w[k]? := by
    intro k
    rw [List.getElem?_append_right (by simp [ascii])]
    simp [ascii]
  have hlen : (ascii "<IT:" ++ w).length = w.length + 4 := by simp [ascii]
  rw [verdict_trInfo, trInfoVerdict, crVerdict, hlen, hat 16, hat 32]
  by_cases hshort : w.length = 17 ∧ w[16]? = some cr
  · rw [if_pos ⟨by omega, hshort.2⟩, if_pos hshort]
  · rw [if_neg (fun h => hshort ⟨by omega, h.2⟩), if_neg hshort]
    by_cases hlong : 33 ≤ w.length
    · rw [if_pos (by omega), if_pos hlong]
    · rw [if_neg (by omega), if_neg hlong]

/-! ## Upload results and download data -/

/-- The state that an upload result ends in. -/
def uploadState : PMResponse → Nat
  | .ok => 83
  | .busy => 93
  | _ => 88

/-- The verdict of a buffer that has the size of an upload result. -/
def uploadVerdict (w : UString) : Verdict :=
  match plainScan 80 4 w with
  | .ended _ => .wait
  | .stuck k => .reject k
  | .stopped s k => .accept (k - 1) (types s)

theorem verdict_pmResp_eq (w : UString) :
    verdict types (ascii "<PM:" ++ w) =
      if w.length ≤ 1 then .wait
      else if w.length = 3 ∨ w.length = 5 then uploadVerdict types w
      else if w.getLast? = some cr then .accept (w.length + 3) (types 97)
      else .reject (w.length + 3) := by
  have hlen : (ascii "<PM:" ++ w).length = w.length + 4 := by simp [ascii]
  have hdrop : (ascii "<PM:" ++ w).drop 4 = w := rfl
  rw [verdict_pmResp, pmRespVerdict, hlen, hdrop]
  by_cases hshort : w.length ≤ 1
  · rw [if_pos (by omega), if_pos hshort]
  · have hlast : (ascii "<PM:" ++ w)[w.length + 4 - 1]? = w.getLast? := by
      rw [List.getLast?_eq_getElem?, List.getElem?_append_right (by simp [ascii]; omega)]
      congr 1
    rw [if_neg (by omega), if_neg hshort, crVerdict, hlast]
    by_cases hsize : w.length = 3 ∨ w.length = 5
    · rw [if_pos (by omega), if_pos hsize]
      rfl
    · rw [if_neg (by omega), if_neg hsize]
      rfl

theorem uploadScan_text (response : PMResponse) (y : UString) :
    plainScan 80 4 (response.text ++ cr :: y) =
      .stopped (uploadState response) (response.text.length + 5) := by
  have hscan : plainScan 80 4 (response.text ++ [cr]) =
      .stopped (uploadState response) (response.text.length + 5) := by
    cases response <;> decide
  have hsplit : response.text ++ cr :: y = response.text ++ [cr] ++ y := by simp
  rw [hsplit, plainScan, scan_append_of_stopped y hscan]

end Verdicts

private theorem upload_texts :
    stateText 83 = (PMResponse.ok.text ++ [cr]).map (fun b => [b.toNat]) ∧
    stateText 88 = (ascii "ERR").map (fun b => [b.toNat]) ++
      [(ascii "234567").map UInt8.toNat, [cr.toNat]] ∧
    stateText 93 = (PMResponse.busy.text ++ [cr]).map (fun b => [b.toNat]) := by
  decide +kernel

private theorem uploadStates_stop :
    ∀ s ∈ uploadStates, plainStop s = true → s = 83 ∨ s = 88 ∨ s = 93 := by
  decide

/-- The digit of an error names the response. -/
private theorem errResponse {b : Byte} (hb : InputReads ((ascii "234567").map UInt8.toNat) b) :
    ∃ response : PMResponse, response.text = ascii "ERR" ++ [b] ∧ uploadState response = 88 := by
  have hmem : b ∈ ascii "234567" := by
    rcases hb with hb | hb
    · obtain ⟨c, hc, heq⟩ := List.mem_map.mp hb
      rwa [UInt8.toNat_inj.mp heq] at hc
    · exact absurd hb (by decide)
  have hall : ∀ c ∈ ascii "234567",
      ∃ response ∈ [PMResponse.err2, .err3, .err4, .err5, .err6, .err7],
        response.text = ascii "ERR" ++ [c] ∧ uploadState response = 88 := by
    decide +kernel
  obtain ⟨response, -, h⟩ := hall b hmem
  exact ⟨response, h⟩

/-- A scan that has not stopped behind state 80 has not read a carriage
return. -/
theorem uploadScan_no_cr {w : UString} {s : Nat} (h : plainScan 80 4 w = .ended s) : cr ∉ w := by
  have hinputs : ∀ state ∈ uploadStates, plainStop state = false →
      ∀ inputs ∈ stateText state, cr.toNat ∉ inputs ∧ inputAll ∉ inputs := by
    decide +kernel
  obtain ⟨hstop, hstate, hw⟩ := scan_ended uploadRead_step uploadRead_initial h
  have hno := hinputs s hstate hstop
  rw [List.nil_append] at hw
  clear h hstate hstop
  generalize stateText s = text at hw hno
  induction hw with
  | nil => exact List.not_mem_nil
  | cons hread _ ih =>
    have hrest := ih fun inputs hmem => hno inputs (List.mem_cons_of_mem _ hmem)
    obtain ⟨hcr, hany⟩ := hno _ List.mem_cons_self
    rw [List.mem_cons, not_or]
    exact ⟨fun heq => (heq ▸ hread).elim hcr hany, hrest⟩

/-- A scan that stops behind state 80 has read an upload result. -/
theorem uploadScan_response {w : UString} {s k : Nat} (h : plainScan 80 4 w = .stopped s k) :
    ∃ (response : PMResponse) (y : UString), w = response.text ++ cr :: y ∧
      k = response.text.length + 5 ∧ s = uploadState response := by
  obtain ⟨hstop, u, y, rfl, rfl, hstate, hu⟩ := scan_stopped uploadRead_step uploadRead_initial h
  rw [List.nil_append] at hu
  obtain ⟨h83, h88, h93⟩ := upload_texts
  have hanswer : ∀ response : PMResponse, u = response.text ++ [cr] → s = uploadState response →
      ∃ (response : PMResponse) (y' : UString), u ++ y = response.text ++ cr :: y' ∧
        4 + u.length = response.text.length + 5 ∧ s = uploadState response := by
    rintro response rfl hs
    exact ⟨response, y, by simp, by simp; omega, hs⟩
  rcases uploadStates_stop s hstate hstop with rfl | rfl | rfl
  · exact hanswer .ok (eq_of_spelled _ (h83 ▸ hu)) rfl
  · rw [h88] at hu
    obtain ⟨v, rfl, hv⟩ := spelled_append hu
    cases hv with
    | @cons _ b _ v hb hv =>
      obtain ⟨response, htext, hs⟩ := errResponse hb
      obtain rfl := eq_of_spelled [cr] hv
      exact hanswer response (by simp [htext]) hs.symm
  · exact hanswer .busy (eq_of_spelled _ (h93 ▸ hu)) rfl

/-! ## What is accepted -/

section Verdicts

variable {types : Nat → MessageType} {w : UString} {p : Nat} {t : MessageType}

/-- An accepted module info is a block of 16 or 32 bytes. -/
theorem verdict_trInfo_accept (h : verdict types (ascii "<IT:" ++ w) = .accept p t) :
    t = types 23 ∧ ∃ d y, w = d ++ cr :: y ∧ (d.length = 16 ∨ d.length = 32) ∧
      p = d.length + 4 := by
  have hsplit : ∀ k, w[k]? = some cr → w = w.take k ++ cr :: w.drop (k + 1) ∧
      (w.take k).length = k := by
    intro k hk
    obtain ⟨hlt, hcr⟩ := List.getElem?_eq_some_iff.mp hk
    refine ⟨?_, List.length_take_of_le (Nat.le_of_lt hlt)⟩
    rw [← hcr, ← List.drop_eq_getElem_cons hlt, List.take_append_drop]
  rw [verdict_trInfo_eq] at h
  split_ifs at h with hshort hlong hcr
  · obtain ⟨rfl, rfl⟩ : 20 = p ∧ types 23 = t := by simpa using h
    obtain ⟨hw, hlen⟩ := hsplit 16 hshort.2
    exact ⟨rfl, w.take 16, w.drop 17, hw, .inl hlen, by rw [hlen]⟩
  · obtain ⟨rfl, rfl⟩ : 36 = p ∧ types 23 = t := by simpa using h
    obtain ⟨hw, hlen⟩ := hsplit 32 hcr
    exact ⟨rfl, w.take 32, w.drop 33, hw, .inr hlen, by rw [hlen]⟩

/-- An accepted reply behind `<PM:` is an upload result, or download data up to
the last byte of the buffer. -/
theorem verdict_pmResp_accept (h : verdict types (ascii "<PM:" ++ w) = .accept p t) :
    (∃ (response : PMResponse) (y : UString), w = response.text ++ cr :: y ∧
        p = response.text.length + 4 ∧ t = types (uploadState response)) ∨
      ∃ data, w = data ++ [cr] ∧ p = data.length + 4 ∧ t = types 97 := by
  rw [verdict_pmResp_eq] at h
  split_ifs at h with hshort hsize hlast
  · rw [uploadVerdict] at h
    cases hscan : plainScan 80 4 w with
    | ended s => simp [hscan] at h
    | stuck k => simp [hscan] at h
    | stopped s k =>
      obtain ⟨response, y, hw, rfl, rfl⟩ := uploadScan_response hscan
      obtain ⟨rfl, rfl⟩ : response.text.length + 5 - 1 = p ∧ types (uploadState response) = t := by
        simpa [hscan] using h
      exact .inl ⟨response, y, hw, rfl, rfl⟩
  · obtain ⟨rfl, rfl⟩ : w.length + 3 = p ∧ types 97 = t := by simpa using h
    obtain ⟨data, rfl⟩ := List.getLast?_eq_some_iff.mp hlast
    exact .inr ⟨data, rfl, by simp, rfl⟩

/-- The finite state that a reply ends in. -/
def replyState : Reply → Nat
  | .ofFrame frame => finalState frame
  | .trInfo _ => 23
  | .uploadResult response => uploadState response
  | .downloadData _ => 97

/-- Whatever is accepted is a reply, at its last byte. -/
theorem verdict_accept_reply {b : UString} (h : verdict types b = .accept p t) :
    ∃ (reply : Reply) (y : UString), b = reply.bytes ++ y ∧ p = reply.bytes.length - 1 ∧
      t = types (replyState reply) := by
  by_cases hopen : IsOpen b
  · rcases hopen with ⟨w, rfl⟩ | ⟨w, rfl⟩
    · obtain ⟨rfl, d, y, rfl, hd, rfl⟩ := verdict_trInfo_accept h
      refine ⟨.trInfo ⟨d, hd⟩, y, by simp [Reply.bytes], ?_, rfl⟩
      simp [Reply.bytes, ascii]
    · obtain ⟨response, y, rfl, rfl, rfl⟩ | ⟨data, rfl, rfl, rfl⟩ := verdict_pmResp_accept h
      · refine ⟨.uploadResult response, y, by simp [Reply.bytes], ?_, rfl⟩
        simp [Reply.bytes, ascii]
      · refine ⟨.downloadData data, [], by simp [Reply.bytes], ?_, rfl⟩
        simp [Reply.bytes, ascii]
  · obtain ⟨frame, y, rfl, rfl, rfl⟩ := verdict_accept_frame hopen h
    exact ⟨.ofFrame frame, y, rfl, rfl, rfl⟩

/-- What is rejected is a byte of the buffer. -/
theorem verdict_reject_lt {b : UString} (h : verdict types b = .reject p) : p < b.length := by
  obtain hplain | ⟨w, rfl⟩ | ⟨n, w, rfl⟩ | ⟨w, rfl⟩ | ⟨w, rfl⟩ := reading b
  · rw [verdict_plain hplain] at h
    cases hscan : plainScan initialState 0 b with
    | ended s => simp [hscan] at h
    | stuck k =>
      obtain rfl : k = p := by simpa [hscan] using h
      obtain ⟨u, a, v, -, rfl, rfl, -⟩ := scan_stuck hscan
      simp
    | stopped s k => simp [hscan] at h
  · rw [verdict_usbInfo] at h
    cases hscan : usbScan (.reading .type) 3 w with
    | ended s => simp [hscan] at h
    | stuck k =>
      obtain rfl : k = p := by simpa [hscan] using h
      obtain ⟨u, a, v, -, rfl, rfl, -⟩ := scan_stuck hscan
      simp [ascii]
      omega
    | stopped s k => simp [hscan] at h
  · rw [verdict_asynData] at h
    split_ifs at h
    obtain rfl : 5 + n.toNat = p := by simpa using h
    simp [ascii]
    omega
  · rw [verdict_trInfo_eq] at h
    split_ifs at h with hshort hlong hcr
    obtain rfl : 36 = p := by simpa using h
    simp [ascii]
    omega
  · rw [verdict_pmResp_eq] at h
    split_ifs at h with hshort hsize hlast
    · rw [uploadVerdict] at h
      cases hscan : plainScan 80 4 w with
      | ended s => simp [hscan] at h
      | stuck k =>
        obtain rfl : k = p := by simpa [hscan] using h
        obtain ⟨u, a, v, -, rfl, rfl, -⟩ := scan_stuck hscan
        simp [ascii]
        omega
      | stopped s k => simp [hscan] at h
    · obtain rfl : w.length + 3 = p := by simpa using h
      simp [ascii]

end Verdicts

/-- Every parser gives a reply its type, but for download data. -/
theorem replyState_type (self : CDCMessageParserPrivate) {reply : Reply}
    (hdata : ∀ data, reply ≠ .downloadData data) :
    self.stateType (replyState reply) = reply.msgType := by
  have hlisted : ∀ s ∈ [23, 83, 88, 93], isFiniteState s = true ∧ s ≠ 97 ∧
      listedType s = if s = 23 then .msgTrInfo else .msgUploadDownload := by
    decide
  cases reply with
  | ofFrame frame => exact finalState_type self frame
  | trInfo block =>
    obtain ⟨hfinite, h97, htype⟩ := hlisted 23 (by decide)
    rw [replyState, stateType_eq_listedType self hfinite h97, htype]
    rfl
  | uploadResult response =>
    have hmem : uploadState response ∈ [23, 83, 88, 93] ∧ uploadState response ≠ 23 := by
      cases response <;> decide
    obtain ⟨hfinite, h97, htype⟩ := hlisted _ hmem.1
    rw [replyState, stateType_eq_listedType self hfinite h97, htype, if_neg hmem.2]
    rfl
  | downloadData data => exact absurd rfl (hdata data)

/-- With the listed tables, every reply has its type. -/
theorem replyState_listed {self : CDCMessageParserPrivate} (hlisted : self.Listed)
    (reply : Reply) : self.stateType (replyState reply) = reply.msgType := by
  cases reply with
  | downloadData data =>
    have htype : listedType 97 = .msgDownloadData := by decide
    rw [replyState, stateType_of_listed hlisted, htype]
    rfl
  | _ => exact replyState_type self (by simp)

end Clibcdc.Parser
