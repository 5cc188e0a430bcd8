import Clibcdc.Parser.Exactness
import Clibcdc.Parser.Unsized

/-!
# Complete and incomplete replies

A complete reply is recognised on its own last byte (`parseData_reply`), with
two exceptions.  An asynchronous message with an empty payload waits for one
more byte.  Download data has the type that the table of the state infos gives
its state, and what is read past the end of an array can be in that table.

What waits is shorter than the longest message that announces its length, or it
is the beginning of a USB device info (`verdict_wait_bound`).
-/

namespace Clibcdc.Parser

open Clibcdc.Automata

/-! ## Complete replies -/

/-- The reply is complete as the protocol has it: download data is not empty,
and it is not as long as an upload result. -/
def Complete : Reply → Prop
  | .downloadData data => data ≠ [] ∧ data.length ≠ 2 ∧ data.length ≠ 4
  | _ => True

/-- The reply is an asynchronous message with an empty payload. -/
def EmptyPayload : Reply → Prop
  | .ofFrame frame => ¬ frame.Sized
  | _ => False

/-- The reply is download data. -/
def IsDownload : Reply → Prop
  | .downloadData _ => True
  | _ => False

instance : DecidablePred EmptyPayload
  | .ofFrame frame => inferInstanceAs (Decidable (¬ frame.Sized))
  | .trInfo _ | .uploadResult _ | .downloadData _ => inferInstanceAs (Decidable False)

variable (types : Nat → MessageType)

theorem verdict_trInfo_reply (block : ModuleBlock) :
    verdict types (Reply.trInfo block).bytes =
      .accept ((Reply.trInfo block).bytes.length - 1) (types 23) := by
  have hlast : (block.data ++ [cr])[block.data.length]? = some cr := List.getElem?_concat_length
  have hbytes : (Reply.trInfo block).bytes = ascii "<IT:" ++ (block.data ++ [cr]) :=
    List.append_assoc _ _ _
  rw [hbytes, verdict_trInfo_eq]
  rcases block.size with hsize | hsize
  · rw [hsize] at hlast
    rw [if_pos ⟨by simp [hsize], hlast⟩]
    simp [ascii, hsize]
  · rw [hsize] at hlast
    rw [if_neg (by simp [hsize]), if_pos (by simp [hsize]), if_pos hlast]
    simp [ascii, hsize]

theorem verdict_uploadResult_reply (response : PMResponse) :
    verdict types (Reply.uploadResult response).bytes =
      .accept ((Reply.uploadResult response).bytes.length - 1) (types (uploadState response)) := by
  have hbytes : (Reply.uploadResult response).bytes = ascii "<PM:" ++ (response.text ++ [cr]) :=
    List.append_assoc _ _ _
  have hsize : response.text.length = 2 ∨ response.text.length = 4 := by
    cases response <;> decide
  have hlen : (response.text ++ [cr]).length = response.text.length + 1 := by simp
  rw [hbytes, verdict_pmResp_eq, if_neg (by omega), if_pos (by omega), uploadVerdict,
    uploadScan_text]
  simp [ascii]

theorem verdict_downloadData_reply {data : UString} (hcomplete : Complete (.downloadData data)) :
    verdict types (Reply.downloadData data).bytes =
      .accept ((Reply.downloadData data).bytes.length - 1) (types 97) := by
  obtain ⟨hne, htwo, hfour⟩ := hcomplete
  have hbytes : (Reply.downloadData data).bytes = ascii "<PM:" ++ (data ++ [cr]) :=
    List.append_assoc _ _ _
  have hpos := List.length_pos_iff.mpr hne
  have hlen : (data ++ [cr]).length = data.length + 1 := by simp
  rw [hbytes, verdict_pmResp_eq, if_neg (by omega), if_neg (by omega), if_pos List.getLast?_concat]
  simp [ascii]

/-- A complete reply is accepted at its last byte, unless its payload is
empty. -/
theorem verdict_reply {reply : Reply} (hcomplete : Complete reply)
    (hpayload : ¬ EmptyPayload reply) :
    verdict types reply.bytes = .accept (reply.bytes.length - 1) (types (replyState reply)) := by
  cases reply with
  | ofFrame frame =>
    have hframe := verdict_frame types frame [] (.inl (not_not.mp hpayload))
    rwa [List.append_nil] at hframe
  | trInfo block => exact verdict_trInfo_reply types block
  | uploadResult response => exact verdict_uploadResult_reply types response
  | downloadData data => exact verdict_downloadData_reply types hcomplete

/-- An empty payload waits for a byte behind the message. -/
theorem verdict_emptyPayload {reply : Reply} (h : EmptyPayload reply) :
    verdict types reply.bytes = .wait := by
  cases reply with
  | ofFrame frame =>
    cases frame with
    | async payload =>
      have hnil : payload.data = [] := not_not.mp h
      have hbytes := async_bytes payload []
      rw [List.append_nil] at hbytes
      rw [show (Reply.ofFrame (.async payload)).bytes = _ from hbytes, verdict_asynData, hnil]
      rfl
    | _ => exact absurd trivial h
  | _ => exact absurd h id

/-- The type that a parser gives a complete reply. -/
theorem replyState_type_iff (self : CDCMessageParserPrivate) (reply : Reply) :
    self.stateType (replyState reply) = reply.msgType ↔
      (IsDownload reply → self.stateType 97 = .msgDownloadData) := by
  cases reply with
  | downloadData data => exact ⟨fun h _ => h, fun h => h trivial⟩
  | _ => exact iff_of_true (replyState_type self (by simp)) (fun h => absurd h id)

/-- A complete reply is recognised on its own last byte, exactly when it is no
asynchronous message with an empty payload and, where it is download data, the
state of download data has the type of download data. -/
theorem parseData_reply (self : CDCMessageParserPrivate) {reply : Reply}
    (hcomplete : Complete reply) :
    parseData self reply.bytes = .ok ⟨reply.msgType, .parseOk, reply.bytes.length - 1⟩ ↔
      ¬ EmptyPayload reply ∧ (IsDownload reply → self.stateType 97 = .msgDownloadData) := by
  obtain ⟨result, hresult, hverdict⟩ := parseData_eq_verdict self reply.bytes
  rw [hresult, Except.ok.injEq, ← verdictOf_eq_accept, hverdict]
  by_cases hpayload : EmptyPayload reply
  · rw [verdict_emptyPayload self.stateType hpayload]
    exact iff_of_false nofun (fun h => h.1 hpayload)
  · rw [verdict_reply self.stateType hcomplete hpayload, ← replyState_type_iff self reply,
      Verdict.accept.injEq]
    exact ⟨fun h => ⟨hpayload, h.2⟩, fun h => ⟨rfl, h.2⟩⟩

/-- A device info whose payload is nothing but the two hashes. -/
theorem parseData_reply_usbInfo :
    parseData (.new listedOnly) (ascii "<I:##" ++ [cr]) = .ok ⟨.msgUsbInfo, .parseOk, 5⟩ :=
  (@parseData_reply (.new listedOnly)
    (.ofFrame (.usbInfo (Field.empty _) (Field.empty _) (Field.empty _))) trivial).mpr
    ⟨by decide, fun h => absurd h id⟩

/-- The asynchronous message with an empty payload is complete, and waits. -/
theorem parseData_emptyPayload_waits :
    ∃ reply : Reply, Complete reply ∧ reply.bytes = ascii "<DR" ++ [0, chr ':', cr] ∧
      ∃ result, parseData (.new listedOnly) reply.bytes = .ok result ∧
        result.resultType = .parseNotComplete ∧
        result ≠ ⟨reply.msgType, .parseOk, reply.bytes.length - 1⟩ :=
  ⟨.ofFrame (.async ⟨[], by decide⟩), trivial, by decide,
    ⟨.msgError, .parseNotComplete, 5⟩, by decide, rfl, by decide⟩

/-! ## What waits -/

section Waiting

variable {types : Nat → MessageType}

/-- A scan that has not stopped has read a few bytes only. -/
theorem plainScan_short {b : UString} {s : Nat} (h : plainScan initialState 0 b = .ended s) :
    b.length ≤ 9 := by
  have hshort : ∀ state ∈ reachableStates, (stateText state).length ≤ 9 := by decide +kernel
  obtain ⟨-, hstate, hread⟩ := scan_ended hasRead_step hasRead_initial h
  rw [List.nil_append] at hread
  rw [← hread.length_eq]
  exact hshort s hstate

/-- What waits is shorter than the longest message that announces its length,
or begins a USB device info. -/
theorem verdict_wait_bound {b : UString} (h : verdict types b = .wait) :
    b.length < 261 ∨ ∃ type version id, b <+: (Frame.usbInfo type version id).bytes := by
  obtain hplain | ⟨w, rfl⟩ | ⟨n, w, rfl⟩ | ⟨w, rfl⟩ | ⟨w, rfl⟩ := reading b
  · left
    rw [verdict_plain hplain] at h
    cases hscan : plainScan initialState 0 b with
    | ended s => exact Nat.lt_of_le_of_lt (plainScan_short hscan) (by decide)
    | stuck k => simp [hscan] at h
    | stopped s k => simp [hscan] at h
  · right
    rw [verdict_usbInfo] at h
    cases hscan : usbScan (.reading .type) 3 w with
    | ended s => exact usbInfo_completes hscan
    | stuck k => simp [hscan] at h
    | stopped s k => simp [hscan] at h
  · left
    have hn := n.toNat_lt
    rw [verdict_asynData] at h
    split_ifs at h with hshort
    simp [ascii]
    omega
  · left
    rw [verdict_trInfo_eq] at h
    split_ifs at h with hstandard hextended
    simp [ascii]
    omega
  · left
    rw [verdict_pmResp_eq] at h
    split_ifs at h with hshort hsize
    all_goals simp [ascii]; omega

end Waiting

end Clibcdc.Parser
