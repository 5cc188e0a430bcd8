import Clibcdc.Parser.Soundness

/-!
# The exact verdicts of the parser

`verdict_frame` and `verdict_accept_frame` say which buffers are accepted.
This module adds what waits and what is rejected.

* `verdict_wait_completes`: what waits is the beginning of a frame.
* `verdict_reject_split`: what is rejected waits up to the byte that is
  rejected, and the rejection needs no byte behind it.

`parseData_exact` puts them together: the verdict of a buffer can be read off
the set of frames alone.  A reply that begins with `<IT:` or `<PM:` counts as
a frame here whatever follows, and an asynchronous message with an empty
payload is left out: it is decided one byte too late.
-/

namespace Clibcdc.Parser

open Clibcdc.Automata

/-- A complete frame, or anything that begins with `<IT:` or `<PM:`. -/
def IsFrame (x : UString) : Prop := (∃ frame : Frame, x = frame.bytes) ∨ IsOpen x

/-- The beginning of a frame. -/
def BeginsFrame (x : UString) : Prop := ∃ y, IsFrame (x ++ y)

/-- The buffer begins with an asynchronous message that announces no bytes. -/
def IsEmptyAsync (b : UString) : Prop := ascii "<DR" ++ [0, chr ':'] <+: b

instance : DecidablePred IsEmptyAsync := fun b =>
  inferInstanceAs (Decidable (ascii "<DR" ++ [0, chr ':'] <+: b))

theorem BeginsFrame.of_append {x y : UString} (h : BeginsFrame (x ++ y)) : BeginsFrame x := by
  obtain ⟨z, hz⟩ := h
  exact ⟨y ++ z, by rwa [← List.append_assoc]⟩

theorem BeginsFrame.take {x : UString} (h : BeginsFrame x) (n : Nat) :
    BeginsFrame (x.take n) := by
  rw [← List.take_append_drop n x] at h
  exact h.of_append

section Verdicts

variable {types : Nat → MessageType} {b : UString}

/-! ## What waits begins a frame -/

/-- The text of a device info that is not complete begins one. -/
theorem usbInfo_completes {w : UString} {n : Nat} {s : UsbState}
    (h : usbScan (.reading .type) n w = .ended s) :
    ∃ type version id, ascii "<I:" ++ w <+: (Frame.usbInfo type version id).bytes := by
  obtain ⟨hstop, hread⟩ := scan_ended usbRead_step usbRead_nil h
  rw [List.nil_append] at hread
  have hframe : ∀ (type : Field isTypeByte) (version : Field isVersionByte)
      (id : Field isIdByte) (y : UString),
      w ++ y = type.text ++ chr '#' :: (version.text ++ chr '#' :: (id.text ++ [cr])) →
        ∃ type version id, ascii "<I:" ++ w <+: (Frame.usbInfo type version id).bytes := by
    intro type version id y hy
    refine ⟨type, version, id, y, ?_⟩
    rw [List.append_assoc, hy, ← usbInfo_bytes, List.append_nil]
  rcases s with (_ | _ | _) | _
  · obtain ⟨type, rfl⟩ := hread
    exact hframe type (Field.empty _) (Field.empty _) [chr '#', chr '#', cr] rfl
  · obtain ⟨type, version, rfl⟩ := hread
    exact hframe type version (Field.empty _) [chr '#', cr] (by simp [Field.empty])
  · obtain ⟨type, version, id, rfl⟩ := hread
    exact hframe type version id [cr] (by simp)
  · simp [usbStop] at hstop

theorem beginsFrame_usbInfo {x : UString}
    (h : ∃ type version id, x <+: (Frame.usbInfo type version id).bytes) : BeginsFrame x := by
  obtain ⟨type, version, id, y, hy⟩ := h
  exact ⟨y, .inl ⟨_, hy⟩⟩

theorem asynData_completes {n : Byte} {w : UString} (h : w.length ≤ n.toNat) :
    BeginsFrame (ascii "<DR" ++ n :: chr ':' :: w) := by
  have hfill : (w ++ List.replicate (n.toNat - w.length) 0).length = n.toNat := by
    rw [List.length_append, List.length_replicate]
    omega
  have hshort : (w ++ List.replicate (n.toNat - w.length) 0).length ≤ 255 := by
    have := n.toNat_lt
    omega
  refine ⟨List.replicate (n.toNat - w.length) 0 ++ [cr], .inl ⟨.async ⟨_, hshort⟩, ?_⟩⟩
  have hbytes := async_bytes ⟨_, hshort⟩ []
  rw [List.append_nil] at hbytes
  rw [hbytes, Payload.lengthByte, hfill]
  simp

/-- A buffer that the transition map reads to its end has a completion. -/
theorem plainScan_completes {s : Nat} (h : plainScan initialState 0 b = .ended s) :
    BeginsFrame b := by
  obtain ⟨hstop, hstate, -⟩ := scan_ended hasRead_step hasRead_initial h
  obtain ⟨s', -, -, hcompletion⟩ := completion_stops s hstate hstop
  apply BeginsFrame.of_append (y := completion s)
  have hscan : plainScan initialState 0 (b ++ completion s) =
      .stopped s' (b ++ completion s).length := by
    have hshift := scan_stopped_add b.length hcompletion
    rw [plainScan, scan_append_of_ended _ h, List.length_append, Nat.add_comm b.length]
    exact hshift
  generalize b ++ completion s = data at hscan
  -- the completion ends where the scan stops, so nothing follows
  have hheader : ∀ {header w : UString} {s₀ : Nat}, data = header ++ w →
      plainScan initialState 0 header = .stopped s₀ header.length → w = [] := by
    intro header w s₀ hdata hstopped
    have hk := scan_append_of_stopped w hstopped
    have heq := hscan.symm.trans (hdata ▸ hk)
    rw [hdata, List.length_append, Scan.stopped.injEq] at heq
    exact List.length_eq_zero_iff.mp (by omega)
  obtain hplain | ⟨w, hw⟩ | ⟨n, w, hw⟩ | hopen := reading data
  · obtain ⟨frame, y, hb, hk, -⟩ := plainScan_finite_frame hscan (hplain _ _ hscan)
    have hy : y = [] := by
      have hlen := congrArg List.length hb
      rw [List.length_append] at hlen
      exact List.length_eq_zero_iff.mp (by omega)
    exact ⟨[], .inl ⟨frame, by simp [hb, hy]⟩⟩
  · obtain rfl := hheader hw plainScan_usbInfo
    exact hw ▸ beginsFrame_usbInfo (@usbInfo_completes [] 0 (.reading .type) rfl)
  · have hsplit : data = (ascii "<DR" ++ [n, chr ':']) ++ w := by simpa using hw
    obtain rfl := hheader hsplit (plainScan_asynData n)
    exact hw ▸ asynData_completes (Nat.zero_le _)
  · exact ⟨[], .inr (by rwa [List.append_nil])⟩

private theorem asynData_pos {n : Byte} {w : UString}
    (hempty : ¬ IsEmptyAsync (ascii "<DR" ++ n :: chr ':' :: w)) : 0 < n.toNat := by
  by_contra hzero
  obtain rfl : n = 0 := UInt8.toNat_inj.mp (by simpa using hzero)
  exact hempty ⟨w, by simp⟩

/-- A buffer that waits is the beginning of a frame. -/
theorem verdict_wait_completes (hopen : ¬ IsOpen b) (hempty : ¬ IsEmptyAsync b)
    (h : verdict types b = .wait) : BeginsFrame b := by
  obtain hplain | ⟨w, rfl⟩ | ⟨n, w, rfl⟩ | hopen' := reading b
  · rw [verdict_plain hplain] at h
    cases hscan : plainScan initialState 0 b with
    | ended s => exact plainScan_completes hscan
    | stuck k => simp [hscan] at h
    | stopped s k => simp [hscan] at h
  · rw [verdict_usbInfo] at h
    cases hscan : usbScan (.reading .type) 3 w with
    | ended s => exact beginsFrame_usbInfo (usbInfo_completes hscan)
    | stuck k => simp [hscan] at h
    | stopped s k => simp [hscan] at h
  · have hpos := asynData_pos hempty
    rw [verdict_asynData] at h
    split_ifs at h with hshort
    exact asynData_completes (by omega)
  · exact absurd hopen' hopen

/-! ## What is rejected -/

/-- A buffer that is rejected waits up to the rejected byte, and is rejected
there whatever follows. -/
theorem verdict_reject_split {p : Nat} (hopen : ¬ IsOpen b) (hempty : ¬ IsEmptyAsync b)
    (h : verdict types b = .reject p) :
    ∃ u a v, b = u ++ a :: v ∧ p = u.length ∧ verdict types u = .wait ∧
      verdict types (u ++ [a]) = .reject p := by
  obtain hplain | ⟨w, rfl⟩ | ⟨n, w, rfl⟩ | hopen' := reading b
  · rw [verdict_plain hplain] at h
    cases hscan : plainScan initialState 0 b with
    | ended s => simp [hscan] at h
    | stuck k =>
      obtain rfl : k = p := by simpa [hscan] using h
      obtain ⟨u, a, v, s, rfl, hk, hu, ha⟩ := scan_stuck hscan
      refine ⟨u, a, v, rfl, by omega, ?_, ?_⟩
      · rw [verdict, plainScan, hu]
      · rw [verdict, plainScan, ha]
    | stopped s k => simp [hscan] at h
  · rw [verdict_usbInfo] at h
    cases hscan : usbScan (.reading .type) 3 w with
    | ended s => simp [hscan] at h
    | stuck k =>
      obtain rfl : k = p := by simpa [hscan] using h
      obtain ⟨u, a, v, s, rfl, hk, hu, ha⟩ := scan_stuck hscan
      refine ⟨ascii "<I:" ++ u, a, v, by simp, by simp [ascii]; omega, ?_, ?_⟩
      · rw [verdict_usbInfo, usbScan, hu]
      · rw [List.append_assoc, verdict_usbInfo, usbScan, ha]
    | stopped s k => simp [hscan] at h
  · have hpos := asynData_pos hempty
    rw [verdict_asynData] at h
    split_ifs at h with hshort hcr
    obtain rfl : 5 + n.toNat = p := by simpa using h
    have hlt : n.toNat < w.length := by omega
    have htake : (w.take n.toNat).length = n.toNat := List.length_take_of_le (by omega)
    have hw : w = w.take n.toNat ++ w[n.toNat] :: w.drop (n.toNat + 1) := by
      rw [← List.drop_eq_getElem_cons hlt, List.take_append_drop]
    have hlast : (w.take n.toNat ++ [w[n.toNat]])[n.toNat]? = some w[n.toNat] := by
      rw [List.getElem?_append_right (by omega), htake]
      simp
    refine ⟨ascii "<DR" ++ n :: chr ':' :: w.take n.toNat, w[n.toNat], w.drop (n.toNat + 1),
      ?_, ?_, ?_, ?_⟩
    · conv_lhs => rw [hw]
      simp
    · simp [ascii, htake]
      omega
    · rw [verdict_asynData, if_pos (.inr (by omega))]
    · rw [List.getElem?_eq_getElem hlt] at hcr
      rw [List.append_assoc, List.cons_append, List.cons_append, verdict_asynData, if_neg, hlast,
        if_neg hcr]
      rw [List.length_append, htake, List.length_singleton]
      omega
  · exact absurd hopen' hopen

theorem verdict_reject_take {p : Nat} (hopen : ¬ IsOpen b) (hempty : ¬ IsEmptyAsync b)
    (h : verdict types b = .reject p) :
    p < b.length ∧ verdict types (b.take p) = .wait ∧
      verdict types (b.take (p + 1)) = .reject p := by
  obtain ⟨u, a, v, rfl, rfl, hwait, hreject⟩ := verdict_reject_split hopen hempty h
  refine ⟨by simp, by rwa [List.take_left], ?_⟩
  have htake : (u ++ a :: v).take (u.length + 1) = u ++ [a] := by
    rw [List.take_append, List.take_of_length_le (Nat.le_succ _)]
    simp
  rwa [htake]

/-- The headers of the open replies wait. -/
private theorem verdict_header (types : Nat → MessageType) :
    verdict types (ascii "<IT:") = .wait ∧ verdict types (ascii "<PM:") = .wait := by
  have htr := verdict_trInfo types []
  have hpm := verdict_pmResp types []
  rw [List.append_nil] at htr hpm
  exact ⟨htr, hpm⟩

private theorem verdict_header_begin {header x y : UString} (hopen : ¬ header <+: x)
    (hnot : ¬ IsOpen x) (hwait : verdict types header = .wait) (h : header <+: x ++ y) :
    verdict types x = .wait := by
  obtain ⟨z, hz⟩ : x <+: header :=
    (List.prefix_or_prefix_of_prefix (List.prefix_append x y) h).resolve_right hopen
  by_contra hne
  rw [← hz, verdict_append z hnot hne] at hwait
  exact hne hwait

/-- What is rejected is not the beginning of a frame. -/
theorem not_beginsFrame_of_reject {p : Nat} (hopen : ¬ IsOpen b)
    (h : verdict types b = .reject p) : ¬ BeginsFrame b := by
  have hne : verdict types b ≠ .wait := by simp [h]
  rintro ⟨y, ⟨frame, hframe⟩ | hit | hpm⟩
  · have haccept := verdict_frame types frame [0] (.inr (by simp))
    rw [← hframe, List.append_assoc, verdict_append _ hopen hne, h] at haccept
    cases haccept
  · exact hne (verdict_header_begin (fun hx => hopen (.inl hx)) hopen (verdict_header types).1 hit)
  · exact hne (verdict_header_begin (fun hx => hopen (.inr hx)) hopen (verdict_header types).2 hpm)

theorem not_isOpen_of_prefix {x : UString} (hopen : ¬ IsOpen b) (h : x <+: b) : ¬ IsOpen x := by
  obtain ⟨y, rfl⟩ := h
  exact fun hx => hopen (hx.append y)

/-! ## The verdicts, read off the frames -/

/-- A frame at the head of a buffer that has none of the exceptions. -/
private theorem verdict_of_begins (types : Nat → MessageType) {frame : Frame}
    (hempty : ¬ IsEmptyAsync b)
    (h : frame.bytes <+: b) :
    verdict types b = .accept (frame.bytes.length - 1) (types (finalState frame)) := by
  obtain ⟨y, rfl⟩ := h
  apply verdict_frame types frame y
  cases frame with
  | async payload =>
    left
    intro hnil
    apply hempty
    rw [async_bytes, Payload.lengthByte, hnil]
    exact ⟨cr :: y, rfl⟩
  | _ => exact .inl trivial

/-- Accepted at `p`: the bytes up to `p` are a frame. -/
theorem verdict_accept_iff {p : Nat} {t : MessageType} (hopen : ¬ IsOpen b)
    (hempty : ¬ IsEmptyAsync b) :
    verdict types b = .accept p t ↔
      p < b.length ∧ ∃ frame : Frame, b.take (p + 1) = frame.bytes ∧
        types (finalState frame) = t := by
  constructor
  · intro h
    obtain ⟨frame, y, rfl, rfl, rfl⟩ := verdict_accept_frame hopen h
    have hlen := frame.bytes_length
    refine ⟨by rw [List.length_append]; omega, frame, ?_, rfl⟩
    rw [Nat.sub_add_cancel (by omega), List.take_left]
  · rintro ⟨hp, frame, hframe, rfl⟩
    have hlen := congrArg List.length hframe
    rw [List.length_take_of_le hp] at hlen
    have haccept := verdict_of_begins types hempty
      (hframe ▸ List.take_prefix (p + 1) b)
    rwa [← hlen, Nat.succ_sub_one] at haccept

/-- Waiting: the buffer is the beginning of a frame and holds none yet. -/
theorem verdict_wait_iff (hopen : ¬ IsOpen b) (hempty : ¬ IsEmptyAsync b) :
    verdict types b = .wait ↔ BeginsFrame b ∧ ∀ frame : Frame, ¬ frame.bytes <+: b := by
  constructor
  · intro h
    refine ⟨verdict_wait_completes hopen hempty h, fun frame hframe => ?_⟩
    rw [verdict_of_begins types hempty hframe] at h
    cases h
  · rintro ⟨hbegins, hnone⟩
    cases hverdict : verdict types b with
    | accept p t =>
      obtain ⟨frame, y, hb, -, -⟩ := verdict_accept_frame hopen hverdict
      exact absurd ⟨y, hb.symm⟩ (hnone frame)
    | reject p => exact absurd hbegins (not_beginsFrame_of_reject hopen hverdict)
    | wait => rfl

/-- Rejected at `p`: the bytes before `p` begin a frame and hold none, and
with the byte at `p` they begin no frame any more. -/
theorem verdict_reject_iff {p : Nat} (hopen : ¬ IsOpen b) (hempty : ¬ IsEmptyAsync b) :
    verdict types b = .reject p ↔
      p < b.length ∧ BeginsFrame (b.take p) ∧ (∀ frame : Frame, ¬ frame.bytes <+: b.take p) ∧
        ¬ BeginsFrame (b.take (p + 1)) := by
  have hopenTake : ∀ n, ¬ IsOpen (b.take n) := fun n =>
    not_isOpen_of_prefix hopen (List.take_prefix n b)
  have hemptyTake : ∀ n, ¬ IsEmptyAsync (b.take n) := fun n h =>
    hempty (h.trans (List.take_prefix n b))
  have hforth : ∀ q, verdict types b = .reject q →
      q < b.length ∧ (BeginsFrame (b.take q) ∧ ∀ frame : Frame, ¬ frame.bytes <+: b.take q) ∧
        ¬ BeginsFrame (b.take (q + 1)) := by
    intro q h
    obtain ⟨hq, hwait, hreject⟩ := verdict_reject_take hopen hempty h
    exact ⟨hq, (verdict_wait_iff (hopenTake q) (hemptyTake q)).mp hwait,
      not_beginsFrame_of_reject (hopenTake (q + 1)) hreject⟩
  constructor
  · intro h
    obtain ⟨hq, ⟨hbegins, hnone⟩, hnot⟩ := hforth p h
    exact ⟨hq, hbegins, hnone, hnot⟩
  · rintro ⟨hp, hbegins, hnone, hnot⟩
    cases hverdict : verdict types b with
    | accept q t =>
      obtain ⟨frame, y, hb, -, -⟩ := verdict_accept_frame hopen hverdict
      -- the frame ends before `p`, or it goes beyond
      rcases Nat.le_total frame.bytes.length p with hle | hle
      · refine absurd (List.prefix_take_iff.mpr ⟨⟨y, hb.symm⟩, hle⟩) (hnone frame)
      · exfalso
        by_cases heq : frame.bytes.length = p
        · exact hnone frame (List.prefix_take_iff.mpr ⟨⟨y, hb.symm⟩, by omega⟩)
        · have htake : b.take (p + 1) = frame.bytes.take (p + 1) := by
            rw [hb, List.take_append_of_le_length (by omega)]
          have hframe : BeginsFrame frame.bytes := ⟨[], .inl ⟨frame, List.append_nil _⟩⟩
          exact hnot (htake ▸ hframe.take (p + 1))
    | wait =>
      exact absurd ((verdict_wait_completes hopen hempty hverdict).take (p + 1)) hnot
    | reject q =>
      obtain ⟨hq, ⟨hbegins', -⟩, hnot'⟩ := hforth q hverdict
      have htake : ∀ {m n}, m ≤ n → BeginsFrame (b.take n) → BeginsFrame (b.take m) := by
        intro m n hmn h
        have := h.take m
        rwa [List.take_take, Nat.min_eq_left hmn] at this
      rcases Nat.lt_trichotomy q p with hlt | rfl | hlt
      · exact absurd (htake hlt hbegins) hnot'
      · rfl
      · exact absurd (htake hlt hbegins') hnot

end Verdicts

/-- The result of `parseData` on a buffer, read off the frames of the
protocol. -/
theorem parseData_exact (self : CDCMessageParserPrivate) (b : UString) (hopen : ¬ IsOpen b)
    (hempty : ¬ IsEmptyAsync b) :
    ∃ result, parseData self b = .ok result ∧
      (∀ p t, result = ⟨t, .parseOk, p⟩ ↔
        p < b.length ∧ ∃ frame : Frame, b.take (p + 1) = frame.bytes ∧ frame.msgType = t) ∧
      (∀ p, (result.resultType = .parseBadFormat ∧ result.lastPosition = p) ↔
        p < b.length ∧ BeginsFrame (b.take p) ∧ (∀ frame : Frame, ¬ frame.bytes <+: b.take p) ∧
          ¬ BeginsFrame (b.take (p + 1))) ∧
      (result.resultType = .parseNotComplete ↔
        BeginsFrame b ∧ ∀ frame : Frame, ¬ frame.bytes <+: b) ∧
      ∀ y, result.resultType ≠ .parseNotComplete →
        ∃ result', parseData self (b ++ y) = .ok result' ∧
          verdictOf result' = verdictOf result := by
  obtain ⟨result, hresult, hverdict⟩ := parseData_eq_verdict self b
  refine ⟨result, hresult, fun p t => ?_, fun p => ?_, ?_, fun y hy => ?_⟩
  · rw [← verdictOf_eq_accept, hverdict, verdict_accept_iff hopen hempty]
    simp only [finalState_type]
  · rw [← verdictOf_eq_reject, hverdict, verdict_reject_iff hopen hempty]
  · rw [← verdictOf_eq_wait, hverdict, verdict_wait_iff hopen hempty]
  · obtain ⟨result', hresult', hverdict'⟩ := parseData_eq_verdict self (b ++ y)
    refine ⟨result', hresult', ?_⟩
    rw [hverdict', hverdict]
    apply verdict_append y hopen
    rwa [← hverdict, Ne, verdictOf_eq_wait]

theorem parseData_exact_ok :
    ∃ result, parseData (.new listedOnly) (ascii "<OK" ++ [cr]) = .ok result ∧
      result = ⟨.msgTest, .parseOk, 3⟩ := by
  obtain ⟨result, hresult, haccept, -⟩ :=
    parseData_exact (.new listedOnly) (ascii "<OK" ++ [cr]) (by decide) (by decide)
  exact ⟨result, hresult, (haccept 3 .msgTest).mpr ⟨by decide, .test, rfl, rfl⟩⟩

/-- A frame is a prefix of itself, and with a byte behind it of no frame.  The
buffer is accepted at the end of the frame, and not rejected at that byte. -/
theorem parseData_accepts_before_garbage :
    ascii "<OK" ++ [cr, chr 'X'] ≠ [] ∧ ¬ IsOpen (ascii "<OK" ++ [cr, chr 'X']) ∧
      ¬ IsEmptyAsync (ascii "<OK" ++ [cr, chr 'X']) ∧
      ¬ ((∃ result, parseData (.new listedOnly) (ascii "<OK" ++ [cr, chr 'X']) = .ok result ∧
          result.resultType = .parseBadFormat ∧ result.lastPosition = 4) ↔
        BeginsFrame ((ascii "<OK" ++ [cr, chr 'X']).take 4) ∧
          ¬ BeginsFrame ((ascii "<OK" ++ [cr, chr 'X']).take 5)) := by
  have hresult : parseData (.new listedOnly) (ascii "<OK" ++ [cr, chr 'X']) =
      .ok ⟨.msgTest, .parseOk, 3⟩ := by
    decide
  have hnot : ¬ BeginsFrame ((ascii "<OK" ++ [cr, chr 'X']).take 5) := by
    rintro ⟨y, ⟨frame, hframe⟩ | hopen⟩
    · have hlong : 5 ≤ frame.bytes.length := by
        rw [← hframe]
        simp [ascii]
      have htest := verdict_frame listedType Frame.test (chr 'X' :: (y ++ [0])) (.inl trivial)
      have hbytes : Frame.test.bytes ++ chr 'X' :: (y ++ [0]) = frame.bytes ++ [0] := by
        rw [← hframe]
        rfl
      rw [hbytes, verdict_frame listedType frame [0] (.inr (by simp))] at htest
      have hlast : frame.bytes.length - 1 = 3 := (Verdict.accept.inj htest).1
      omega
    · rcases hopen with ⟨z, hz⟩ | ⟨z, hz⟩
      · exact absurd (congrArg (·[1]?) hz) (by simp [ascii, chr])
      · exact absurd (congrArg (·[1]?) hz) (by simp [ascii, chr])
  refine ⟨by decide, by decide, by decide, fun hiff => ?_⟩
  obtain ⟨result, hok, hbad, -⟩ := hiff.mpr ⟨⟨[], .inl ⟨.test, rfl⟩⟩, hnot⟩
  obtain rfl : ⟨.msgTest, .parseOk, 3⟩ = result := Except.ok.inj (hresult.symm.trans hok)
  cases hbad

end Clibcdc.Parser
