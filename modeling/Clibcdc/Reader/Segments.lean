import Clibcdc.Parser.Recognition
import Clibcdc.Reader.Framing

/-!
# Where the bytes of a buffer go

`processAllMessages` cuts its buffer into segments and a rest.  Each segment is
dispatched as one message or discarded as one line, and the rest waits for more
bytes (`processAllMessages_segments`).

* What waits is shorter than the longest message that announces its length, or
  it is the beginning of a USB device info, which can wait at any length
  (`processAllMessages_residual`).
* A bad line costs only itself: in a buffer of frames and bad lines the frames
  are dispatched and the bad lines discarded (`processAllMessages_lines`).
-/

namespace Clibcdc.Reader

open Clibcdc.Automata Clibcdc.Parser

/-! ## Segments -/

/-- `piece`, at the front of the buffer `w`, is taken as `item`: it is the
message that `parseData` accepts, or the line up to the first carriage return
at or behind the position at which `parseData` fails. -/
def Segment (parser : CDCMessageParserPrivate) (w piece : UString) : Item → Prop
  | .message parsedMessage =>
    parseData parser (repair w) = .ok parsedMessage.parseResult ∧
      parsedMessage.parseResult.resultType = .parseOk ∧
      piece.length = parsedMessage.parseResult.lastPosition + 1 ∧
      parsedMessage.message = repair piece ∧ (repair piece).getLast? = some cr
  | .discarded line =>
    ∃ last, parseData parser (repair w) = .ok last ∧ last.resultType = .parseBadFormat ∧
      (match find (repair w) cr last.lastPosition with
        | some endMsgPos => piece.length = endMsgPos + 1
        | none => piece = w) ∧
      line = repair piece

/-- The buffer `w` is cut into pieces that are taken as items one after the
other, and a rest that waits for more bytes. -/
inductive Segmentation (parser : CDCMessageParserPrivate) :
    UString → List UString → List Item → UString → Prop
  | waits {rest : UString}
      (hwaits : rest = [] ∨ ∃ last, parseData parser (repair rest) = .ok last ∧
        last.resultType = .parseNotComplete) : Segmentation parser rest [] [] rest
  | takes {piece w rest : UString} {pieces : List UString} {item : Item} {items : List Item}
      (hpiece : piece ≠ []) (hsegment : Segment parser (piece ++ w) piece item)
      (hrest : Segmentation parser w pieces items rest) :
      Segmentation parser (piece ++ w) (piece :: pieces) (item :: items) rest

theorem Segmentation.flatten {parser : CDCMessageParserPrivate} {w rest : UString}
    {pieces : List UString} {items : List Item} (h : Segmentation parser w pieces items rest) :
    pieces.flatten ++ rest = w := by
  induction h with
  | waits hwaits => rfl
  | takes hpiece hsegment hrest ih => rw [List.flatten_cons, List.append_assoc, ih]

/-- The part of the repaired buffer that an item is. -/
def Item.bytes : Item → UString
  | .message parsedMessage => parsedMessage.message
  | .discarded line => line

/-- How an item is taken from the front of a buffer. -/
theorem look_cases {types : Nat → MessageType} {w rest : UString} {item : Item}
    (h : (lexer types).look w = some (item, rest)) :
    repair w = item.bytes ++ rest ∧
      ((∃ p t message, verdict types (repair w) = .accept p t ∧
          item = .message ⟨message, ⟨t, .parseOk, p⟩⟩) ∨
        ∃ p line, verdict types (repair w) = .reject p ∧ item = .discarded line ∧
          match find (repair w) cr p with
          | some endMsgPos => line.length = endMsgPos + 1
          | none => line = repair w) := by
  rw [look_eq] at h
  cases hverdict : verdict types (repair w) with
  | accept p t =>
    rw [hverdict, itemOf, Option.some.injEq, Prod.mk.injEq] at h
    obtain ⟨rfl, rfl⟩ := h
    exact ⟨(List.take_append_drop _ _).symm, .inl ⟨p, t, _, rfl, rfl⟩⟩
  | reject p =>
    cases hfind : find (repair w) cr p with
    | none =>
      simp only [hverdict, itemOf, hfind, Option.some.injEq, Prod.mk.injEq] at h
      obtain ⟨rfl, rfl⟩ := h
      exact ⟨(List.append_nil _).symm, .inr ⟨p, _, rfl, rfl, by rw [hfind]⟩⟩
    | some e =>
      simp only [hverdict, itemOf, hfind, Option.some.injEq, Prod.mk.injEq] at h
      obtain ⟨rfl, rfl⟩ := h
      refine ⟨(List.take_append_drop _ _).symm, .inr ⟨p, _, rfl, rfl, ?_⟩⟩
      rw [hfind]
      exact List.length_take_of_le (find_lt hfind)
  | wait => simp [hverdict, itemOf] at h

/-- An item is taken as a segment at the front of its buffer. -/
theorem segment_of_look {parser : CDCMessageParserPrivate} {w rest : UString} {item : Item}
    (h : (lexer parser.stateType).look w = some (item, rest)) :
    ∃ piece, w = piece ++ rest ∧ piece ≠ [] ∧ Segment parser w piece item := by
  obtain ⟨last, hparse, hverdict⟩ := parseData_eq_verdict parser (repair w)
  obtain ⟨hsplit, hcases⟩ := look_cases h
  have hshrinks := (lexer parser.stateType).look_shrinks h
  obtain ⟨piece, rfl⟩ := look_rest h
  rw [List.length_append] at hshrinks
  have hne : piece ≠ [] := List.length_pos_iff.mp (by omega)
  have hbytes : repair piece = item.bytes :=
    List.append_cancel_right ((repair_append hne rest).symm.trans hsplit)
  refine ⟨piece, rfl, hne, ?_⟩
  rcases hcases with ⟨p, t, message, haccept, rfl⟩ | ⟨p, line, hreject, rfl, hline⟩
  · obtain ⟨reply, -, hmessage⟩ := look_message h
    rw [← hverdict, verdictOf_eq_accept] at haccept
    obtain ⟨rfl, hresult⟩ := ParsedMessage.mk.inj hmessage
    have hlen := reply.bytes_length_pos
    refine ⟨by rw [hparse, haccept], rfl, ?_, hbytes.symm,
      by rw [hbytes]; exact reply.getLast_bytes⟩
    rw [hresult, ← repair_length piece, hbytes]
    exact (Nat.sub_add_cancel hlen).symm
  · rw [← hverdict, verdictOf_eq_reject] at hreject
    obtain ⟨htype, rfl⟩ := hreject
    refine ⟨last, hparse, htype, ?_, hbytes.symm⟩
    cases hfind : find (repair (piece ++ rest)) cr last.lastPosition with
    | none =>
      rw [hfind] at hline
      have hlen : piece.length = (piece ++ rest).length := by
        rw [← repair_length piece, hbytes, ← repair_length (piece ++ rest), ← hline, Item.bytes]
      rw [List.length_append] at hlen
      obtain rfl := List.length_eq_zero_iff.mp (by omega : rest.length = 0)
      exact (List.append_nil piece).symm
    | some e =>
      rw [hfind] at hline
      rw [← repair_length piece, hbytes]
      exact hline

/-- The items of a buffer are its segments. -/
theorem segmentation_drain (parser : CDCMessageParserPrivate) (w : UString) :
    ∃ pieces rest, Segmentation parser w pieces ((lexer parser.stateType).drain w).1 rest ∧
      ((lexer parser.stateType).drain w).2 = repair rest := by
  induction w using (lexer parser.stateType).drain_induction with
  | waits w h =>
    rw [(lexer parser.stateType).drain_of_none h]
    obtain ⟨last, hparse, hverdict⟩ := parseData_eq_verdict parser (repair w)
    rw [look_eq_none.mp h, verdictOf_eq_wait] at hverdict
    exact ⟨[], w, .waits (.inr ⟨last, hparse, hverdict⟩), rfl⟩
  | takes w item rest h ih =>
    rw [(lexer parser.stateType).drain_of_some h]
    obtain ⟨pieces, residual, hpieces, hresidual⟩ := ih
    obtain ⟨piece, rfl, hpiece, hsegment⟩ := segment_of_look h
    exact ⟨piece :: pieces, residual, .takes hpiece hsegment hpieces, hresidual⟩

/-- A buffer from which nothing is taken stays as it is, and so does the
object but for what the parser keeps. -/
theorem processAllMessages_waits (platform : Platform) {self : CDCImplPrivate}
    (hwrites : self.eventWrites = []) {msgBuffer : UString}
    (h : (lexer self.msgParser.stateType).look msgBuffer = none) :
    ∃ last, processAllMessages platform self msgBuffer =
      (.ok (), withParse self last, repair msgBuffer) := by
  obtain ⟨self', hprocess, hafter⟩ := processAllMessages_eq platform hwrites msgBuffer
  rw [Lexer.drain_of_none _ h] at hprocess hafter
  obtain ⟨last, rfl⟩ := hafter.state
  exact ⟨last, hprocess⟩

/-- A call of `processAllMessages` cuts its buffer into segments, which it
dispatches or discards one after the other, and a rest.  Called again on the
rest it does nothing. -/
theorem processAllMessages_segments (platform : Platform) {self : CDCImplPrivate}
    (hwrites : self.eventWrites = []) (msgBuffer : UString) :
    ∃ self' pieces items rest last,
      processAllMessages platform self msgBuffer = (.ok (), self', repair rest) ∧
      pieces.flatten ++ rest = msgBuffer ∧
      Segmentation self.msgParser msgBuffer pieces items rest ∧
      self'.log = self.log ++ items.flatMap (Item.effects self.asyncListener) ∧
      processAllMessages platform self' (repair rest) =
        (.ok (), withParse self' last, repair rest) := by
  obtain ⟨self', hprocess, hafter⟩ := processAllMessages_eq platform hwrites msgBuffer
  obtain ⟨pieces, rest, hpieces, hrest⟩ := segmentation_drain self.msgParser msgBuffer
  have hlook := (lexer self.msgParser.stateType).look_drain msgBuffer
  rw [hrest] at hlook hprocess
  rw [← hafter.stateType] at hlook
  obtain ⟨last, hagain⟩ := processAllMessages_waits platform hafter.eventWrites hlook
  rw [repair_idem] at hagain
  exact ⟨self', pieces, _, rest, last, hprocess, hpieces.flatten, hpieces, hafter.log, hagain⟩

/-- A frame with a swapped head, a bad line, and the beginning of a frame. -/
theorem processAllMessages_segments_mixed :
    ∃ self' pieces items rest last,
      processAllMessages .linux (.init (.new listedOnly))
          (ascii ">OK" ++ [cr, chr 'X', cr] ++ ascii ">DS") = (.ok (), self', repair rest) ∧
      pieces.flatten ++ rest = ascii ">OK" ++ [cr, chr 'X', cr] ++ ascii ">DS" ∧
      Segmentation (.new listedOnly) (ascii ">OK" ++ [cr, chr 'X', cr] ++ ascii ">DS") pieces items
        rest ∧
      self'.log = [] ++ items.flatMap (Item.effects false) ∧
      processAllMessages .linux self' (repair rest) =
        (.ok (), withParse self' last, repair rest) :=
  @processAllMessages_segments .linux (.init (.new listedOnly)) rfl _

/-! ## How much can wait -/

/-- The beginning of a sized frame waits. -/
theorem verdict_part (types : Nat → MessageType) {frame : Frame} (hsized : frame.Sized)
    {w : UString} (hpart : w <+: frame.bytes) (hproper : w ≠ frame.bytes) :
    verdict types w = .wait := by
  have hopen : ¬ IsOpen w := by
    have hframe := not_isOpen_frame frame []
    rw [List.append_nil] at hframe
    exact not_isOpen_of_prefix hframe hpart
  have hlt : w.length < frame.bytes.length :=
    Nat.lt_of_le_of_ne hpart.length_le fun hlen => hproper (hpart.eq_of_length hlen)
  obtain ⟨z, hz⟩ := hpart
  by_contra hne
  have haccept := verdict_append z hopen hne
  have hframe := verdict_frame types frame [] (.inl hsized)
  rw [List.append_nil] at hframe
  rw [hz, hframe] at haccept
  -- a verdict on the part cannot name the last byte of the frame
  obtain ⟨frame', y, hw, hp, -⟩ := verdict_accept_frame hopen haccept.symm
  have hlen := congrArg List.length hw
  have hpos := frame'.bytes_length
  rw [List.length_append] at hlen
  omega

/-- The beginning of a sized frame stays in the buffer. -/
theorem processAllMessages_part (platform : Platform) {self : CDCImplPrivate}
    (hwrites : self.eventWrites = []) {frame : Frame} (hsized : frame.Sized) {w : UString}
    (hpart : w <+: frame.bytes) (hproper : w ≠ frame.bytes) :
    ∃ last, processAllMessages platform self w = (.ok (), withParse self last, w) := by
  have hrepair : repair w = w := by
    cases w with
    | nil => rfl
    | cons b w =>
      obtain rfl : b = chr '<' := (List.cons_prefix_cons.mp hpart).1
      rfl
  have hwait := verdict_part self.msgParser.stateType hsized hpart hproper
  rw [← hrepair] at hwait
  have hprocess := processAllMessages_waits platform hwrites (look_eq_none.mpr hwait)
  rwa [hrepair] at hprocess

/-- What a call of `processAllMessages` leaves waiting is shorter than 261
bytes, or it is the beginning of a USB device info, and every such beginning
waits. -/
theorem processAllMessages_residual (platform : Platform) {self : CDCImplPrivate}
    (hwrites : self.eventWrites = []) :
    (∀ msgBuffer, ∃ self' rest,
      processAllMessages platform self msgBuffer = (.ok (), self', rest) ∧
      (rest.length < 261 ∨ ∃ type version id, rest <+: (Frame.usbInfo type version id).bytes)) ∧
    ∀ type version id w, w <+: (Frame.usbInfo type version id).bytes →
      w ≠ (Frame.usbInfo type version id).bytes →
      ∃ last, processAllMessages platform self w = (.ok (), withParse self last, w) := by
  constructor
  · intro msgBuffer
    obtain ⟨self', hprocess, -⟩ := processAllMessages_eq platform hwrites msgBuffer
    obtain ⟨r, -, hlook, hrest⟩ :=
      Lexer.drain_rest (L := lexer self.msgParser.stateType) msgBuffer
    refine ⟨self', _, hprocess, ?_⟩
    rw [hrest]
    exact verdict_wait_bound (look_eq_none.mp hlook)
  · intro type version id w hpart hproper
    exact @processAllMessages_part platform self hwrites (.usbInfo type version id) trivial w hpart
      hproper

/-- The type of a device info: any bytes but a hash. -/
private def bytesOfType (text : UString) (h : chr '#' ∉ text) : Field isTypeByte where
  text := text
  valid := by
    intro b hb
    have hne : b ≠ chr '#' := by
      rintro rfl
      exact h hb
    simpa [isTypeByte] using hne

/-- A carriage return does not end a device info that has no hashes yet, so the
message behind it waits as well. -/
theorem processAllMessages_residual_waits :
    ∃ last, processAllMessages .linux (.init (.new listedOnly))
      (ascii "<I:" ++ [cr] ++ ascii "<OK" ++ [cr]) =
        (.ok (), withParse (.init (.new listedOnly)) last,
          ascii "<I:" ++ [cr] ++ ascii "<OK" ++ [cr]) :=
  (@processAllMessages_residual .linux (.init (.new listedOnly)) rfl).2
    (bytesOfType ([cr] ++ ascii "<OK" ++ [cr]) (by decide)) (Field.empty _) (Field.empty _) _
    (by decide) (by decide)

/-- A device info with 300 bytes and no hash waits. -/
theorem processAllMessages_residual_long :
    ∃ msgBuffer self' rest,
      processAllMessages .linux (.init (.new listedOnly)) msgBuffer = (.ok (), self', rest) ∧
      261 ≤ rest.length := by
  have hhash : chr '#' ∉ List.replicate 300 (chr 'a') := by
    simp only [List.mem_replicate, not_and]
    intro _
    decide
  have hbytes := usbInfo_bytes (bytesOfType _ hhash) (Field.empty _) (Field.empty _) []
  rw [List.append_nil] at hbytes
  have hpart : ascii "<I:" ++ List.replicate 300 (chr 'a') <+:
      (Frame.usbInfo (bytesOfType _ hhash) (Field.empty _) (Field.empty _)).bytes := by
    rw [hbytes]
    exact ⟨[chr '#', chr '#', cr], List.append_assoc _ _ _⟩
  obtain ⟨last, hprocess⟩ := @processAllMessages_part .linux (.init (.new listedOnly)) rfl
    (.usbInfo (bytesOfType _ hhash) (Field.empty _) (Field.empty _)) trivial _ hpart
    (fun heq => by
      have hlen := congrArg List.length (heq.trans hbytes)
      simp only [bytesOfType, Field.empty, List.length_append, List.length_cons] at hlen
      omega)
  refine ⟨_, _, _, hprocess, ?_⟩
  rw [List.length_append, List.length_replicate]
  omega

/-! ## Bad lines among frames -/

/-- A line up to its carriage return that no reply begins like: some part of it
is the beginning of no reply.  A leading `>` is read as `<`. -/
structure BadLine where
  text : UString
  noCr : cr ∉ text
  notOpen : ¬ IsOpen (repair text)
  bad : ∃ q, q <+: repair (text ++ [cr]) ∧ ∀ reply : Reply, ¬ q <+: reply.bytes

namespace BadLine

variable (line : BadLine)

def bytes : UString := line.text ++ [cr]

theorem repair_bytes : repair line.bytes = repair line.text ++ [cr] := by
  by_cases htext : line.text = []
  · rw [bytes, htext]
    rfl
  · rw [bytes, repair_append htext]

theorem noCr_repair : cr ∉ repair line.text :=
  fun h => line.noCr (mem_of_mem_repair (by decide) h)

/-- The carriage return of the line is its only one. -/
theorem eq_of_cr {u v : UString} (h : repair line.bytes = u ++ cr :: v) :
    u = repair line.text ∧ v = [] := by
  rw [line.repair_bytes] at h
  rcases List.eq_nil_or_concat' v with rfl | ⟨init, last, rfl⟩
  · exact ⟨(List.append_inj_left' h rfl).symm, rfl⟩
  · rw [← List.cons_append, ← List.append_assoc] at h
    have hmem : cr ∈ repair line.text := by simp [List.append_inj_left' h rfl]
    exact absurd hmem line.noCr_repair

theorem not_isOpen : ¬ IsOpen (repair line.bytes) := by
  have hheader : ∀ header : UString, header.getLast? ≠ some cr → header <+: repair line.bytes →
      header <+: repair line.text := by
    intro header hlast hprefix
    rw [line.repair_bytes, List.prefix_concat_iff] at hprefix
    rcases hprefix with rfl | hprefix
    · exact absurd List.getLast?_concat hlast
    · exact hprefix
  rintro (hopen | hopen)
  · exact line.notOpen (.inl (hheader _ (by decide) hopen))
  · exact line.notOpen (.inr (hheader _ (by decide) hopen))

/-- No reply begins with the whole line. -/
theorem not_prefix (reply : Reply) : ¬ repair line.bytes <+: reply.bytes := by
  obtain ⟨q, hq, hnone⟩ := line.bad
  exact fun h => hnone reply (hq.trans h)

variable (types : Nat → MessageType)

theorem verdict_ne_accept (p : Nat) (t : MessageType) :
    verdict types (repair line.bytes) ≠ .accept p t := by
  intro haccept
  obtain ⟨frame, y, hframe, -, -⟩ := verdict_accept_frame line.not_isOpen haccept
  have hsplit : repair line.bytes = (chr '<' :: frame.body) ++ cr :: y := by
    simp [hframe, Frame.bytes]
  obtain ⟨-, rfl⟩ := line.eq_of_cr hsplit
  rw [List.append_nil] at hframe
  exact line.not_prefix (.ofFrame frame) ⟨[], by rw [hframe, List.append_nil]; rfl⟩

/-- A line that announces an asynchronous message without a payload waits for
one more byte only where it is that message. -/
theorem verdict_ne_wait_of_emptyAsync (hempty : IsEmptyAsync (repair line.bytes)) :
    verdict types (repair line.bytes) ≠ .wait := by
  obtain ⟨w, hw⟩ := hempty
  intro hwait
  have hdata : ascii "<DR" ++ [0, chr ':'] ++ w = ascii "<DR" ++ 0 :: chr ':' :: w := by simp
  rw [← hw, hdata, verdict_asynData] at hwait
  split_ifs at hwait with hshort
  have hlast : (ascii "<DR" ++ [0, chr ':'] ++ w).getLast? = some cr := by
    rw [hw, line.repair_bytes, List.getLast?_concat]
  rcases List.eq_nil_or_concat' w with rfl | ⟨init, last, rfl⟩
  · exact absurd hlast (by decide)
  · obtain rfl : init = [] := by
      rw [List.length_append, List.length_singleton] at hshort
      have hzero : (0 : Byte).toNat = 0 := rfl
      exact List.length_eq_zero_iff.mp (by omega)
    rw [← List.append_assoc, List.getLast?_concat] at hlast
    obtain rfl := Option.some.inj hlast
    exact line.not_prefix (.ofFrame (.async ⟨[], by simp⟩)) ⟨[], by rw [← hw]; rfl⟩

theorem verdict_ne_wait : verdict types (repair line.bytes) ≠ .wait := by
  by_cases hempty : IsEmptyAsync (repair line.bytes)
  · exact line.verdict_ne_wait_of_emptyAsync types hempty
  intro hwait
  have hmem : cr ∈ repair line.bytes := by simp [line.repair_bytes]
  -- a line with a carriage return is not a part of a header
  have hheader : ∀ header y : UString, cr ∉ header → header <+: repair line.bytes ++ y →
      header <+: repair line.bytes := by
    intro header y hno hprefix
    refine (List.prefix_or_prefix_of_prefix hprefix (List.prefix_append _ y)).resolve_right ?_
    exact fun h => hno (h.subset hmem)
  obtain ⟨y, ⟨frame, hframe⟩ | hopen | hopen⟩ :=
    verdict_wait_completes line.not_isOpen hempty hwait
  · exact line.not_prefix (.ofFrame frame) ⟨y, hframe⟩
  · exact line.not_isOpen (.inl (hheader _ y (by decide) hopen))
  · exact line.not_isOpen (.inr (hheader _ y (by decide) hopen))

/-- A bad line is discarded up to its carriage return, whatever follows. -/
theorem look (v : UString) :
    (lexer types).look (line.bytes ++ v) = some (.discarded (repair line.bytes), v) := by
  cases hverdict : verdict types (repair line.bytes) with
  | accept p t => exact absurd hverdict (line.verdict_ne_accept types p t)
  | wait => exact absurd hverdict (line.verdict_ne_wait types)
  | reject p =>
    have hlt := verdict_reject_lt hverdict
    rw [line.repair_bytes, List.length_append, List.length_singleton] at hlt
    have hfind : find (repair line.bytes) cr p = some (repair line.text).length := by
      have hsplit := (List.take_append_drop p (repair line.text)).symm
      have hlen : ((repair line.text).take p).length = p := List.length_take_of_le (by omega)
      have hbytes : repair line.bytes =
          (repair line.text).take p ++ ((repair line.text).drop p ++ cr :: []) := by
        rw [line.repair_bytes, ← List.append_assoc, ← hsplit]
      rw [find_of_split _ [] hbytes hlen.symm
        (fun h => line.noCr_repair (List.mem_of_mem_drop h)), List.length_drop]
      congr 1
      omega
    have hlook : (lexer types).look line.bytes = some (.discarded (repair line.bytes), []) := by
      have hlen : (repair line.bytes).length = (repair line.text).length + 1 := by
        simp [line.repair_bytes]
      simp [look_eq, hverdict, itemOf, hfind, ← hlen]
    exact look_stable line.not_isOpen
      (fun q hq => by rw [hverdict] at hq; cases hq; rw [hfind]; rfl) v _ _ hlook

end BadLine

/-- A sized frame or a bad line. -/
inductive Line where
  | frame (sent : SentFrame) (hsized : sent.frame.Sized)
  | bad (line : BadLine)

namespace Line

def bytes : Line → UString
  | frame sent _ => sent.bytes
  | bad line => line.bytes

/-- The item that a line is taken as. -/
def item : Line → Item
  | frame sent _ => frameItem sent
  | bad line => .discarded (repair line.bytes)

/-- The message that a line is dispatched as. -/
def message : Line → Option ParsedMessage
  | frame sent _ => some sent.frame.message
  | bad _ => none

/-- The bytes that are dropped for a line. -/
def dropped : Line → Option UString
  | frame _ _ => none
  | bad line => some (repair line.bytes)

theorem look (line : Line) (parser : CDCMessageParserPrivate) (v : UString) :
    (lexer parser.stateType).look (line.bytes ++ v) = some (line.item, v) := by
  cases line with
  | frame sent hsized => exact look_frame parser v (.inl hsized)
  | bad line => exact line.look parser.stateType v

theorem drain (parser : CDCMessageParserPrivate) (lines : List Line) :
    (lexer parser.stateType).drain (lines.flatMap bytes) = (lines.map item, []) := by
  induction lines with
  | nil => exact Lexer.drain_nil _
  | cons line lines ih =>
    have hlook := line.look parser (lines.flatMap bytes)
    rw [List.flatMap_cons, Lexer.drain_of_some _ hlook, ih]
    rfl

end Line

def droppedLines (effects : List Effect) : List UString :=
  effects.filterMap fun
    | .bytesDropped line => some line
    | _ => none

/-- What a line does: a frame is dispatched and drops nothing, and a bad line
is dropped and recorded. -/
theorem Line.effects (line : Line) (listener : Bool) :
    dispatchedMessages (line.item.effects listener) = line.message.toList ∧
      droppedLines (line.item.effects listener) = line.dropped.toList ∧
      (.errorRecorded "Bad message format" ∈ line.item.effects listener ↔
        ∃ bad, line = .bad bad) := by
  cases line with
  | frame sent hsized =>
    by_cases hasync : sent.frame.message.parseResult.msgType = .msgAsync
    · cases listener
      · simp [item, frameItem, Item.effects, hasync, dispatchedMessages, droppedLines, message,
          dropped]
      · cases hdata : getParsedDRData sent.frame.message.message <;>
          simp [item, frameItem, Item.effects, hasync, hdata, dispatchedMessages, droppedLines,
            message, dropped]
    · simp [item, frameItem, Item.effects, hasync, dispatchedMessages, droppedLines, message,
        dropped]
  | bad line => simp [item, Item.effects, dispatchedMessages, droppedLines, message, dropped]

/-- A buffer of frames and bad lines is used up: its frames are dispatched and
its bad lines are discarded, in order. -/
theorem processAllMessages_lines (platform : Platform) {self : CDCImplPrivate}
    (hwrites : self.eventWrites = []) (lines : List Line) :
    ∃ self' effects, processAllMessages platform self (lines.flatMap Line.bytes) =
        (.ok (), self', []) ∧
      self'.log = self.log ++ effects ∧
      effects = lines.flatMap (fun line => line.item.effects self.asyncListener) ∧
      dispatchedMessages effects = lines.filterMap Line.message ∧
      droppedLines effects = lines.filterMap Line.dropped ∧
      (.errorRecorded "Bad message format" ∈ effects ↔ ∃ line, .bad line ∈ lines) := by
  obtain ⟨self', hprocess, hafter⟩ :=
    processAllMessages_eq platform hwrites (lines.flatMap Line.bytes)
  have hlog := hafter.log
  rw [Line.drain] at hprocess hlog
  rw [List.flatMap_map] at hlog
  refine ⟨self', _, hprocess, hlog, rfl, ?_, ?_, ?_⟩
  · rw [dispatchedMessages, List.filterMap_flatMap, List.filterMap_eq_flatMap_toList]
    exact congrArg (lines.flatMap ·) (funext fun line => (line.effects _).1)
  · rw [droppedLines, List.filterMap_flatMap, List.filterMap_eq_flatMap_toList]
    exact congrArg (lines.flatMap ·) (funext fun line => (line.effects _).2.1)
  · simp only [List.mem_flatMap, (Line.effects _ _).2.2]
    constructor
    · rintro ⟨_, hline, bad, rfl⟩
      exact ⟨bad, hline⟩
    · rintro ⟨bad, hline⟩
      exact ⟨_, hline, bad, rfl⟩

/-- A line of one byte that no reply begins with. -/
def garbageLine : BadLine where
  text := [chr 'X']
  noCr := by decide
  notOpen := by decide
  bad := by
    refine ⟨[chr 'X'], by decide, fun reply hprefix => ?_⟩
    obtain ⟨w, hw⟩ := reply.bytes_head
    rw [hw, List.cons_prefix_cons] at hprefix
    exact absurd hprefix.1 (by decide)

/-- A frame, a bad line, and another frame. -/
theorem processAllMessages_lines_garbage :
    ∃ self' effects, processAllMessages .linux (.init (.new listedOnly))
        (ascii "<OK" ++ [cr, chr 'X', cr] ++ ascii ">R:OK" ++ [cr]) = (.ok (), self', []) ∧
      self'.log = [] ++ effects ∧
      dispatchedMessages effects = [Frame.test.message, Frame.resUsb.message] ∧
      droppedLines effects = [[chr 'X', cr]] := by
  obtain ⟨self', effects, hprocess, hlog, -, hmessages, hdropped, -⟩ :=
    @processAllMessages_lines .linux (.init (.new listedOnly)) rfl
      [.frame ⟨.test, false⟩ trivial, .bad garbageLine, .frame ⟨.resUsb, true⟩ trivial]
  exact ⟨self', effects, hprocess, hlog, hmessages, hdropped⟩

end Clibcdc.Reader
