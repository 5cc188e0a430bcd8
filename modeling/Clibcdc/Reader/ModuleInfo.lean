import Clibcdc.Reader.Framing

/-!
# Module info on the way through the reader

The reply to a module info request carries 16 or 32 arbitrary bytes.  Which of
the two it is, the parser tells by the size of its buffer: 21 bytes with a
carriage return at the end are the standard reply, and everything else is
waited for until there are 37 bytes.

`readMsgThread_moduleInfo` says when the Linux reader finds the end of such a
reply.  For the standard reply a read must end exactly behind it.  The extended
reply is found unless it looks like a standard one at such a read.
-/

namespace Clibcdc.Reader

open Clibcdc.Automata Clibcdc.Parser

/-! ## Buffers behind a header -/

theorem repair_of_head (s : UString) (n : Nat) :
    repair ((chr '<' :: s).take n) = (chr '<' :: s).take n := by
  cases n with
  | zero => rfl
  | succ n => rfl

/-- The beginning of a stream behind a header of four bytes.  A header contains
no carriage return, so a beginning that contains one has all of it. -/
theorem take_header {header : UString} (hlen : header.length = 4) (hheader : cr ∉ header)
    {w : UString} {n : Nat} (hcr : hasCr ((header ++ w).take n) = true) :
    4 ≤ n ∧ (header ++ w).take n = header ++ w.take (n - 4) := by
  have hn : 4 ≤ n := by
    by_contra hshort
    have hmem := mem_of_hasCr hcr
    rw [List.take_append_of_le_length (by omega)] at hmem
    exact hheader (List.mem_of_mem_take hmem)
  refine ⟨hn, ?_⟩
  rw [List.take_append, List.take_of_length_le (by omega), hlen]

/-! ## The item at the front -/

section Look

variable (parser : CDCMessageParserPrivate)

theorem trInfo_type : parser.stateType 23 = .msgTrInfo :=
  @replyState_type parser (.trInfo ⟨List.replicate 16 0, .inl rfl⟩) (by simp)

theorem repair_trInfo (w : UString) : repair (ascii "<IT:" ++ w) = ascii "<IT:" ++ w := rfl

variable {w : UString} {n : Nat}

/-- A buffer of 21 bytes that ends with a carriage return is a standard
reply. -/
theorem look_trInfo_standard (hcr : w[16]? = some cr) :
    (lexer parser.stateType).look ((ascii "<IT:" ++ w).take 21) =
      some (.message ⟨ascii "<IT:" ++ w.take 17, ⟨.msgTrInfo, .parseOk, 20⟩⟩, []) := by
  have htake : (ascii "<IT:" ++ w).take 21 = ascii "<IT:" ++ w.take 17 := rfl
  obtain ⟨hlt, -⟩ := List.getElem?_eq_some_iff.mp hcr
  have hlen : (w.take 17).length = 17 := List.length_take_of_le hlt
  have hat : (w.take 17)[16]? = some cr := by rw [List.getElem?_take_of_lt (by omega), hcr]
  have hverdict := verdict_trInfo_eq parser.stateType (w.take 17)
  rw [if_pos ⟨hlen, hat⟩, trInfo_type, ← repair_trInfo] at hverdict
  have hall : (ascii "<IT:" ++ w.take 17).length = 20 + 1 := by simp [ascii, hlen]
  rw [htake, look_accept hverdict, repair_trInfo, List.take_of_length_le (by omega),
    List.drop_of_length_le (by omega)]

/-- From 37 bytes on the buffer begins with an extended reply, or with a bad
line. -/
theorem look_trInfo_extended (hn : 37 ≤ n) (hlen : n ≤ (ascii "<IT:" ++ w).length) :
    (w[32]? = some cr → (lexer parser.stateType).look ((ascii "<IT:" ++ w).take n) =
        some (.message ⟨ascii "<IT:" ++ w.take 33, ⟨.msgTrInfo, .parseOk, 36⟩⟩,
          (w.take (n - 4)).drop 33)) ∧
      (w[32]? ≠ some cr → ∃ line rest,
        (lexer parser.stateType).look ((ascii "<IT:" ++ w).take n) =
          some (.discarded line, rest)) := by
  obtain ⟨k, rfl⟩ : ∃ k, n = k + 33 + 4 := ⟨n - 37, by omega⟩
  have htake : (ascii "<IT:" ++ w).take (k + 33 + 4) = ascii "<IT:" ++ w.take (k + 33) := rfl
  have hlong : (w.take (k + 33)).length = k + 33 := by
    rw [List.length_take_of_le]
    simp [ascii] at hlen
    omega
  have hat : (w.take (k + 33))[32]? = w[32]? := List.getElem?_take_of_lt (by omega)
  have hverdict := verdict_trInfo_eq parser.stateType (w.take (k + 33))
  rw [if_neg (by omega), if_pos (by omega), hat, trInfo_type, ← repair_trInfo] at hverdict
  rw [htake]
  constructor
  · intro hcr
    rw [if_pos hcr] at hverdict
    have hwhole : (repair (ascii "<IT:" ++ w.take (k + 33))).take 37 =
        ascii "<IT:" ++ (w.take (k + 33)).take 33 := rfl
    rw [look_accept hverdict, hwhole, List.take_take, Nat.min_eq_left (by omega)]
    rfl
  · intro hcr
    rw [if_neg hcr] at hverdict
    exact ⟨_, _, look_reject hverdict⟩

/-- Anything else that is shorter is waited for. -/
theorem look_trInfo_wait (hcr : hasCr ((ascii "<IT:" ++ w).take n) = true)
    (hlen : n ≤ (ascii "<IT:" ++ w).length) (hn : n < 37)
    (hstandard : ¬ (n = 21 ∧ w[16]? = some cr)) :
    (lexer parser.stateType).look ((ascii "<IT:" ++ w).take n) = none := by
  obtain ⟨hfour, htake⟩ := take_header rfl (by decide) hcr
  have hshort : (w.take (n - 4)).length = n - 4 := by
    rw [List.length_take_of_le]
    simp [ascii] at hlen
    omega
  have hverdict := verdict_trInfo_eq parser.stateType (w.take (n - 4))
  rw [if_neg, if_neg (by omega), ← repair_trInfo] at hverdict
  · rw [htake]
    exact look_eq_none.mpr hverdict
  · rintro ⟨h17, h16⟩
    rw [List.getElem?_take_of_lt (by omega)] at h16
    exact hstandard ⟨by omega, h16⟩

/-- The beginnings of a stream behind its carriage return. -/
theorem hasCr_take_trInfo {k : Nat} (hk : w[k]? = some cr) (hn : 4 + k < n) :
    hasCr ((ascii "<IT:" ++ w).take n) = true := by
  apply hasCr_of_mem
  apply List.mem_of_getElem? (i := 4 + k)
  rw [List.getElem?_take_of_lt hn, List.getElem?_append_right (by simp [ascii])]
  simpa [ascii] using hk

end Look

/-! ## The reply in its stream -/

/-- What follows the header of a module info, with the frames behind it. -/
def moduleTail (block : ModuleBlock) (sents : List SentFrame) : UString :=
  block.data ++ cr :: bytesOf sents

theorem moduleTail_eq (block : ModuleBlock) (sents : List SentFrame) :
    ascii "<IT:" ++ moduleTail block sents = (Reply.trInfo block).bytes ++ bytesOf sents := by
  simp [moduleTail, Reply.bytes]

/-- A read ends behind the standard reply, or no read ends where the extended
reply looks like a standard one. -/
def Delimited (block : ModuleBlock) (reads : List UString) : Prop :=
  if block.data.length = 16 then Lexer.Cut [] reads 21
  else block.data[16]? = some cr → ¬ Lexer.Cut [] reads 21

section Feed

variable (parser : CDCMessageParserPrivate) {block : ModuleBlock} {sents : List SentFrame}
  {reads : List UString}

/-- The reply ends where its carriage return is. -/
theorem moduleTail_reply (block : ModuleBlock) (sents : List SentFrame) :
    (moduleTail block sents)[block.data.length]? = some cr ∧
      ascii "<IT:" ++ (moduleTail block sents).take (block.data.length + 1) =
        (Reply.trInfo block).bytes ∧
      (moduleTail block sents).drop (block.data.length + 1) = bytesOf sents := by
  have hsplit : moduleTail block sents = (block.data ++ [cr]) ++ bytesOf sents := by
    simp [moduleTail]
  have hlen : block.data.length + 1 = (block.data ++ [cr]).length := by simp
  refine ⟨by simp [moduleTail], ?_, ?_⟩
  · rw [hsplit, hlen, List.take_left]
    simp [Reply.bytes]
  · rw [hsplit, hlen, List.drop_left]

theorem moduleStream_length : (ascii "<IT:" ++ moduleTail block sents).length =
    5 + block.data.length + (bytesOf sents).length := by
  simp [moduleTail, ascii]
  omega

/-- The first cut at which an item is taken from the stream. -/
theorem feed_moduleTail (hcut : reads.flatten = ascii "<IT:" ++ moduleTail block sents) :
    ((lexer parser.stateType).feed hasCr [] reads =
        ([], ascii "<IT:" ++ moduleTail block sents) ∧
      ∀ n, Lexer.Cut [] reads n →
        hasCr ((ascii "<IT:" ++ moduleTail block sents).take n) = true →
        (lexer parser.stateType).look ((ascii "<IT:" ++ moduleTail block sents).take n) = none) ∨
    ∃ n post, Lexer.Cut [] reads n ∧ n ≤ (ascii "<IT:" ++ moduleTail block sents).length ∧
      ((n = 21 ∧ (moduleTail block sents)[16]? = some cr) ∨
        37 ≤ n ∧ ((moduleTail block sents)[16]? = some cr → ¬ Lexer.Cut [] reads 21)) ∧
      post.flatten = (ascii "<IT:" ++ moduleTail block sents).drop n ∧ post <:+ reads ∧
      (lexer parser.stateType).feed hasCr [] reads =
        (((lexer parser.stateType).drain ((ascii "<IT:" ++ moduleTail block sents).take n)).1 ++
            ((lexer parser.stateType).feed hasCr ((lexer parser.stateType).drain
              ((ascii "<IT:" ++ moduleTail block sents).take n)).2 post).1,
          ((lexer parser.stateType).feed hasCr ((lexer parser.stateType).drain
            ((ascii "<IT:" ++ moduleTail block sents).take n)).2 post).2) := by
  have hnorm : ∀ n, (lexer parser.stateType).norm
      ((ascii "<IT:" ++ moduleTail block sents).take n) =
        (ascii "<IT:" ++ moduleTail block sents).take n := fun n => repair_of_head _ n
  rcases Lexer.feed_cut hasCr (w := []) hnorm hcut (fun _ => Lexer.look_nil _) with
    hnone | ⟨n, post, item, rest, hn, htrigger, hlook, hearly, hpost, hsuffix, hfeed⟩
  · exact .inl hnone
  · have hle := hn.le
    rw [List.nil_append, hcut] at hle
    refine .inr ⟨n, post, hn, hle, ?_, hpost, hsuffix, hfeed⟩
    by_cases hstandard : n = 21 ∧ (moduleTail block sents)[16]? = some cr
    · exact .inl hstandard
    · right
      have hlong : 37 ≤ n := by
        by_contra hshort
        rw [look_trInfo_wait parser htrigger hle (by omega) hstandard] at hlook
        cases hlook
      refine ⟨hlong, fun hcr hcut21 => ?_⟩
      have hnone := hearly 21 hcut21 (by omega) (hasCr_take_trInfo hcr (by omega))
      rw [look_trInfo_standard parser hcr] at hnone
      cases hnone

theorem trInfo_message (block : ModuleBlock) (sents : List SentFrame) :
    (Reply.trInfo block).message =
      ⟨ascii "<IT:" ++ (moduleTail block sents).take (block.data.length + 1),
        ⟨.msgTrInfo, .parseOk, block.data.length + 4⟩⟩ := by
  rw [(moduleTail_reply block sents).2.1, Reply.message, Reply.msgType]
  simp [Reply.bytes, ascii]

/-- A standard reply is found when a read ends behind it. -/
theorem feed_standard (hsize : block.data.length = 16)
    (hsized : ∀ sent ∈ sents, sent.frame.Sized) (hreads : ∀ read ∈ reads, read ≠ [])
    (hcut : reads.flatten = ascii "<IT:" ++ moduleTail block sents) :
    (lexer parser.stateType).feed hasCr [] reads =
        (.message (Reply.trInfo block).message :: sents.map frameItem, []) ↔
      Lexer.Cut [] reads 21 := by
  have hmessage := trInfo_message block sents
  obtain ⟨hend, -, hbehind⟩ := moduleTail_reply block sents
  rw [hsize] at hend hbehind hmessage
  have hlook := look_trInfo_standard parser hend
  rcases feed_moduleTail parser hcut with
    ⟨hfeed, hnone⟩ | ⟨n, post, hn, hle, ⟨rfl, -⟩ | ⟨hlong, hearly⟩, hpost, hsuffix, hfeed⟩
  · -- nothing is taken
    refine ⟨fun h => ?_, fun hcut21 => ?_⟩
    · rw [hfeed] at h
      cases h
    · rw [hnone 21 hcut21 (hasCr_take_trInfo hend (by omega))] at hlook
      cases hlook
  · -- the reply is taken, and the frames follow
    have hrest : post.flatten = bytesOf sents := by
      rw [hpost, ← hbehind]
      rfl
    have hframes := feed_frames parser hsized (fun read h => hreads read (hsuffix.subset h))
      (Lexer.look_nil _) (w := []) (by rw [List.nil_append, hrest])
    refine ⟨fun _ => hn, fun _ => ?_⟩
    rw [hfeed, Lexer.drain_of_some _ hlook, Lexer.drain_nil, hmessage]
    show (_ :: ((lexer parser.stateType).feed hasCr [] post).1,
      ((lexer parser.stateType).feed hasCr [] post).2) = _
    rw [hframes]
  · -- more than the reply is in the buffer, and an extended reply is looked for
    refine ⟨fun h => ?_, fun hcut21 => absurd hcut21 (hearly hend)⟩
    obtain ⟨hextended, hbad⟩ := look_trInfo_extended parser hlong hle
    by_cases hcr : (moduleTail block sents)[32]? = some cr
    · rw [hfeed, Lexer.drain_of_some _ (hextended hcr), hmessage] at h
      simp at h
    · obtain ⟨line, rest, hline⟩ := hbad hcr
      rw [hfeed, Lexer.drain_of_some _ hline] at h
      simp at h

/-- An extended reply is found unless it looks like a standard one where a read
ends. -/
theorem feed_extended (hsize : block.data.length = 32)
    (hsized : ∀ sent ∈ sents, sent.frame.Sized) (hreads : ∀ read ∈ reads, read ≠ [])
    (hcut : reads.flatten = ascii "<IT:" ++ moduleTail block sents) :
    (lexer parser.stateType).feed hasCr [] reads =
        (.message (Reply.trInfo block).message :: sents.map frameItem, []) ↔
      (block.data[16]? = some cr → ¬ Lexer.Cut [] reads 21) := by
  have hmessage := trInfo_message block sents
  have hlen := @moduleStream_length block sents
  obtain ⟨hend, -, hbehind⟩ := moduleTail_reply block sents
  rw [hsize] at hend hbehind hmessage hlen
  have hinner : (moduleTail block sents)[16]? = block.data[16]? :=
    List.getElem?_append_left (by omega)
  rw [← hinner]
  rcases feed_moduleTail parser hcut with
    ⟨-, hnone⟩ | ⟨n, post, hn, hle, ⟨rfl, hcr⟩ | ⟨hlong, hearly⟩, hpost, hsuffix, hfeed⟩
  · -- at the end of the stream something is taken
    have hlast := Lexer.cut_length [] reads
    rw [List.nil_append, hcut] at hlast
    have htaken := (look_trInfo_extended parser (by omega) (Nat.le_refl _)).1 hend
    rw [hnone _ hlast (hasCr_take_trInfo hend (by omega))] at htaken
    cases htaken
  · -- a part of the reply is taken for a standard reply
    refine ⟨fun h => ?_, fun h => absurd hn (h hcr)⟩
    rw [hfeed, Lexer.drain_of_some _ (look_trInfo_standard parser hcr), hmessage] at h
    simp at h
  · -- the reply is taken, and the frames follow
    refine ⟨fun _ => hearly, fun _ => ?_⟩
    have htaken := (look_trInfo_extended parser hlong hle).1 hend
    have hrest : ((moduleTail block sents).take (n - 4)).drop 33 ++ post.flatten =
        bytesOf sents := by
      obtain ⟨k, rfl⟩ : ∃ k, n = k + 33 + 4 := ⟨n - 37, by omega⟩
      have hdrop : (ascii "<IT:" ++ moduleTail block sents).drop (k + 33 + 4) =
          (moduleTail block sents).drop (k + 33) := rfl
      rw [hpost, hdrop, ← hbehind, Nat.add_sub_cancel, List.drop_take, Nat.add_sub_cancel,
        Nat.add_comm k 33, ← List.drop_drop, List.take_append_drop]
    obtain ⟨hitems, hnil⟩ := drain_feed_frames parser hsized
      (fun read h => hreads read (hsuffix.subset h)) hrest
    rw [hfeed, Lexer.drain_of_some _ htaken, hmessage]
    exact Prod.ext (congrArg (_ :: ·) hitems) hnil

end Feed

/-- Behind a module info and frames the Linux reader dispatches the module info
and then the frames, and nothing is left over, when the reply is delimited by
the reads, and only then. -/
theorem readMsgThread_moduleInfo {self : CDCImplPrivate} (hwrites : self.eventWrites = [])
    (block : ModuleBlock) {sents : List SentFrame} (hsized : ∀ sent ∈ sents, sent.frame.Sized)
    {reads : List UString} (hreads : ∀ read ∈ reads, read ≠ [])
    (hcut : reads.flatten = (Reply.trInfo block).bytes ++ bytesOf sents) :
    ∃ self' rest effects, readMsgThread (reads.map portRead) self [] = .running self' rest ∧
      self'.log = self.log ++ effects ∧
      ((dispatchedMessages effects =
            (Reply.trInfo block).message :: sents.map (·.frame.message) ∧
          DropsNothing effects ∧ rest = []) ↔
        Delimited block reads) := by
  obtain ⟨self', hthread, hafter⟩ := readMsgThread_feed hwrites [] reads
  refine ⟨self', _, _, hthread, hafter.log, ?_⟩
  have hfeed : (lexer self.msgParser.stateType).feed hasCr [] reads =
      (.message (Reply.trInfo block).message :: sents.map frameItem, []) ↔
        Delimited block reads := by
    rw [← moduleTail_eq] at hcut
    rw [Delimited]
    split_ifs with hsize
    · exact feed_standard self.msgParser hsize hsized hreads hcut
    · exact feed_extended self.msgParser (block.size.resolve_left hsize) hsized hreads hcut
  rw [← hfeed, ← and_assoc, effects_messages_iff, Prod.ext_iff, List.map_cons, List.map_map]
  rfl

theorem readMsgThread_moduleInfo_cut :
    ∃ self' rest effects,
      readMsgThread
        ([ascii "<IT:" ++ List.replicate 16 0 ++ [cr], ascii "<OK" ++ [cr]].map portRead)
        (.init (.new listedOnly)) [] = .running self' rest ∧
      self'.log = [] ++ effects ∧
      ((dispatchedMessages effects =
            [(Reply.trInfo ⟨List.replicate 16 0, .inl rfl⟩).message, Frame.test.message] ∧
          DropsNothing effects ∧ rest = []) ↔
        Delimited ⟨List.replicate 16 0, .inl rfl⟩
          [ascii "<IT:" ++ List.replicate 16 0 ++ [cr], ascii "<OK" ++ [cr]]) :=
  @readMsgThread_moduleInfo (.init (.new listedOnly)) rfl ⟨List.replicate 16 0, .inl rfl⟩
    [⟨.test, false⟩] (by decide)
    [ascii "<IT:" ++ List.replicate 16 0 ++ [cr], ascii "<OK" ++ [cr]] (by decide) (by decide)

/-- With a message behind it in the same read, a standard reply is not found,
and neither is the message. -/
theorem readMsgThread_holds_moduleInfo :
    ∃ (block : ModuleBlock) (sents : List SentFrame) (reads : List UString),
      (∀ sent ∈ sents, sent.frame.Sized) ∧ (∀ read ∈ reads, read ≠ []) ∧
      reads.flatten = (Reply.trInfo block).bytes ++ bytesOf sents ∧
      dispatchedMessages (readMsgThread (reads.map portRead) (.init (.new listedOnly)) []).self.log
        = [] :=
  ⟨⟨List.replicate 16 0, .inl rfl⟩, [⟨.test, false⟩],
    [ascii "<IT:" ++ List.replicate 16 0 ++ [cr] ++ ascii "<OK" ++ [cr]], by decide, by decide,
    by decide, by decide⟩

end Clibcdc.Reader
