import Clibcdc.Reader.Framing

/-!
# Resynchronisation

What the reader makes of a stream that may hold anything but the replies
without a length (`Sized`).  The verdicts on such a stream are final, so an
item can change only when a line is dropped whose carriage return has not
arrived yet.

* The Windows reader processes its buffer behind a carriage return, where that
  cannot happen: `processAllMessages_fusion`.
* The Linux reader processes its buffer when there is a carriage return
  anywhere in it.  A line that is rejected behind the last carriage return is
  dropped without its end, and what is left of it is read as the beginning of
  a message.  `readMsgThread_resync` says that this is the only way in which
  the cutting matters.
-/

namespace Clibcdc.Reader

open Clibcdc.Automata Clibcdc.Parser

/-! ## Streams of sized messages -/

/-- The headers of the replies without a length, as they may be sent. -/
def unsizedHeaders : List UString := [ascii "<IT:", ascii ">IT:", ascii "<PM:", ascii ">PM:"]

/-- No reply without a length occurs in the stream. -/
def SizedStream (s : UString) : Prop := ∀ header ∈ unsizedHeaders, ¬ header <:+: s

instance : DecidablePred SizedStream := fun s =>
  inferInstanceAs (Decidable (∀ header ∈ unsizedHeaders, ¬ header <:+: s))

theorem SizedStream.of_part {s t : UString} (h : SizedStream s) (ht : t <:+: s) :
    SizedStream t :=
  fun header hheader hin => h header hheader (hin.trans ht)

theorem SizedStream.not_isOpen {s : UString} (h : SizedStream s) : ¬ IsOpen s := by
  rintro (hopen | hopen)
  · exact h (ascii "<IT:") (by simp [unsizedHeaders]) hopen.isInfix
  · exact h (ascii "<PM:") (by simp [unsizedHeaders]) hopen.isInfix

/-- Each header may be sent with a `>`. -/
theorem swapped_unsizedHeaders :
    ∀ header ∈ unsizedHeaders, chr '>' :: header.tail ∈ unsizedHeaders := by
  decide

/-- A header in the repaired stream was there before, or its first byte is the
one that was repaired. -/
theorem SizedStream.repair {s : UString} (h : SizedStream s) : SizedStream (repair s) := by
  cases s with
  | nil => exact h
  | cons b s =>
    by_cases hb : b = chr '>'
    · subst hb
      intro header hheader hin
      have hrepair : Reader.repair (chr '>' :: s) = chr '<' :: s := rfl
      rw [hrepair, List.infix_cons_iff] at hin
      rcases hin with hprefix | hin
      · have htail : header.tail <+: s := by
          rcases header with _ | ⟨c, header⟩
          · exact List.nil_prefix
          · exact (List.cons_prefix_cons.mp hprefix).2
        have hswapped : chr '>' :: header.tail <+: chr '>' :: s :=
          List.cons_prefix_cons.mpr ⟨rfl, htail⟩
        exact h _ (swapped_unsizedHeaders header hheader) hswapped.isInfix
      · exact h header hheader (hin.trans (List.suffix_cons _ _).isInfix)
    · have hrepair : Reader.repair (b :: s) = b :: s := by simp [Reader.repair, hb]
      rwa [hrepair]

/-! ## Buffers that end with a carriage return -/

/-- The buffer is empty or ends with a carriage return. -/
def EndsCr (w : UString) : Prop := ∀ b, w.getLast? = some b → b = cr

theorem EndsCr.of_suffix {w r : UString} (h : EndsCr w) (hr : r <:+ w) : EndsCr r := by
  obtain ⟨u, rfl⟩ := hr
  intro b hb
  apply h b
  rw [List.getLast?_append, hb]
  rfl

theorem EndsCr.repair {w : UString} (h : EndsCr w) : EndsCr (repair w) := by
  cases w with
  | nil => exact h
  | cons b w =>
    cases w with
    | nil =>
      obtain rfl := h b rfl
      exact fun c hc => h c hc
    | cons c w =>
      intro d hd
      apply h d
      rw [List.getLast?_cons_cons]
      exact (List.getLast?_cons_cons ▸ hd : (c :: w).getLast? = some d)

theorem cr_mem_drop_of_find {w : UString} {p e : Nat} (h : find w cr p = some e) :
    cr ∈ w.drop p := by
  rw [find, Option.map_eq_some_iff] at h
  obtain ⟨i, hi, -⟩ := h
  obtain ⟨hlt, hb, -⟩ := List.findIdx?_eq_some_iff_getElem.mp hi
  rw [decide_eq_true_eq] at hb
  exact hb ▸ List.getElem_mem hlt

/-- Behind any position of such a buffer there is a carriage return. -/
theorem EndsCr.cr_mem_drop {w : UString} (h : EndsCr w) {p : Nat} (hp : p < w.length) :
    cr ∈ w.drop p := by
  have hne : w.drop p ≠ [] := by simpa using hp
  have hlast := h.of_suffix (List.drop_suffix p w) _ (List.getLast?_eq_getLast_of_ne_nil hne)
  exact hlast ▸ List.getLast_mem hne

section Stable

variable {parser : CDCMessageParserPrivate} {w v rest : UString} {item : Item}

/-- In a stream of sized messages an item is stable when a line that is
rejected has its carriage return. -/
theorem SizedStream.stable (hsized : SizedStream w)
    (hcr : ∀ p, verdict parser.stateType (Reader.repair w) = .reject p →
      cr ∈ (Reader.repair w).drop p) :
    (lexer parser.stateType).Stable w v :=
  look_stable hsized.repair.not_isOpen (fun p hp => find_isSome_of_mem (hcr p hp)) v

theorem EndsCr.stable (hends : EndsCr w) (hsized : SizedStream w) :
    (lexer parser.stateType).Stable w v :=
  hsized.stable fun _ hp => hends.repair.cr_mem_drop (verdict_reject_lt hp)

end Stable

/-! ## Fusion -/

/-- Draining a buffer that ends with a carriage return, and then the rest with
more bytes, is draining both at once. -/
theorem drain_fusion (parser : CDCMessageParserPrivate) {a b : UString} (hends : EndsCr a)
    (hsized : SizedStream a) :
    (lexer parser.stateType).drain (a ++ b) =
      (((lexer parser.stateType).drain a).1 ++
          ((lexer parser.stateType).drain (((lexer parser.stateType).drain a).2 ++ b)).1,
        ((lexer parser.stateType).drain (((lexer parser.stateType).drain a).2 ++ b)).2) := by
  refine Lexer.drain_append fun r hreach => ?_
  have hsuffix := reaches_suffix hreach
  exact (hends.of_suffix hsuffix).stable (hsized.of_part hsuffix.isInfix)

/-- Two calls of `processAllMessages`, on a buffer that ends with a carriage
return and on the rest with more bytes, do what one call does. -/
theorem processAllMessages_append (platform : Platform) {self : CDCImplPrivate}
    (hwrites : self.eventWrites = []) {a b : UString} (hends : a.getLast? = some cr)
    (hsized : SizedStream (a ++ b)) :
    ∃ self₁ residual self₂ rest self',
      processAllMessages platform self a = (.ok (), self₁, residual) ∧
      processAllMessages platform self₁ (residual ++ b) = (.ok (), self₂, rest) ∧
      processAllMessages platform self (a ++ b) = (.ok (), self', rest) ∧
      self₂.log = self'.log ∧ ∃ last, self₂ = withParse self' last := by
  have hendsCr : EndsCr a := fun c hc => Option.some.inj (hc.symm.trans hends)
  have hfusion := drain_fusion self.msgParser (b := b) hendsCr
    (hsized.of_part (List.prefix_append a b).isInfix)
  obtain ⟨self₁, hprocess₁, hafter₁⟩ := processAllMessages_eq platform hwrites a
  obtain ⟨self₂, hprocess₂, hafter₂⟩ := processAllMessages_eq platform hafter₁.eventWrites
    (((lexer self.msgParser.stateType).drain a).2 ++ b)
  obtain ⟨self', hprocess', hafter'⟩ := processAllMessages_eq platform hwrites (a ++ b)
  rw [hafter₁.stateType] at hprocess₂ hafter₂
  rw [hfusion] at hprocess' hafter'
  obtain ⟨last, hlast⟩ := (hafter₁.trans hafter₂).eq hafter'
  refine ⟨self₁, _, self₂, _, self', hprocess₁, hprocess₂, hprocess', ?_, last, hlast⟩
  rw [hlast]
  rfl

/-! ## The Windows reader -/

/-- The Windows reader processes its buffer when it ends with a carriage
return. -/
def lastIsCr (w : UString) : Bool := w.getLast? = some cr

theorem lastIsCr_iff {w : UString} (hw : w ≠ []) : lastIsCr w = true ↔ EndsCr w := by
  rw [lastIsCr, decide_eq_true_eq, List.getLast?_eq_getLast_of_ne_nil hw]
  constructor
  · intro h b hb
    rw [List.getLast?_eq_getLast_of_ne_nil hw, h] at hb
    exact (Option.some.inj hb).symm
  · intro h
    exact congrArg some (h _ (List.getLast?_eq_getLast_of_ne_nil hw))

theorem EndsCr.drain (parser : CDCMessageParserPrivate) {w : UString} (h : EndsCr w) :
    EndsCr ((lexer parser.stateType).drain w).2 := by
  obtain ⟨r, hreach, -, heq⟩ := Lexer.drain_rest (L := lexer parser.stateType) w
  rw [heq]
  exact (h.of_suffix (reaches_suffix hreach)).repair

/-- A read of the Windows reader: `w` is the buffer with what was read, and
`byteRead` its last byte when there is one. -/
theorem processByte_eq {self : CDCImplPrivate} (hwrites : self.eventWrites = [])
    {w piece : UString} {byteRead : Byte}
    (hlast : ∀ b, (w ++ piece).getLast? = some b → b = byteRead) :
    ∃ self', processByte self (w ++ piece) byteRead =
        (.ok (), self', ((lexer self.msgParser.stateType).feed lastIsCr w [piece]).2) ∧
      After .windows self ((lexer self.msgParser.stateType).feed lastIsCr w [piece]).1 self' ∧
      ∀ b, ((lexer self.msgParser.stateType).feed lastIsCr w [piece]).2.getLast? = some b →
        b = byteRead := by
  by_cases hcr : byteRead = cr
  · subst hcr
    obtain ⟨self', hprocess, hafter⟩ := processAllMessages_eq .windows hwrites (w ++ piece)
    have hfeed : (lexer self.msgParser.stateType).feed lastIsCr w [piece] =
        (lexer self.msgParser.stateType).drain (w ++ piece) := by
      by_cases hnil : w ++ piece = []
      · rw [Lexer.feed, hnil, Lexer.drain_nil]
        rfl
      · simp [Lexer.feed, (lastIsCr_iff hnil).mpr hlast]
    rw [hfeed, processByte, if_pos rfl]
    exact ⟨self', hprocess, hafter, EndsCr.drain self.msgParser hlast⟩
  · have hfeed : (lexer self.msgParser.stateType).feed lastIsCr w [piece] = ([], w ++ piece) := by
      have hnot : lastIsCr (w ++ piece) = false := by
        simpa [lastIsCr] using fun h => hcr (hlast cr h).symm
      simp [Lexer.feed, hnot]
    rw [hfeed, processByte, if_neg hcr]
    exact ⟨self, rfl, After.refl .windows hwrites, hlast⟩

/-- The bytes that a read delivers. -/
def ReadFileResult.bytes (result : ReadFileResult) : UString := result.byte.toList

/-- The reading loop performs the items that its reads feed to the lexer. -/
theorem readingLoop_feed {self : CDCImplPrivate} (hwrites : self.eventWrites = [])
    {reads : List ReadFileResult} (hreads : .failed ∉ reads) {w : UString} {byteRead : Byte}
    (hlast : ∀ b, w.getLast? = some b → b = byteRead) :
    ∃ self', readingLoop reads self w byteRead = .running self'
        ((lexer self.msgParser.stateType).feed lastIsCr w (reads.map (·.bytes))).2 ∧
      After .windows self
        ((lexer self.msgParser.stateType).feed lastIsCr w (reads.map (·.bytes))).1 self' := by
  induction reads generalizing self w byteRead with
  | nil => exact ⟨self, rfl, After.refl .windows hwrites⟩
  | cons read reads ih =>
    rw [List.mem_cons, not_or] at hreads
    -- the byte that the loop compares with the carriage return
    have hloop : ∃ b, (∀ self₁ rest, processByte self (w ++ read.bytes) b = (.ok (), self₁, rest) →
          readingLoop (read :: reads) self w byteRead = readingLoop reads self₁ rest b) ∧
        ∀ c, (w ++ read.bytes).getLast? = some c → c = b := by
      rcases read with _ | b | _ | b
      · exact absurd rfl hreads.1
      · refine ⟨b, fun self₁ rest h => ?_, by simp [ReadFileResult.bytes, ReadFileResult.byte]⟩
        rw [readingLoop, show w ++ [b] = w ++ (ReadFileResult.immediate b).bytes from rfl, h]
      · have hnone : w ++ (ReadFileResult.delayed none).bytes = w := List.append_nil w
        refine ⟨byteRead, fun self₁ rest h => ?_, by rwa [hnone]⟩
        rw [hnone] at h
        simp [readingLoop, h]
      · refine ⟨b, fun self₁ rest h => ?_, by simp [ReadFileResult.bytes, ReadFileResult.byte]⟩
        have hbytes : (ReadFileResult.delayed (some b)).bytes = [b] := rfl
        rw [hbytes] at h
        simp [readingLoop, h]
    obtain ⟨b, hloop, hlast'⟩ := hloop
    obtain ⟨self₁, hread, hafter, hlast₁⟩ := processByte_eq hwrites hlast'
    obtain ⟨self', hrest, hafter'⟩ := ih hafter.eventWrites hreads.2 hlast₁
    rw [hafter.stateType] at hrest hafter'
    refine ⟨self', ?_, ?_⟩
    · rw [hloop self₁ _ hread, List.map_cons,
        Lexer.feed_cons lastIsCr w read.bytes (reads.map (·.bytes))]
      exact hrest
    · rw [List.map_cons, Lexer.feed_cons lastIsCr w read.bytes (reads.map (·.bytes))]
      exact hafter.trans hafter'

/-- What is known while the Windows reader reads a stream of sized messages that
ends with a carriage return. -/
def WindowsRest (parser : CDCMessageParserPrivate) (w v : UString) : Prop :=
  SizedStream (w ++ v) ∧ EndsCr (w ++ v) ∧
    (EndsCr w → (lexer parser.stateType).look w = none ∧ repair w = w)

def WindowsDraining (w v : UString) : Prop :=
  SizedStream (w ++ v) ∧ EndsCr (w ++ v) ∧ EndsCr w

theorem WindowsDraining.stable {parser : CDCMessageParserPrivate} {w v : UString}
    (h : WindowsDraining w v) : (lexer parser.stateType).Stable w v :=
  h.2.2.stable (h.1.of_part (List.prefix_append w v).isInfix)

theorem SizedStream.repair_append {w v : UString} (h : SizedStream (w ++ v)) :
    SizedStream (Reader.repair w ++ v) := by
  by_cases hw : w = []
  · subst hw
    exact h
  · rw [← Reader.repair_append hw]
    exact h.repair

theorem EndsCr.repair_append {w v : UString} (h : EndsCr (w ++ v)) :
    EndsCr (Reader.repair w ++ v) := by
  by_cases hw : w = []
  · subst hw
    exact h
  · rw [← Reader.repair_append hw]
    exact h.repair

theorem windows_invariant (parser : CDCMessageParserPrivate) :
    Lexer.FeedInvariant (lexer parser.stateType) lastIsCr (WindowsRest parser) WindowsDraining where
  takes h hlook := by
    have hsuffix := look_rest hlook
    obtain ⟨u, hu⟩ := hsuffix
    have hwhole : ∀ v, _ ++ v <:+ _ ++ v := fun v => ⟨u, by rw [← List.append_assoc, hu]⟩
    exact ⟨h.1.of_part (hwhole _).isInfix, h.2.1.of_suffix (hwhole _), h.2.2.of_suffix ⟨u, hu⟩⟩
  waits {w v} h hlook := by
    refine ⟨h.1.repair_append, h.2.1.repair_append, fun _ => ⟨?_, repair_idem w⟩⟩
    have hnorm := (lexer parser.stateType).look_norm_append w []
    rw [List.append_nil, List.append_nil] at hnorm
    exact hnorm.trans hlook
  drains {w piece v} h htrigger := by
    have hne : w ++ piece ≠ [] := by
      intro hnil
      rw [hnil] at htrigger
      cases htrigger
    rw [WindowsDraining, List.append_assoc]
    exact ⟨h.1, h.2.1, (lastIsCr_iff hne).mp htrigger⟩
  reads {w piece v} h htrigger := by
    rw [WindowsRest, List.append_assoc]
    refine ⟨h.1, h.2.1, fun hends => ?_⟩
    -- a buffer that ends with a carriage return and is not drained is empty
    have hnil : w ++ piece = [] := by
      by_contra hne
      rw [(lastIsCr_iff hne).mpr hends] at htrigger
      cases htrigger
    rw [hnil]
    exact ⟨Lexer.look_nil _, rfl⟩

/-- Whatever the reads of the Windows reader are, it does with a stream of sized
messages that ends with a carriage return what one call of `processAllMessages`
does. -/
theorem readingLoop_whole {self : CDCImplPrivate} (hwrites : self.eventWrites = [])
    {reads : List ReadFileResult} (hreads : .failed ∉ reads) (byteRead : Byte)
    {stream : UString} (hstream : (reads.map (·.bytes)).flatten = stream) (hends : EndsCr stream)
    (hsized : SizedStream stream) :
    ∃ self₁ self' rest, readingLoop reads self [] byteRead = .running self₁ rest ∧
      processAllMessages .windows self stream = (.ok (), self', rest) ∧
      self₁.log = self'.log ∧ ∃ last, self₁ = withParse self' last := by
  subst hstream
  have hrest : WindowsRest self.msgParser [] (reads.map (·.bytes)).flatten :=
    ⟨hsized, hends, fun _ => ⟨Lexer.look_nil _, rfl⟩⟩
  have hdrain := Lexer.feed_append fun r v hvisits =>
    ((windows_invariant self.msgParser).visits hrest hvisits).stable
  have hend := (windows_invariant self.msgParser).atRest_feed hrest
  have hlast : ∀ b, ([] : UString).getLast? = some b → b = byteRead := by simp
  obtain ⟨self₁, hloop, hafter₁⟩ := readingLoop_feed hwrites hreads hlast
  obtain ⟨self', hprocess, hafter'⟩ :=
    processAllMessages_eq .windows hwrites (reads.map (·.bytes)).flatten
  -- nothing is left to take, so the rest drains to itself
  obtain ⟨hlook, hrepair⟩ := hend.2.2 (by simpa using hend.2.1)
  rw [List.nil_append, Lexer.drain_of_none _ hlook, List.append_nil] at hdrain
  rw [hdrain] at hprocess hafter'
  obtain ⟨last, hlast⟩ := hafter₁.eq hafter'
  refine ⟨self₁, self', _, hloop, ?_, ?_, last, hlast⟩
  · rw [hprocess]
    exact congrArg (fun rest => (Except.ok (), self', rest)) hrepair
  · rw [hlast]
    rfl

/-- Running `processAllMessages` on a buffer that ends with a carriage return,
and then on its residual with more bytes, is one run on both.  So the Windows
reader does with a stream that ends with a carriage return what one run on it
does. -/
theorem processAllMessages_fusion {self : CDCImplPrivate} (hwrites : self.eventWrites = []) :
    (∀ (platform : Platform) (a b : UString), a.getLast? = some cr → SizedStream (a ++ b) →
      ∃ self₁ residual self₂ rest self',
        processAllMessages platform self a = (.ok (), self₁, residual) ∧
        processAllMessages platform self₁ (residual ++ b) = (.ok (), self₂, rest) ∧
        processAllMessages platform self (a ++ b) = (.ok (), self', rest) ∧
        self₂.log = self'.log ∧ ∃ last, self₂ = withParse self' last) ∧
    ∀ (reads : List ReadFileResult) (byteRead : Byte) (stream : UString), .failed ∉ reads →
      (reads.map (·.bytes)).flatten = stream → stream.getLast? = some cr → SizedStream stream →
      ∃ self₁ self' rest, readingLoop reads self [] byteRead = .running self₁ rest ∧
        processAllMessages .windows self stream = (.ok (), self', rest) ∧
        self₁.log = self'.log ∧ ∃ last, self₁ = withParse self' last := by
  constructor
  · intro platform a b hends hsized
    exact processAllMessages_append platform hwrites hends hsized
  · intro reads byteRead stream hreads hstream hends hsized
    refine readingLoop_whole hwrites hreads byteRead hstream (fun b hb => ?_) hsized
    exact Option.some.inj (hb.symm.trans hends)

/-- A garbage line and a message, fused, and read byte by byte with one read
that brings no byte. -/
theorem processAllMessages_fusion_garbage :
    (∃ self₁ residual self₂ rest self',
      processAllMessages .linux (.init (.new listedOnly)) [chr 'X', cr] =
        (.ok (), self₁, residual) ∧
      processAllMessages .linux self₁ (residual ++ ascii ">OK") = (.ok (), self₂, rest) ∧
      processAllMessages .linux (.init (.new listedOnly)) ([chr 'X', cr] ++ ascii ">OK") =
        (.ok (), self', rest) ∧
      self₂.log = self'.log ∧ ∃ last, self₂ = withParse self' last) ∧
    ∃ self₁ self' rest,
      readingLoop [.immediate (chr 'X'), .delayed (some cr), .delayed none]
        (.init (.new listedOnly)) [] 0 = .running self₁ rest ∧
      processAllMessages .windows (.init (.new listedOnly)) [chr 'X', cr] =
        (.ok (), self', rest) ∧
      self₁.log = self'.log ∧ ∃ last, self₁ = withParse self' last := by
  obtain ⟨hfusion, hwindows⟩ :=
    @processAllMessages_fusion (.init (.new listedOnly)) rfl
  exact ⟨hfusion .linux [chr 'X', cr] (ascii ">OK") (by decide) (by decide),
    hwindows [.immediate (chr 'X'), .delayed (some cr), .delayed none] 0 [chr 'X', cr]
      (by decide) (by decide) (by decide) (by decide)⟩

/-! ## The Linux reader -/

/-- In the reads of a stream, no line is rejected in the buffer before its
carriage return has been read. -/
def LinesArrive (types : Nat → MessageType) (w : UString) (reads : List UString) : Prop :=
  ∀ r v, (lexer types).Visits hasCr w reads r v →
    ∀ p, verdict types (repair r) = .reject p → cr ∈ (repair r).drop p

/-- Every line that is dropped is dropped up to and including its carriage
return. -/
def DropsLines (effects : List Effect) : Prop :=
  ∀ line, .bytesDropped line ∈ effects → line.getLast? = some cr

theorem sized_invariant (types : Nat → MessageType) (trigger : UString → Bool) :
    Lexer.FeedInvariant (lexer types) trigger (fun w v => SizedStream (w ++ v))
      (fun w v => SizedStream (w ++ v)) where
  takes {w v item rest} h hlook := by
    obtain ⟨u, rfl⟩ := look_rest hlook
    exact h.of_part (by rw [List.append_assoc]; exact (List.suffix_append u _).isInfix)
  waits h _ := h.repair_append
  drains h _ := by rwa [List.append_assoc]
  reads h _ := by rwa [List.append_assoc]

/-- When every line arrives, the reads feed the items of the whole stream. -/
theorem LinesArrive.feed {parser : CDCMessageParserPrivate} {reads : List UString}
    (hlines : LinesArrive parser.stateType [] reads) {stream : UString}
    (hreads : ∀ read ∈ reads, read ≠ []) (hcut : reads.flatten = stream)
    (hends : stream.getLast? = some cr) (hsized : SizedStream stream) :
    ((lexer parser.stateType).feed hasCr [] reads).1 =
      ((lexer parser.stateType).drain stream).1 := by
  have hstable : ∀ r v, (lexer parser.stateType).Visits hasCr [] reads r v →
      (lexer parser.stateType).Stable r v := by
    intro r v hvisits
    have hrv : SizedStream (r ++ v) :=
      (sized_invariant parser.stateType hasCr).visits (by simpa [hcut] using hsized) hvisits
    exact (hrv.of_part (List.prefix_append r v).isInfix).stable (hlines r v hvisits)
  have hdrain := Lexer.feed_append hstable
  rw [List.nil_append, hcut] at hdrain
  rcases List.eq_nil_or_concat' reads with rfl | ⟨init, last, rfl⟩
  · subst hcut
    cases hends
  · -- the last read ends with the carriage return, so it is processed
    have hlast : last.getLast? = some cr := by
      rw [← hends, ← hcut, List.flatten_append, List.flatten_singleton,
        List.getLast?_append_of_ne_nil _ (hreads last (by simp))]
    have hlook : (lexer parser.stateType).look
        ((lexer parser.stateType).feed hasCr [] (init ++ [last])).2 = none :=
      Lexer.look_feed
        (fun w => hasCr_of_mem (List.mem_append_right w (List.mem_of_getLast? hlast))) []
    rw [hdrain, Lexer.drain_of_none _ hlook, List.append_nil]

/-- The reads drop whole lines when every line that they reject has arrived,
and only then. -/
theorem dropsLines_iff {types : Nat → MessageType} {w : UString} {reads : List UString}
    {listener : Bool} :
    DropsLines (((lexer types).feed hasCr w reads).1.flatMap (Item.effects listener)) ↔
      LinesArrive types w reads := by
  constructor
  · intro hdrops r v hvisits p hreject
    by_contra hcr
    have hfind : find (repair r) cr p = none := by
      cases hfind : find (repair r) cr p with
      | none => rfl
      | some e => exact absurd (cr_mem_drop_of_find hfind) hcr
    have hlook : (lexer types).look r = some (.discarded (repair r), []) := by
      rw [look_eq, hreject, itemOf, hfind]
    have hlast := hdrops (repair r)
      (mem_effects_dropped.mpr (Lexer.mem_feed.mpr ⟨r, v, [], hvisits, hlook⟩))
    refine hcr (EndsCr.cr_mem_drop (fun b hb => ?_) (verdict_reject_lt hreject))
    exact Option.some.inj (hb.symm.trans hlast)
  · intro hlines line hline
    obtain ⟨r, v, rest, hvisits, hlook⟩ := Lexer.mem_feed.mp (mem_effects_dropped.mp hline)
    rw [look_eq] at hlook
    cases hverdict : verdict types (repair r) with
    | accept p t => simp [hverdict, itemOf] at hlook
    | reject p =>
      obtain ⟨e, hfind⟩ := Option.isSome_iff_exists.mp
        (find_isSome_of_mem (hlines r v hvisits p hverdict))
      simp only [hverdict, itemOf, hfind, Option.some.injEq, Prod.mk.injEq,
        Item.discarded.injEq] at hlook
      have hlt := find_lt hfind
      rw [← hlook.1, List.getLast?_eq_getElem?, List.length_take_of_le hlt, Nat.succ_sub_one,
        List.getElem?_take_of_lt (Nat.lt_succ_self e), find_getElem hfind]
    | wait => simp [hverdict, itemOf] at hlook

/-- Two cuttings of a stream of sized messages that ends with a carriage return
dispatch the same, and drop whole lines, when in both of them every line that is
rejected has arrived, and only then. -/
theorem readMsgThread_resync {self : CDCImplPrivate} (hwrites : self.eventWrites = [])
    {stream : UString} (hends : stream.getLast? = some cr) (hsized : SizedStream stream)
    {reads₁ reads₂ : List UString} (hreads₁ : ∀ read ∈ reads₁, read ≠ [])
    (hreads₂ : ∀ read ∈ reads₂, read ≠ []) (hcut₁ : reads₁.flatten = stream)
    (hcut₂ : reads₂.flatten = stream) :
    ∃ self₁ rest₁ effects₁ self₂ rest₂ effects₂,
      readMsgThread (reads₁.map portRead) self [] = .running self₁ rest₁ ∧
      self₁.log = self.log ++ effects₁ ∧
      readMsgThread (reads₂.map portRead) self [] = .running self₂ rest₂ ∧
      self₂.log = self.log ++ effects₂ ∧
      ((dispatchedMessages effects₁ = dispatchedMessages effects₂ ∧
          DropsLines effects₁ ∧ DropsLines effects₂) ↔
        LinesArrive self.msgParser.stateType [] reads₁ ∧
          LinesArrive self.msgParser.stateType [] reads₂) := by
  obtain ⟨self₁, hthread₁, hafter₁⟩ := readMsgThread_feed hwrites [] reads₁
  obtain ⟨self₂, hthread₂, hafter₂⟩ := readMsgThread_feed hwrites [] reads₂
  refine ⟨self₁, _, _, self₂, _, _, hthread₁, hafter₁.log, hthread₂, hafter₂.log, ?_⟩
  rw [dropsLines_iff, dropsLines_iff]
  constructor
  · rintro ⟨-, hlines₁, hlines₂⟩
    exact ⟨hlines₁, hlines₂⟩
  · rintro ⟨hlines₁, hlines₂⟩
    refine ⟨?_, hlines₁, hlines₂⟩
    rw [hlines₁.feed hreads₁ hcut₁ hends hsized, hlines₂.feed hreads₂ hcut₂ hends hsized]

/-- A message and a bad line, in one read and cut before the end of the line. -/
theorem readMsgThread_resync_cut_line :
    ∃ self₁ rest₁ effects₁ self₂ rest₂ effects₂,
      readMsgThread ([ascii "<OK" ++ [cr, chr 'X', cr]].map portRead)
        (.init (.new listedOnly)) [] = .running self₁ rest₁ ∧
      self₁.log = [] ++ effects₁ ∧
      readMsgThread ([ascii "<OK" ++ [cr, chr 'X'], [cr]].map portRead)
        (.init (.new listedOnly)) [] = .running self₂ rest₂ ∧
      self₂.log = [] ++ effects₂ ∧
      ((dispatchedMessages effects₁ = dispatchedMessages effects₂ ∧
          DropsLines effects₁ ∧ DropsLines effects₂) ↔
        LinesArrive (CDCMessageParserPrivate.new listedOnly).stateType []
            [ascii "<OK" ++ [cr, chr 'X', cr]] ∧
          LinesArrive (CDCMessageParserPrivate.new listedOnly).stateType []
            [ascii "<OK" ++ [cr, chr 'X'], [cr]]) :=
  @readMsgThread_resync (.init (.new listedOnly)) rfl (ascii "<OK" ++ [cr, chr 'X', cr])
    (by decide) (by decide) [ascii "<OK" ++ [cr, chr 'X', cr]]
    [ascii "<OK" ++ [cr, chr 'X'], [cr]] (by decide) (by decide) (by decide) (by decide)

/-- The bad line `X` is dropped as far as it has been read, and what follows in
it is dispatched as a message. -/
theorem readMsgThread_drops_unread_line :
    ∃ stream : UString, ∃ reads₁ reads₂ : List UString,
      stream.getLast? = some cr ∧ SizedStream stream ∧ (∀ read ∈ reads₁, read ≠ []) ∧
      (∀ read ∈ reads₂, read ≠ []) ∧ reads₁.flatten = stream ∧ reads₂.flatten = stream ∧
      dispatchedMessages (readMsgThread (reads₁.map portRead) (.init (.new listedOnly)) []).self.log
        = [Frame.test.message] ∧
      dispatchedMessages (readMsgThread (reads₂.map portRead) (.init (.new listedOnly)) []).self.log
        = [Frame.test.message, Frame.test.message] :=
  ⟨ascii "<OK" ++ [cr, chr 'X'] ++ ascii "<OK" ++ [cr],
    [ascii "<OK" ++ [cr, chr 'X'] ++ ascii "<OK" ++ [cr]],
    [ascii "<OK" ++ [cr, chr 'X'], ascii "<OK" ++ [cr]],
    by decide, by decide, by decide, by decide, by decide, by decide, by decide,
    by decide⟩

end Clibcdc.Reader
