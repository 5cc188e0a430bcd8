import Clibcdc.Reader.Agreement

/-!
# Frames on the way through the reader

A stream of sized frames comes out of the Linux reader as it was sent, however
it is cut into reads (`readMsgThread_frames`).

The argument has three parts.  `readMsgThread_feed`: the thread feeds its reads
to the lexer and performs the items.  `look_frame`: the item at the front of a
sized frame is its message.  `Framed`: while a stream of frames is read, the
buffer and what is still to come are such a stream, so that no item in the
buffer depends on what is still to come.
-/

namespace Clibcdc.Reader

open Clibcdc.Automata Clibcdc.Parser

/-! ## The thread feeds the lexer -/

/-- A round of the Linux thread that reads `bytes`. -/
def portRead (bytes : UString) : SelectResult := .ready (some (some bytes)) false

/-- The buffer contains a carriage return, so `appendDataFromPort` reports a
message end. -/
def hasCr (msgBuffer : UString) : Bool := (find msgBuffer cr 0).isSome

theorem hasCr_of_mem {w : UString} (h : cr ∈ w) : hasCr w = true :=
  find_isSome_of_mem (by simpa using h)

theorem mem_of_hasCr {w : UString} (h : hasCr w = true) : cr ∈ w := by
  obtain ⟨k, hk⟩ := Option.isSome_iff_exists.mp h
  exact List.mem_of_getElem? (find_getElem hk)

/-- A read appends its bytes, and processes the buffer when it contains a
carriage return. -/
theorem readPort_eq {self : CDCImplPrivate} (hwrites : self.eventWrites = [])
    (w bytes : UString) :
    ∃ self', readPort self w (some (some bytes)) =
        (.ok (), self', ((lexer self.msgParser.stateType).feed hasCr w [bytes]).2) ∧
      After .linux self ((lexer self.msgParser.stateType).feed hasCr w [bytes]).1 self' := by
  rw [readPort, appendDataFromPort, Lexer.feed]
  by_cases hcr : hasCr (w ++ bytes) = true
  · obtain ⟨k, hfind⟩ := Option.isSome_iff_exists.mp hcr
    obtain ⟨self', hprocess, hafter⟩ := processAllMessages_eq .linux hwrites (w ++ bytes)
    refine ⟨self', ?_, ?_⟩
    · simp [hfind, hcr, hprocess, Lexer.feed]
    · simpa [hcr, Lexer.feed] using hafter
  · have hfind : find (w ++ bytes) cr 0 = none := by simpa [hasCr] using hcr
    refine ⟨self, ?_, ?_⟩
    · simp [hfind, hcr, Lexer.feed]
    · simpa [hcr, Lexer.feed] using After.refl .linux hwrites

/-- The thread performs the items that its reads feed to the lexer. -/
theorem readMsgThread_feed {self : CDCImplPrivate} (hwrites : self.eventWrites = [])
    (w : UString) (reads : List UString) :
    ∃ self', readMsgThread (reads.map portRead) self w =
        .running self' ((lexer self.msgParser.stateType).feed hasCr w reads).2 ∧
      After .linux self ((lexer self.msgParser.stateType).feed hasCr w reads).1 self' := by
  induction reads generalizing self w with
  | nil => exact ⟨self, rfl, After.refl .linux hwrites⟩
  | cons bytes reads ih =>
    obtain ⟨self₁, hread, hafter⟩ := readPort_eq hwrites w bytes
    obtain ⟨self', hrest, hafter'⟩ := ih hafter.eventWrites
      ((lexer self.msgParser.stateType).feed hasCr w [bytes]).2
    rw [hafter.stateType] at hrest hafter'
    refine ⟨self', ?_, ?_⟩
    · rw [List.map_cons, portRead, readMsgThread, hread]
      simp only [Bool.false_eq_true, if_false]
      rw [hrest, Lexer.feed_cons hasCr w bytes reads]
    · rw [Lexer.feed_cons hasCr w bytes reads]
      exact hafter.trans hafter'

/-! ## One frame -/

/-- No frame begins like one of the replies without a length. -/
theorem not_isOpen_frame (frame : Frame) (y : UString) : ¬ IsOpen (frame.bytes ++ y) := by
  cases frame with
  | dataSend response =>
    cases response <;> simp [IsOpen, Frame.bytes, Frame.body, DSResponse.text, ascii, chr]
  | modeProgram response | modeNormal response =>
    cases response <;> simp [IsOpen, Frame.bytes, Frame.body, PTEResponse.text, ascii, chr]
  | _ => simp [IsOpen, Frame.bytes, Frame.body, ascii, chr]

theorem repair_sent (sent : SentFrame) (y : UString) :
    repair (sent.bytes ++ y) = sent.frame.bytes ++ y := by
  have hlt : chr '<' ≠ chr '>' := by decide
  by_cases hswapped : sent.swapped = true
  · simp [SentFrame.bytes, SentFrame.head, hswapped, repair, Frame.bytes]
  · simp [SentFrame.bytes, SentFrame.head, hswapped, repair, Frame.bytes, hlt]

/-- The item at the front of a sized frame is its message. -/
theorem look_frame (parser : CDCMessageParserPrivate) {sent : SentFrame} (y : UString)
    (hsized : sent.frame.Sized ∨ y ≠ []) :
    (lexer parser.stateType).look (sent.bytes ++ y) = some (.message sent.frame.message, y) := by
  have hlen := sent.frame.bytes_length
  have haccept := verdict_frame parser.stateType sent.frame y hsized
  rw [← repair_sent, finalState_type] at haccept
  rw [look_accept haccept, repair_sent, Nat.sub_add_cancel (by omega), List.take_left,
    ← sent.bytes_length, List.drop_left]
  rfl

/-! ## A stream of frames -/

def bytesOf (sents : List SentFrame) : UString := sents.flatMap SentFrame.bytes

theorem bytesOf_cons (sent : SentFrame) (sents : List SentFrame) :
    bytesOf (sent :: sents) = sent.bytes ++ bytesOf sents := List.flatMap_cons

/-- The item that a frame is taken out as. -/
def frameItem (sent : SentFrame) : Item := .message sent.frame.message

/-- A stream of sized frames is taken apart into its frames. -/
theorem drain_frames (parser : CDCMessageParserPrivate) {sents : List SentFrame}
    (hsized : ∀ sent ∈ sents, sent.frame.Sized) :
    (lexer parser.stateType).drain (bytesOf sents) = (sents.map frameItem, []) := by
  induction sents with
  | nil => exact Lexer.drain_nil _
  | cons sent sents ih =>
    have hlook := look_frame parser (bytesOf sents) (.inl (hsized sent List.mem_cons_self))
    rw [bytesOf_cons, Lexer.drain_of_some _ hlook,
      ih fun s hs => hsized s (List.mem_cons_of_mem _ hs)]
    rfl

/-- The buffer `w` and the bytes `v` still to come are a stream of sized
frames. -/
def Framed (w v : UString) : Prop :=
  ∃ sents : List SentFrame, (∀ sent ∈ sents, sent.frame.Sized) ∧
    repair (w ++ v) = repair (bytesOf sents)

section Stream

variable {w v rest : UString} {sents : List SentFrame} {item : Item}

/-- A buffer that is not empty begins with the first frame, or is a part of
it. -/
theorem stream_cons (hbytes : repair (w ++ v) = repair (bytesOf sents)) (hw : w ≠ []) :
    ∃ sent sents', sents = sent :: sents' ∧ repair w ++ v = sent.frame.bytes ++ bytesOf sents' := by
  rw [repair_append hw] at hbytes
  cases sents with
  | nil =>
    obtain ⟨hnil, -⟩ := List.append_eq_nil_iff.mp hbytes
    exact absurd (repair_eq_nil.mp hnil) hw
  | cons sent sents =>
    rw [bytesOf_cons, repair_sent] at hbytes
    exact ⟨sent, sents, rfl, hbytes⟩

theorem ne_nil_of_look {types : Nat → MessageType} (h : (lexer types).look w = some (item, rest)) :
    w ≠ [] := by
  rintro rfl
  rw [Lexer.look_nil] at h
  cases h

theorem Framed.stable (parser : CDCMessageParserPrivate) (h : Framed w v) :
    (lexer parser.stateType).Stable w v := by
  intro item rest hlook
  obtain ⟨sents, hsized, hbytes⟩ := h
  obtain ⟨sent, sents, rfl, hcons⟩ := stream_cons hbytes (ne_nil_of_look hlook)
  have hopen : ¬ IsOpen (repair w) :=
    not_isOpen_of_prefix (not_isOpen_frame sent.frame (bytesOf sents)) ⟨v, hcons⟩
  have hframe := verdict_frame parser.stateType sent.frame (bytesOf sents)
    (.inl (hsized sent List.mem_cons_self))
  refine look_stable hopen (fun p hp => ?_) v item rest hlook
  have hwaits : verdict parser.stateType (repair w) ≠ .wait := by simp [hp]
  have hreject := verdict_append v hopen hwaits
  rw [hcons, hframe, hp] at hreject
  cases hreject

/-- The item that is taken from the front of the buffer is the first frame. -/
theorem stream_takes (parser : CDCMessageParserPrivate)
    (hsized : ∀ sent ∈ sents, sent.frame.Sized)
    (hbytes : repair (w ++ v) = repair (bytesOf sents))
    (hlook : (lexer parser.stateType).look w = some (item, rest)) :
    ∃ sent sents', sents = sent :: sents' ∧ item = frameItem sent ∧ rest ++ v = bytesOf sents' := by
  have hw := ne_nil_of_look hlook
  have hwhole := Framed.stable parser ⟨sents, hsized, hbytes⟩ item rest hlook
  obtain ⟨sent, sents', rfl, hcons⟩ := stream_cons hbytes hw
  have hsent := look_frame parser (bytesOf sents') (.inl (hsized sent List.mem_cons_self))
  rw [look_eq, repair_sent, ← hcons, ← repair_append hw, ← look_eq, hwhole] at hsent
  obtain ⟨hitem, hrest⟩ := Prod.mk.inj (Option.some.inj hsent)
  exact ⟨sent, sents', rfl, hitem, hrest⟩

theorem Framed.takes (parser : CDCMessageParserPrivate) (h : Framed w v)
    (hlook : (lexer parser.stateType).look w = some (item, rest)) : Framed rest v := by
  obtain ⟨sents, hsized, hbytes⟩ := h
  obtain ⟨sent, sents', rfl, -, hrest⟩ := stream_takes parser hsized hbytes hlook
  exact ⟨sents', fun s hs => hsized s (List.mem_cons_of_mem sent hs), by rw [hrest]⟩

end Stream

/-- Whatever the trigger, reading keeps a stream of frames. -/
theorem framed_invariant (parser : CDCMessageParserPrivate) (trigger : UString → Bool) :
    Lexer.FeedInvariant (lexer parser.stateType) trigger Framed Framed where
  takes h hlook := h.takes parser hlook
  waits h _ := by
    obtain ⟨sents, hsized, hbytes⟩ := h
    exact ⟨sents, hsized, by rw [← hbytes]; exact repair_repair_append _ _⟩
  drains h _ := by rwa [Framed, List.append_assoc]
  reads h _ := by rwa [Framed, List.append_assoc]

theorem mem_of_mem_repair {b : Byte} (hb : b ≠ chr '<') {w : UString} (h : b ∈ repair w) :
    b ∈ w := by
  cases w with
  | nil => exact h
  | cons c w =>
    by_cases hc : c = chr '>'
    · simp only [repair, hc, if_true, List.mem_cons] at h
      exact List.mem_cons_of_mem c (h.resolve_left hb)
    · simpa [repair, hc] using h

/-- The last read of a stream of frames contains the carriage return that ends
it. -/
theorem cr_mem_last_read {pre read : UString} {sents : List SentFrame} (hread : read ≠ [])
    (hbytes : repair (pre ++ read) = repair (bytesOf sents)) : cr ∈ read := by
  have hsents : sents ≠ [] := by
    rintro rfl
    simp [bytesOf, repair_eq_nil, hread, show repair [] = [] from rfl] at hbytes
  have hlast : (repair (bytesOf sents)).getLast? = some cr := by
    obtain ⟨init, sent, rfl⟩ := (List.eq_nil_or_concat' sents).resolve_left hsents
    have hsplit : bytesOf (init ++ [sent]) =
        (bytesOf init ++ sent.head :: sent.frame.body) ++ [cr] := by
      simp [bytesOf, SentFrame.bytes]
    rw [hsplit, repair_append (by simp)]
    simp
  by_cases hpre : pre = []
  · subst hpre
    rw [← hbytes, List.nil_append] at hlast
    exact mem_of_mem_repair (by decide) (List.mem_of_getLast? hlast)
  · rw [← hbytes, repair_append hpre, List.getLast?_append_of_ne_nil _ hread] at hlast
    exact List.mem_of_getLast? hlast

/-- A leading `>` that has been repaired makes no difference. -/
theorem drain_framed (parser : CDCMessageParserPrivate) {w : UString} {sents : List SentFrame}
    (hsized : ∀ sent ∈ sents, sent.frame.Sized) (hbytes : repair w = repair (bytesOf sents)) :
    (lexer parser.stateType).drain w = (sents.map frameItem, []) := by
  have hnorm : (lexer parser.stateType).drain (repair w) =
      (lexer parser.stateType).drain (repair (bytesOf sents)) := by rw [hbytes]
  rw [← drain_frames parser hsized]
  exact ((lexer parser.stateType).drain_norm _).symm.trans
    (hnorm.trans ((lexer parser.stateType).drain_norm _))

/-- A stream of sized frames that arrives at a waiting buffer is taken apart
into its frames by the time it has been read. -/
theorem feed_frames (parser : CDCMessageParserPrivate) {w : UString} {reads : List UString}
    {sents : List SentFrame} (hsized : ∀ sent ∈ sents, sent.frame.Sized)
    (hreads : ∀ read ∈ reads, read ≠ []) (hw : (lexer parser.stateType).look w = none)
    (hbytes : repair (w ++ reads.flatten) = repair (bytesOf sents)) :
    (lexer parser.stateType).feed hasCr w reads = (sents.map frameItem, []) := by
  have hframed : Framed w reads.flatten := ⟨sents, hsized, hbytes⟩
  have hdrain := Lexer.feed_append fun r v hvisits =>
    ((framed_invariant parser hasCr).visits hframed hvisits).stable parser
  have hwaits : (lexer parser.stateType).look
      ((lexer parser.stateType).feed hasCr w reads).2 = none := by
    rcases List.eq_nil_or_concat' reads with rfl | ⟨init, last, rfl⟩
    · exact hw
    · apply Lexer.look_feed
      intro w'
      apply hasCr_of_mem
      have hsplit : repair (w ++ init.flatten ++ last) = repair (bytesOf sents) := by
        simpa using hbytes
      have hlast := cr_mem_last_read (hreads last (by simp)) hsplit
      exact List.mem_append_right w' hlast
  rw [Lexer.drain_of_none _ hwaits, List.append_nil, drain_framed parser hsized hbytes,
    Prod.mk.injEq] at hdrain
  exact Prod.ext hdrain.1.symm (repair_eq_nil.mp hdrain.2.symm)

/-- The same when the beginning of the stream is processed first. -/
theorem drain_feed_frames (parser : CDCMessageParserPrivate) {w : UString} {reads : List UString}
    {sents : List SentFrame} (hsized : ∀ sent ∈ sents, sent.frame.Sized)
    (hreads : ∀ read ∈ reads, read ≠ []) (hbytes : w ++ reads.flatten = bytesOf sents) :
    ((lexer parser.stateType).drain w).1 ++ ((lexer parser.stateType).feed hasCr
        ((lexer parser.stateType).drain w).2 reads).1 = sents.map frameItem ∧
      ((lexer parser.stateType).feed hasCr ((lexer parser.stateType).drain w).2 reads).2 = [] := by
  have hframed : Framed w reads.flatten := ⟨sents, hsized, by rw [hbytes]⟩
  have hinv := framed_invariant parser hasCr
  have hstable : ∀ r, (lexer parser.stateType).Reaches w r → Framed r reads.flatten :=
    fun r hr => hr.keeps (P := (Framed · reads.flatten)) (fun _ _ _ h hlook => hinv.takes h hlook)
      hframed
  -- what is kept is the beginning of a stream of frames again
  obtain ⟨r, hreach, hlook, hrest⟩ := (Lexer.drain_rest w :
    ∃ r, (lexer parser.stateType).Reaches w r ∧ _)
  obtain ⟨sents', hsized', hbytes'⟩ := hinv.waits (hstable r hreach) hlook
  have hdrain := Lexer.drain_append (v := reads.flatten) fun r hr => (hstable r hr).stable parser
  have hwaits := (lexer parser.stateType).look_drain w
  change repair ((lexer parser.stateType).norm r ++ reads.flatten) = _ at hbytes'
  rw [← hrest] at hbytes'
  rw [hbytes, drain_frames parser hsized, drain_framed parser hsized' hbytes',
    Prod.mk.injEq] at hdrain
  rw [feed_frames parser hsized' hreads hwaits hbytes']
  exact ⟨hdrain.1.symm, rfl⟩

/-! ## What a stream of frames does -/

def isAsync (sent : SentFrame) : Bool := sent.frame.msgType = .msgAsync

/-- What dispatching a frame does when a listener is registered: an
asynchronous message calls the listener with its payload, any other is stored
and signalled. -/
def frameEffects : Frame → List Effect
  | .async payload =>
    [.dispatched (Frame.async payload).message, .listenerCalled payload.data]
  | frame => [.dispatched frame.message, .responseStored frame.message, .newMsgSignalled]

theorem frameItem_effects (sent : SentFrame) :
    (frameItem sent).effects true = frameEffects sent.frame := by
  obtain ⟨frame, swapped⟩ := sent
  cases frame with
  | async payload =>
    simp [frameItem, Item.effects, Frame.message, Frame.msgType, frameEffects,
      getParsedDRData_eq]
  | _ => simp [frameItem, Item.effects, Frame.message, Frame.msgType, frameEffects]

theorem frameItem_response (sent : SentFrame) :
    (frameItem sent).response = if isAsync sent then none else some sent.frame.message := by
  simp [frameItem, Item.response, isAsync, Frame.message]

theorem newMsgEvent_frames (sents : List SentFrame) (newMsgEvent : Nat) :
    (sents.map frameItem).foldl (Item.newMsgEvent .linux) newMsgEvent =
      newMsgEvent + (sents.filter (!isAsync ·)).length := by
  induction sents generalizing newMsgEvent with
  | nil => rfl
  | cons sent sents ih =>
    rw [List.map_cons, List.foldl_cons, ih, Item.newMsgEvent, frameItem_response]
    by_cases hasync : isAsync sent = true
    · simp [hasync]
    · simp [hasync, signalled]
      omega

theorem lastResponse_frames (sents : List SentFrame) (lastResponse : ParsedMessage) :
    (sents.map frameItem).foldl Item.lastResponse lastResponse =
      (((sents.filter (!isAsync ·)).map (·.frame.message)).getLast?).getD lastResponse := by
  induction sents generalizing lastResponse with
  | nil => rfl
  | cons sent sents ih =>
    rw [List.map_cons, List.foldl_cons, ih, Item.lastResponse, frameItem_response]
    by_cases hasync : isAsync sent = true
    · simp [hasync]
    · simp [hasync, List.getLast?_cons]

theorem lastReceptionError_frames (sents : List SentFrame) (descr : String) :
    (sents.map frameItem).foldl Item.lastReceptionError descr = descr := by
  induction sents generalizing descr with
  | nil => rfl
  | cons sent sents ih => exact ih descr

/-- The fields behind a stream of frames. -/
theorem After.frames {self self' : CDCImplPrivate} {sents : List SentFrame}
    (h : After .linux self (sents.map frameItem) self') :
    self'.log = self.log ++ (sents.map frameItem).flatMap (Item.effects self.asyncListener) ∧
      self'.newMsgEvent = self.newMsgEvent + (sents.filter (!isAsync ·)).length ∧
      self'.lastResponse = (((sents.filter (!isAsync ·)).map (·.frame.message)).getLast?).getD
        self.lastResponse ∧
      self'.lastReceptionError = self.lastReceptionError := by
  refine ⟨h.log, ?_⟩
  obtain ⟨last, rfl⟩ := h.state
  rw [perform_eq .linux h.writes h.decodes]
  exact ⟨newMsgEvent_frames sents _, lastResponse_frames sents _, lastReceptionError_frames sents _⟩

/-- However a stream of sized frames is cut into reads, the Linux reader
dispatches its frames, each once and in order, and nothing is left over. -/
theorem readMsgThread_frames {self : CDCImplPrivate} (hwrites : self.eventWrites = [])
    (hlistener : self.asyncListener = true) {sents : List SentFrame}
    (hsized : ∀ sent ∈ sents, sent.frame.Sized) {reads : List UString}
    (hreads : ∀ read ∈ reads, read ≠ []) (hcut : reads.flatten = bytesOf sents) :
    ∃ self', readMsgThread (reads.map portRead) self [] = .running self' [] ∧
      self'.log = self.log ++ sents.flatMap (fun sent => frameEffects sent.frame) ∧
      self'.newMsgEvent = self.newMsgEvent + (sents.filter (!isAsync ·)).length ∧
      self'.lastResponse = (((sents.filter (!isAsync ·)).map (·.frame.message)).getLast?).getD
        self.lastResponse ∧
      self'.lastReceptionError = self.lastReceptionError := by
  obtain ⟨self', hthread, hafter⟩ := readMsgThread_feed hwrites [] reads
  have hfeed := feed_frames self.msgParser hsized hreads (Lexer.look_nil _) (w := [])
    (by rw [List.nil_append, hcut])
  rw [hfeed] at hthread hafter
  obtain ⟨hlog, hevent, hresponse, herror⟩ := hafter.frames
  refine ⟨self', hthread, ?_, hevent, hresponse, herror⟩
  rw [hlog, hlistener, List.flatMap_map]
  simp only [frameItem_effects]

theorem readMsgThread_frames_two :
    ∃ self', readMsgThread ([ascii "<OK", [cr, chr '>'], ascii "DR" ++ [1, chr ':', cr], [cr]].map
        portRead) { CDCImplPrivate.init (.new listedOnly) with asyncListener := true } [] =
          .running self' [] ∧
      self'.log = [
        .dispatched Frame.test.message, .responseStored Frame.test.message, .newMsgSignalled,
        .dispatched (Frame.async ⟨[cr], by decide⟩).message, .listenerCalled [cr]] := by
  obtain ⟨self', hthread, hlog, -⟩ := @readMsgThread_frames
    { CDCImplPrivate.init (.new listedOnly) with asyncListener := true } rfl rfl
    [⟨.test, false⟩, ⟨.async ⟨[cr], by decide⟩, true⟩] (by decide)
    [ascii "<OK", [cr, chr '>'], ascii "DR" ++ [1, chr ':', cr], [cr]] (by decide) (by decide)
  exact ⟨self', hthread, hlog⟩

end Clibcdc.Reader
