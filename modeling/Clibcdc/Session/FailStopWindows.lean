import Clibcdc.Reader.Overlapped
import Clibcdc.Session.FailStop

/-!
# What the Windows reader thread does when a call fails

Both handlers of the Windows thread record the error and stop the reception, so
that no failure leaves the thread: not that of a system call, and not that of a
write to the event (`readingThread_failStop`).  The Linux thread has no handler
for the latter (`readMsgThread_failStop`).

A wait for a character event that fails is the exception.  The thread passes it
over, and goes on to read.

A write to the event fails when a message has been stored.  Until then the
thread has performed the items of its reads (`ReadsOn`).
-/

namespace Clibcdc.Reader

open Clibcdc.Automata Clibcdc.Parser

/-! ## Processing, when writes to the event may fail -/

theorem responses_append (items items' : List Item) :
    responses (items ++ items') = responses items ++ responses items' := List.filterMap_append

theorem signalFails_append {eventWrites : List Bool} {items items' : List Item} :
    SignalFails eventWrites (items ++ items') ↔ SignalFails eventWrites items ∨
      SignalFails (eventWrites.drop (responses items).length) items' := by
  unfold SignalFails
  rw [responses_append, List.length_append, List.take_add, List.mem_append]

/-- What performing items leaves: so many writes have been used up, and the
parser and the reception are as before. -/
structure Performed (before : CDCImplPrivate) (items : List Item) (after : CDCImplPrivate) :
    Prop where
  writes : after.eventWrites = before.eventWrites.drop (responses items).length
  types : after.msgParser.stateType = before.msgParser.stateType
  reception : after.receptionStopped = before.receptionStopped

theorem Performed.refl (self : CDCImplPrivate) : Performed self [] self := ⟨rfl, rfl, rfl⟩

theorem Performed.trans {self self₁ self₂ : CDCImplPrivate} {items items' : List Item}
    (h : Performed self items self₁) (h' : Performed self₁ items' self₂) :
    Performed self (items ++ items') self₂ where
  writes := by
    rw [h'.writes, h.writes, List.drop_drop, responses_append, List.length_append]
  types := h'.types.trans h.types
  reception := h'.reception.trans h.reception

theorem performItem_reception (platform : Platform) (self : CDCImplPrivate) (item : Item) :
    (performItem platform self item).receptionStopped = self.receptionStopped := by
  have hevent : ∀ s : CDCImplPrivate,
      (s.setMyEvent platform).2.receptionStopped = s.receptionStopped := by
    intro s
    unfold CDCImplPrivate.setMyEvent
    rcases s.eventWrites with _ | ⟨_ | _, eventWrites⟩ <;> rfl
  cases item with
  | discarded line => rfl
  | message parsedMessage =>
    unfold performItem processMessage
    by_cases hasync : parsedMessage.parseResult.msgType = .msgAsync
    · simp only [if_pos hasync]
      split_ifs
      · cases getParsedDRData parsedMessage.message <;> rfl
      · rfl
    · simp only [if_neg hasync]
      exact hevent _

/-- A call that processes the buffer `w` either throws the exception of
`setMyEvent`, or performs the items and keeps `rest`. -/
def Processes (self : CDCImplPrivate) (found : List Item × UString)
    (result : Except CdcException Unit × CDCImplPrivate × UString) : Prop :=
  (SignalFails self.eventWrites found.1 ∧ ∃ e self' rest,
    result = (.error e, self', rest) ∧ e.identity = .implException) ∨
  (¬ SignalFails self.eventWrites found.1 ∧ ∃ self',
    result = (.ok (), self', found.2) ∧ Performed self found.1 self')

/-- An item that is performed without an exception. -/
theorem performed_item {platform : Platform} {self : CDCImplPrivate} {item : Item}
    (hdecodes : item.Decodes) :
    (SignalFails self.eventWrites [item] ∧ ∃ e, performResult platform self item = .error e ∧
      e.identity = .implException) ∨
    (¬ SignalFails self.eventWrites [item] ∧ performResult platform self item = .ok () ∧
      Performed self [item] (performItem platform self item)) := by
  have htypes :
      (performItem platform self item).msgParser.stateType = self.msgParser.stateType := by
    rw [performItem_msgParser]
  have hreception := performItem_reception platform self item
  cases hitem : item.response with
  | none =>
    obtain ⟨hok, hwrites⟩ := @performItem_other platform self item hitem hdecodes
    right
    refine ⟨?_, hok, ⟨?_, htypes, hreception⟩⟩
    · rw [signalFails_other hitem]
      exact not_signalFails_nil _
    · rw [hwrites]
      simp [responses, hitem]
  | some response =>
    obtain ⟨hends, hwrites⟩ := @performItem_signals platform self item response hitem
    rw [signalFails_response hitem]
    rcases hends with ⟨hfails, e, herror, he⟩ | ⟨hworks, hok⟩
    · exact .inl ⟨.inl hfails, e, herror, he⟩
    · right
      refine ⟨not_or.mpr ⟨hworks, not_signalFails_nil _⟩, hok, ⟨?_, htypes, hreception⟩⟩
      rw [hwrites hworks]
      simp [responses, hitem]

theorem withParse_performed (self : CDCImplPrivate) (last : ParseResult) :
    Performed self [] (withParse self last) := ⟨rfl, rfl, rfl⟩

theorem processAllMessagesLoop_processes (platform : Platform) {self : CDCImplPrivate} {fuel : Nat}
    {msgBuffer : UString} (hfuel : msgBuffer.length < fuel) :
    Processes self ((lexer self.msgParser.stateType).drain msgBuffer)
      (processAllMessagesLoop platform fuel self msgBuffer) := by
  induction fuel generalizing self msgBuffer with
  | zero => exact absurd hfuel (Nat.not_lt_zero _)
  | succ fuel ih =>
    rw [processAllMessagesLoop]
    cases hlook : (lexer self.msgParser.stateType).look msgBuffer with
    | none =>
      obtain ⟨last, hround⟩ := processRound_wait platform hlook
      rw [hround, Lexer.drain_of_none _ hlook]
      exact .inr ⟨not_signalFails_nil _, _, rfl, withParse_performed self last⟩
    | some found =>
      obtain ⟨item, rest⟩ := found
      obtain ⟨last, hround⟩ := processRound_take platform hlook
      have hlt := (lexer self.msgParser.stateType).look_shrinks hlook
      have hparse := withParse_performed self last
      rw [hround, Lexer.drain_of_some _ hlook]
      unfold Processes
      rw [← List.singleton_append, signalFails_append]
      rcases @performed_item platform (withParse self last) item
        (look_decodes self.msgParser hlook) with ⟨hfails, e, herror, he⟩ | ⟨hworks, hok, hitem⟩
      · rw [herror]
        exact .inl ⟨.inl hfails, e, _, _, rfl, he⟩
      · have hdone := hparse.trans hitem
        have hrest := @ih (performItem platform (withParse self last) item) rest (by omega)
        rw [hok]
        unfold Processes at hrest
        rw [hdone.types, hdone.writes] at hrest
        rcases hrest with ⟨hfails, e, self', rest', hresult, he⟩ | ⟨hworks', self', hresult, hall⟩
        · exact .inl ⟨.inr hfails, e, self', rest', hresult, he⟩
        · exact .inr ⟨not_or.mpr ⟨hworks, hworks'⟩, self', hresult, hdone.trans hall⟩

/-- A read of the Windows thread processes what it feeds to the lexer. -/
theorem processByte_processes {self : CDCImplPrivate} {w piece : UString} {byteRead : Byte}
    (hlast : ∀ b, (w ++ piece).getLast? = some b → b = byteRead) :
    Processes self ((lexer self.msgParser.stateType).feed lastIsCr w [piece])
        (processByte self (w ++ piece) byteRead) ∧
      ∀ b, ((lexer self.msgParser.stateType).feed lastIsCr w [piece]).2.getLast? = some b →
        b = byteRead := by
  by_cases hcr : byteRead = cr
  · subst hcr
    have hfeed : (lexer self.msgParser.stateType).feed lastIsCr w [piece] =
        (lexer self.msgParser.stateType).drain (w ++ piece) := by
      by_cases hnil : w ++ piece = []
      · rw [Lexer.feed, hnil, Lexer.drain_nil]
        rfl
      · simp [Lexer.feed, (lastIsCr_iff hnil).mpr hlast]
    rw [hfeed, processByte, if_pos rfl]
    exact ⟨processAllMessagesLoop_processes .windows (Nat.lt_succ_self _),
      EndsCr.drain self.msgParser hlast⟩
  · have hfeed : (lexer self.msgParser.stateType).feed lastIsCr w [piece] = ([], w ++ piece) := by
      have hnot : lastIsCr (w ++ piece) = false := by
        simpa [lastIsCr] using fun h => hcr (hlast cr h).symm
      simp [Lexer.feed, hnot]
    rw [hfeed, processByte, if_neg hcr]
    exact ⟨.inr ⟨not_signalFails_nil _, self, rfl, .refl self⟩, hlast⟩

/-! ## The thread -/

/-- The items of the reads of the thread. -/
def ReadingThread.items (before : CDCImplPrivate) (t : ReadingThread) : List Item × UString :=
  (lexer before.msgParser.stateType).feed lastIsCr [] (t.reads.map (·.bytes))

/-- The thread goes on, and has performed the items of its reads. -/
structure ReadsOn (before : CDCImplPrivate) (t : ReadingThread) : Prop where
  regular : t.phase.Regular
  receivedBytes : t.receivedBytes = (t.items before).2
  last : ∀ b, t.receivedBytes.getLast? = some b → b = t.byteRead
  works : ¬ SignalFails before.eventWrites (t.items before).1
  performed : Performed before (t.items before).1 t.self

/-- The handlers have recorded the error and stopped the reception. -/
structure HasStopped (t : ReadingThread) : Prop where
  phase : t.phase = .returned 1
  reception : t.self.receptionStopped = true
  log : t.self.log.getLast? = some (.errorRecorded t.self.lastReceptionError)

theorem ReadsOn.start (self : CDCImplPrivate) : ReadsOn self (.start self) where
  regular := trivial
  receivedBytes := rfl
  last := by simp [ReadingThread.start]
  works := not_signalFails_nil _
  performed := .refl self

theorem throws_hasStopped {t : ReadingThread} {self : CDCImplPrivate} {e : CdcException}
    (he : handledWindows e.identity = true) :
    HasStopped (t.throws self e) ∧ (t.throws self e).reads = t.reads := by
  have hthrows : t.throws self e = { t with
      self := (self.setLastReceptionError e.cause).setReceptionStopped true
      phase := .returned 1 } := by
    unfold ReadingThread.throws threadHandler
    rw [if_pos he]
  rw [hthrows]
  refine ⟨⟨rfl, rfl, ?_⟩, rfl⟩
  simp [CDCImplPrivate.setLastReceptionError, CDCImplPrivate.setReceptionStopped,
    CDCImplPrivate.emit]

theorem last_of_read {w : UString} {byteRead : Byte}
    (hlast : ∀ b, w.getLast? = some b → b = byteRead) (result : ReadFileResult) :
    ∀ b, (w ++ result.bytes).getLast? = some b → b = result.byte.getD byteRead := by
  intro b hb
  unfold ReadFileResult.bytes at hb
  cases hbyte : result.byte with
  | none =>
    rw [hbyte, Option.toList_none, List.append_nil] at hb
    exact hlast b hb
  | some c =>
    rw [hbyte, Option.toList_some, List.getLast?_concat] at hb
    exact (Option.some.inj hb).symm

/-- A step of a thread that goes on: it goes on, or its handlers have run since
the call has failed or a write to the event has. -/
theorem ReadsOn.step {before : CDCImplPrivate} {t t' : ReadingThread} {answer : SystemAnswer}
    (h : ReadsOn before t) (hstep : readingThread.step t answer = some t') :
    (ReadsOn before t' ∧ ¬ answer.Fails) ∨
    (HasStopped t' ∧ (answer.Fails ∨ SignalFails before.eventWrites (t'.items before).1)) := by
  cases ReadingThread.moves_of_step hstep with
  | passes hsame hphase hfails hbytes =>
    have hitems : t'.items before = t.items before := by
      unfold ReadingThread.items
      rw [hsame.reads]
    refine .inl ⟨⟨hphase, ?_, ?_, ?_, ?_⟩, hfails⟩
    · rw [hsame.receivedBytes, hitems]
      exact h.receivedBytes
    · rw [hsame.receivedBytes, hsame.byteRead]
      exact h.last
    · rw [hitems]
      exact h.works
    · rw [hitems, hsame.self]
      exact h.performed
  | fails he hfails hbytes => exact .inr ⟨(throws_hasStopped he).1, .inl hfails⟩
  | @reads result bytesTotal hresult hfails hbytes =>
    have hitems : ∀ u : ReadingThread, u.reads = t.reads ++ [result] →
        u.items before = ((t.items before).1 ++
          ((lexer before.msgParser.stateType).feed lastIsCr t.receivedBytes [result.bytes]).1,
          ((lexer before.msgParser.stateType).feed lastIsCr t.receivedBytes [result.bytes]).2) := by
      intro u hu
      rw [ReadingThread.items, hu, List.map_append, List.map_singleton, Lexer.feed_concat,
        h.receivedBytes, ReadingThread.items]
    obtain ⟨hprocesses, hlast⟩ := @processByte_processes t.self t.receivedBytes result.bytes
      (result.byte.getD t.byteRead) (last_of_read h.last result)
    rw [h.performed.types] at hprocesses hlast
    unfold Processes at hprocesses
    rw [h.performed.writes] at hprocesses
    rcases hprocesses with ⟨hsignal, e, self', rest, hprocess, he⟩ |
      ⟨hworks, self', hprocess, hdone⟩
    · -- a write to the event has failed
      right
      obtain ⟨hstopped, hreads⟩ := @throws_hasStopped { t with
        receivedBytes := rest, byteRead := result.byte.getD t.byteRead, bytesTotal
        reads := t.reads ++ [result] } self' e (by rw [he]; rfl)
      rw [ReadingThread.completes_of_error hprocess]
      refine ⟨hstopped, .inr ?_⟩
      rw [hitems _ hreads]
      exact signalFails_append.mpr (.inr hsignal)
    · left
      obtain ⟨hphase, hsame⟩ :=
        @ReadingThread.completes_of_ok t result _ _ _ bytesTotal _ hprocess
      have hnext := hitems _ hsame.reads
      refine ⟨⟨hphase, ?_, ?_, ?_, ?_⟩, hfails⟩
      · rw [hsame.receivedBytes, hnext]
      · rw [hsame.receivedBytes, hsame.byteRead]
        exact hlast
      · rw [hnext, signalFails_append]
        exact not_or.mpr ⟨h.works, hworks⟩
      · rw [hnext, hsame.self]
        exact h.performed.trans hdone

/-- A thread that goes on still goes on behind a run, or has stopped in it. -/
theorem ReadsOn.run {before : CDCImplPrivate} {t t' : ReadingThread} {answers : List SystemAnswer}
    (h : ReadsOn before t) (hrun : readingThread.run t answers = some t') :
    (ReadsOn before t' ∧ ∀ answer ∈ answers, ¬ answer.Fails) ∨
    (HasStopped t' ∧ ((∃ answer ∈ answers, answer.Fails) ∨
      SignalFails before.eventWrites (t'.items before).1)) := by
  induction answers generalizing t with
  | nil =>
    obtain rfl := Option.some.inj hrun
    exact .inl ⟨h, by simp⟩
  | cons answer answers ih =>
    obtain ⟨u, hstep, hrest⟩ := Machine.run_cons.mp hrun
    rcases h.step hstep with ⟨hu, hfails⟩ | ⟨hu, hfails⟩
    · rcases ih hu hrest with ⟨ht, hall⟩ | ⟨ht, hfailed⟩
      · exact .inl ⟨ht, by simpa [hfails] using hall⟩
      · refine .inr ⟨ht, hfailed.imp_left ?_⟩
        intro ⟨a, ha, hfailed⟩
        exact ⟨a, List.mem_cons_of_mem answer ha, hfailed⟩
    · -- the thread has returned, so that this was its last call
      cases answers with
      | nil =>
        obtain rfl := Option.some.inj hrest
        exact .inr ⟨hu, hfails.imp_left fun hfailed => ⟨answer, List.mem_cons_self, hfailed⟩⟩
      | cons a answers =>
        obtain ⟨v, hnext, -⟩ := Machine.run_cons.mp hrest
        have hcallable := ReadingThread.callable_of_step hnext
        simp [hu.phase, ReadingPhase.Callable] at hcallable

/-- No failure leaves the Windows thread.  It returns 1 exactly when a system
call or a write to the event has failed.  The one system call that may fail
without it is the wait for a character event, which is passed over.  When the
thread has returned 1, the error is recorded, the reception has stopped, and every
later call throws a `CDCSendException` and changes nothing.  Otherwise the
reception goes on. -/
theorem readingThread_failStop {self : CDCImplPrivate} {t : ReadingThread}
    {answers : List SystemAnswer} (hreception : self.receptionStopped = false)
    (hrun : readingThread.run (.start self) answers = some t) :
    t.phase ≠ .terminated ∧
      (t.phase = .returned 1 ↔
        (∃ answer ∈ answers, answer.HasFailed ∧ answer ≠ .commWait .failed) ∨
        SignalFails self.eventWrites (t.items self).1) ∧
      (t.self.receptionStopped = true ↔ t.phase = .returned 1) ∧
      (t.phase = .returned 1 →
        t.self.log.getLast? = some (.errorRecorded t.self.lastReceptionError) ∧
        ∀ (s₀ s s' : Session) (actions : List SessionAction) (op : Operation),
          s₀.impl = t.self → s₀.readerRunning = false →
          (session .windows).run s₀ actions = some s →
          (session .windows).step s (.client (.call op)) = some s' →
          s'.impl = s.impl ∧ ∃ e, e.identity = .sendException ∧
            s'.client.results = s.client.results ++ [.error e]) := by
  simp only [← SystemAnswer.fails_iff]
  rcases (ReadsOn.start self).run hrun with ⟨ht, hall⟩ | ⟨ht, hfailed⟩
  · have hphase : t.phase ≠ .returned 1 := by
      intro hphase
      have hregular := ht.regular
      rw [hphase] at hregular
      exact Nat.one_ne_zero hregular
    refine ⟨?_, iff_of_false hphase ?_, iff_of_false ?_ hphase, fun h => absurd h hphase⟩
    · intro hterminated
      have hregular := ht.regular
      rw [hterminated] at hregular
      exact hregular
    · intro hfails
      rcases hfails with ⟨answer, hmem, hfails⟩ | hfails
      · exact hall answer hmem hfails
      · exact ht.works hfails
    · rw [ht.performed.reception, hreception]
      exact Bool.false_ne_true
  · refine ⟨by simp [ht.phase], iff_of_true ht.phase hfailed, iff_of_true ht.reception ht.phase,
      fun _ => ⟨ht.log, ?_⟩⟩
    intro s₀ s s' actions op himpl hreader hactions hcall
    have hstopped : Stopped s₀ := ⟨by rw [himpl]; exact ht.reception, hreader⟩
    exact calls_refused (Machine.invariant stopped_step hstopped hactions) hcall

/-- A write to the event that fails does not leave the thread either. -/
theorem readingThread_failStop_signal :
    ∃ t, readingThread.run
        (.start { CDCImplPrivate.init (.new listedOnly) with eventWrites := [false] })
        (overlappedReads.take 10) = some t ∧ t.phase = .returned 1 ∧
      t.self.receptionStopped = true := by
  obtain ⟨t, hrun⟩ := Option.isSome_iff_exists.mp (show (readingThread.run
    (.start { CDCImplPrivate.init (.new listedOnly) with eventWrites := [false] })
    (overlappedReads.take 10)).isSome = true by decide)
  obtain ⟨-, hreturned, hstopped, -⟩ := readingThread_failStop rfl hrun
  have hphase : t.phase = .returned 1 := by
    have hsame : (readingThread.run
        (.start { CDCImplPrivate.init (.new listedOnly) with eventWrites := [false] })
        (overlappedReads.take 10)).map (·.phase) = some (.returned 1) := by decide
    rw [hrun] at hsame
    exact Option.some.inj hsame
  exact ⟨t, hrun, hphase, hstopped.mpr hphase⟩

end Clibcdc.Reader
