import Clibcdc.Reader.Framing
import Clibcdc.Session.Basic

/-!
# What the reader thread does when a library call fails

The handler of the Linux thread records the error and stops the reception, and
from then on no call sends anything (`calls_refused`).

It is the handler of `CDCReceiveException`.  When `select` or the `read` of the
port fails, that is what is thrown.  When the event cannot be signalled,
`setMyEvent` throws a `CDCImplException`, which leaves the thread
(`readMsgThread_failStop`).
-/

namespace Clibcdc.Reader

open Clibcdc.Automata Clibcdc.Parser

/-! ## When the event cannot be signalled -/

def responses (items : List Item) : List ParsedMessage := items.filterMap Item.response

/-- The event is signalled for each response, so one of these writes fails. -/
def SignalFails (eventWrites : List Bool) (items : List Item) : Prop :=
  false ∈ eventWrites.take (responses items).length

instance (eventWrites : List Bool) : DecidablePred (SignalFails eventWrites) := fun items =>
  inferInstanceAs (Decidable (false ∈ eventWrites.take (responses items).length))

theorem not_signalFails_nil (eventWrites : List Bool) : ¬ SignalFails eventWrites [] := by
  simp [SignalFails, responses]

/-- An item that is no response signals nothing. -/
theorem signalFails_other {eventWrites : List Bool} {item : Item} {items : List Item}
    (hitem : item.response = none) :
    SignalFails eventWrites (item :: items) ↔ SignalFails eventWrites items := by
  simp [SignalFails, responses, hitem]

/-- The first signal is that of the first response. -/
theorem signalFails_response {eventWrites : List Bool} {item : Item} {items : List Item}
    {response : ParsedMessage} (hitem : item.response = some response) :
    SignalFails eventWrites (item :: items) ↔
      eventWrites.head? = some false ∨ SignalFails eventWrites.tail items := by
  cases eventWrites with
  | nil => simp [SignalFails]
  | cons write eventWrites => cases write <;> simp [SignalFails, responses, hitem]

/-- A result is the exception of `setMyEvent` when `fails`, and normal
otherwise. -/
def EndsAs (fails : Prop) (result : Except CdcException Unit) : Prop :=
  (fails ∧ ∃ e, result = .error e ∧ e.identity = .implException) ∨ (¬ fails ∧ result = .ok ())

/-- The parser tables do not change. -/
theorem performItem_msgParser (platform : Platform) (self : CDCImplPrivate) (item : Item) :
    (performItem platform self item).msgParser = self.msgParser := by
  have hevent : ∀ s : CDCImplPrivate, (s.setMyEvent platform).2.msgParser = s.msgParser := by
    intro s
    unfold CDCImplPrivate.setMyEvent
    rcases s.eventWrites with _ | ⟨_ | _, eventWrites⟩ <;> rfl
  cases item with
  | discarded line => rfl
  | message parsedMessage =>
    unfold performItem processMessage
    by_cases hasync : parsedMessage.parseResult.msgType = .msgAsync
    · simp only [if_pos hasync]
      split_ifs
      · cases getParsedDRData parsedMessage.message <;> rfl
      · rfl
    · simp only [if_neg hasync]
      exact hevent _

/-- An item that is no response does not touch the event. -/
theorem performItem_other {platform : Platform} {self : CDCImplPrivate} {item : Item}
    (hitem : item.response = none) (hdecodes : item.Decodes) :
    performResult platform self item = .ok () ∧
      (performItem platform self item).eventWrites = self.eventWrites := by
  cases item with
  | discarded line => exact ⟨rfl, rfl⟩
  | message parsedMessage =>
    have hasync : parsedMessage.parseResult.msgType = .msgAsync := by
      simpa [Item.response] using hitem
    obtain ⟨userData, hdata⟩ := hdecodes hasync
    unfold performResult performItem processMessage
    simp only [if_pos hasync, hdata]
    split_ifs <;> exact ⟨rfl, rfl⟩

/-- A response is stored, and then the next write to the event decides. -/
theorem performItem_signals {platform : Platform} {self : CDCImplPrivate} {item : Item}
    {response : ParsedMessage} (hitem : item.response = some response) :
    EndsAs (self.eventWrites.head? = some false) (performResult platform self item) ∧
      (self.eventWrites.head? ≠ some false →
        (performItem platform self item).eventWrites = self.eventWrites.tail) := by
  cases item with
  | discarded line => cases hitem
  | message parsedMessage =>
    have hasync : ¬ parsedMessage.parseResult.msgType = .msgAsync := by
      intro hasync
      simp [Item.response, hasync] at hitem
    unfold performResult performItem processMessage CDCImplPrivate.setMyEvent
    simp only [if_neg hasync, CDCImplPrivate.emit]
    rcases self.eventWrites with _ | ⟨_ | _, eventWrites⟩
    · exact ⟨.inr ⟨by simp, rfl⟩, fun _ => rfl⟩
    · exact ⟨.inl ⟨rfl, _, rfl, rfl⟩, fun h => absurd rfl h⟩
    · exact ⟨.inr ⟨by simp, rfl⟩, fun _ => rfl⟩

/-- The loop of `processAllMessages` ends with an exception when one of its
signals fails, and normally otherwise. -/
theorem processAllMessagesLoop_result (platform : Platform) {self : CDCImplPrivate} {fuel : Nat}
    {msgBuffer : UString} (hfuel : msgBuffer.length < fuel) :
    EndsAs (SignalFails self.eventWrites ((lexer self.msgParser.stateType).drain msgBuffer).1)
      (processAllMessagesLoop platform fuel self msgBuffer).1 := by
  induction fuel generalizing self msgBuffer with
  | zero => exact absurd hfuel (Nat.not_lt_zero _)
  | succ fuel ih =>
    rw [processAllMessagesLoop]
    cases hlook : (lexer self.msgParser.stateType).look msgBuffer with
    | none =>
      obtain ⟨last, hround⟩ := processRound_wait platform hlook
      rw [hround, Lexer.drain_of_none _ hlook]
      exact .inr ⟨not_signalFails_nil _, rfl⟩
    | some found =>
      obtain ⟨item, rest⟩ := found
      obtain ⟨last, hround⟩ := processRound_take platform hlook
      have hlt := (lexer self.msgParser.stateType).look_shrinks hlook
      have hrest := @ih (performItem platform (withParse self last) item) rest (by omega)
      rw [performItem_msgParser] at hrest
      rw [hround, Lexer.drain_of_some _ hlook]
      cases hitem : item.response with
      | none =>
        obtain ⟨hok, hwrites⟩ := @performItem_other platform (withParse self last) item hitem
          (look_decodes self.msgParser hlook)
        rw [hwrites] at hrest
        rw [hok, signalFails_other hitem]
        exact hrest
      | some response =>
        obtain ⟨hends, hwrites⟩ :=
          @performItem_signals platform (withParse self last) item response hitem
        rw [signalFails_response hitem]
        rcases hends with ⟨hfails, e, herror, he⟩ | ⟨hworks, hok⟩
        · rw [herror]
          exact .inl ⟨.inl hfails, e, rfl, he⟩
        · rw [hwrites hworks] at hrest
          rw [hok]
          rcases hrest with ⟨hfails, hresult⟩ | ⟨hworks', hresult⟩
          · exact .inl ⟨.inr hfails, hresult⟩
          · exact .inr ⟨not_or.mpr ⟨hworks, hworks'⟩, hresult⟩

/-- A read ends with an exception when one of the signals of its messages
fails. -/
theorem readPort_result {self : CDCImplPrivate} (w bytes : UString) :
    EndsAs (SignalFails self.eventWrites
        ((lexer self.msgParser.stateType).feed hasCr w [bytes]).1)
      (readPort self w (some (some bytes))).1 := by
  rw [readPort, appendDataFromPort]
  by_cases hcr : hasCr (w ++ bytes) = true
  · obtain ⟨k, hfind⟩ := Option.isSome_iff_exists.mp hcr
    rw [Lexer.feed_of_trigger hcr, hfind]
    exact processAllMessagesLoop_result .linux (Nat.lt_succ_self _)
  · have hfind : find (w ++ bytes) cr 0 = none := by simpa [hasCr] using hcr
    rw [Lexer.feed_of_not_trigger (by simpa using hcr), hfind]
    exact .inr ⟨not_signalFails_nil _, rfl⟩

/-! ## A call that fails -/

/-- In this round of the thread a library call fails: `select`, the `read` of
the port, or a write to the event. -/
def RoundFails (self : CDCImplPrivate) (receivedBytes : UString) : SelectResult → Prop
  | .failed => True
  | .ready (some none) _ => True
  | .ready (some (some bytes)) _ => SignalFails self.eventWrites
      ((lexer self.msgParser.stateType).feed hasCr receivedBytes [bytes]).1
  | .timedOut | .ready none _ => False

/-- The call that fails is `select` or the `read` of the port. -/
def SelectResult.FailsItself : SelectResult → Prop
  | .failed | .ready (some none) _ => True
  | .timedOut | .ready none _ | .ready (some (some _)) _ => False

theorem readMsgThread_append {pre post : List SelectResult} {self self₁ : CDCImplPrivate}
    {w w₁ : UString} (hrun : readMsgThread pre self w = .running self₁ w₁) :
    readMsgThread (pre ++ post) self w = readMsgThread post self₁ w₁ := by
  induction pre generalizing self w with
  | nil =>
    obtain ⟨rfl, rfl⟩ := ThreadState.running.inj hrun
    rfl
  | cons round pre ih =>
    cases round with
    | failed =>
      simp only [readMsgThread, threadHandler] at hrun
      split_ifs at hrun
    | timedOut => exact ih hrun
    | ready port readEnd =>
      simp only [List.cons_append, readMsgThread] at hrun ⊢
      split at hrun
      · simp only [threadHandler] at hrun
        split_ifs at hrun
      · split_ifs at hrun with hend
        rw [if_neg hend]
        exact ih hrun

/-! ## After the thread has stopped -/

/-- The reception has stopped, and the reader thread with it. -/
structure Stopped (s : Session) : Prop where
  reception : s.impl.receptionStopped = true
  reader : s.readerRunning = false

theorem stopped_step {platform : Platform} {s s' : Session} {action : SessionAction}
    (hs : Stopped s) (hstep : (session platform).step s action = some s') : Stopped s' := by
  cases action with
  | dispatch parsedMessage => simp [session, Session.dispatchStep, hs.reader] at hstep
  | client action =>
    obtain ⟨hsteps, hrunning, -⟩ := session_client hstep
    refine ⟨?_, hrunning.trans hs.reader⟩
    rw [hsteps.receptionStopped]
    exact hs.reception

/-- A call throws a `CDCSendException` and leaves the object as it was. -/
theorem calls_refused {platform : Platform} {s s' : Session} {op : Operation} (hs : Stopped s)
    (hstep : (session platform).step s (.client (.call op)) = some s') :
    s'.impl = s.impl ∧ ∃ e, e.identity = .sendException ∧
      s'.client.results = s.client.results ++ [.error e] := by
  obtain ⟨e, hstart, he⟩ := @startCall_refused platform s.impl op (.inr hs.reception)
  obtain ⟨hsteps, -⟩ := session_client hstep
  obtain ⟨impl, client, running, began, checked⟩ := s
  obtain ⟨impl', client', running', began', checked'⟩ := s'
  dsimp only at hsteps hstart ⊢
  cases hsteps with
  | refused hphase herror =>
    obtain ⟨hsame, -⟩ := Prod.mk.inj (herror.symm.trans hstart)
    obtain rfl := Except.error.inj hsame
    exact ⟨rfl, _, he, rfl⟩
  | started hphase hreception => exact absurd (hs.reception.symm.trans hreception) nofun
  | reset hphase hreception => exact absurd (hs.reception.symm.trans hreception) nofun

/-- The handler of the Linux thread on the exception that it is written for. -/
theorem threadHandler_receiveException (self : CDCImplPrivate) {e : CdcException}
    (he : e.identity = .receiveException) :
    threadHandler handledLinux self e =
      .returned ((self.setLastReceptionError e.cause).setReceptionStopped true) 1 := by
  rw [threadHandler, handledLinux, he]
  rfl

/-- An exception of `setMyEvent` leaves the thread. -/
theorem threadHandler_implException (self : CDCImplPrivate) {e : CdcException}
    (he : e.identity = .implException) :
    threadHandler handledLinux self e = .terminated self e := by
  rw [threadHandler, handledLinux, he]
  rfl

/-- When `select` or the `read` of the port fails, the thread ends through its
handler. -/
theorem readMsgThread_fails {self : CDCImplPrivate} {w : UString} {round : SelectResult}
    {post : List SelectResult} (hround : round.FailsItself) :
    ∃ e, e.identity = .receiveException ∧
      readMsgThread (round :: post) self w = threadHandler handledLinux self e := by
  cases round with
  | failed => exact ⟨_, rfl, rfl⟩
  | timedOut => exact hround.elim
  | ready port readEnd =>
    rcases port with _ | _ | bytes
    · exact hround.elim
    · exact ⟨_, rfl, rfl⟩
    · exact hround.elim

/-- When a library call fails in some round of a run, the thread function ends
through its handler exactly when the call is `select` or the `read` of the
port.  From then on every call throws a `CDCSendException` and changes
nothing. -/
theorem readMsgThread_failStop {pre post : List SelectResult} {round : SelectResult}
    {self self₁ : CDCImplPrivate} {w w₁ : UString}
    (hrun : readMsgThread pre self w = .running self₁ w₁)
    (hfails : RoundFails self₁ w₁ round) :
    (∃ self', readMsgThread (pre ++ round :: post) self w = .returned self' 1 ∧
      self'.receptionStopped = true ∧
      self'.log = self₁.log ++ [.errorRecorded self'.lastReceptionError] ∧
      ∀ (s₀ s s' : Session) (actions : List SessionAction) (op : Operation),
        s₀.impl = self' → s₀.readerRunning = false →
        (session .linux).run s₀ actions = some s →
        (session .linux).step s (.client (.call op)) = some s' →
        s'.impl = s.impl ∧ ∃ e, e.identity = .sendException ∧
          s'.client.results = s.client.results ++ [.error e]) ↔
    round.FailsItself := by
  rw [readMsgThread_append hrun]
  constructor
  · rintro ⟨self', hreturned, -⟩
    rcases round with _ | _ | ⟨_ | _ | bytes, readEnd⟩
    · trivial
    · exact hfails
    · exact hfails
    · trivial
    · -- a write to the event fails, and no handler catches its exception
      rcases readPort_result w₁ bytes with ⟨-, e, herror, he⟩ | ⟨hworks, -⟩
      · cases hread : readPort self₁ w₁ (some (some bytes)) with
        | mk result rest =>
          obtain rfl : result = .error e := by rw [← herror, hread]
          rw [readMsgThread, hread] at hreturned
          cases (threadHandler_implException rest.1 he).symm.trans hreturned
      · exact absurd hfails hworks
  · intro hitself
    obtain ⟨e, he, hthread⟩ := @readMsgThread_fails self₁ w₁ _ post hitself
    refine ⟨_, hthread.trans (threadHandler_receiveException self₁ he), rfl, rfl, ?_⟩
    rintro s₀ s s' actions op himpl hreader hactions hcall
    have hstopped : Stopped s₀ := ⟨by rw [himpl]; rfl, hreader⟩
    exact calls_refused (Machine.invariant stopped_step hstopped hactions) hcall

theorem readMsgThread_failStop_select :
    ∃ self', readMsgThread ([portRead (ascii "<OK" ++ [cr])] ++ [.failed])
        (.init (.new listedOnly)) [] = .returned self' 1 ∧
      self'.receptionStopped = true := by
  obtain ⟨self₁, hthread, -⟩ := @readMsgThread_feed (.init (.new listedOnly)) rfl []
    [ascii "<OK" ++ [cr]]
  obtain ⟨self', hreturned, hreception, -⟩ :=
    (@readMsgThread_failStop _ [] .failed _ _ _ _ hthread trivial).mpr trivial
  exact ⟨self', hreturned, hreception⟩

/-- A response that arrives when the event cannot be signalled. -/
theorem readMsgThread_signal_escapes :
    ∃ self e, RoundFails { CDCImplPrivate.init (.new listedOnly) with eventWrites := [false] } []
        (portRead (ascii "<OK" ++ [cr])) ∧
      readMsgThread [portRead (ascii "<OK" ++ [cr])]
        { CDCImplPrivate.init (.new listedOnly) with eventWrites := [false] } [] =
          .terminated self e ∧
      self.receptionStopped = false := by
  refine ⟨_, _, ?_, rfl, rfl⟩
  have hsignal : SignalFails [false]
      ((lexer (CDCMessageParserPrivate.new listedOnly).stateType).feed hasCr []
        [ascii "<OK" ++ [cr]]).1 := by
    decide
  exact hsignal

end Clibcdc.Reader
