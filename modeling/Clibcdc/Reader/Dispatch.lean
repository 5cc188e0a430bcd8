import Clibcdc.Automata.Lexer
import Clibcdc.Parser.Unsized
import Clibcdc.Parser.Exactness
import Clibcdc.Reader.Basic

/-!
# What the reader takes from its buffer

`processAllMessages` cuts its buffer into items: messages that it dispatches
and lines that it discards.  `lexer` says which item stands at the front of a
buffer, from the verdict of the parser alone, and `processAllMessages_eq` says
that a call performs the items of its buffer, one after the other, and keeps
what the lexer keeps.

The items of a buffer do not depend on the state of the reader, and what an
item does (`perform`) does not depend on the buffer.
-/

namespace Clibcdc.Reader

open Clibcdc.Automata Clibcdc.Parser

/-! ## The repaired buffer -/

theorem repair_length (w : UString) : (repair w).length = w.length := by
  cases w <;> rfl

theorem repair_eq_nil {w : UString} : repair w = [] ↔ w = [] := by
  cases w <;> simp [repair]

theorem repair_idem (w : UString) : repair (repair w) = repair w := by
  cases w with
  | nil => rfl
  | cons b rest =>
    by_cases hb : b = chr '>'
    · simp [repair, hb]
    · simp [repair, hb]

theorem repair_append {w : UString} (hw : w ≠ []) (v : UString) :
    repair (w ++ v) = repair w ++ v := by
  cases w with
  | nil => exact absurd rfl hw
  | cons b rest => rfl

theorem repair_repair_append (w v : UString) : repair (repair w ++ v) = repair (w ++ v) := by
  by_cases hw : w = []
  · rw [hw]
    rfl
  · rw [repair_append hw, repair_append (by rwa [Ne, repair_eq_nil]), repair_idem]

/-- Only the first byte is repaired. -/
theorem repair_drop {k : Nat} (hk : 0 < k) (w : UString) : (repair w).drop k = w.drop k := by
  cases w with
  | nil => rfl
  | cons b rest =>
    obtain ⟨k, rfl⟩ : ∃ n, k = n + 1 := ⟨k - 1, by omega⟩
    rfl

/-! ## Items -/

inductive Item where
  | message (parsedMessage : ParsedMessage)
  | discarded (line : UString)
  deriving DecidableEq, Repr

/-- The item that a verdict on `w` takes from its front. -/
def itemOf (w : UString) : Verdict → Option (Item × UString)
  | .accept p t => some (.message ⟨w.take (p + 1), ⟨t, .parseOk, p⟩⟩, w.drop (p + 1))
  | .reject p =>
    match find w cr p with
    | none => some (.discarded w, [])
    | some e => some (.discarded (w.take (e + 1)), w.drop (e + 1))
  | .wait => none

theorem itemOf_shrinks {w rest : UString} {v : Verdict} {item : Item} (hw : w ≠ [])
    (h : itemOf w v = some (item, rest)) : rest.length < w.length := by
  have hpos := List.length_pos_iff.mpr hw
  cases v with
  | accept p t =>
    obtain ⟨-, rfl⟩ : _ ∧ w.drop (p + 1) = rest := by simpa [itemOf] using h
    rw [List.length_drop]
    omega
  | reject p =>
    cases hfind : find w cr p with
    | none =>
      obtain ⟨-, rfl⟩ : Item.discarded w = item ∧ [] = rest := by simpa [itemOf, hfind] using h
      exact hpos
    | some e =>
      obtain ⟨-, rfl⟩ : _ ∧ w.drop (e + 1) = rest := by simpa [itemOf, hfind] using h
      rw [List.length_drop]
      omega
  | wait => simp [itemOf] at h

theorem verdict_nil (types : Nat → MessageType) : verdict types [] = .wait := rfl

/-- The items of a buffer, by the types that the parser gives its states. -/
def lexer (types : Nat → MessageType) : Lexer Byte Item where
  look w := itemOf (repair w) (verdict types (repair w))
  norm := repair
  look_shrinks := by
    intro w item rest h
    by_cases hw : w = []
    · subst hw
      simp [repair, verdict_nil, itemOf] at h
    · rw [← repair_length w]
      exact itemOf_shrinks (by rwa [Ne, repair_eq_nil]) h
  look_norm_append w v := by rw [repair_repair_append]
  norm_norm_append := repair_repair_append

section Look

variable {types : Nat → MessageType} {w : UString}

theorem look_eq (types : Nat → MessageType) (w : UString) :
    (lexer types).look w = itemOf (repair w) (verdict types (repair w)) := rfl

theorem look_accept {p : Nat} {t : MessageType} (h : verdict types (repair w) = .accept p t) :
    (lexer types).look w =
      some (.message ⟨(repair w).take (p + 1), ⟨t, .parseOk, p⟩⟩, w.drop (p + 1)) := by
  rw [look_eq, h, itemOf, repair_drop (Nat.succ_pos p)]

theorem look_eq_none : (lexer types).look w = none ↔ verdict types (repair w) = .wait := by
  rw [look_eq]
  cases hverdict : verdict types (repair w) with
  | accept p t => simp [itemOf]
  | reject p => cases hfind : find (repair w) cr p <;> simp [itemOf, hfind]
  | wait => simp [itemOf]

end Look

/-- Behind an item stands an end of the buffer. -/
theorem look_rest {types : Nat → MessageType} {w rest : UString} {item : Item}
    (h : (lexer types).look w = some (item, rest)) : rest <:+ w := by
  have hdrop : ∀ k, (repair w).drop (k + 1) <:+ w := by
    intro k
    rw [repair_drop (Nat.succ_pos k)]
    exact List.drop_suffix _ _
  rw [look_eq] at h
  cases hverdict : verdict types (repair w) with
  | accept p t =>
    rw [hverdict, itemOf, Option.some.injEq, Prod.mk.injEq] at h
    exact h.2 ▸ hdrop p
  | reject p =>
    cases hfind : find (repair w) cr p with
    | none =>
      simp only [hverdict, itemOf, hfind, Option.some.injEq, Prod.mk.injEq] at h
      exact h.2 ▸ List.nil_suffix
    | some e =>
      simp only [hverdict, itemOf, hfind, Option.some.injEq, Prod.mk.injEq] at h
      exact h.2 ▸ hdrop e
  | wait => simp [hverdict, itemOf] at h

theorem reaches_suffix {types : Nat → MessageType} {w r : UString}
    (h : (lexer types).Reaches w r) : r <:+ w := by
  induction h with
  | refl w => exact List.suffix_refl w
  | takes hlook _ ih => exact ih.trans (look_rest hlook)

/-- An item does not depend on what follows, unless it is a line that is
discarded before its carriage return has arrived, or the reply has no length. -/
theorem look_stable {types : Nat → MessageType} {w : UString} (hopen : ¬ IsOpen (repair w))
    (hcr : ∀ p, verdict types (repair w) = .reject p → (find (repair w) cr p).isSome = true)
    (v : UString) : (lexer types).Stable w v := by
  intro item rest hlook
  have hne : verdict types (repair w) ≠ .wait := by
    intro hwait
    rw [look_eq_none.mpr hwait] at hlook
    cases hlook
  have hw : w ≠ [] := by
    rintro rfl
    exact hne rfl
  have hsame : verdict types (repair (w ++ v)) = verdict types (repair w) := by
    rw [repair_append hw, verdict_append v hopen hne]
  rw [look_eq] at hlook
  rw [look_eq, hsame, repair_append hw]
  cases hverdict : verdict types (repair w) with
  | accept p t =>
    obtain ⟨reply, y, hreply, hp, -⟩ := verdict_accept_reply hverdict
    have hpos := reply.bytes_length_pos
    have hlen : p + 1 ≤ (repair w).length := by
      rw [hreply, List.length_append]
      omega
    rw [hverdict, itemOf, Option.some.injEq, Prod.mk.injEq] at hlook
    rw [itemOf, List.take_append_of_le_length hlen, List.drop_append_of_le_length hlen,
      hlook.1, hlook.2]
  | reject p =>
    obtain ⟨e, he⟩ := Option.isSome_iff_exists.mp (hcr p hverdict)
    have hlen : e + 1 ≤ (repair w).length := find_lt he
    simp only [hverdict, itemOf, he, Option.some.injEq, Prod.mk.injEq] at hlook
    simp only [itemOf, find_append_of_some he v]
    rw [List.take_append_of_le_length hlen, List.drop_append_of_le_length hlen, hlook.1, hlook.2]
  | wait => exact absurd hverdict hne

/-! ## One message -/

/-- The parser keeps the result of its last call. -/
def withParse (self : CDCImplPrivate) (last : ParseResult) : CDCImplPrivate :=
  { self with msgParser := { self.msgParser with lastParseResult := last } }

/-- What `parseNextMessage` answers: the verdict on the repaired buffer. -/
theorem parseNextMessage_eq (self : CDCImplPrivate) (msgBuffer : UString) :
    ∃ last, verdictOf last = verdict self.msgParser.stateType (repair msgBuffer) ∧
      parseNextMessage self msgBuffer =
        (.ok ⟨if last.resultType = .parseOk then (repair msgBuffer).take (last.lastPosition + 1)
            else [], last⟩,
          withParse self last, repair msgBuffer) := by
  obtain ⟨last, hlast, hverdict⟩ := parseData_eq_verdict self.msgParser (repair msgBuffer)
  refine ⟨last, hverdict, ?_⟩
  rw [parseNextMessage, hlast]
  cases htype : last.resultType with
  | parseOk => simp [htype, substr, withParse]
  | parseNotComplete => simp [htype, withParse]
  | parseBadFormat => simp [htype, withParse]

/-! ## Performing items -/

/-- What the reader does with an item. -/
def performItem (platform : Platform) (self : CDCImplPrivate) : Item → CDCImplPrivate
  | .message parsedMessage => (processMessage platform self parsedMessage).2
  | .discarded line => (self.emit (.bytesDropped line)).setLastReceptionError "Bad message format"

/-- Performing an item throws when `processMessage` does. -/
def performResult (platform : Platform) (self : CDCImplPrivate) : Item → Except CdcException Unit
  | .message parsedMessage => (processMessage platform self parsedMessage).1
  | .discarded _ => .ok ()

def perform (platform : Platform) (self : CDCImplPrivate) (items : List Item) : CDCImplPrivate :=
  items.foldl (performItem platform) self

/-- The effects of an item when the writes to the event succeed. -/
def Item.effects (asyncListener : Bool) : Item → List Effect
  | .discarded line => [.bytesDropped line, .errorRecorded "Bad message format"]
  | .message parsedMessage =>
    .dispatched parsedMessage ::
      if parsedMessage.parseResult.msgType = .msgAsync then
        if asyncListener then
          match getParsedDRData parsedMessage.message with
          | .error _ => []
          | .ok userData => [.listenerCalled userData]
        else []
      else [.responseStored parsedMessage, .newMsgSignalled]

/-- The message can be dispatched: the payload of an asynchronous message can
be cut out. -/
def Item.Decodes : Item → Prop
  | .discarded _ => True
  | .message parsedMessage => parsedMessage.parseResult.msgType = .msgAsync →
      ∃ userData, getParsedDRData parsedMessage.message = .ok userData

/-- The response of an item, if it is one. -/
def Item.response : Item → Option ParsedMessage
  | .discarded _ => none
  | .message parsedMessage =>
    if parsedMessage.parseResult.msgType = .msgAsync then none else some parsedMessage

/-- The event after one more signal. -/
def signalled (platform : Platform) (newMsgEvent : Nat) : Nat :=
  match platform with
  | .linux => newMsgEvent + 1
  | .windows => 1

theorem setMyEvent_eq (platform : Platform) {self : CDCImplPrivate}
    (hwrites : self.eventWrites = []) :
    self.setMyEvent platform =
      (.ok (), { self with newMsgEvent := signalled platform self.newMsgEvent }.emit
        .newMsgSignalled) := by
  unfold CDCImplPrivate.setMyEvent
  cases platform <;> simp [hwrites, signalled, CDCImplPrivate.emit]

theorem performResult_ok (platform : Platform) {self : CDCImplPrivate}
    (hwrites : self.eventWrites = []) {item : Item} (hdecodes : item.Decodes) :
    performResult platform self item = .ok () := by
  rcases item with parsedMessage | line
  swap
  · rfl
  unfold performResult processMessage
  by_cases hasync : parsedMessage.parseResult.msgType = .msgAsync
  · obtain ⟨userData, hdata⟩ := hdecodes hasync
    simp only [if_pos hasync, hdata]
    split_ifs <;> rfl
  · simp only [if_neg hasync]
    rw [setMyEvent_eq platform (by exact hwrites)]

/-- The last response after an item. -/
def Item.lastResponse (last : ParsedMessage) (item : Item) : ParsedMessage :=
  item.response.getD last

/-- The event after an item. -/
def Item.newMsgEvent (platform : Platform) (newMsgEvent : Nat) (item : Item) : Nat :=
  item.response.elim newMsgEvent fun _ => signalled platform newMsgEvent

/-- The error text after an item. -/
def Item.lastReceptionError (descr : String) : Item → String
  | .discarded _ => "Bad message format"
  | .message _ => descr

/-- What one item changes. -/
theorem performItem_eq (platform : Platform) {self : CDCImplPrivate}
    (hwrites : self.eventWrites = []) {item : Item} (hdecodes : item.Decodes) :
    performItem platform self item = { self with
      log := self.log ++ item.effects self.asyncListener
      lastResponse := item.lastResponse self.lastResponse
      newMsgEvent := item.newMsgEvent platform self.newMsgEvent
      lastReceptionError := item.lastReceptionError self.lastReceptionError } := by
  cases item with
  | discarded line =>
    simp [performItem, Item.effects, Item.lastResponse, Item.newMsgEvent, Item.response,
      Item.lastReceptionError, CDCImplPrivate.emit, CDCImplPrivate.setLastReceptionError]
  | message parsedMessage =>
    unfold performItem processMessage
    by_cases hasync : parsedMessage.parseResult.msgType = .msgAsync
    · obtain ⟨userData, hdata⟩ := hdecodes hasync
      by_cases hlistener : self.asyncListener = true
      · simp [hasync, hdata, Item.effects, Item.lastResponse, Item.newMsgEvent,
          Item.lastReceptionError, Item.response, CDCImplPrivate.emit, hlistener]
      · simp [hasync, Item.effects, Item.lastResponse, Item.newMsgEvent,
          Item.lastReceptionError, Item.response, CDCImplPrivate.emit, hlistener]
    · simp only [if_neg hasync]
      rw [setMyEvent_eq platform (by exact hwrites)]
      simp [Item.effects, Item.lastResponse, Item.newMsgEvent, Item.lastReceptionError,
        Item.response, CDCImplPrivate.emit, hasync]

/-- What a list of items changes. -/
theorem perform_eq (platform : Platform) {self : CDCImplPrivate}
    (hwrites : self.eventWrites = []) {items : List Item}
    (hdecodes : ∀ item ∈ items, item.Decodes) :
    perform platform self items = { self with
      log := self.log ++ items.flatMap (Item.effects self.asyncListener)
      lastResponse := items.foldl Item.lastResponse self.lastResponse
      newMsgEvent := items.foldl (Item.newMsgEvent platform) self.newMsgEvent
      lastReceptionError := items.foldl Item.lastReceptionError self.lastReceptionError } := by
  induction items generalizing self with
  | nil => simp [perform]
  | cons item items ih =>
    have hrest : perform platform self (item :: items) =
        perform platform (performItem platform self item) items := rfl
    rw [hrest, performItem_eq platform hwrites (hdecodes item List.mem_cons_self),
      ih (by exact hwrites) fun i hi => hdecodes i (List.mem_cons_of_mem item hi)]
    simp

/-! ## What a list of items dispatches and drops -/

def dispatchedMessages (effects : List Effect) : List ParsedMessage :=
  effects.filterMap fun
    | .dispatched parsedMessage => some parsedMessage
    | _ => none

def DropsNothing (effects : List Effect) : Prop := ∀ line, .bytesDropped line ∉ effects

def Item.parsedMessage : Item → Option ParsedMessage
  | .message parsedMessage => some parsedMessage
  | .discarded _ => none

theorem dispatchedMessages_effects (items : List Item) (listener : Bool) :
    dispatchedMessages (items.flatMap (Item.effects listener)) =
      items.filterMap Item.parsedMessage := by
  induction items with
  | nil => rfl
  | cons item items ih =>
    rw [List.flatMap_cons, dispatchedMessages, List.filterMap_append, ← dispatchedMessages,
      ← dispatchedMessages, ih]
    cases item with
    | discarded line =>
      simp [Item.effects, dispatchedMessages, Item.parsedMessage, List.filterMap_cons]
    | message parsedMessage =>
      by_cases hasync : parsedMessage.parseResult.msgType = .msgAsync
      · cases listener
        · simp [Item.effects, hasync, dispatchedMessages, Item.parsedMessage]
        · cases hdata : getParsedDRData parsedMessage.message <;>
            simp [Item.effects, hasync, hdata, dispatchedMessages, Item.parsedMessage]
      · simp [Item.effects, hasync, dispatchedMessages, Item.parsedMessage]

/-- The lines that a list of items drops. -/
theorem mem_effects_dropped {items : List Item} {listener : Bool} {line : UString} :
    .bytesDropped line ∈ items.flatMap (Item.effects listener) ↔ .discarded line ∈ items := by
  rw [List.mem_flatMap]
  constructor
  · rintro ⟨item, hitem, heffect⟩
    cases item with
    | discarded line' =>
      obtain rfl : line = line' := by simpa [Item.effects] using heffect
      exact hitem
    | message parsedMessage =>
      by_cases hasync : parsedMessage.parseResult.msgType = .msgAsync
      · cases listener
        · simp [Item.effects, hasync] at heffect
        · cases hdata : getParsedDRData parsedMessage.message <;>
            simp [Item.effects, hasync, hdata] at heffect
      · simp [Item.effects, hasync] at heffect
  · intro hitem
    exact ⟨.discarded line, hitem, by simp [Item.effects]⟩

/-- A list of items dispatches the messages and drops nothing when it is the
messages. -/
theorem effects_messages_iff {items : List Item} {listener : Bool} {messages : List ParsedMessage} :
    (dispatchedMessages (items.flatMap (Item.effects listener)) = messages ∧
      DropsNothing (items.flatMap (Item.effects listener))) ↔ items = messages.map .message := by
  rw [dispatchedMessages_effects]
  simp only [DropsNothing, mem_effects_dropped]
  constructor
  · rintro ⟨rfl, hdrops⟩
    induction items with
    | nil => rfl
    | cons item items ih =>
      have htail := ih fun line hline => hdrops line (List.mem_cons_of_mem item hline)
      cases item with
      | discarded line => exact absurd List.mem_cons_self (hdrops line)
      | message parsedMessage =>
        exact congrArg (.message parsedMessage :: ·) htail
  · rintro rfl
    refine ⟨?_, by simp⟩
    rw [List.filterMap_map]
    exact List.filterMap_some

/-! ## `processAllMessages` -/

/-- What the parser keeps plays no part in performing items. -/
theorem perform_withParse (platform : Platform) {self : CDCImplPrivate}
    (hwrites : self.eventWrites = []) (last : ParseResult) {items : List Item}
    (hdecodes : ∀ item ∈ items, item.Decodes) :
    perform platform (withParse self last) items =
      withParse (perform platform self items) last := by
  rw [perform_eq platform hwrites hdecodes, perform_eq platform (by exact hwrites) hdecodes]
  rfl

/-- A reply of the type of the asynchronous messages is one. -/
theorem async_of_replyState (parser : CDCMessageParserPrivate) {reply : Reply}
    (h : parser.stateType (replyState reply) = .msgAsync) :
    ∃ payload, reply = .ofFrame (.async payload) := by
  by_cases hdata : ∃ data, reply = .downloadData data
  · obtain ⟨data, rfl⟩ := hdata
    rcases stateType_downloadData parser with h97 | h97 <;>
      exact absurd (h97.symm.trans h) (by decide)
  · rw [replyState_type parser fun data hd => hdata ⟨data, hd⟩] at h
    rcases reply with frame | _ | _ | _
    · cases frame with
      | async payload => exact ⟨payload, rfl⟩
      | _ => cases h
    all_goals cases h

/-- A message that is taken is a reply. -/
theorem look_message {types : Nat → MessageType} {w rest : UString} {parsedMessage : ParsedMessage}
    (h : (lexer types).look w = some (.message parsedMessage, rest)) :
    ∃ reply : Reply, repair w = reply.bytes ++ rest ∧ parsedMessage =
      ⟨reply.bytes, ⟨types (replyState reply), .parseOk, reply.bytes.length - 1⟩⟩ := by
  cases hverdict : verdict types (repair w) with
  | accept p t =>
    obtain ⟨reply, y, hw, rfl, rfl⟩ := verdict_accept_reply hverdict
    have hpos := reply.bytes_length_pos
    rw [look_eq, hverdict, itemOf, hw, Nat.sub_add_cancel hpos, List.take_left, List.drop_left,
      Option.some.injEq, Prod.mk.injEq, Item.message.injEq] at h
    obtain ⟨rfl, rfl⟩ := h
    exact ⟨reply, hw, rfl⟩
  | reject p =>
    rw [look_eq, hverdict] at h
    cases hfind : find (repair w) cr p <;> simp [itemOf, hfind] at h
  | wait => rw [look_eq_none.mpr hverdict] at h; cases h

/-- Every item of a buffer can be dispatched. -/
theorem look_decodes (parser : CDCMessageParserPrivate) {w rest : UString} {item : Item}
    (h : (lexer parser.stateType).look w = some (item, rest)) : item.Decodes := by
  cases item with
  | message parsedMessage =>
    obtain ⟨reply, -, rfl⟩ := look_message h
    intro hasync
    obtain ⟨payload, rfl⟩ := async_of_replyState parser hasync
    exact ⟨payload.data, getParsedDRData_eq payload⟩
  | discarded line => trivial

theorem drain_decodes (parser : CDCMessageParserPrivate) (w : UString) :
    ∀ item ∈ ((lexer parser.stateType).drain w).1, item.Decodes := by
  induction w using (lexer parser.stateType).drain_induction with
  | waits w h => simp [(lexer parser.stateType).drain_of_none h]
  | takes w e rest h ih =>
    rw [(lexer parser.stateType).drain_of_some h]
    intro item hitem
    rcases List.mem_cons.mp hitem with rfl | hitem
    · exact look_decodes parser h
    · exact ih item hitem

/-- A round that discards a line: the bytes that it drops. -/
theorem look_reject {parser : CDCMessageParserPrivate} {w : UString} {p : Nat}
    (h : verdict parser.stateType (repair w) = .reject p) :
    (lexer parser.stateType).look w =
      some (.discarded ((repair w).take ((repair w).length - (discardLine (repair w) p).length)),
        discardLine (repair w) p) := by
  rw [look_eq, h]
  cases hfind : find (repair w) cr p with
  | none => simp [itemOf, hfind, discardLine]
  | some e =>
    have hlt := find_lt hfind
    have hlen : (repair w).length - ((repair w).length - (e + 1)) = e + 1 := by omega
    simp [itemOf, hfind, discardLine, erase, hlen]

/-- A round takes the item at the front of the buffer and performs it.  The
loop ends when there is none. -/
theorem processRound_eq (platform : Platform) (self : CDCImplPrivate) (msgBuffer : UString) :
    ∃ last, processRound platform self msgBuffer =
      match (lexer self.msgParser.stateType).look msgBuffer with
      | none => (.ok false, withParse self last, repair msgBuffer)
      | some (item, rest) =>
        ((performResult platform (withParse self last) item).map fun _ => true,
          performItem platform (withParse self last) item, rest) := by
  by_cases hempty : msgBuffer = []
  · subst hempty
    rw [processRound, if_pos rfl, Lexer.look_nil]
    exact ⟨self.msgParser.lastParseResult, rfl⟩
  obtain ⟨last, hverdict, hparse⟩ := parseNextMessage_eq self msgBuffer
  refine ⟨last, ?_⟩
  rw [processRound, if_neg hempty, hparse]
  cases htype : last.resultType with
  | parseOk =>
    have haccept : verdict self.msgParser.stateType (repair msgBuffer) =
        .accept last.lastPosition last.msgType := by
      rw [← hverdict, verdictOf, htype]
    have hlast : (⟨last.msgType, .parseOk, last.lastPosition⟩ : ParseResult) = last := by
      rw [← htype]
    rw [look_accept haccept, hlast]
    simp only [htype, if_true, erase, repair_drop (Nat.succ_pos last.lastPosition)]
    cases hprocess : processMessage platform (withParse self last)
        ⟨(repair msgBuffer).take (last.lastPosition + 1), last⟩ with
    | mk result self' => cases result <;> simp [performResult, performItem, hprocess, Except.map]
  | parseBadFormat =>
    have hreject : verdict self.msgParser.stateType (repair msgBuffer) =
        .reject last.lastPosition := by
      rw [← hverdict, verdictOf, htype]
    rw [look_reject hreject]
    simp only [htype]
    rfl
  | parseNotComplete =>
    have hwait : verdict self.msgParser.stateType (repair msgBuffer) = .wait := by
      rw [← hverdict, verdictOf, htype]
    rw [look_eq_none.mpr hwait]
    simp only [htype]

theorem processRound_wait (platform : Platform) {self : CDCImplPrivate} {msgBuffer : UString}
    (h : (lexer self.msgParser.stateType).look msgBuffer = none) :
    ∃ last, processRound platform self msgBuffer =
      (.ok false, withParse self last, repair msgBuffer) := by
  have hround := processRound_eq platform self msgBuffer
  rwa [h] at hround

theorem processRound_take (platform : Platform) {self : CDCImplPrivate} {msgBuffer rest : UString}
    {item : Item} (h : (lexer self.msgParser.stateType).look msgBuffer = some (item, rest)) :
    ∃ last, processRound platform self msgBuffer =
      ((performResult platform (withParse self last) item).map fun _ => true,
        performItem platform (withParse self last) item, rest) := by
  have hround := processRound_eq platform self msgBuffer
  rwa [h] at hround

/-- The state after one item, as far as the next rounds are concerned. -/
theorem performItem_frame (platform : Platform) {self : CDCImplPrivate}
    (hwrites : self.eventWrites = []) {item : Item} (hdecodes : item.Decodes) :
    (performItem platform self item).eventWrites = [] ∧
      (performItem platform self item).msgParser = self.msgParser := by
  rw [performItem_eq platform hwrites hdecodes]
  exact ⟨hwrites, rfl⟩

/-- The loop performs the items of the buffer and keeps what the lexer keeps. -/
theorem processAllMessagesLoop_eq (platform : Platform) {self : CDCImplPrivate}
    {fuel : Nat} {msgBuffer : UString} (hwrites : self.eventWrites = [])
    (hfuel : msgBuffer.length < fuel) :
    ∃ last, processAllMessagesLoop platform fuel self msgBuffer =
      (.ok (),
        withParse (perform platform self ((lexer self.msgParser.stateType).drain msgBuffer).1) last,
        ((lexer self.msgParser.stateType).drain msgBuffer).2) := by
  induction fuel generalizing self msgBuffer with
  | zero => exact absurd hfuel (Nat.not_lt_zero _)
  | succ fuel ih =>
    rw [processAllMessagesLoop]
    cases hlook : (lexer self.msgParser.stateType).look msgBuffer with
    | none =>
      obtain ⟨last, hround⟩ := processRound_wait platform hlook
      rw [hround, Lexer.drain_of_none _ hlook]
      exact ⟨last, rfl⟩
    | some found =>
      obtain ⟨item, rest⟩ := found
      obtain ⟨last, hround⟩ := processRound_take platform hlook
      have hlt := (lexer self.msgParser.stateType).look_shrinks hlook
      have hdecodes := look_decodes self.msgParser hlook
      have hwrites' : (withParse self last).eventWrites = [] := hwrites
      obtain ⟨hnext, hparser⟩ := performItem_frame platform hwrites' hdecodes
      obtain ⟨last', hloop⟩ := @ih (performItem platform (withParse self last) item) rest hnext
        (by omega)
      rw [hround, performResult_ok platform hwrites' hdecodes, Lexer.drain_of_some _ hlook]
      -- the rounds behind this one perform the items of the rest
      have hall := perform_withParse platform hwrites last (drain_decodes self.msgParser msgBuffer)
      rw [Lexer.drain_of_some _ hlook] at hall
      rw [show (performItem platform (withParse self last) item).msgParser.stateType =
        self.msgParser.stateType by rw [hparser]; rfl] at hloop
      refine ⟨last', hloop.trans ?_⟩
      have hsame := congrArg (withParse · last') hall
      exact congrArg (fun after => (Except.ok (), after,
        ((lexer self.msgParser.stateType).drain rest).2)) hsame

/-- `after` is what is left of `before` when the items have been performed and
the event could be signalled each time. -/
structure After (platform : Platform) (before : CDCImplPrivate) (items : List Item)
    (after : CDCImplPrivate) : Prop where
  writes : before.eventWrites = []
  decodes : ∀ item ∈ items, item.Decodes
  state : ∃ last, after = withParse (perform platform before items) last

namespace After

variable {platform : Platform} {self self₁ self₂ : CDCImplPrivate} {items items₁ items₂ : List Item}

theorem refl (platform : Platform) {self : CDCImplPrivate} (hwrites : self.eventWrites = []) :
    After platform self [] self :=
  ⟨hwrites, by simp, self.msgParser.lastParseResult, rfl⟩

theorem eventWrites (h : After platform self items self₁) : self₁.eventWrites = [] := by
  obtain ⟨last, rfl⟩ := h.state
  rw [perform_eq platform h.writes h.decodes]
  exact h.writes

theorem stateType (h : After platform self items self₁) :
    self₁.msgParser.stateType = self.msgParser.stateType := by
  obtain ⟨last, rfl⟩ := h.state
  rw [perform_eq platform h.writes h.decodes]
  rfl

theorem log (h : After platform self items self₁) :
    self₁.log = self.log ++ items.flatMap (Item.effects self.asyncListener) := by
  obtain ⟨last, rfl⟩ := h.state
  rw [perform_eq platform h.writes h.decodes]
  rfl

theorem trans (h₁ : After platform self items₁ self₁) (h₂ : After platform self₁ items₂ self₂) :
    After platform self (items₁ ++ items₂) self₂ := by
  obtain ⟨last₁, rfl⟩ := h₁.state
  obtain ⟨last₂, rfl⟩ := h₂.state
  have hwrites : (perform platform self items₁).eventWrites = [] := h₁.eventWrites
  refine ⟨h₁.writes, ?_, last₂, ?_⟩
  · intro item hitem
    rcases List.mem_append.mp hitem with hitem | hitem
    · exact h₁.decodes item hitem
    · exact h₂.decodes item hitem
  · rw [perform_withParse platform hwrites last₁ h₂.decodes]
    simp only [perform, List.foldl_append]
    rfl

end After

/-- What is left of a state does not depend on how its items were performed. -/
theorem After.eq {platform : Platform} {self self₁ self₂ : CDCImplPrivate} {items : List Item}
    (h₁ : After platform self items self₁) (h₂ : After platform self items self₂) :
    ∃ last, self₁ = withParse self₂ last := by
  obtain ⟨last₁, rfl⟩ := h₁.state
  obtain ⟨last₂, rfl⟩ := h₂.state
  exact ⟨last₁, rfl⟩

/-- A call of `processAllMessages` performs the items of its buffer. -/
theorem processAllMessages_eq (platform : Platform) {self : CDCImplPrivate}
    (hwrites : self.eventWrites = []) (msgBuffer : UString) :
    ∃ self', processAllMessages platform self msgBuffer =
        (.ok (), self', ((lexer self.msgParser.stateType).drain msgBuffer).2) ∧
      After platform self ((lexer self.msgParser.stateType).drain msgBuffer).1 self' := by
  obtain ⟨last, hloop⟩ := processAllMessagesLoop_eq platform hwrites (Nat.lt_succ_self _)
  exact ⟨_, hloop, hwrites, drain_decodes self.msgParser msgBuffer, last, rfl⟩

end Clibcdc.Reader
