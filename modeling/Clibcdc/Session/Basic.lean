import Clibcdc.Automata.Machine
import Clibcdc.Client
import Clibcdc.Reader.Basic

/-!
# The client and the reader thread together

A session has two parties that share a `CDCImplPrivate`: the client, and a
reader thread that dispatches messages.  Which messages arrive and when is
open, so any message can be dispatched at any time.

A dispatch is one step.  When `processMessage` throws, the thread ends: through
its handler, after which the client goes on alone, or by an exception that
leaves the thread and ends the process, so that no step follows.
-/

namespace Clibcdc

open Clibcdc.Automata Clibcdc.Parser Clibcdc.Reader

structure Session where
  impl : CDCImplPrivate
  client : Client
  readerRunning : Bool
  /-- How much had been logged when the last call began. -/
  began : Nat
  /-- How much had been logged when a response was last checked. -/
  checked : Nat

def Session.start (impl : CDCImplPrivate) : Session where
  impl := impl
  client := .new
  readerRunning := true
  began := impl.log.length
  checked := impl.log.length

inductive SessionAction where
  | client (action : ClientAction)
  | dispatch (parsedMessage : ParsedMessage)
  deriving DecidableEq, Repr

/-- The handlers of the reader thread. -/
def handled : Platform → ExceptionClass → Bool
  | .linux => handledLinux
  | .windows => handledWindows

def Session.beganAfter (s : Session) : ClientAction → Nat
  | .call _ => s.impl.log.length
  | _ => s.began

def Session.checkedAfter (s : Session) : ClientAction → Nat
  | .check => s.impl.log.length
  | _ => s.checked

def Session.clientStep (platform : Platform) (s : Session) (action : ClientAction) :
    Option Session :=
  match s.client.step platform s.impl action with
  | none => none
  | some (impl, client) =>
    some { s with impl, client, began := s.beganAfter action, checked := s.checkedAfter action }

def Session.dispatchStep (platform : Platform) (s : Session) (parsedMessage : ParsedMessage) :
    Option Session :=
  if s.readerRunning then
    match processMessage platform s.impl parsedMessage with
    | (.ok (), impl) => some { s with impl }
    | (.error e, impl) =>
      match threadHandler (handled platform) impl e with
      | .returned impl _ => some { s with impl, readerRunning := false }
      | _ => none
  else none

def session (platform : Platform) : Machine Session SessionAction where
  step s
    | .client action => s.clientStep platform action
    | .dispatch parsedMessage => s.dispatchStep platform parsedMessage

/-! ## The steps -/

theorem session_client {platform : Platform} {s s' : Session} {action : ClientAction}
    (h : (session platform).step s (.client action) = some s') :
    Client.Steps s.impl s.client platform action s'.impl s'.client ∧
      s'.readerRunning = s.readerRunning ∧ s'.began = s.beganAfter action ∧
      s'.checked = s.checkedAfter action := by
  simp only [session, Session.clientStep] at h
  split at h
  · cases h
  · next impl client hstep =>
    obtain rfl := Option.some.inj h
    exact ⟨Client.step_steps hstep, rfl, rfl, rfl⟩

/-- The responses that a list of effects stores. -/
def storedResponses (effects : List Effect) : List ParsedMessage :=
  effects.filterMap fun
    | .responseStored parsedMessage => some parsedMessage
    | _ => none

theorem storedResponses_append (effects effects' : List Effect) :
    storedResponses (effects ++ effects') = storedResponses effects ++ storedResponses effects' :=
  List.filterMap_append

/-- What a dispatch changes: an asynchronous message leaves the response and
the event alone, and any other is stored. -/
structure Dispatches (before : CDCImplPrivate) (parsedMessage : ParsedMessage)
    (after : CDCImplPrivate) (effects : List Effect) : Prop where
  log : after.log = before.log ++ effects
  stores : (parsedMessage.parseResult.msgType = .msgAsync ∧ storedResponses effects = [] ∧
      after.lastResponse = before.lastResponse ∧ after.newMsgEvent = before.newMsgEvent) ∨
    (parsedMessage.parseResult.msgType ≠ .msgAsync ∧ storedResponses effects = [parsedMessage] ∧
      after.lastResponse = parsedMessage)

/-- What goes wrong when a payload is cut out is no exception of the library. -/
theorem getParsedDRData_error {data : UString} {e : CdcException}
    (h : getParsedDRData data = .error e) : e.identity = .std := by
  simp only [getParsedDRData, userData, substr] at h
  split_ifs at h
  rw [← Except.error.inj h]

/-- An asynchronous message is dispatched, or it ends the process. -/
theorem processMessage_async {platform : Platform} {self : CDCImplPrivate}
    {parsedMessage : ParsedMessage} (hasync : parsedMessage.parseResult.msgType = .msgAsync) :
    (∃ effects, storedResponses effects = [] ∧ processMessage platform self parsedMessage =
      (.ok (), { self with log := self.log ++ effects })) ∨
    ∃ e self', processMessage platform self parsedMessage = (.error e, self') ∧
      e.identity = .std := by
  by_cases hlistener : self.asyncListener = true
  · cases hdata : getParsedDRData parsedMessage.message with
    | error e =>
      right
      refine ⟨e, self.emit (.dispatched parsedMessage), ?_, getParsedDRData_error hdata⟩
      simp [processMessage, hasync, CDCImplPrivate.emit, hlistener, hdata]
    | ok userData =>
      left
      refine ⟨[.dispatched parsedMessage, .listenerCalled userData], rfl, ?_⟩
      simp [processMessage, hasync, CDCImplPrivate.emit, hlistener, hdata]
  · left
    refine ⟨[.dispatched parsedMessage], rfl, ?_⟩
    simp [processMessage, hasync, CDCImplPrivate.emit, hlistener]

/-- The event stores nothing, whether it can be signalled or not. -/
theorem setMyEvent_keeps (platform : Platform) (self : CDCImplPrivate) :
    ∃ effects, storedResponses effects = [] ∧
      (self.setMyEvent platform).2.log = self.log ++ effects ∧
      (self.setMyEvent platform).2.lastResponse = self.lastResponse := by
  unfold CDCImplPrivate.setMyEvent
  rcases self.eventWrites with _ | ⟨_ | _, eventWrites⟩
  · exact ⟨[.newMsgSignalled], rfl, rfl, rfl⟩
  · exact ⟨[], rfl, by simp, rfl⟩
  · exact ⟨[.newMsgSignalled], rfl, rfl, rfl⟩

/-- Any other message is stored. -/
theorem processMessage_response {platform : Platform} {self : CDCImplPrivate}
    {parsedMessage : ParsedMessage} (hasync : parsedMessage.parseResult.msgType ≠ .msgAsync) :
    ∃ effects, Dispatches self parsedMessage (processMessage platform self parsedMessage).2
      effects := by
  rw [processMessage, if_neg hasync]
  obtain ⟨effects, hstores, hlog, hresponse⟩ := setMyEvent_keeps platform
    ({ self.emit (.dispatched parsedMessage) with lastResponse := parsedMessage }.emit
      (.responseStored parsedMessage))
  refine ⟨.dispatched parsedMessage :: .responseStored parsedMessage :: effects, ?_,
    .inr ⟨hasync, ?_, hresponse⟩⟩
  · rw [hlog]
    simp [CDCImplPrivate.emit]
  · simpa [storedResponses] using hstores

/-- The handlers add to the log, and store nothing. -/
theorem threadHandler_dispatches {before self self' : CDCImplPrivate}
    {handled : ExceptionClass → Bool} {parsedMessage : ParsedMessage} {effects : List Effect}
    {e : CdcException} {code : Nat}
    (h : Dispatches before parsedMessage self effects)
    (hreturned : threadHandler handled self e = .returned self' code) :
    Dispatches before parsedMessage self' (effects ++ [.errorRecorded e.cause]) := by
  simp only [threadHandler] at hreturned
  split_ifs at hreturned
  obtain ⟨rfl, -⟩ := ThreadState.returned.inj hreturned
  refine ⟨?_, ?_⟩
  · simp [CDCImplPrivate.setReceptionStopped, CDCImplPrivate.setLastReceptionError,
      CDCImplPrivate.emit, h.log]
  · rw [storedResponses_append]
    simpa [storedResponses, CDCImplPrivate.setReceptionStopped,
      CDCImplPrivate.setLastReceptionError, CDCImplPrivate.emit] using h.stores

theorem session_dispatch {platform : Platform} {s s' : Session} {parsedMessage : ParsedMessage}
    (h : (session platform).step s (.dispatch parsedMessage) = some s') :
    (∃ effects, Dispatches s.impl parsedMessage s'.impl effects) ∧ s'.client = s.client ∧
      s'.began = s.began ∧ s'.checked = s.checked := by
  simp only [session, Session.dispatchStep] at h
  split_ifs at h with hrunning
  by_cases hasync : parsedMessage.parseResult.msgType = .msgAsync
  · rcases @processMessage_async platform s.impl _ hasync with
      ⟨effects, hstores, hprocess⟩ | ⟨e, self', hprocess, he⟩
    · rw [hprocess] at h
      obtain rfl := Option.some.inj h
      exact ⟨⟨effects, rfl, .inl ⟨hasync, hstores, rfl, rfl⟩⟩, rfl, rfl, rfl⟩
    · have hhandled : handled platform e.identity = false := by
        rw [he]
        cases platform <;> rfl
      simp [hprocess, threadHandler, hhandled] at h
  · obtain ⟨effects, hdispatches⟩ :=
      @processMessage_response platform s.impl _ hasync
    split at h
    · next impl hprocess =>
      obtain rfl := Option.some.inj h
      rw [hprocess] at hdispatches
      exact ⟨⟨effects, hdispatches⟩, rfl, rfl, rfl⟩
    · next e impl hprocess =>
      rw [hprocess] at hdispatches
      split at h
      · next impl' code hreturned =>
        obtain rfl := Option.some.inj h
        exact ⟨⟨_, threadHandler_dispatches hdispatches hreturned⟩, rfl, rfl, rfl⟩
      · cases h

end Clibcdc
