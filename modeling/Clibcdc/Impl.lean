import Clibcdc.Parser.Basic

/-!
# The state of `CDCImplPrivate`

The fields that the reader thread and the client thread share, and the
operations on them that the two ports implement differently.

* `newMsgEvent` is the state of the event: on Linux the counter of the
  `eventfd`, on Windows 1 when the manual-reset event is set.
* The operating system decides whether a write to the event succeeds.
  `eventWrites` lists its answers to the coming writes.  Once the list is used
  up every write succeeds.
* `log` and `portOutput` are no fields of the class.  They record, in order,
  what happens: `log` what the reader thread does to the listener, the last
  response, the event and the error text, and which bytes it drops, and
  `portOutput` the bytes that the port has accepted.

Locking is left out: each access that the source guards with a mutex is one
step here.
-/

namespace Clibcdc

open Clibcdc.Parser (CDCMessageParserPrivate)

/-- The two implementations of the port: `CDCImpl_Lin.cpp` and
`CDCImpl_Win.cpp`. -/
inductive Platform where
  | linux | windows
  deriving DecidableEq, Repr

/-- What the reader thread does, in the order of the log. -/
inductive Effect where
  | dispatched (parsedMessage : ParsedMessage)
  | listenerCalled (userData : UString)
  | responseStored (parsedMessage : ParsedMessage)
  | newMsgSignalled
  | bytesDropped (bytes : UString)
  | errorRecorded (descr : String)
  deriving DecidableEq, Repr

structure CDCImplPrivate where
  msgParser : CDCMessageParserPrivate
  lastResponse : ParsedMessage
  newMsgEvent : Nat
  eventWrites : List Bool
  /-- Whether a listener is registered. -/
  asyncListener : Bool
  receptionStopped : Bool
  lastReceptionError : String
  /-- The bytes of the transmit buffer.  There are `m_transmitBufferLen` of
  them. -/
  m_transmitBuffer : UString
  m_transmitBufferLen : Nat
  portOutput : UString
  log : List Effect
  deriving DecidableEq

namespace CDCImplPrivate

variable (self : CDCImplPrivate)

def emit (effect : Effect) : CDCImplPrivate := { self with log := self.log ++ [effect] }

/-- `initLastResponse`. -/
def initLastResponse : CDCImplPrivate :=
  { self with lastResponse := ⟨[], ⟨.msgError, .parseNotComplete, 0⟩⟩ }

def setLastReceptionError (descr : String) : CDCImplPrivate :=
  { self with lastReceptionError := descr }.emit (.errorRecorded descr)

def setReceptionStopped (value : Bool) : CDCImplPrivate :=
  { self with receptionStopped := value }

/-- `setMyEvent(newMsgEvent)`: the `eventfd` counts up, the Windows event is
set. -/
def setMyEvent (platform : Platform) : Except CdcException Unit × CDCImplPrivate :=
  match self.eventWrites with
  | false :: eventWrites =>
    (.error ⟨.implException, match platform with
        | .linux => "Signaling new message event failed with error "
        | .windows => "Signaling anew message event failed with error "⟩,
      { self with eventWrites })
  | eventWrites =>
    (.ok (), { self with
      eventWrites := eventWrites.tail
      newMsgEvent := match platform with
        | .linux => self.newMsgEvent + 1
        | .windows => 1 }.emit .newMsgSignalled)

/-- `resetMyEvent(newMsgEvent)`: it does nothing on Linux. -/
def resetMyEvent (platform : Platform) : CDCImplPrivate :=
  match platform with
  | .linux => self
  | .windows => { self with newMsgEvent := 0 }

/-- What is left of the event when a wait for it has succeeded: reading an
`eventfd` clears it, and a manual-reset event stays set. -/
def consumeMyEvent (platform : Platform) : CDCImplPrivate :=
  match platform with
  | .linux => { self with newMsgEvent := 0 }
  | .windows => self

/-- The constructor: the state when the reader thread starts. -/
def init (msgParser : CDCMessageParserPrivate) : CDCImplPrivate where
  msgParser := msgParser
  lastResponse := ⟨[], ⟨.msgError, .parseNotComplete, 0⟩⟩
  newMsgEvent := 0
  eventWrites := []
  asyncListener := false
  receptionStopped := false
  lastReceptionError := ""
  m_transmitBuffer := List.replicate 1024 0
  m_transmitBufferLen := 1024
  portOutput := []
  log := []

end CDCImplPrivate

end Clibcdc
