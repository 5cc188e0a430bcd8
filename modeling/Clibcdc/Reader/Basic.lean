import Clibcdc.Impl
import Clibcdc.Parser.Decoders

/-!
# The reader thread

`processMessage`, `parseNextMessage` and `processAllMessages` of
`CDCImpl.cpp`, and the loops of `readMsgThread` of the two ports.

A method that may throw answers with what it returned or threw and with the
state it left in either case.  The loop of `processAllMessages` erases at least
one byte of its buffer in each round; it carries a fuel of more rounds than the
buffer has bytes.

The threads run over the list of answers that the operating system gives.
What a thread does before its loop is left out.
-/

namespace Clibcdc.Reader

open Clibcdc.Parser

/-! ## Messages -/

/-- Dispatches a message: an asynchronous one to the listener, any other to
the client. -/
def processMessage (platform : Platform) (self : CDCImplPrivate)
    (parsedMessage : ParsedMessage) : Except CdcException Unit × CDCImplPrivate :=
  let self := self.emit (.dispatched parsedMessage)
  if parsedMessage.parseResult.msgType = .msgAsync then
    if self.asyncListener then
      match getParsedDRData parsedMessage.message with
      | .error e => (.error e, self)
      | .ok userData => (.ok (), self.emit (.listenerCalled userData))
    else (.ok (), self)
  else
    let self := { self with lastResponse := parsedMessage }.emit (.responseStored parsedMessage)
    self.setMyEvent platform

/-- Bugfix of error in fw implementation: a leading `>` is read as `<`. -/
def repair : UString → UString
  | [] => []
  | b :: rest => (if b = chr '>' then chr '<' else b) :: rest

/-- Answers also with the buffer, in which a leading `>` is replaced. -/
def parseNextMessage (self : CDCImplPrivate) (msgBuffer : UString) :
    Except CdcException ParsedMessage × CDCImplPrivate × UString :=
  let msgBuffer := repair msgBuffer
  match parseData self.msgParser msgBuffer with
  | .error e => (.error e, self, msgBuffer)
  | .ok parseResult =>
    let self := { self with msgParser := { self.msgParser with lastParseResult := parseResult } }
    match parseResult.resultType with
    | .parseOk =>
      match substr msgBuffer 0 (parseResult.lastPosition + 1) with
      | .error e => (.error e, self, msgBuffer)
      | .ok parsedMsg => (.ok ⟨parsedMsg, parseResult⟩, self, msgBuffer)
    | .parseNotComplete => (.ok ⟨[], parseResult⟩, self, msgBuffer)
    | .parseBadFormat => (.ok ⟨[], parseResult⟩, self, msgBuffer)

/-- Throws all bytes from the buffer up to the next `0x0D`. -/
def discardLine (msgBuffer : UString) (lastPosition : Nat) : UString :=
  match find msgBuffer cr lastPosition with
  | none => []
  | some endMsgPos => erase msgBuffer (endMsgPos + 1)

/-- A round of the loop of `processAllMessages`.  The loop goes on when the
answer is `true`. -/
def processRound (platform : Platform) (self : CDCImplPrivate) (msgBuffer : UString) :
    Except CdcException Bool × CDCImplPrivate × UString :=
  if msgBuffer = [] then (.ok false, self, msgBuffer)
  else
    match parseNextMessage self msgBuffer with
    | (.error e, self, msgBuffer) => (.error e, self, msgBuffer)
    | (.ok parsedMessage, self, msgBuffer) =>
      match parsedMessage.parseResult.resultType with
      | .parseNotComplete => (.ok false, self, msgBuffer)
      | .parseBadFormat =>
        let rest := discardLine msgBuffer parsedMessage.parseResult.lastPosition
        let self := self.emit (.bytesDropped (msgBuffer.take (msgBuffer.length - rest.length)))
        (.ok true, self.setLastReceptionError "Bad message format", rest)
      | .parseOk =>
        let msgBuffer := erase msgBuffer (parsedMessage.parseResult.lastPosition + 1)
        match processMessage platform self parsedMessage with
        | (.error e, self) => (.error e, self, msgBuffer)
        | (.ok (), self) => (.ok true, self, msgBuffer)

def processAllMessagesLoop (platform : Platform) :
    Nat → CDCImplPrivate → UString → Except CdcException Unit × CDCImplPrivate × UString
  | 0, self, msgBuffer =>
    (.error ⟨.undefined, "the loop of processAllMessages does not end"⟩, self, msgBuffer)
  | fuel + 1, self, msgBuffer =>
    match processRound platform self msgBuffer with
    | (.error e, self, msgBuffer) => (.error e, self, msgBuffer)
    | (.ok false, self, msgBuffer) => (.ok (), self, msgBuffer)
    | (.ok true, self, msgBuffer) => processAllMessagesLoop platform fuel self msgBuffer

/-- Extracts and processes all messages inside the specified buffer. -/
def processAllMessages (platform : Platform) (self : CDCImplPrivate) (msgBuffer : UString) :
    Except CdcException Unit × CDCImplPrivate × UString :=
  processAllMessagesLoop platform (msgBuffer.length + 1) self msgBuffer

/-! ## Threads -/

/-- Where a reader thread stands: it has used up the answers, or has returned,
or an exception that it does not handle has left it. -/
inductive ThreadState where
  | running (self : CDCImplPrivate) (receivedBytes : UString)
  | returned (self : CDCImplPrivate) (code : Nat)
  | terminated (self : CDCImplPrivate) (e : CdcException)
  deriving DecidableEq

/-- The state in which the thread leaves its object. -/
def ThreadState.self : ThreadState → CDCImplPrivate
  | .running self _ => self
  | .returned self _ => self
  | .terminated self _ => self

/-- The handlers of the thread function: the error is recorded and reception
stops, or the exception leaves the thread. -/
def threadHandler (handled : ExceptionClass → Bool) (self : CDCImplPrivate)
    (e : CdcException) : ThreadState :=
  if handled e.identity then
    .returned ((self.setLastReceptionError e.cause).setReceptionStopped true) 1
  else .terminated self e

/-! ### Linux -/

/-- What `select` reports.  `port` is what the `read` of the port then gives,
when the port is ready: `none` when it fails. -/
inductive SelectResult where
  | failed
  | timedOut
  | ready (port : Option (Option UString)) (readEnd : Bool)
  deriving DecidableEq, Repr

/-- Answers with the buffer, and with the position of a message end in it. -/
def appendDataFromPort (readResult : Option UString) (destBuffer : UString) :
    Except CdcException (UString × Option Nat) :=
  match readResult with
  | none => .error ⟨.receiveException, "Appending data from COM-port failed with error "⟩
  | some bytes =>
    let destBuffer := destBuffer ++ bytes
    .ok (destBuffer, find destBuffer cr 0)

/-- The handler of the Linux thread is that of `CDCReceiveException`. -/
def handledLinux (identity : ExceptionClass) : Bool := identity.caughtBy .receiveException

/-- A round in which `select` reports an event: the port is read when it is
ready. -/
def readPort (self : CDCImplPrivate) (receivedBytes : UString) :
    Option (Option UString) → Except CdcException Unit × CDCImplPrivate × UString
  | none => (.ok (), self, receivedBytes)
  | some readResult =>
    match appendDataFromPort readResult receivedBytes with
    | .error e => (.error e, self, receivedBytes)
    | .ok (receivedBytes, some _) => processAllMessages .linux self receivedBytes
    | .ok (receivedBytes, none) => (.ok (), self, receivedBytes)

/-- The loop of `readMsgThread` of `CDCImpl_Lin.cpp`. -/
def readMsgThread : List SelectResult → CDCImplPrivate → UString → ThreadState
  | [], self, receivedBytes => .running self receivedBytes
  | .failed :: _, self, _ =>
    threadHandler handledLinux self
      ⟨.receiveException, "Waiting for event in read cycle failed with error "⟩
  | .timedOut :: rest, self, receivedBytes => readMsgThread rest self receivedBytes
  | .ready port readEnd :: rest, self, receivedBytes =>
    match readPort self receivedBytes port with
    | (.error e, self, _) => threadHandler handledLinux self e
    | (.ok (), self, receivedBytes) =>
      if readEnd then .returned self 0 else readMsgThread rest self receivedBytes

/-! ### Windows -/

/-- How a `ReadFile` of one byte ends.  The timeouts of the port are not zero:
a call that finds no byte is delayed, and may complete without one. -/
inductive ReadFileResult where
  | failed
  | immediate (b : Byte)
  | delayed (b : Option Byte)
  deriving DecidableEq, Repr

/-- The Windows thread also handles `CDCImplException`. -/
def handledWindows (identity : ExceptionClass) : Bool :=
  identity.caughtBy .receiveException || identity.caughtBy .implException

/-- What both ways of reading do with the buffer once it holds the byte. -/
def processByte (self : CDCImplPrivate) (receivedBytes : UString) (byteRead : Byte) :
    Except CdcException Unit × CDCImplPrivate × UString :=
  if byteRead = cr then processAllMessages .windows self receivedBytes
  else (.ok (), self, receivedBytes)

/-- The reading loop of `readMsgThread` of `CDCImpl_Win.cpp`.  `byteRead` keeps
the last byte when a read completes without one. -/
def readingLoop : List ReadFileResult → CDCImplPrivate → UString → Byte → ThreadState
  | [], self, receivedBytes, _ => .running self receivedBytes
  | .failed :: _, self, _, _ =>
    threadHandler handledWindows self ⟨.receiveException, "Reading failed with error "⟩
  | .immediate byteRead :: rest, self, receivedBytes, _ =>
    match processByte self (receivedBytes ++ [byteRead]) byteRead with
    | (.error e, self, _) => threadHandler handledWindows self e
    | (.ok (), self, receivedBytes) => readingLoop rest self receivedBytes byteRead
  | .delayed b :: rest, self, receivedBytes, byteRead =>
    let byteRead := b.getD byteRead
    let receivedBytes := if b.isSome then receivedBytes ++ [byteRead] else receivedBytes
    match processByte self receivedBytes byteRead with
    | (.error e, self, _) => threadHandler handledWindows self e
    | (.ok (), self, receivedBytes) => readingLoop rest self receivedBytes byteRead

/-- The bytes that a list of reads delivers. -/
def ReadFileResult.byte : ReadFileResult → Option Byte
  | .failed => none
  | .immediate b => some b
  | .delayed b => b

end Clibcdc.Reader
