import Clibcdc.Parser.Tables

/-!
# The message parser

`CDCMessageParserPrivate::parseData` runs the automaton of the transition map
over a buffer.  Four special states do not follow the map: their handlers look
at the whole buffer and answer with a new state and the last position they
processed.

The loop of `parseData` takes its position from those answers, so its
termination is not syntactic.  `parseLoop` carries a fuel, and `parseData`
starts it with more fuel than the loop can use: `Clibcdc.Parser.Loop` proves
that the loop never runs out of it.
-/

namespace Clibcdc.Parser

/-- The part of a `CDCMessageParserPrivate` that two constructions can leave
different, and the result of its last call. -/
structure CDCMessageParserPrivate where
  statesInfoMap : MapOfStates
  built : ∃ beyond, statesInfoMap = initStatesInfoMap beyond
  lastParseResult : ParseResult
  deriving DecidableEq

/-- The constructor. -/
def CDCMessageParserPrivate.new (beyond : Beyond) : CDCMessageParserPrivate where
  statesInfoMap := initStatesInfoMap beyond
  built := ⟨beyond, rfl⟩
  lastParseResult := ⟨.msgError, .parseNotComplete, 0⟩

/-- The state infos are those that the array initialisers list. -/
def CDCMessageParserPrivate.Listed (self : CDCMessageParserPrivate) : Prop :=
  self.statesInfoMap = initStatesInfoMap listedOnly

/-! ## The special states -/

structure StateProcResult where
  newState : Nat
  lastPosition : Nat
  formatError : Bool
  deriving DecidableEq, Repr

def checkUSBDeviceType (_byteToCheck : Byte) : Bool := true

def checkUSBDeviceVersion (byteToCheck : Byte) : Bool :=
  if chr '0' ≤ byteToCheck && byteToCheck ≤ chr '9' then true
  else if byteToCheck = chr '.' then true
  else false

def checkUSBDeviceId (byteToCheck : Byte) : Bool :=
  if chr '0' ≤ byteToCheck && byteToCheck ≤ chr '9' then true
  else if chr 'A' ≤ byteToCheck && byteToCheck ≤ chr 'H' then true
  else false

/-- `activeSection` of `processUSBInfo`. -/
inductive UsbSection where
  | type | version | id
  deriving DecidableEq, Repr

/-- The check of the section that a byte belongs to. -/
def UsbSection.check : UsbSection → Byte → Bool
  | .type => checkUSBDeviceType
  | .version => checkUSBDeviceVersion
  | .id => checkUSBDeviceId

/-- The loop of `processUSBInfo`: the bytes from position `i` on, the active
section, and the result so far. -/
def usbInfoLoop : UString → Nat → UsbSection → StateProcResult → StateProcResult
  | [], _, _, procResult => procResult
  | b :: rest, i, activeSection, procResult =>
    let procResult := { procResult with lastPosition := i }
    if b = cr ∧ activeSection = .id then { procResult with newState := 19 }
    else if b = chr '#' then
      match activeSection with
      | .type => usbInfoLoop rest (i + 1) .version procResult
      | .version => usbInfoLoop rest (i + 1) .id procResult
      | .id => { procResult with formatError := true }
    else if activeSection.check b then usbInfoLoop rest (i + 1) activeSection procResult
    else { procResult with formatError := true }

/-- Processes state 17. -/
def processUSBInfo (data : UString) (pos : Nat) : StateProcResult :=
  if pos = data.length - 1 then ⟨17, pos, false⟩
  else usbInfoLoop (data.drop pos) pos .type ⟨18, pos, false⟩

abbrev moduleDataSize : Nat := 32

abbrev standardIdfSize : Nat := 21

abbrev extendedIdfSize : Nat := 37

/-- Processes state 21. -/
def processTRInfo (data : UString) (pos : Nat) : StateProcResult :=
  if pos = data.length - 1 then ⟨21, pos, false⟩
  else if data.length ≤ extendedIdfSize
      ∧ (data.length ≠ standardIdfSize ∧ data.length ≠ extendedIdfSize
        ∨ data.length = standardIdfSize ∧ data[standardIdfSize - 1]? ≠ some cr) then
    ⟨21, pos, false⟩
  else if data.length - 1 > pos + moduleDataSize then ⟨22, pos - 1 + moduleDataSize, false⟩
  else ⟨22, data.length - 2, false⟩

/-- Processes state 50.  `data.at(pos-2)` throws when it is out of range. -/
def processAsynData (data : UString) (pos : Nat) : Except CdcException StateProcResult :=
  if pos = data.length - 1 then .ok ⟨50, pos, false⟩
  else
    match data[pos - 2]? with
    | none => .error ⟨.std, "out_of_range"⟩
    | some dataLength =>
      if pos + dataLength.toNat ≥ data.length then .ok ⟨51, data.length - 1, false⟩
      else .ok ⟨51, pos - 1 + dataLength.toNat, false⟩

/-- Processes state 95.  Heuristic: error/upload message or valid download
data. -/
def processPMRespData (data : UString) (pos : Nat) : StateProcResult :=
  if pos = data.length - 1 then ⟨95, pos, false⟩
  else if data.length = 7 ∨ data.length = 9 then ⟨80, pos - 1, false⟩
  else ⟨96, data.length - 2, false⟩

def processSpecialState (state : Nat) (data : UString) (pos : Nat) :
    Except CdcException StateProcResult :=
  if state = 17 then .ok (processUSBInfo data pos)
  else if state = 21 then .ok (processTRInfo data pos)
  else if state = 50 then processAsynData data pos
  else if state = 95 then .ok (processPMRespData data pos)
  else .error ⟨.parserException, "Unknown special state: " ++ toString state⟩

/-! ## The loop -/

/-- A final state is reached: the result takes the message type of its row.
A missing row would be a read through `end()`. -/
def acceptState (map : MapOfStates) (state : Nat) (lastParseResult : ParseResult) :
    Except CdcException ParseResult :=
  match map.lookup state with
  | some stateInfo =>
    .ok { lastParseResult with msgType := stateInfo.msgType, resultType := .parseOk }
  | none => .error ⟨.undefined, "no row in statesInfoMap"⟩

/-- The loop of `parseData` from `state` and `pos` on. -/
def parseLoop (map : MapOfStates) (data : UString) :
    Nat → Nat → Nat → ParseResult → Except CdcException ParseResult
  | 0, _, _, _ => .error ⟨.undefined, "the loop of parseData does not end"⟩
  | fuel + 1, state, pos, lastParseResult =>
    if h : pos < data.length then
      let lastParseResult := { lastParseResult with lastPosition := pos }
      if isSpecialState state then
        match processSpecialState state data pos with
        | .error e => .error e
        | .ok procResult =>
          let lastParseResult :=
            { lastParseResult with lastPosition := procResult.lastPosition }
          if procResult.formatError then
            .ok { lastParseResult with resultType := .parseBadFormat }
          else if isFiniteState procResult.newState then
            acceptState map procResult.newState lastParseResult
          else
            parseLoop map data fuel procResult.newState (procResult.lastPosition + 1)
              lastParseResult
      else
        let state := doTransition state data[pos]
        if state = noTransition then
          .ok { lastParseResult with resultType := .parseBadFormat }
        else if isFiniteState state then acceptState map state lastParseResult
        else parseLoop map data fuel state (pos + 1) lastParseResult
    else .ok lastParseResult

/-- `parseData`.  The result is also what the parser keeps as its
`lastParseResult`; the message type of a result that is not `PARSE_OK` is the
one the previous call left there. -/
def parseData (self : CDCMessageParserPrivate) (data : UString) :
    Except CdcException ParseResult :=
  parseLoop self.statesInfoMap data (2 * data.length + 2) initialState 0
    { self.lastParseResult with resultType := .parseNotComplete }

end Clibcdc.Parser
