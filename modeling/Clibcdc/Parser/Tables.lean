import Clibcdc.Types

/-!
# The tables of the message parser

The constructor of `CDCMessageParserPrivate` fills four containers: the
transition map, the set of finite states, the set of special states and the
map of state infos.

A `std::map` that is only filled by `insert` and read by `find` is a list of
rows in the order of the insertions, read by the first row of a key: `insert`
does nothing when the key is there already, and the first row wins here.

`insertStatesInfo` takes an array and a separately written count.  A read past
the end of the array has no defined value, so `initStatesInfoMap` takes what
such reads yield as an argument: `beyond a i` is the number read `i` places
behind the end of the `a`-th array, or `none` when nothing is to be inserted.
`listedOnly` inserts what the array initialisers list and nothing else.
-/

namespace Clibcdc.Parser

/-- `INITIAL_STATE`. -/
abbrev initialState : Nat := 0

/-- `NO_TRANSITION`: no transition is possible. -/
abbrev noTransition : Nat := 65535

/-- `INPUT_ALL`: the input of a row that any byte takes. -/
abbrev inputAll : Nat := 1000

/-! ## The transition map -/

/-- A row of the transition map: the state, the input, and the next state. -/
abbrev Transition := (Nat × Nat) × Nat

/-- `insertTransition` with a character as the input. -/
abbrev insertTransition (stateId : Nat) (input : Char) (nextStateId : Nat) : Transition :=
  ((stateId, input.toNat), nextStateId)

/-- `insertTransition` with `0x0D` as the input. -/
abbrev insertTransitionCr (stateId nextStateId : Nat) : Transition :=
  ((stateId, 0x0D), nextStateId)

/-- `insertTransition` with `INPUT_ALL` as the input. -/
abbrev insertTransitionAll (stateId nextStateId : Nat) : Transition :=
  ((stateId, inputAll), nextStateId)

def initTransitionMap : List Transition := [
  -- beginning
  insertTransition 0 '<' 1,
  insertTransition 1 'E' 2,
  insertTransition 1 'O' 6,
  insertTransition 1 'R' 9,
  insertTransition 1 'I' 16,
  insertTransition 1 'B' 24,
  insertTransition 1 'S' 29,
  insertTransition 1 'D' 33,
  insertTransition 1 'U' 53,
  insertTransition 1 'P' 58,
  -- ERR
  insertTransition 2 'R' 3,
  insertTransition 3 'R' 4,
  insertTransitionCr 4 5,
  -- MSG_TEST OK
  insertTransition 6 'K' 7,
  insertTransitionCr 7 8,
  -- RESET USB
  insertTransition 9 ':' 10,
  insertTransition 10 'O' 101,
  insertTransition 101 'K' 102,
  insertTransitionCr 102 103,
  -- RESET MODULE
  insertTransition 9 'T' 11,
  insertTransition 11 ':' 12,
  insertTransition 12 'O' 13,
  insertTransition 13 'K' 14,
  insertTransitionCr 14 15,
  -- USB INFO, state 17 is special
  insertTransition 16 ':' 17,
  insertTransitionCr 18 19,
  -- MODULE INFO, state 21 is special
  insertTransition 16 'T' 20,
  insertTransition 20 ':' 21,
  insertTransitionCr 22 23,
  -- USB CONNECTION INDICATION
  insertTransition 24 ':' 25,
  insertTransition 25 'O' 26,
  insertTransition 26 'K' 27,
  insertTransitionCr 27 28,
  -- SPI STATUS
  insertTransition 29 ':' 30,
  insertTransitionAll 30 31,
  insertTransitionCr 31 32,
  -- DATA SEND
  insertTransition 33 'S' 34,
  insertTransition 34 ':' 35,
  insertTransition 35 'O' 36,
  insertTransition 36 'K' 37,
  insertTransitionCr 37 38,
  insertTransition 35 'E' 39,
  insertTransition 39 'R' 40,
  insertTransition 40 'R' 41,
  insertTransitionCr 41 42,
  insertTransition 35 'B' 43,
  insertTransition 43 'U' 44,
  insertTransition 44 'S' 45,
  insertTransition 45 'Y' 46,
  insertTransitionCr 46 47,
  -- DATA RECEIVE, state 50 is special
  insertTransition 33 'R' 48,
  insertTransitionAll 48 49,
  insertTransition 49 ':' 50,
  insertTransitionCr 51 52,
  -- CDC SWITCH
  insertTransition 53 ':' 54,
  insertTransition 54 'O' 55,
  insertTransition 55 'K' 56,
  insertTransitionCr 56 57,
  -- Programming
  insertTransition 58 'E' 59,
  insertTransition 58 'T' 69,
  insertTransition 58 'M' 79,
  -- Enter programming mode
  insertTransition 59 ':' 60,
  insertTransition 60 'O' 61,
  insertTransition 60 'E' 64,
  insertTransition 61 'K' 62,
  insertTransitionCr 62 63,
  insertTransition 64 'R' 65,
  insertTransition 65 'R' 66,
  insertTransition 66 '1' 67,
  insertTransitionCr 67 68,
  -- Terminate programming mode
  insertTransition 69 ':' 70,
  insertTransition 70 'O' 71,
  insertTransition 70 'E' 74,
  insertTransition 71 'K' 72,
  insertTransitionCr 72 73,
  insertTransition 74 'R' 75,
  insertTransition 75 'R' 76,
  insertTransition 76 '1' 77,
  insertTransitionCr 77 78,
  -- Upload/Download, state 95 is special
  insertTransition 79 ':' 95,
  -- Upload/Error
  insertTransition 80 'O' 81,
  insertTransition 80 'E' 84,
  insertTransition 80 'B' 89,
  insertTransition 81 'K' 82,
  insertTransitionCr 82 83,
  insertTransition 84 'R' 85,
  insertTransition 85 'R' 86,
  insertTransition 86 '2' 87,
  insertTransition 86 '3' 87,
  insertTransition 86 '4' 87,
  insertTransition 86 '5' 87,
  insertTransition 86 '6' 87,
  insertTransition 86 '7' 87,
  insertTransitionCr 87 88,
  insertTransition 89 'U' 90,
  insertTransition 90 'S' 91,
  insertTransition 91 'Y' 92,
  insertTransitionCr 92 93,
  -- Download Data
  insertTransitionCr 96 97]

/-- `doTransition`: the row of the byte itself, else the row of any byte. -/
def doTransition (state : Nat) (input : Byte) : Nat :=
  match initTransitionMap.lookup (state, input.toNat) with
  | some nextState => nextState
  | none =>
    match initTransitionMap.lookup (state, inputAll) with
    | some nextState => nextState
    | none => noTransition

/-! ## Finite and special states -/

def initFiniteStates : List Nat :=
  [5, 8, 15, 19, 23, 28, 32, 38, 42, 47, 52, 57, 103, 63, 68, 73, 78, 83, 88, 93, 97]

def initSpecialStates : List Nat := [17, 21, 50, 95]

def isFiniteState (state : Nat) : Bool := initFiniteStates.contains state

def isSpecialState (state : Nat) : Bool := initSpecialStates.contains state

/-! ## The state infos -/

structure StateInfo where
  msgType : MessageType
  multiType : Bool
  deriving DecidableEq, Repr

/-- `statesInfoMap`. -/
abbrev MapOfStates := List (Nat × StateInfo)

/-- `states[i]`, where `beyond` gives what a read past the end yields. -/
def readState (states : List Nat) (beyond : Nat → Option Nat) (i : Nat) : Option Nat :=
  match states[i]? with
  | some state => some state
  | none => beyond (i - states.length)

/-- The loop of `insertStatesInfo`, and of `insertMultiTypeStatesInfo` with
its own `StateInfo`. -/
def insertStates (map : MapOfStates) (states : List Nat) (beyond : Nat → Option Nat)
    (statesSize : Nat) (stateInfo : StateInfo) : MapOfStates :=
  map ++ (List.range statesSize).filterMap fun i =>
    (readState states beyond i).map (·, stateInfo)

def insertStatesInfo (map : MapOfStates) (states : List Nat) (beyond : Nat → Option Nat)
    (statesSize : Nat) (msgType : MessageType) : MapOfStates :=
  insertStates map states beyond statesSize ⟨msgType, false⟩

def insertMultiTypeStatesInfo (map : MapOfStates) (states : List Nat)
    (beyond : Nat → Option Nat) (statesSize : Nat) : MapOfStates :=
  insertStates map states beyond statesSize ⟨.msgError, true⟩

/-- What reads past the ends of the arrays yield: the array, counted in the
order of the calls, and the place behind its end. -/
abbrev Beyond := Nat → Nat → Option Nat

/-- Reads past the ends of the arrays insert nothing. -/
def listedOnly : Beyond := fun _ _ => none

def initStatesInfoMap (beyond : Beyond) : MapOfStates :=
  let map := insertMultiTypeStatesInfo [] [0, 1, 9, 16, 33, 58, 79, 95] (beyond 0) 8
  let map := insertStatesInfo map [2, 3, 4, 5] (beyond 1) 4 .msgError
  let map := insertStatesInfo map [6, 7, 8] (beyond 2) 3 .msgTest
  let map := insertStatesInfo map [10, 101, 102, 103] (beyond 3) 4 .msgResUsb
  let map := insertStatesInfo map [11, 12, 13, 14, 15] (beyond 4) 5 .msgResTr
  let map := insertStatesInfo map [17, 18, 19] (beyond 5) 3 .msgUsbInfo
  let map := insertStatesInfo map [20, 21, 22, 23] (beyond 6) 4 .msgTrInfo
  let map := insertStatesInfo map [24, 25, 26, 27, 28] (beyond 7) 5 .msgUsbConn
  let map := insertStatesInfo map [29, 30, 31, 32] (beyond 8) 4 .msgSpiStat
  let map := insertStatesInfo map
    [34, 35, 36, 37, 38, 39, 40, 41, 42, 43, 44, 45, 46, 47] (beyond 9) 14 .msgDataSend
  let map := insertStatesInfo map [48, 49, 50, 51, 52] (beyond 10) 5 .msgAsync
  let map := insertStatesInfo map [53, 54, 55, 56, 57] (beyond 11) 5 .msgSwitch
  let map := insertStatesInfo map
    [69, 70, 71, 72, 73, 74, 75, 76, 77, 78] (beyond 12) 10 .msgModeNormal
  let map := insertStatesInfo map
    [59, 60, 61, 62, 63, 64, 65, 66, 67, 68] (beyond 13) 10 .msgModeProgram
  -- the array has 14 elements, the count says 17
  let map := insertStatesInfo map
    [80, 81, 82, 83, 84, 85, 86, 87, 88, 89, 90, 91, 92, 93] (beyond 14) 17 .msgUploadDownload
  insertStatesInfo map [96, 97] (beyond 15) 2 .msgDownloadData

end Clibcdc.Parser
