import Clibcdc.Parser.Soundness
import Clibcdc.Parser.Ending
import Clibcdc.Memory.Checked

/-!
# The parser stays in bounds

`Clibcdc.Parser.Basic` computes with natural numbers and takes what it reads
for granted.  Here `parseData` is translated once more, with every operation
that can go wrong in the machine:

* an index is checked against the size of the buffer,
* a difference, a sum and a conversion of `unsigned int` are checked for
  wrapping around,
* a special state without a handler, a finite state without a row in
  `statesInfoMap` and a loop that does not end are faults.

`parseData_checked` says that no fault happens, and that this parser answers
as the other one does.  What carries it is `AtHead`, which knows the states and
positions at which a turn of the loop can begin.
-/

namespace Clibcdc.Parser.Checked

open Clibcdc.Automata Clibcdc.Memory

/-! ## The operations -/

inductive Fault where
  | outOfRange
  | wrapped
  | unknownState (state : Nat)
  | missingRow
  | unending
  deriving DecidableEq, Repr

/-- The values of `unsigned int` are below it. -/
abbrev uintLimit : Nat := 2 ^ 32

def read (data : UString) (i : Nat) : Except Fault Byte := checkedRead .outOfRange data i

def sub (a b : Nat) : Except Fault Nat := checkedSub .wrapped a b

def add (a b : Nat) : Except Fault Nat := checkedAdd .wrapped uintLimit a b

def toUint (a : Nat) : Except Fault Nat := checkedCast .wrapped uintLimit a

/-! ## The special states -/

/-- The loop of `processUSBInfo`, for as many turns as there is fuel. -/
def usbInfoLoop (data : UString) :
    Nat → Nat → UsbSection → StateProcResult → Except Fault StateProcResult
  | 0, _, _, _ => .error .unending
  | fuel + 1, i, activeSection, procResult =>
    if i < data.length then do
      let procResult := { procResult with lastPosition := i }
      let b ← read data i
      if b = cr ∧ activeSection = .id then .ok { procResult with newState := 19 }
      else if b = chr '#' then
        match activeSection with
        | .type => do
          let i ← add i 1
          usbInfoLoop data fuel i .version procResult
        | .version => do
          let i ← add i 1
          usbInfoLoop data fuel i .id procResult
        | .id => .ok { procResult with formatError := true }
      else if activeSection.check b then do
        let i ← add i 1
        usbInfoLoop data fuel i activeSection procResult
      else .ok { procResult with formatError := true }
    else .ok procResult

/-- Processes state 17. -/
def processUSBInfo (fuel : Nat) (data : UString) (pos : Nat) : Except Fault StateProcResult := do
  let last ← sub data.length 1
  if pos = last then .ok ⟨17, pos, false⟩
  else usbInfoLoop data fuel pos .type ⟨18, pos, false⟩

/-- Whether the buffer has one of the sizes of a module info. -/
def hasIdfSize (data : UString) : Except Fault Bool :=
  if data.length ≤ extendedIdfSize then
    if data.length ≠ standardIdfSize ∧ data.length ≠ extendedIdfSize then .ok false
    else if data.length = standardIdfSize then do
      let b ← read data (standardIdfSize - 1)
      .ok (b = cr)
    else .ok true
  else .ok true

/-- Processes state 21. -/
def processTRInfo (data : UString) (pos : Nat) : Except Fault StateProcResult := do
  let last ← sub data.length 1
  if pos = last then .ok ⟨21, pos, false⟩
  else do
    let complete ← hasIdfSize data
    if complete then do
      let last ← sub data.length 1
      let stop ← add pos moduleDataSize
      if last > stop then do
        let before ← sub pos 1
        let lastPosition ← add before moduleDataSize
        .ok ⟨22, lastPosition, false⟩
      else do
        let size ← toUint data.length
        let lastPosition ← sub size 2
        .ok ⟨22, lastPosition, false⟩
    else .ok ⟨21, pos, false⟩

/-- Processes state 50. -/
def processAsynData (data : UString) (pos : Nat) : Except Fault StateProcResult := do
  let last ← sub data.length 1
  if pos = last then .ok ⟨50, pos, false⟩
  else do
    let i ← sub pos 2
    let dataLength ← read data i
    let stop ← add pos dataLength.toNat
    if stop ≥ data.length then do
      let size ← toUint data.length
      let lastPosition ← sub size 1
      .ok ⟨51, lastPosition, false⟩
    else do
      let before ← sub pos 1
      let lastPosition ← add before dataLength.toNat
      .ok ⟨51, lastPosition, false⟩

/-- Processes state 95. -/
def processPMRespData (data : UString) (pos : Nat) : Except Fault StateProcResult := do
  let last ← sub data.length 1
  if pos = last then .ok ⟨95, pos, false⟩
  else if data.length = 7 ∨ data.length = 9 then do
    let lastPosition ← sub pos 1
    .ok ⟨80, lastPosition, false⟩
  else do
    let size ← toUint data.length
    let lastPosition ← sub size 2
    .ok ⟨96, lastPosition, false⟩

def processSpecialState (fuel state : Nat) (data : UString) (pos : Nat) :
    Except Fault StateProcResult :=
  if state = 17 then processUSBInfo fuel data pos
  else if state = 21 then processTRInfo data pos
  else if state = 50 then processAsynData data pos
  else if state = 95 then processPMRespData data pos
  else .error (.unknownState state)

/-! ## The loop -/

/-- The loop of `parseData`, for as many turns as the third argument says. -/
def parseLoop (fuel : Nat) (data : UString) : Nat → Nat → Nat → Nat → Except Fault Ending
  | 0, _, _, _ => .error .unending
  | turns + 1, state, pos, lastPosition =>
    if pos < data.length then
      if isSpecialState state then do
        let procResult ← processSpecialState fuel state data pos
        if procResult.formatError then .ok (.reject procResult.lastPosition)
        else if isFiniteState procResult.newState then
          .ok (.accept procResult.newState procResult.lastPosition)
        else do
          let pos ← add procResult.lastPosition 1
          parseLoop fuel data turns procResult.newState pos procResult.lastPosition
      else do
        let b ← read data pos
        let state := doTransition state b
        if state = noTransition then .ok (.reject pos)
        else if isFiniteState state then .ok (.accept state pos)
        else do
          let next ← add pos 1
          parseLoop fuel data turns state next pos
    else .ok (.wait lastPosition)

/-- What `parseData` makes of the end of its loop. -/
def answer (map : MapOfStates) (lastParseResult : ParseResult) : Ending → Except Fault ParseResult
  | .wait lastPosition => .ok { lastParseResult with lastPosition }
  | .reject lastPosition =>
    .ok { lastParseResult with lastPosition, resultType := .parseBadFormat }
  | .accept state lastPosition =>
    match map.lookup state with
    | some stateInfo => .ok ⟨stateInfo.msgType, .parseOk, lastPosition⟩
    | none => .error .missingRow

/-- `parseData`, in which no loop takes more turns than `fuel`. -/
def parseData (fuel : Nat) (self : CDCMessageParserPrivate) (data : UString) :
    Except Fault ParseResult := do
  let last := { self.lastParseResult with resultType := .parseNotComplete }
  let ending ← parseLoop fuel data fuel initialState 0 last.lastPosition
  answer self.statesInfoMap last ending

/-! ## No operation of a handler goes wrong -/

section Handlers

variable {data : UString} {fuel pos : Nat}

@[simp] theorem read_eq {i : Nat} (h : i < data.length) : read data i = .ok data[i] :=
  checkedRead_eq h

@[simp] theorem sub_eq {a b : Nat} (h : b ≤ a) : sub a b = .ok (a - b) := checkedSub_eq h

@[simp] theorem add_eq {a b : Nat} (h : a + b < uintLimit) : add a b = .ok (a + b) :=
  checkedAdd_eq h

@[simp] theorem toUint_eq {a : Nat} (h : a < uintLimit) : toUint a = .ok a := checkedCast_eq h

theorem usbInfoLoop_eq (hsize : data.length < uintLimit) {i : Nat}
    (hfuel : data.length - i < fuel) (activeSection : UsbSection) (procResult : StateProcResult) :
    usbInfoLoop data fuel i activeSection procResult =
      .ok (Parser.usbInfoLoop (data.drop i) i activeSection procResult) := by
  induction fuel generalizing i activeSection procResult with
  | zero => omega
  | succ fuel ih =>
    rw [usbInfoLoop]
    by_cases hi : i < data.length
    · have hnext : ∀ next result, usbInfoLoop data fuel (i + 1) next result =
          .ok (Parser.usbInfoLoop (data.drop (i + 1)) (i + 1) next result) :=
        fun next result => ih (by omega) next result
      rw [if_pos hi, read_eq hi, add_eq (by omega), List.drop_eq_getElem_cons hi]
      simp only [checked_bind, hnext, Parser.usbInfoLoop.eq_def (data[i] :: _)]
      split_ifs
      · rfl
      · cases activeSection <;> rfl
      · rfl
      · rfl
    · rw [if_neg hi, List.drop_eq_nil_iff.mpr (Nat.le_of_not_lt hi)]
      rfl

theorem processUSBInfo_eq (hsize : data.length < uintLimit) (hpos : pos < data.length)
    (hfuel : data.length - pos < fuel) :
    processUSBInfo fuel data pos = .ok (Parser.processUSBInfo data pos) := by
  rw [processUSBInfo, Parser.processUSBInfo, sub_eq (by omega), checked_bind,
    usbInfoLoop_eq hsize hfuel]
  split_ifs <;> rfl

theorem hasIdfSize_eq (data : UString) :
    hasIdfSize data = .ok (decide ¬ (data.length ≤ extendedIdfSize
      ∧ (data.length ≠ standardIdfSize ∧ data.length ≠ extendedIdfSize
        ∨ data.length = standardIdfSize ∧ data[standardIdfSize - 1]? ≠ some cr))) := by
  simp only [hasIdfSize, extendedIdfSize, standardIdfSize]
  split_ifs with hshort hother hstandard
  · simp [hshort, hother]
  · have hlast : 21 - 1 < data.length := by omega
    rw [read_eq hlast, checked_bind, List.getElem?_eq_getElem hlast]
    simp [hstandard]
  · have hextended : data.length = 37 := by omega
    simp [hextended]
  · simp [hshort]

theorem processTRInfo_eq (hsize : data.length < uintLimit) (hpos : pos < data.length)
    (hbegin : 1 ≤ pos) (hstop : pos = 4 ∨ data.length ≤ extendedIdfSize) :
    processTRInfo data pos = .ok (Parser.processTRInfo data pos) := by
  simp only [extendedIdfSize] at hstop
  have hadd : pos + moduleDataSize < uintLimit := by
    simp only [moduleDataSize, uintLimit]
    omega
  have hback : pos - 1 + moduleDataSize < uintLimit := by omega
  simp only [processTRInfo, Parser.processTRInfo, sub_eq (by omega : 1 ≤ data.length),
    sub_eq (by omega : 2 ≤ data.length), sub_eq hbegin, add_eq hadd, add_eq hback,
    toUint_eq hsize, hasIdfSize_eq, checked_bind, decide_eq_true_eq, ite_not]
  split_ifs <;> rfl

theorem processAsynData_eq (hsize : data.length < uintLimit) (hpos : pos < data.length)
    (hbegin : pos = 5) :
    ∃ procResult, processAsynData data pos = .ok procResult ∧
      Parser.processAsynData data pos = .ok procResult := by
  subst hbegin
  have hread : 5 - 2 < data.length := by omega
  have hbyte := data[5 - 2].toNat_lt
  have hadd : 5 + data[5 - 2].toNat < uintLimit := by
    simp only [uintLimit]
    omega
  have hback : 5 - 1 + data[5 - 2].toNat < uintLimit := by omega
  simp only [processAsynData, Parser.processAsynData, sub_eq (by omega : 1 ≤ data.length),
    sub_eq (by omega : 2 ≤ 5), sub_eq (by omega : 1 ≤ 5), read_eq hread, add_eq hadd,
    add_eq hback, toUint_eq hsize, checked_bind, List.getElem?_eq_getElem hread]
  split_ifs <;> exact ⟨_, rfl, rfl⟩

theorem processPMRespData_eq (hsize : data.length < uintLimit) (hpos : pos < data.length)
    (hbegin : 1 ≤ pos) : processPMRespData data pos = .ok (Parser.processPMRespData data pos) := by
  simp only [processPMRespData, Parser.processPMRespData, sub_eq (by omega : 1 ≤ data.length),
    sub_eq (by omega : 2 ≤ data.length), sub_eq hbegin, toUint_eq hsize, checked_bind]
  split_ifs <;> rfl

end Handlers

/-! ## Where a turn can begin -/

/-- The states of a scan behind a special state.  None of them is special. -/
def behindStates : List Nat := [18, 22, 51, 96] ++ uploadStates

private theorem behindStates_row :
    ∀ row ∈ initTransitionMap, row.1.1 ∈ behindStates →
      row.2 ∈ behindStates ++ initFiniteStates := by
  decide

private theorem behindStates_plain : ∀ state ∈ behindStates, isSpecialState state = false := by
  decide

/-- The position at which a special state is entered.  State 21 stays where it
is as long as a module info can be short. -/
def Entered (data : UString) (state pos : Nat) : Prop :=
  state = 17 ∧ pos = 3 ∨
  state = 21 ∧ 4 ≤ pos ∧ (pos = 4 ∨ data.length ≤ extendedIdfSize) ∨
  state = 50 ∧ pos = 5 ∨
  state = 95 ∧ pos = 4

/-- What is known at the head of the loop: the scan from the initial state has
come so far, or a special state is entered, or it is left behind. -/
inductive AtHead (data : UString) (state pos : Nat) : Prop where
  | scanning (h : HasRead state (data.take pos))
  | entered (h : Entered data state pos)
  | behind (h : state ∈ behindStates)

theorem AtHead.initial (data : UString) : AtHead data initialState 0 := .scanning hasRead_initial

/-- A special state is at its entry. -/
theorem AtHead.special {data : UString} {state pos : Nat} (h : AtHead data state pos)
    (hpos : pos < data.length) (hstate : isSpecialState state = true) :
    Entered data state pos := by
  cases h with
  | scanning h =>
    have hlen := (hasRead_special h hstate)
    rw [List.length_take, Nat.min_eq_left (Nat.le_of_lt hpos)] at hlen
    unfold Entered
    omega
  | entered h => exact h
  | behind h =>
    rw [behindStates_plain state h] at hstate
    cases hstate

/-! ## What a handler answers -/

/-- An answer of a handler stays in the buffer, accepts at a carriage return,
and goes on at a head of the loop. -/
structure Keeps (data : UString) (procResult : StateProcResult) : Prop where
  inside : procResult.lastPosition < data.length
  accepts : procResult.formatError = false → isFiniteState procResult.newState = true →
    data[procResult.lastPosition]? = some cr
  goesOn : procResult.formatError = false → procResult.lastPosition + 1 < data.length →
    isFiniteState procResult.newState = false →
    AtHead data procResult.newState (procResult.lastPosition + 1)

section Keeps

variable {data : UString} {pos : Nat}

/-- The loop goes on in a state that is not finite. -/
theorem Keeps.next {state : Nat} (hpos : pos < data.length)
    (hstate : isFiniteState state = false)
    (hhead : pos + 1 < data.length → AtHead data state (pos + 1)) :
    Keeps data ⟨state, pos, false⟩ where
  inside := hpos
  accepts := by
    intro _ hfin
    rw [hstate] at hfin
    cases hfin
  goesOn := fun _ hnext _ => hhead hnext

/-- The scan of a USB device info ends with a carriage return. -/
theorem usbScan_stopped {w : UString} {s : UsbState} {i k : Nat}
    (h : usbScan (.reading .type) i w = .stopped s k) :
    i < k ∧ w[k - 1 - i]? = some cr := by
  obtain ⟨hstop, u, v, rfl, rfl, hread⟩ := scan_stopped usbRead_step usbRead_nil h
  obtain rfl : s = .done := by simpa [usbStop] using hstop
  obtain ⟨type, version, id, hu⟩ := hread
  obtain ⟨body, rfl⟩ : ∃ body, u = body ++ [cr] :=
    ⟨type.text ++ chr '#' :: (version.text ++ chr '#' :: id.text), by simpa using hu⟩
  have hat : i + (body ++ [cr]).length - 1 - i = body.length := by
    rw [List.length_append, List.length_singleton]
    omega
  rw [hat, List.append_assoc, List.getElem?_append_right (Nat.le_refl _)]
  simp

theorem processUSBInfo_keeps (hpos : pos < data.length) :
    Keeps data (Parser.processUSBInfo data pos) := by
  rw [Parser.processUSBInfo]
  split_ifs with hlast
  · exact Keeps.next hpos rfl fun hnext => absurd hnext (by omega)
  · have hdrop : data.drop pos ≠ [] := by simpa using hpos
    rw [usbInfoLoop_eq_scan]
    cases hscan : usbScan (.reading .type) pos (data.drop pos) with
    | ended s =>
      simp only [if_neg hdrop]
      have hend : pos + (data.drop pos).length - 1 = data.length - 1 := by
        rw [List.length_drop]
        omega
      rw [hend]
      exact Keeps.next (by omega) rfl fun hnext => absurd hnext (by omega)
    | stuck k =>
      obtain ⟨u, b, v, -, hw, rfl, -, -⟩ := scan_stuck hscan
      have hlen := congrArg List.length hw
      simp only [List.length_drop, List.length_append, List.length_cons] at hlen
      exact ⟨by simp only; omega, by simp, by simp⟩
    | stopped s k =>
      obtain ⟨hk, hcr⟩ := usbScan_stopped hscan
      rw [List.getElem?_drop] at hcr
      have hat : pos + (k - 1 - pos) = k - 1 := by omega
      rw [hat] at hcr
      obtain ⟨hinside, -⟩ := List.getElem?_eq_some_iff.mp hcr
      exact ⟨hinside, fun _ _ => hcr, by simp [isFiniteState, initFiniteStates]⟩

theorem processTRInfo_keeps (hpos : pos < data.length) (hbegin : 4 ≤ pos) :
    Keeps data (Parser.processTRInfo data pos) := by
  rw [Parser.processTRInfo]
  split_ifs with hlast hshort hlong
  · exact Keeps.next hpos rfl fun hnext => absurd hnext (by omega)
  · exact Keeps.next hpos rfl fun _ =>
      .entered (.inr (.inl ⟨rfl, by omega, .inr hshort.1⟩))
  · simp only [moduleDataSize] at hlong
    exact Keeps.next (by simp only [moduleDataSize]; omega) rfl fun _ => .behind (by decide)
  · exact Keeps.next (by omega) rfl fun _ => .behind (by decide)

theorem processAsynData_keeps (hpos : pos < data.length) {procResult : StateProcResult}
    (h : Parser.processAsynData data pos = .ok procResult) : Keeps data procResult := by
  rw [Parser.processAsynData] at h
  split_ifs at h with hlast
  · rw [← Except.ok.inj h]
    exact Keeps.next hpos rfl fun hnext => absurd hnext (by omega)
  · split at h
    · cases h
    · next dataLength _ =>
      split_ifs at h with hshort
      · rw [← Except.ok.inj h]
        exact Keeps.next (by omega) rfl fun hnext => absurd hnext (by omega)
      · rw [← Except.ok.inj h]
        exact Keeps.next (by omega) rfl fun _ => .behind (by decide)

theorem processPMRespData_keeps (hpos : pos < data.length) :
    Keeps data (Parser.processPMRespData data pos) := by
  rw [Parser.processPMRespData]
  split_ifs with hlast hsize
  · exact Keeps.next hpos rfl fun hnext => absurd hnext (by omega)
  · exact Keeps.next (by omega) rfl fun _ => .behind (by decide)
  · exact Keeps.next (by omega) rfl fun _ => .behind (by decide)

/-- In a special state that is at its entry, no operation goes wrong. -/
theorem processSpecialState_eq {state : Nat} (hsize : data.length < uintLimit)
    (hpos : pos < data.length) (hentered : Entered data state pos) :
    ∃ procResult, Parser.processSpecialState state data pos = .ok procResult ∧
      Keeps data procResult ∧
      ∀ fuel, data.length < fuel → processSpecialState fuel state data pos = .ok procResult := by
  obtain ⟨rfl, -⟩ | ⟨rfl, hbegin, hstop⟩ | ⟨rfl, hbegin⟩ | ⟨rfl, hbegin⟩ := hentered
  · exact ⟨_, rfl, processUSBInfo_keeps hpos,
      fun fuel hfuel => processUSBInfo_eq hsize hpos (by omega)⟩
  · exact ⟨_, rfl, processTRInfo_keeps hpos hbegin,
      fun fuel _ => processTRInfo_eq hsize hpos (by omega) hstop⟩
  · obtain ⟨procResult, hchecked, hproc⟩ := processAsynData_eq hsize hpos hbegin
    exact ⟨procResult, hproc, processAsynData_keeps hpos hproc, fun fuel _ => hchecked⟩
  · exact ⟨_, rfl, processPMRespData_keeps hpos,
      fun fuel _ => processPMRespData_eq hsize hpos (by omega)⟩

end Keeps

/-! ## The loop stays in bounds -/

/-- An end of the loop is in the buffer, and the loop accepts in a finite state
at a carriage return. -/
def Inside (data : UString) : Ending → Prop
  | .wait lastPosition | .reject lastPosition => lastPosition < data.length
  | .accept state lastPosition =>
    isFiniteState state = true ∧ data[lastPosition]? = some cr

private theorem finiteStates_row :
    ∀ row ∈ initTransitionMap, isFiniteState row.2 = true → row.1.2 = cr.toNat := by
  decide

/-- Every transition into a finite state takes a carriage return. -/
theorem plainStep_finite {state next : Nat} {b : Byte} (h : plainStep state b = some next)
    (hnext : isFiniteState next = true) : b = cr := by
  rcases plainStep_row h with hrow | hrow
  · exact UInt8.toNat_inj.mp (finiteStates_row ((state, b.toNat), next) hrow hnext)
  · exact absurd (finiteStates_row ((state, inputAll), next) hrow hnext)
      (by simp [inputAll, cr])

/-- A transition from a head of the loop leads to a head of the loop. -/
theorem AtHead.plain {data : UString} {state pos next : Nat} (h : AtHead data state pos)
    (hpos : pos < data.length) (hstate : isSpecialState state = false)
    (hstep : plainStep state data[pos] = some next) (hnext : isFiniteState next = false) :
    AtHead data next (pos + 1) := by
  cases h with
  | scanning h =>
    have hread := hasRead_step state next data[pos] _ h hstep
    rw [List.take_append_getElem hpos] at hread
    exact .scanning hread
  | entered h =>
    have hspecial : isSpecialState state = true := by
      obtain ⟨rfl, -⟩ | ⟨rfl, -⟩ | ⟨rfl, -⟩ | ⟨rfl, -⟩ := h <;> rfl
    rw [hstate] at hspecial
    cases hspecial
  | behind h =>
    rcases List.mem_append.mp (plainStep_mem behindStates_row hstep h) with hbehind | hfinite
    · exact .behind hbehind
    · simp [isFiniteState, hfinite] at hnext

/-- A turn of the loop, checked and unchecked, ends it inside of the buffer or
leads to another head of the loop, at which less is left to do. -/
inductive Turn (data : UString) (state pos : Nat) : Prop where
  | ends (e : Ending) (inside : Inside data e)
      (loops : ∀ fuel turns lastPosition, data.length < fuel →
        parseLoop fuel data (turns + 1) state pos lastPosition = .ok e ∧
        endingLoop data (turns + 1) state pos lastPosition = .ok e)
  | goesOn (next k : Nat) (inside : k < data.length)
      (head : k + 1 < data.length → AtHead data next (k + 1))
      (less : loopMeasure data next (k + 1) < loopMeasure data state pos)
      (loops : ∀ fuel turns lastPosition, data.length < fuel →
        parseLoop fuel data (turns + 1) state pos lastPosition =
          parseLoop fuel data turns next (k + 1) k ∧
        endingLoop data (turns + 1) state pos lastPosition =
          endingLoop data turns next (k + 1) k)

section Turn

variable {data : UString} {state pos : Nat}

/-- A turn in a special state is what its handler answers. -/
theorem AtHead.turn_special (h : AtHead data state pos) (hsize : data.length < uintLimit)
    (hpos : pos < data.length) (hspecial : isSpecialState state = true) :
    Turn data state pos := by
  obtain ⟨procResult, hproc, hkeeps, hchecked⟩ :=
    processSpecialState_eq hsize hpos (h.special hpos hspecial)
  have hadd : add procResult.lastPosition 1 = .ok (procResult.lastPosition + 1) := by
    have hinside := hkeeps.inside
    exact add_eq (by omega)
  cases herror : procResult.formatError with
  | true =>
    refine .ends (.reject procResult.lastPosition) hkeeps.inside fun fuel _ _ hfuel => ?_
    rw [parseLoop, endingLoop]
    simp [hpos, hspecial, hproc, hchecked fuel hfuel, herror, checked_bind]
  | false =>
    cases hfinite : isFiniteState procResult.newState with
    | true =>
      refine .ends (.accept procResult.newState procResult.lastPosition)
        ⟨hfinite, hkeeps.accepts herror hfinite⟩ fun fuel _ _ hfuel => ?_
      rw [parseLoop, endingLoop]
      simp [hpos, hspecial, hproc, hchecked fuel hfuel, herror, hfinite, checked_bind]
    | false =>
      refine .goesOn procResult.newState procResult.lastPosition hkeeps.inside
        (fun hnext => hkeeps.goesOn herror hnext hfinite)
        (loopMeasure_special hpos hspecial hproc) fun fuel _ _ hfuel => ?_
      rw [parseLoop, endingLoop]
      simp [hpos, hspecial, hproc, hchecked fuel hfuel, herror, hfinite, checked_bind, hadd]

/-- Any other turn is a transition. -/
theorem AtHead.turn_plain (h : AtHead data state pos) (hsize : data.length < uintLimit)
    (hpos : pos < data.length) (hspecial : isSpecialState state = false) :
    Turn data state pos := by
  have hadd : add pos 1 = .ok (pos + 1) := add_eq (by omega)
  by_cases hnone : doTransition state data[pos] = noTransition
  · refine .ends (.reject pos) hpos fun fuel _ _ _ => ?_
    rw [parseLoop, endingLoop]
    simp [hpos, hspecial, hnone, checked_bind]
  · have hstep : plainStep state data[pos] = some (doTransition state data[pos]) := if_neg hnone
    cases hfinite : isFiniteState (doTransition state data[pos]) with
    | true =>
      have hcr : data[pos]? = some cr := by
        rw [List.getElem?_eq_getElem hpos, plainStep_finite hstep hfinite]
      refine .ends (.accept (doTransition state data[pos]) pos) ⟨hfinite, hcr⟩ fun fuel _ _ _ => ?_
      rw [parseLoop, endingLoop]
      simp [hpos, hspecial, hnone, hfinite, checked_bind]
    | false =>
      refine .goesOn (doTransition state data[pos]) pos hpos
        (fun _ => h.plain hpos hspecial hstep hfinite)
        (loopMeasure_lt_of_lt hpos (Nat.lt_succ_self pos)) fun fuel _ _ _ => ?_
      rw [parseLoop, endingLoop]
      simp [hpos, hspecial, hnone, hfinite, checked_bind, hadd]

theorem AtHead.turn (h : AtHead data state pos) (hsize : data.length < uintLimit)
    (hpos : pos < data.length) : Turn data state pos := by
  cases hspecial : isSpecialState state with
  | true => exact h.turn_special hsize hpos hspecial
  | false => exact h.turn_plain hsize hpos hspecial

end Turn

/-- From a head of the loop on, the loop ends inside of the buffer. -/
theorem AtHead.ends {data : UString} {state pos lastPosition : Nat}
    (h : pos < data.length → AtHead data state pos) (hsize : data.length < uintLimit)
    (hlast : pos < data.length ∨ lastPosition < data.length) :
    ∃ e, Inside data e ∧ ∀ fuel turns, data.length < fuel → loopMeasure data state pos < turns →
      parseLoop fuel data turns state pos lastPosition = .ok e ∧
      endingLoop data turns state pos lastPosition = .ok e := by
  induction hmeasure : loopMeasure data state pos using Nat.strongRecOn
    generalizing state pos lastPosition with
  | ind measure ih =>
    by_cases hpos : pos < data.length
    · obtain ⟨e, he, hturn⟩ | ⟨next, k, hk, hnext, hless, hturn⟩ := (h hpos).turn hsize hpos
      · refine ⟨e, he, fun fuel turns hfuel hturns => ?_⟩
        obtain ⟨turns, rfl⟩ : ∃ n, turns = n + 1 := ⟨turns - 1, by omega⟩
        exact hturn fuel turns lastPosition hfuel
      · obtain ⟨e, he, hrest⟩ := ih _ (by omega) hnext (.inr hk) rfl
        refine ⟨e, he, fun fuel turns hfuel hturns => ?_⟩
        obtain ⟨turns, rfl⟩ : ∃ n, turns = n + 1 := ⟨turns - 1, by omega⟩
        obtain ⟨hchecked, hplain⟩ := hturn fuel turns lastPosition hfuel
        rw [hchecked, hplain]
        exact hrest fuel turns hfuel (by omega)
    · refine ⟨.wait lastPosition, hlast.resolve_left hpos, fun fuel turns _ hturns => ?_⟩
      obtain ⟨turns, rfl⟩ : ∃ n, turns = n + 1 := ⟨turns - 1, by omega⟩
      rw [parseLoop, endingLoop, if_neg hpos, dif_neg hpos]
      exact ⟨rfl, rfl⟩

/-- The row that an accepting state needs is there. -/
theorem answer_eq (self : CDCMessageParserPrivate) {data : UString} {last : ParseResult}
    {e : Ending} (hlast : last.resultType = .parseNotComplete) (he : Inside data e) :
    ∃ result, Parser.answer self.statesInfoMap last e = .ok result ∧
      answer self.statesInfoMap last e = .ok result ∧ result.lastPosition < data.length ∧
      (result.resultType = .parseOk → data[result.lastPosition]? = some cr) := by
  cases e with
  | wait p => exact ⟨_, rfl, rfl, he, by simp [hlast]⟩
  | reject p => exact ⟨_, rfl, rfl, he, by simp⟩
  | accept s p =>
    obtain ⟨hfinite, hcr⟩ := he
    obtain ⟨hinside, -⟩ := List.getElem?_eq_some_iff.mp hcr
    have haccept := acceptState_eq self hfinite { last with lastPosition := p }
    refine ⟨_, haccept, ?_, hinside, fun _ => hcr⟩
    cases hrow : self.statesInfoMap.lookup s with
    | none => simp [acceptState, hrow] at haccept
    | some stateInfo => simp [answer, hrow, CDCMessageParserPrivate.stateType]

/-- A call of `parseData` with a buffer that is not empty returns.  No index is
out of range, no value wraps around, every state has the handler or the row
that it needs, and no loop takes more turns than twice the size of the buffer
and one.  The last position is in the buffer, and it is that of a carriage
return when the message is accepted. -/
theorem parseData_checked (self : CDCMessageParserPrivate) {data : UString} (hdata : data ≠ [])
    (hsize : data.length < 2 ^ 32) :
    ∃ result, Parser.parseData self data = .ok result ∧
      (∀ fuel, 2 * data.length < fuel → parseData fuel self data = .ok result) ∧
      result.lastPosition < data.length ∧
      (result.resultType = .parseOk → data[result.lastPosition]? = some cr) := by
  have hpos : 0 < data.length := List.length_pos_iff.mpr hdata
  have hmeasure : loopMeasure data initialState 0 = 2 * data.length := rfl
  obtain ⟨e, he, hloop⟩ := @AtHead.ends data initialState 0 self.lastParseResult.lastPosition
    (fun _ => AtHead.initial data) hsize (.inl hpos)
  obtain ⟨result, hplain, hanswer, hinside, hcr⟩ := @answer_eq self data
    { self.lastParseResult with resultType := .parseNotComplete } e rfl he
  refine ⟨result, ?_, ?_, hinside, hcr⟩
  · obtain ⟨-, hending⟩ := hloop (2 * data.length + 2) (2 * data.length + 2) (by omega) (by omega)
    rw [parseData_eq_answer, ending, hending]
    exact hplain
  · intro fuel hfuel
    obtain ⟨hchecked, -⟩ := hloop fuel fuel (by omega) (by omega)
    rw [parseData, hchecked]
    exact hanswer

theorem parseData_checked_emptyData :
    ∃ result, Parser.parseData (.new listedOnly) (ascii "<DR" ++ [0, chr ':', cr, 0]) =
        .ok result ∧
      (∀ fuel, 14 < fuel → parseData fuel (.new listedOnly)
        (ascii "<DR" ++ [0, chr ':', cr, 0]) = .ok result) ∧
      result.lastPosition < 7 := by
  obtain ⟨result, hplain, hchecked, hinside, -⟩ :=
    @parseData_checked (.new listedOnly) (ascii "<DR" ++ [0, chr ':', cr, 0]) (by decide)
      (by decide)
  exact ⟨result, hplain, hchecked, hinside⟩

end Clibcdc.Parser.Checked
