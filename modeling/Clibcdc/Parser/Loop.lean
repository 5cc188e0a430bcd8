import Clibcdc.Parser.Basic
import Clibcdc.Automata.Scan

/-!
# The loop of the parser

The loop of `parseData` ends: a handler of a special state answers either with
the same state and the position it was called at, or with a state that is not
special and a position that goes back by at most one
(`processSpecialState_progress`).  So twice the bytes left, plus one in a
special state, decreases (`loopMeasure`), and `parseFrom` is the loop without
its fuel.

Between special states the loop is a scan of the transition map.
`parseData_eq_scan` cuts a call of `parseData` into the scan from the initial
state and what the special state does that the scan may reach.
-/

namespace Clibcdc.Parser

open Clibcdc.Automata

/-! ## Progress of the special states -/

/-- The loop of `processUSBInfo` ends in state 19, or in the state it started
with, and does not go back. -/
theorem usbInfoLoop_progress (w : UString) (i : Nat) (activeSection : UsbSection)
    (procResult : StateProcResult) :
    ((usbInfoLoop w i activeSection procResult).newState = procResult.newState ∨
      (usbInfoLoop w i activeSection procResult).newState = 19) ∧
    ((usbInfoLoop w i activeSection procResult).lastPosition = procResult.lastPosition ∨
      i ≤ (usbInfoLoop w i activeSection procResult).lastPosition) := by
  induction w generalizing i activeSection procResult with
  | nil => simp [usbInfoLoop]
  | cons b rest ih =>
    have hnext : ∀ next, (usbInfoLoop rest (i + 1) next
        { procResult with lastPosition := i }).newState = procResult.newState ∨
        (usbInfoLoop rest (i + 1) next { procResult with lastPosition := i }).newState = 19 :=
      fun next => (ih (i + 1) next { procResult with lastPosition := i }).1
    have hlast : ∀ next, i ≤ (usbInfoLoop rest (i + 1) next
        { procResult with lastPosition := i }).lastPosition := by
      intro next
      rcases (ih (i + 1) next { procResult with lastPosition := i }).2 with h | h
      · exact Nat.le_of_eq h.symm
      · omega
    unfold usbInfoLoop
    split_ifs
    · exact ⟨.inr rfl, .inr (Nat.le_refl i)⟩
    · cases activeSection with
      | type => exact ⟨hnext _, .inr (hlast _)⟩
      | version => exact ⟨hnext _, .inr (hlast _)⟩
      | id => exact ⟨.inl rfl, .inr (Nat.le_refl i)⟩
    · exact ⟨hnext _, .inr (hlast _)⟩
    · exact ⟨.inl rfl, .inr (Nat.le_refl i)⟩

/-- A special state has a handler that does not throw. -/
theorem processSpecialState_ok {state pos : Nat} {data : UString}
    (hstate : isSpecialState state = true) (hpos : pos < data.length) :
    ∃ procResult, processSpecialState state data pos = .ok procResult := by
  have hcases : state = 17 ∨ state = 21 ∨ state = 50 ∨ state = 95 := by
    simpa [isSpecialState, initSpecialStates] using hstate
  rcases hcases with rfl | rfl | rfl | rfl
  · exact ⟨_, rfl⟩
  · exact ⟨_, rfl⟩
  · have hat : data[pos - 2]? = some (data.get ⟨pos - 2, by omega⟩) :=
      List.getElem?_eq_getElem (by omega)
    simp only [processSpecialState, processAsynData, hat]
    split_ifs <;> exact ⟨_, rfl⟩
  · exact ⟨_, rfl⟩

/-- A handler stays where it is, or leaves for a state that is not special
and goes back by at most one position. -/
theorem processSpecialState_progress {state pos : Nat} {data : UString}
    {procResult : StateProcResult} (hpos : pos < data.length)
    (h : processSpecialState state data pos = .ok procResult) :
    procResult.newState = state ∧ procResult.lastPosition = pos ∨
      isSpecialState procResult.newState = false ∧ pos ≤ procResult.lastPosition + 1 := by
  unfold processSpecialState at h
  split_ifs at h with h17 h21 h50 h95
  · obtain rfl : processUSBInfo data pos = procResult := by simpa using h
    subst h17
    unfold processUSBInfo
    split_ifs with hlast
    · exact .inl ⟨rfl, rfl⟩
    · obtain ⟨hnew, hle⟩ := usbInfoLoop_progress (data.drop pos) pos .type ⟨18, pos, false⟩
      refine .inr ⟨?_, ?_⟩
      · rcases hnew with hnew | hnew <;> rw [hnew] <;> rfl
      · rcases hle with hle | hle
        · simp [hle]
        · omega
  · obtain rfl : processTRInfo data pos = procResult := by simpa using h
    subst h21
    unfold processTRInfo
    split_ifs with hlast hshort hlong
    · exact .inl ⟨rfl, rfl⟩
    · exact .inl ⟨rfl, rfl⟩
    · exact .inr ⟨rfl, by simp [moduleDataSize]; omega⟩
    · exact .inr ⟨rfl, by simp; omega⟩
  · subst h50
    unfold processAsynData at h
    split_ifs at h with hlast
    · obtain rfl : (⟨50, pos, false⟩ : StateProcResult) = procResult := by simpa using h
      exact .inl ⟨rfl, rfl⟩
    · split at h
      · cases h
      · split_ifs at h with hshort
        · obtain rfl : (⟨51, data.length - 1, false⟩ : StateProcResult) = procResult := by
            simpa using h
          exact .inr ⟨rfl, by simp; omega⟩
        · cases h
          exact .inr ⟨rfl, by simp; omega⟩
  · obtain rfl : processPMRespData data pos = procResult := by simpa using h
    subst h95
    unfold processPMRespData
    split_ifs with hlast hshort
    · exact .inl ⟨rfl, rfl⟩
    · exact .inr ⟨rfl, by simp; omega⟩
    · exact .inr ⟨rfl, by simp; omega⟩

/-! ## The loop without its fuel -/

/-- What decreases in the loop of `parseData`. -/
def loopMeasure (data : UString) (state pos : Nat) : Nat :=
  2 * (data.length - pos) + if isSpecialState state then 1 else 0

theorem loopMeasure_lt_of_lt {data : UString} {state pos state' pos' : Nat}
    (hpos : pos < data.length) (hlt : pos < pos') :
    loopMeasure data state' pos' < loopMeasure data state pos := by
  unfold loopMeasure
  split_ifs <;> omega

theorem loopMeasure_special {data : UString} {state pos : Nat}
    {procResult : StateProcResult} (hpos : pos < data.length)
    (hstate : isSpecialState state = true)
    (h : processSpecialState state data pos = .ok procResult) :
    loopMeasure data procResult.newState (procResult.lastPosition + 1) <
      loopMeasure data state pos := by
  rcases processSpecialState_progress hpos h with ⟨_, hlast⟩ | ⟨hnew, hle⟩
  · exact loopMeasure_lt_of_lt hpos (by omega)
  · simp only [loopMeasure, hnew, hstate, if_true, Bool.false_eq_true, if_false]
    omega

/-- The result of the loop does not depend on the fuel, as long as there is
more of it than `loopMeasure`. -/
theorem parseLoop_fuel (map : MapOfStates) (data : UString) {fuel fuel' state pos : Nat}
    (last : ParseResult) (hfuel : loopMeasure data state pos < fuel)
    (hfuel' : loopMeasure data state pos < fuel') :
    parseLoop map data fuel state pos last = parseLoop map data fuel' state pos last := by
  induction fuel generalizing fuel' state pos last with
  | zero => omega
  | succ fuel ih =>
    obtain ⟨fuel', rfl⟩ : ∃ k, fuel' = k + 1 := ⟨fuel' - 1, by omega⟩
    unfold parseLoop
    by_cases hpos : pos < data.length
    · by_cases hstate : isSpecialState state
      · obtain ⟨procResult, hproc⟩ := processSpecialState_ok hstate hpos
        have hlt := loopMeasure_special hpos hstate hproc
        simp only [hpos, hstate, hproc, dif_pos, if_pos]
        rw [ih _ (by omega) (by omega : _ < fuel')]
      · have hlt : loopMeasure data (doTransition state data[pos]) (pos + 1) <
            loopMeasure data state pos := loopMeasure_lt_of_lt hpos (by omega)
        simp only [hpos, hstate, dif_pos, Bool.false_eq_true, if_false]
        rw [ih _ (by omega) (by omega : _ < fuel')]
    · simp only [hpos, dif_neg, not_false_eq_true]

/-- The loop of `parseData` from `state` and `pos` on, with fuel that no
state and position use up. -/
def parseFrom (map : MapOfStates) (data : UString) (state pos : Nat)
    (last : ParseResult) : Except CdcException ParseResult :=
  parseLoop map data (2 * data.length + 2) state pos last

theorem parseData_eq_parseFrom (self : CDCMessageParserPrivate) (data : UString) :
    parseData self data = parseFrom self.statesInfoMap data initialState 0
      { self.lastParseResult with resultType := .parseNotComplete } := rfl

private theorem parseFrom_fuel (map : MapOfStates) (data : UString) {fuel state pos : Nat}
    (last : ParseResult) (hfuel : loopMeasure data state pos < fuel) :
    parseLoop map data fuel state pos last = parseFrom map data state pos last := by
  refine parseLoop_fuel map data last hfuel ?_
  unfold loopMeasure
  split_ifs <;> omega

section Step

variable {map : MapOfStates} {data : UString} {state pos : Nat} {last : ParseResult}

/-- The loop ends behind the last byte. -/
theorem parseFrom_end (hpos : data.length ≤ pos) :
    parseFrom map data state pos last = .ok last := by
  unfold parseFrom parseLoop
  simp [Nat.not_lt.mpr hpos]

/-- One turn of the loop in a state that is not special. -/
theorem parseFrom_plain (hpos : pos < data.length) (hstate : isSpecialState state = false) :
    parseFrom map data state pos last =
      let next := doTransition state data[pos]
      if next = noTransition then
        .ok { last with lastPosition := pos, resultType := .parseBadFormat }
      else if isFiniteState next then acceptState map next { last with lastPosition := pos }
      else parseFrom map data next (pos + 1) { last with lastPosition := pos } := by
  have hlt : loopMeasure data (doTransition state data[pos]) (pos + 1) <
      2 * data.length + 1 := by
    have : loopMeasure data (doTransition state data[pos]) (pos + 1) <
        loopMeasure data state pos := loopMeasure_lt_of_lt hpos (Nat.lt_succ_self pos)
    unfold loopMeasure at *
    split_ifs at * <;> omega
  rw [parseFrom, parseLoop]
  simp only [hpos, hstate, dif_pos, Bool.false_eq_true, if_false]
  rw [parseFrom_fuel map data _ hlt]

/-- One turn of the loop in a special state. -/
theorem parseFrom_special {procResult : StateProcResult} (hpos : pos < data.length)
    (hstate : isSpecialState state = true)
    (hproc : processSpecialState state data pos = .ok procResult) :
    parseFrom map data state pos last =
      let last := { last with lastPosition := procResult.lastPosition }
      if procResult.formatError then .ok { last with resultType := .parseBadFormat }
      else if isFiniteState procResult.newState then acceptState map procResult.newState last
      else parseFrom map data procResult.newState (procResult.lastPosition + 1) last := by
  have hlt : loopMeasure data procResult.newState (procResult.lastPosition + 1) <
      2 * data.length + 1 := by
    have := loopMeasure_special hpos hstate hproc
    unfold loopMeasure at *
    split_ifs at * <;> omega
  rw [parseFrom, parseLoop]
  simp only [hpos, hstate, hproc, dif_pos, if_true]
  rw [parseFrom_fuel map data _ hlt]

/-- The handler answers with a state that the loop goes on in. -/
theorem parseFrom_special_next {next lastPosition : Nat} (hpos : pos < data.length)
    (hstate : isSpecialState state = true)
    (hproc : processSpecialState state data pos = .ok ⟨next, lastPosition, false⟩)
    (hnext : isFiniteState next = false) :
    parseFrom map data state pos last =
      parseFrom map data next (lastPosition + 1) { last with lastPosition := lastPosition } := by
  rw [parseFrom_special hpos hstate hproc]
  simp [hnext]

end Step

/-! ## The scan between special states -/

/-- `doTransition` with `NO_TRANSITION` as `none`. -/
def plainStep (state : Nat) (input : Byte) : Option Nat :=
  if doTransition state input = noTransition then none else some (doTransition state input)

/-- The states at which the loop does more than follow the transition map. -/
def plainStop (state : Nat) : Bool := isFiniteState state || isSpecialState state

/-- The scan of the transition map. -/
abbrev plainScan (state pos : Nat) (w : UString) : Scan Nat :=
  scan plainStep plainStop state pos w

theorem parseFrom_scan (map : MapOfStates) {data pre w : UString} {state : Nat}
    (last : ParseResult) (hdata : data = pre ++ w) (hstop : plainStop state = false) :
    parseFrom map data state pre.length last =
      match plainScan state pre.length w with
      | .ended _ => .ok (if w = [] then last else { last with lastPosition := data.length - 1 })
      | .stuck k => .ok { last with lastPosition := k, resultType := .parseBadFormat }
      | .stopped s k =>
        if isFiniteState s then acceptState map s { last with lastPosition := k - 1 }
        else parseFrom map data s k { last with lastPosition := k - 1 } := by
  induction w generalizing pre state last with
  | nil =>
    have hlen : data.length ≤ pre.length := by simp [hdata]
    simp [parseFrom_end hlen, plainScan, scan, hstop]
  | cons a w ih =>
    have hpos : pre.length < data.length := by simp [hdata]
    have hat : data[pre.length] = a := by simp [hdata]
    have hspecial : isSpecialState state = false := by
      simp only [plainStop, Bool.or_eq_false_iff] at hstop
      exact hstop.2
    rw [parseFrom_plain hpos hspecial, hat]
    by_cases hnone : doTransition state a = noTransition
    · simp [plainScan, scan, hstop, plainStep, hnone]
    · have hscan : plainScan state pre.length (a :: w) =
          plainScan (doTransition state a) (pre.length + 1) w := by
        simp [plainScan, scan, hstop, plainStep, hnone]
      have hdata' : data = (pre ++ [a]) ++ w := by simp [hdata]
      have hlen : (pre ++ [a]).length = pre.length + 1 := by simp
      rw [hscan]
      simp only [hnone, if_false]
      by_cases hnext : plainStop (doTransition state a)
      · -- the next state ends the scan, as a finite or as a special state
        simp only [plainScan, scan_of_stop hnext, Nat.add_sub_cancel]
      · have hfin : isFiniteState (doTransition state a) = false := by
          simp only [plainStop, Bool.or_eq_true, not_or, Bool.not_eq_true] at hnext
          exact hnext.1
        have hrest := ih { last with lastPosition := pre.length } hdata' (by simpa using hnext)
        rw [hlen] at hrest
        rw [if_neg (by simp [hfin]), hrest]
        cases hs : plainScan (doTransition state a) (pre.length + 1) w with
        | ended s => cases w <;> simp [hdata]
        | stuck k => rfl
        | stopped s k => rfl

/-- A call of `parseData` scans from the initial state.  The scan decides it,
unless it reaches a special state. -/
theorem parseData_eq_scan (self : CDCMessageParserPrivate) {data : UString}
    (hdata : data ≠ []) :
    parseData self data =
      match plainScan initialState 0 data with
      | .ended _ => .ok ⟨self.lastParseResult.msgType, .parseNotComplete, data.length - 1⟩
      | .stuck k => .ok ⟨self.lastParseResult.msgType, .parseBadFormat, k⟩
      | .stopped s k =>
        if isFiniteState s then
          acceptState self.statesInfoMap s
            ⟨self.lastParseResult.msgType, .parseNotComplete, k - 1⟩
        else
          parseFrom self.statesInfoMap data s k
            ⟨self.lastParseResult.msgType, .parseNotComplete, k - 1⟩ := by
  rw [parseData_eq_parseFrom]
  have hinitial : plainStop initialState = false := by decide
  have h := parseFrom_scan self.statesInfoMap
    { self.lastParseResult with resultType := .parseNotComplete } (List.nil_append data).symm
    hinitial
  simpa [hdata] using h

end Clibcdc.Parser
