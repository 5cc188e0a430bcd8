import Clibcdc.Parser.Automaton

/-!
# The verdict of the parser

`verdict types data` says what `parseData` answers, without its loop: the scan
of the transition map decides, or hands over to one of the special states,
each with a closed form of its own.  `types` gives the message type of a
finite state.

`parseData_eq_verdict` is the connection: a call of `parseData` never throws,
and its result is that of the verdict.  An accepted result is determined by
its verdict.  A rejected or an incomplete one carries besides the message type
that the previous call left, which no caller reads.
-/

namespace Clibcdc.Parser

open Clibcdc.Automata

inductive Verdict where
  | accept (lastPosition : Nat) (msgType : MessageType)
  | reject (lastPosition : Nat)
  | wait
  deriving DecidableEq, Repr

/-- What a result tells its reader. -/
def verdictOf (result : ParseResult) : Verdict :=
  match result.resultType with
  | .parseOk => .accept result.lastPosition result.msgType
  | .parseBadFormat => .reject result.lastPosition
  | .parseNotComplete => .wait

theorem verdictOf_eq_accept {result : ParseResult} {p : Nat} {t : MessageType} :
    verdictOf result = .accept p t ↔ result = ⟨t, .parseOk, p⟩ := by
  rcases result with ⟨msgType, resultType, lastPosition⟩
  cases resultType <;> simp [verdictOf, and_comm]

theorem verdictOf_eq_reject {result : ParseResult} {p : Nat} :
    verdictOf result = .reject p ↔
      result.resultType = .parseBadFormat ∧ result.lastPosition = p := by
  rcases result with ⟨msgType, resultType, lastPosition⟩
  cases resultType <;> simp [verdictOf]

theorem verdictOf_eq_wait {result : ParseResult} :
    verdictOf result = .wait ↔ result.resultType = .parseNotComplete := by
  rcases result with ⟨msgType, resultType, lastPosition⟩
  cases resultType <;> simp [verdictOf]

/-! ## The special states behind a scan -/

/-- A special state has read a header of a fixed size. -/
theorem hasRead_special {s : Nat} {w : UString} (h : HasRead s w)
    (hspecial : isSpecialState s = true) :
    s = 17 ∧ w.length = 3 ∨ s = 21 ∧ w.length = 4 ∨ s = 50 ∧ w.length = 5 ∨
      s = 95 ∧ w.length = 4 := by
  have hlen : (stateText s).length = w.length := h.2.length_eq
  have hcases : s = 17 ∨ s = 21 ∨ s = 50 ∨ s = 95 := by
    simpa [isSpecialState, initSpecialStates] using hspecial
  have htexts : (stateText 17).length = 3 ∧ (stateText 21).length = 4 ∧
      (stateText 50).length = 5 ∧ (stateText 95).length = 4 := by
    obtain ⟨h17, h21, h50, h95⟩ := special_texts
    simp [h17, h21, h50, h95, ascii]
  rcases hcases with rfl | rfl | rfl | rfl <;> simp <;> omega

/-- The scan from the initial state enters a special state at a fixed
position. -/
theorem plainScan_special {data : UString} {s k : Nat}
    (h : plainScan initialState 0 data = .stopped s k) (hfin : ¬ isFiniteState s = true) :
    s = 17 ∧ k = 3 ∧ k ≤ data.length ∨ s = 21 ∧ k = 4 ∧ k ≤ data.length ∨
      s = 50 ∧ k = 5 ∧ k ≤ data.length ∨ s = 95 ∧ k = 4 ∧ k ≤ data.length := by
  obtain ⟨hstop, u, v, rfl, rfl, hread⟩ := scan_stopped hasRead_step hasRead_initial h
  have hspecial : isSpecialState s = true := by simpa [plainStop, hfin] using hstop
  have hlen := hasRead_special hread hspecial
  simp only [List.nil_append] at hlen
  simp only [List.length_append]
  omega

/-- The states that the scan of an upload result passes through. -/
def uploadStates : List Nat := (List.range 14).map (· + 80)

private theorem uploadStates_row :
    ∀ row ∈ initTransitionMap, row.1.1 ∈ uploadStates → row.2 ∈ uploadStates := by
  decide

/-- What is known of a scan from state 80: it is in a state of the upload
results, and it has read the text of that state. -/
def UploadRead (state : Nat) (w : UString) : Prop :=
  state ∈ uploadStates ∧ List.Forall₂ InputReads (stateText state) w

theorem uploadRead_initial : UploadRead 80 [] := by
  refine ⟨by decide, ?_⟩
  rw [stateText_root 80 (by decide)]
  exact .nil

theorem uploadRead_step (state next : Nat) (b : Byte) (w : UString) (h : UploadRead state w)
    (hstep : plainStep state b = some next) : UploadRead next (w ++ [b]) := by
  obtain ⟨hstate, hw⟩ := h
  exact ⟨plainStep_mem uploadStates_row hstep hstate, spelling.spells state next b w hw hstep⟩

/-- The scan of an upload result enters no special state. -/
theorem uploadScan_finite {n : Nat} {w : UString} {s k : Nat}
    (h : plainScan 80 n w = .stopped s k) : isFiniteState s = true := by
  have hplain : ∀ state ∈ uploadStates, plainStop state = isFiniteState state := by
    decide
  obtain ⟨hstop, _, _, _, _, hs, -⟩ := scan_stopped uploadRead_step uploadRead_initial h
  rw [← hplain s hs]
  exact hstop

/-! ## The text of a USB device info

`processUSBInfo` is a scan of its own, by the active section. -/

inductive UsbState where
  | reading (activeSection : UsbSection)
  | done
  deriving DecidableEq, Repr

def usbStep : UsbState → Byte → Option UsbState
  | .done, _ => none
  | .reading activeSection, b =>
    if b = cr ∧ activeSection = .id then some .done
    else if b = chr '#' then
      match activeSection with
      | .type => some (.reading .version)
      | .version => some (.reading .id)
      | .id => none
    else if activeSection.check b then some (.reading activeSection)
    else none

def usbStop (s : UsbState) : Bool := s = .done

abbrev usbScan (s : UsbState) (pos : Nat) (w : UString) : Scan UsbState :=
  scan usbStep usbStop s pos w

theorem usbInfoLoop_eq_scan (w : UString) (i : Nat) (activeSection : UsbSection)
    (procResult : StateProcResult) :
    usbInfoLoop w i activeSection procResult =
      match usbScan (.reading activeSection) i w with
      | .ended _ =>
        if w = [] then procResult
        else { procResult with lastPosition := i + w.length - 1 }
      | .stuck k => { procResult with lastPosition := k, formatError := true }
      | .stopped _ k => { procResult with newState := 19, lastPosition := k - 1 } := by
  induction w generalizing i activeSection procResult with
  | nil => simp [usbInfoLoop, scan, usbStop]
  | cons b rest ih =>
    -- the byte is consumed in the section `next`, and the loop goes on
    have hnext : ∀ next, usbInfoLoop rest (i + 1) next { procResult with lastPosition := i } =
        match usbScan (.reading next) (i + 1) rest with
        | .ended _ => { procResult with lastPosition := i + (b :: rest).length - 1 }
        | .stuck k => { procResult with lastPosition := k, formatError := true }
        | .stopped _ k => { procResult with newState := 19, lastPosition := k - 1 } := by
      intro next
      rw [ih]
      cases usbScan (.reading next) (i + 1) rest with
      | ended s =>
        cases rest with
        | nil => simp
        | cons c rest =>
          simp only [reduceCtorEq, if_false, List.length_cons]
          congr 1
          omega
      | stuck k => rfl
      | stopped s k => rfl
    unfold usbInfoLoop
    by_cases hend : b = cr ∧ activeSection = .id
    · have hdone : usbScan .done (i + 1) rest = .stopped .done (i + 1) := scan_of_stop rfl _ _
      rw [if_pos hend]
      simp only [usbScan, scan, usbStop, usbStep, if_pos hend, reduceCtorEq, decide_false,
        Bool.false_eq_true, if_false] at hdone ⊢
      simp [hdone]
    · by_cases hhash : b = chr '#'
      · have hcr : ¬ chr '#' = cr := by decide
        subst hhash
        cases activeSection with
        | type => simp [scan, usbStep, usbStop, hcr, hnext]
        | version => simp [scan, usbStep, usbStop, hcr, hnext]
        | id => simp [scan, usbStep, usbStop, hcr]
      · by_cases hcheck : activeSection.check b
        · simp [scan, usbStep, usbStop, hend, hhash, hcheck, hnext]
        · simp [scan, usbStep, usbStop, hend, hhash, hcheck]

/-! ## The closed form -/

section Closed

variable (types : Nat → MessageType)

/-- State `s` takes a carriage return at `pos` to the finite state `s + 1`. -/
def crVerdict (data : UString) (s pos : Nat) : Verdict :=
  if data[pos]? = some cr then .accept pos (types (s + 1)) else .reject pos

/-- From state 17 at `pos` on. -/
def usbInfoVerdict (data : UString) (pos : Nat) : Verdict :=
  if data.length ≤ pos + 1 then .wait
  else
    match usbScan (.reading .type) pos (data.drop pos) with
    | .ended _ => .wait
    | .stuck k => .reject k
    | .stopped _ k => .accept (k - 1) (types 19)

/-- From state 21 on, which the scan enters at position 4. -/
def trInfoVerdict (data : UString) : Verdict :=
  if data.length = 21 ∧ data[20]? = some cr then .accept 20 (types 23)
  else if 37 ≤ data.length then crVerdict types data 22 36
  else .wait

/-- From state 50 on, which the scan enters at position 5 behind the length
byte and a colon. -/
def asynDataVerdict (data : UString) : Verdict :=
  if data.length ≤ 6 then .wait
  else
    match data[3]? with
    | none => .wait
    | some dataLength =>
      if data.length ≤ 5 + dataLength.toNat then .wait
      else crVerdict types data 51 (5 + dataLength.toNat)

/-- From state 95 on, which the scan enters at position 4. -/
def pmRespVerdict (data : UString) : Verdict :=
  if data.length ≤ 5 then .wait
  else if data.length = 7 ∨ data.length = 9 then
    match plainScan 80 4 (data.drop 4) with
    | .ended _ => .wait
    | .stuck k => .reject k
    | .stopped s k => .accept (k - 1) (types s)
  else crVerdict types data 96 (data.length - 1)

def verdict (data : UString) : Verdict :=
  match plainScan initialState 0 data with
  | .ended _ => .wait
  | .stuck k => .reject k
  | .stopped s k =>
    if isFiniteState s then .accept (k - 1) (types s)
    else if s = 17 then usbInfoVerdict types data k
    else if s = 21 then trInfoVerdict types data
    else if s = 50 then asynDataVerdict types data
    else pmRespVerdict types data

end Closed

/-! ## The parser answers with its verdict -/

/-- The call returns, with a result of this verdict. -/
def Answers (call : Except CdcException ParseResult) (v : Verdict) : Prop :=
  ∃ result, call = .ok result ∧ verdictOf result = v

section Answers

variable {self : CDCMessageParserPrivate} {data : UString} {last : ParseResult}

private theorem answers_end {state pos : Nat} (hlast : last.resultType = .parseNotComplete)
    (hpos : data.length ≤ pos) :
    Answers (parseFrom self.statesInfoMap data state pos last) .wait :=
  ⟨last, parseFrom_end hpos, verdictOf_eq_wait.mpr hlast⟩

private theorem answers_accept {state : Nat} (hstate : isFiniteState state = true) :
    Answers (acceptState self.statesInfoMap state last)
      (.accept last.lastPosition (self.stateType state)) :=
  ⟨_, acceptState_eq self hstate last, rfl⟩

private theorem processSpecialState_trInfo (pos : Nat) :
    processSpecialState 21 data pos = .ok (processTRInfo data pos) := rfl

private theorem processSpecialState_asynData (pos : Nat) :
    processSpecialState 50 data pos = processAsynData data pos := rfl

private theorem processSpecialState_pmRespData (pos : Nat) :
    processSpecialState 95 data pos = .ok (processPMRespData data pos) := rfl

/-- The states behind a special state that wait for a carriage return. -/
private theorem crState_row :
    ∀ row ∈ initTransitionMap, row.1.1 ∈ [22, 51, 96] →
      row.1.2 = cr.toNat ∧ row.2 = row.1.1 + 1 := by
  decide

theorem plainStep_crState {state : Nat} (hstate : state ∈ [22, 51, 96]) (b : Byte) :
    plainStep state b = if b = cr then some (state + 1) else none := by
  by_cases hb : b = cr
  · subst hb
    have hcr : ∀ s ∈ [22, 51, 96], plainStep s cr = some (s + 1) := by decide
    rw [if_pos rfl, hcr state hstate]
  · rw [if_neg hb]
    cases hstep : plainStep state b with
    | none => rfl
    | some next =>
      exfalso
      rcases plainStep_row hstep with hrow | hrow
      · have hinput := (crState_row ((state, b.toNat), next) hrow hstate).1
        exact hb (UInt8.toNat_inj.mp hinput)
      · have hinput := (crState_row ((state, inputAll), next) hrow hstate).1
        exact absurd hinput (by simp [inputAll, cr])

private theorem answers_cr {state pos : Nat} (hstate : state ∈ [22, 51, 96])
    (hpos : pos < data.length) :
    Answers (parseFrom self.statesInfoMap data state pos last)
      (crVerdict self.stateType data state pos) := by
  have hplain : ∀ s ∈ [22, 51, 96], isSpecialState s = false ∧ isFiniteState (s + 1) = true := by
    decide
  have hstep := plainStep_crState hstate data[pos]
  rw [parseFrom_plain hpos (hplain state hstate).1, crVerdict, List.getElem?_eq_getElem hpos]
  unfold plainStep at hstep
  by_cases hcr : data[pos] = cr
  · rw [if_pos hcr] at hstep
    split_ifs at hstep with hnone
    have hnext : doTransition state data[pos] = state + 1 := by simpa using hstep
    simp only [hnext] at hnone ⊢
    simp only [if_neg hnone, (hplain state hstate).2, if_true, hcr]
    exact answers_accept (hplain state hstate).2
  · rw [if_neg hcr] at hstep
    split_ifs at hstep with hnone
    simp only [if_pos hnone, Option.some.injEq, if_neg hcr]
    exact ⟨_, rfl, rfl⟩

theorem answers_usbInfo {pos : Nat} (hlast : last.resultType = .parseNotComplete)
    (hpos : pos ≤ data.length) :
    Answers (parseFrom self.statesInfoMap data 17 pos last)
      (usbInfoVerdict self.stateType data pos) := by
  unfold usbInfoVerdict
  by_cases hend : data.length ≤ pos
  · rw [if_pos (by omega)]
    exact answers_end hlast hend
  have hlt : pos < data.length := by omega
  by_cases hone : pos = data.length - 1
  · have hproc : processSpecialState 17 data pos = .ok ⟨17, pos, false⟩ := by
      simp [processSpecialState, processUSBInfo, hone]
    rw [parseFrom_special_next hlt rfl hproc rfl, if_pos (by omega)]
    exact answers_end hlast (by omega)
  have hdrop : data.drop pos ≠ [] := by simpa using hlt
  have hproc : processSpecialState 17 data pos =
      .ok (usbInfoLoop (data.drop pos) pos .type ⟨18, pos, false⟩) := by
    simp [processSpecialState, processUSBInfo, hone]
  rw [usbInfoLoop_eq_scan] at hproc
  rw [if_neg (by omega)]
  cases hscan : usbScan (.reading .type) pos (data.drop pos) with
  | ended s =>
    simp only [hscan, if_neg hdrop] at hproc
    rw [parseFrom_special_next hlt rfl hproc rfl]
    exact answers_end hlast (by simp only [List.length_drop]; omega)
  | stuck k =>
    simp only [hscan] at hproc
    rw [parseFrom_special hlt rfl hproc]
    exact ⟨_, rfl, rfl⟩
  | stopped s k =>
    simp only [hscan] at hproc
    rw [parseFrom_special hlt rfl hproc]
    exact answers_accept rfl

/-- While the buffer has none of the two sizes, state 21 moves on by one
position at a time. -/
private theorem answers_trInfo_wait (self : CDCMessageParserPrivate) (pos : Nat)
    (hlast : last.resultType = .parseNotComplete)
    (hshort : data.length ≤ extendedIdfSize
      ∧ (data.length ≠ standardIdfSize ∧ data.length ≠ extendedIdfSize
        ∨ data.length = standardIdfSize ∧ data[standardIdfSize - 1]? ≠ some cr)) :
    Answers (parseFrom self.statesInfoMap data 21 pos last) .wait := by
  induction hleft : data.length - pos generalizing pos last with
  | zero => exact answers_end hlast (by omega)
  | succ left ih =>
    have hproc : processSpecialState 21 data pos = .ok ⟨21, pos, false⟩ := by
      rw [processSpecialState_trInfo, processTRInfo, if_pos hshort, ite_self]
    rw [parseFrom_special_next (by omega) rfl hproc rfl]
    exact ih _ hlast (by omega)

theorem answers_trInfo (hlast : last.resultType = .parseNotComplete) (hlen : 4 ≤ data.length) :
    Answers (parseFrom self.statesInfoMap data 21 4 last)
      (trInfoVerdict self.stateType data) := by
  unfold trInfoVerdict
  by_cases hshort : data.length ≤ extendedIdfSize
      ∧ (data.length ≠ standardIdfSize ∧ data.length ≠ extendedIdfSize
        ∨ data.length = standardIdfSize ∧ data[standardIdfSize - 1]? ≠ some cr)
  · have hwait := answers_trInfo_wait self 4 hlast hshort
    simp only [extendedIdfSize, standardIdfSize] at hshort
    have hno : ¬ (data.length = 21 ∧ data[20]? = some cr) := by
      rintro ⟨hsize, hcr⟩
      rcases hshort.2 with h | h
      · exact h.1 hsize
      · exact h.2 hcr
    rw [if_neg hno, if_neg (by omega)]
    exact hwait
  · have hsize : data.length = 21 ∧ data[20]? = some cr ∨ 37 ≤ data.length := by
      simp only [extendedIdfSize, standardIdfSize] at hshort
      by_cases h21 : data.length = 21
      · refine .inl ⟨h21, ?_⟩
        by_contra hcr
        exact hshort ⟨by omega, .inr ⟨h21, hcr⟩⟩
      · by_cases h37 : 37 ≤ data.length
        · exact .inr h37
        · exact absurd ⟨by omega, .inl ⟨h21, by omega⟩⟩ hshort
    rcases hsize with ⟨h21, hcr⟩ | h37
    · have hproc : processSpecialState 21 data 4 = .ok ⟨22, 19, false⟩ := by
        rw [processSpecialState_trInfo, processTRInfo, if_neg (by omega), if_neg hshort,
          if_neg (by simp only [moduleDataSize]; omega), h21]
      have hanswer : Answers (parseFrom self.statesInfoMap data 22 20
          { last with lastPosition := 19 }) (crVerdict self.stateType data 22 20) :=
        answers_cr (by decide) (by omega)
      rw [crVerdict, if_pos hcr] at hanswer
      rw [parseFrom_special_next (by omega) rfl hproc rfl,
        if_pos ⟨h21, hcr⟩]
      exact hanswer
    · have hproc : processSpecialState 21 data 4 = .ok ⟨22, 35, false⟩ := by
        rw [processSpecialState_trInfo, processTRInfo, if_neg (by omega), if_neg hshort]
        by_cases hlong : data.length - 1 > 4 + moduleDataSize
        · rw [if_pos hlong]
          rfl
        · simp only [moduleDataSize] at hlong
          rw [if_neg hlong, show data.length = 37 by omega]
      rw [parseFrom_special_next (by omega) rfl hproc rfl,
        if_neg (by omega), if_pos h37]
      exact answers_cr (by decide) (by omega)

theorem answers_asynData (hlast : last.resultType = .parseNotComplete)
    (hlen : 5 ≤ data.length) :
    Answers (parseFrom self.statesInfoMap data 50 5 last)
      (asynDataVerdict self.stateType data) := by
  unfold asynDataVerdict
  by_cases hend : data.length ≤ 5
  · rw [if_pos (by omega)]
    exact answers_end hlast hend
  by_cases hone : data.length = 6
  · have hproc : processSpecialState 50 data 5 = .ok ⟨50, 5, false⟩ := by
      rw [processSpecialState_asynData, processAsynData, if_pos (by omega)]
    rw [parseFrom_special_next (by omega) rfl hproc rfl, if_pos (by omega)]
    exact answers_end hlast (by omega)
  have hat : data[3]? = some (data.get ⟨3, by omega⟩) := List.getElem?_eq_getElem (by omega)
  rw [if_neg (by omega), hat]
  simp only
  by_cases hshort : data.length ≤ 5 + (data.get ⟨3, by omega⟩).toNat
  · have hproc : processSpecialState 50 data 5 = .ok ⟨51, data.length - 1, false⟩ := by
      rw [processSpecialState_asynData, processAsynData, if_neg (by omega), hat]
      simp only [ge_iff_le, if_pos hshort]
    rw [parseFrom_special_next (by omega) rfl hproc rfl, if_pos hshort]
    exact answers_end hlast (by omega)
  · have hproc : processSpecialState 50 data 5 =
        .ok ⟨51, 4 + (data.get ⟨3, by omega⟩).toNat, false⟩ := by
      rw [processSpecialState_asynData, processAsynData, if_neg (by omega), hat]
      simp only [ge_iff_le, if_neg hshort]
    have hpos : 4 + (data.get ⟨3, by omega⟩).toNat + 1 =
        5 + (data.get ⟨3, by omega⟩).toNat := by omega
    rw [parseFrom_special_next (by omega) rfl hproc rfl, if_neg hshort, hpos]
    exact answers_cr (by decide) (by omega)

theorem answers_pmRespData (hlast : last.resultType = .parseNotComplete)
    (hlen : 4 ≤ data.length) :
    Answers (parseFrom self.statesInfoMap data 95 4 last)
      (pmRespVerdict self.stateType data) := by
  unfold pmRespVerdict
  by_cases hend : data.length ≤ 4
  · rw [if_pos (by omega)]
    exact answers_end hlast hend
  by_cases hone : data.length = 5
  · have hproc : processSpecialState 95 data 4 = .ok ⟨95, 4, false⟩ := by
      rw [processSpecialState_pmRespData, processPMRespData, if_pos (by omega)]
    rw [parseFrom_special_next (by omega) rfl hproc rfl, if_pos (by omega)]
    exact answers_end hlast (by omega)
  rw [if_neg (by omega)]
  by_cases hsize : data.length = 7 ∨ data.length = 9
  · have hproc : processSpecialState 95 data 4 = .ok ⟨80, 3, false⟩ := by
      rw [processSpecialState_pmRespData, processPMRespData, if_neg (by omega), if_pos hsize]
    have hdata : data = data.take 4 ++ data.drop 4 := (List.take_append_drop 4 data).symm
    have hpre : (data.take 4).length = 4 := by rw [List.length_take]; omega
    have hdrop : data.drop 4 ≠ [] := by simpa using hend
    have hstop : plainStop 80 = false := rfl
    have hrun := parseFrom_scan self.statesInfoMap { last with lastPosition := 3 } hdata hstop
    rw [hpre] at hrun
    rw [parseFrom_special_next (by omega) rfl hproc rfl, if_pos hsize, hrun]
    cases hscan : plainScan 80 4 (data.drop 4) with
    | ended s =>
      simp only [if_neg hdrop]
      exact ⟨_, rfl, verdictOf_eq_wait.mpr hlast⟩
    | stuck k => exact ⟨_, rfl, rfl⟩
    | stopped s k =>
      have hfin := uploadScan_finite hscan
      simp only [if_pos hfin]
      exact answers_accept hfin
  · have hproc : processSpecialState 95 data 4 = .ok ⟨96, data.length - 2, false⟩ := by
      rw [processSpecialState_pmRespData, processPMRespData, if_neg (by omega), if_neg hsize]
    have hpos : data.length - 2 + 1 = data.length - 1 := by omega
    rw [parseFrom_special_next (by omega) rfl hproc rfl, if_neg hsize, hpos]
    exact answers_cr (by decide) (by omega)

end Answers

/-- A call of `parseData` returns a result of the verdict of its buffer. -/
theorem parseData_eq_verdict (self : CDCMessageParserPrivate) (data : UString) :
    Answers (parseData self data) (verdict self.stateType data) := by
  by_cases hdata : data = []
  · subst hdata
    exact ⟨_, parseFrom_end (Nat.le_refl 0), rfl⟩
  rw [parseData_eq_scan self hdata, verdict]
  cases hscan : plainScan initialState 0 data with
  | ended s => exact ⟨_, rfl, rfl⟩
  | stuck k => exact ⟨_, rfl, rfl⟩
  | stopped s k =>
    by_cases hfin : isFiniteState s
    · simp only [if_pos hfin]
      exact answers_accept hfin
    · simp only [if_neg hfin]
      obtain ⟨rfl, rfl, hk⟩ | ⟨rfl, rfl, hk⟩ | ⟨rfl, rfl, hk⟩ | ⟨rfl, rfl, hk⟩ :=
        plainScan_special hscan hfin
      · exact answers_usbInfo rfl hk
      · exact answers_trInfo rfl hk
      · exact answers_asynData rfl hk
      · exact answers_pmRespData rfl hk

end Clibcdc.Parser
