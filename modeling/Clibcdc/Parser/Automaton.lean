import Clibcdc.Parser.Loop

/-!
# What the tables say

Facts about the tables that every result about the parser rests on.

* `statesInfoMap_eq` separates the rows that the array initialisers list from
  those that reads past the end of an array add.  Only state 97 can take its
  message type from such a row (`stateType_eq_listedType`).
* The transitions form a tree below each state that a scan can start in.
  `stateText` is what the automaton has read in a state since that start,
  computed from the table, and `spelling` proves it.
* `completion` is a word that takes a state to one at which the scan stops.
-/

namespace Clibcdc.Parser

open Clibcdc.Automata

/-! ## The state infos -/

/-- An array inserts the states it lists, then what the reads past its end
yield. -/
theorem insertStates_eq (map : MapOfStates) (states : List Nat) (beyond : Nat → Option Nat)
    (past : Nat) (stateInfo : StateInfo) :
    insertStates map states beyond (states.length + past) stateInfo =
      map ++ states.map (·, stateInfo) ++
        (List.range past).filterMap fun i => (beyond i).map (·, stateInfo) := by
  have hrange : ∀ states : List Nat,
      ((List.range (states.length + past)).filterMap fun i =>
        (readState states beyond i).map (·, stateInfo)) =
      states.map (·, stateInfo) ++
        (List.range past).filterMap fun i => (beyond i).map (·, stateInfo) := by
    intro states
    induction states with
    | nil => simp [readState]
    | cons s states ih =>
      have hshift : ∀ i, readState (s :: states) beyond (i + 1) = readState states beyond i := by
        intro i
        simp [readState]
      have hlen : (s :: states).length + past = states.length + past + 1 := by
        simp only [List.length_cons]; omega
      rw [hlen, List.range_succ_eq_map, List.filterMap_cons_some (b := (s, stateInfo)),
        List.filterMap_map]
      · simp only [Function.comp_def, hshift, ih, List.map_cons, List.cons_append]
      · simp [readState]
  rw [insertStates, hrange, List.append_assoc]

/-- The rows of the arrays up to `resUploadDownload`. -/
def listedRows : MapOfStates := (initStatesInfoMap listedOnly).take 98

/-- The rows that reads past the end of `resUploadDownload` add. -/
def overreadRows (beyond : Beyond) : MapOfStates :=
  (List.range 3).filterMap fun i => (beyond 14 i).map (·, ⟨.msgUploadDownload, false⟩)

theorem statesInfoMap_eq (beyond : Beyond) :
    initStatesInfoMap beyond = listedRows ++ overreadRows beyond ++
      [(96, ⟨.msgDownloadData, false⟩), (97, ⟨.msgDownloadData, false⟩)] := by
  have hlisted : ∀ (map : MapOfStates) (states : List Nat) (b : Nat → Option Nat) (n : Nat)
      (info : StateInfo), n = states.length →
        insertStates map states b n info = map ++ states.map (·, info) := by
    rintro map states b _ info rfl
    simpa using insertStates_eq map states b 0 info
  have hover : ∀ map : MapOfStates, insertStates map
      [80, 81, 82, 83, 84, 85, 86, 87, 88, 89, 90, 91, 92, 93] (beyond 14) 17
        ⟨.msgUploadDownload, false⟩ =
      map ++ [80, 81, 82, 83, 84, 85, 86, 87, 88, 89, 90, 91, 92, 93].map
        (·, ⟨.msgUploadDownload, false⟩) ++ overreadRows beyond :=
    fun map => insertStates_eq map _ (beyond 14) 3 _
  unfold initStatesInfoMap insertMultiTypeStatesInfo insertStatesInfo
  simp (disch := decide) only [hlisted, hover]
  rfl

/-- The message type of a finite state in the rows that the array
initialisers list. -/
def listedType (state : Nat) : MessageType :=
  ((initStatesInfoMap listedOnly).lookup state).elim .msgError StateInfo.msgType

/-- The message type of a finite state in the parser at hand. -/
def CDCMessageParserPrivate.stateType (self : CDCMessageParserPrivate) (state : Nat) :
    MessageType :=
  (self.statesInfoMap.lookup state).elim .msgError StateInfo.msgType

theorem stateType_of_listed {self : CDCMessageParserPrivate} (h : self.Listed) (state : Nat) :
    self.stateType state = listedType state := by
  rw [CDCMessageParserPrivate.stateType, h, listedType]

private theorem listedRows_lookup :
    ∀ state ∈ initFiniteStates, state ≠ 97 →
      listedRows.lookup state = some ⟨listedType state, false⟩ := by
  decide

/-- Reads past the ends of the arrays change the type of no finite state but
97. -/
theorem stateType_eq_listedType (self : CDCMessageParserPrivate) {state : Nat}
    (hstate : isFiniteState state = true) (h97 : state ≠ 97) :
    self.stateType state = listedType state := by
  obtain ⟨beyond, hbuilt⟩ := self.built
  have hrow := listedRows_lookup state (by simpa [isFiniteState] using hstate) h97
  rw [CDCMessageParserPrivate.stateType, hbuilt, statesInfoMap_eq, List.append_assoc,
    List.lookup_append, hrow]
  rfl

/-- The rows that the reads add have the type of that array. -/
theorem overreadRows_lookup_some {beyond : Beyond} {state : Nat} {stateInfo : StateInfo}
    (h : (overreadRows beyond).lookup state = some stateInfo) :
    stateInfo = ⟨.msgUploadDownload, false⟩ := by
  obtain ⟨_, _, hrows, _⟩ := List.lookup_eq_some_iff.mp h
  have hmem : (state, stateInfo) ∈ overreadRows beyond := by
    rw [hrows]
    simp
  obtain ⟨i, -, hi⟩ := List.mem_filterMap.mp hmem
  obtain ⟨_, -, hrow⟩ := Option.map_eq_some_iff.mp hi
  exact (Prod.mk.inj hrow).2.symm

/-- The type of state 97 is the listed one, or that of a row that a read past
the end of `resUploadDownload` added. -/
theorem stateType_downloadData (self : CDCMessageParserPrivate) :
    self.stateType 97 = .msgDownloadData ∨ self.stateType 97 = .msgUploadDownload := by
  obtain ⟨beyond, hbuilt⟩ := self.built
  have hlisted : listedRows.lookup 97 = none := by decide
  rw [CDCMessageParserPrivate.stateType, hbuilt, statesInfoMap_eq, List.append_assoc,
    List.lookup_append, hlisted, Option.none_or, List.lookup_append]
  cases hover : (overreadRows beyond).lookup 97 with
  | none => exact .inl rfl
  | some stateInfo =>
    right
    rw [overreadRows_lookup_some hover]
    rfl

/-- Every finite state has a row, so `acceptState` answers. -/
theorem acceptState_eq (self : CDCMessageParserPrivate) {state : Nat}
    (hstate : isFiniteState state = true) (last : ParseResult) :
    acceptState self.statesInfoMap state last =
      .ok { last with msgType := self.stateType state, resultType := .parseOk } := by
  have hrow : (self.statesInfoMap.lookup state).isSome = true := by
    obtain ⟨beyond, hbuilt⟩ := self.built
    rw [hbuilt, statesInfoMap_eq, List.lookup_append, List.lookup_append]
    by_cases h97 : state = 97
    · subst h97
      cases (listedRows.lookup 97).or ((overreadRows beyond).lookup 97) <;> rfl
    · rw [listedRows_lookup state (by simpa [isFiniteState] using hstate) h97]
      rfl
  obtain ⟨stateInfo, hinfo⟩ := Option.isSome_iff_exists.mp hrow
  simp [acceptState, CDCMessageParserPrivate.stateType, hinfo]

/-! ## The tree of the transitions -/

/-- The inputs of the rows from `source` to `target`. -/
def inputsTo (source target : Nat) : List Nat :=
  (initTransitionMap.filter fun row => row.1.1 = source ∧ row.2 = target).map (·.1.2)

/-- What has been read in each state, with the inputs that each position
allows.  A scan starts in state 0, and behind the special states in 18, 22,
51, 80 and 96. -/
def stateTexts : List (Nat × List (List Nat)) :=
  initTransitionMap.foldl
    (fun texts row =>
      if (texts.lookup row.2).isSome then texts
      else texts ++
        [(row.2, (texts.lookup row.1.1).getD [] ++ [inputsTo row.1.1 row.2])])
    [(0, []), (18, []), (22, []), (51, []), (80, []), (96, [])]

def stateText (state : Nat) : List (List Nat) := (stateTexts.lookup state).getD []

/-- A byte is one of the inputs, or any byte is. -/
def InputReads (inputs : List Nat) (b : Byte) : Prop := b.toNat ∈ inputs ∨ inputAll ∈ inputs

private theorem stateText_row :
    ∀ row ∈ initTransitionMap,
      stateText row.2 = stateText row.1.1 ++ [inputsTo row.1.1 row.2] := by
  decide +kernel

/-- Nothing has been read in the states in which a scan starts. -/
theorem stateText_root : ∀ state ∈ [0, 18, 22, 51, 80, 96], stateText state = [] := by
  decide +kernel

/-- What has been read in the special states of the headers. -/
theorem special_texts :
    stateText 17 = (ascii "<I:").map (fun b => [b.toNat]) ∧
    stateText 21 = (ascii "<IT:").map (fun b => [b.toNat]) ∧
    stateText 50 = (ascii "<DR").map (fun b => [b.toNat]) ++ [[inputAll], [(chr ':').toNat]] ∧
    stateText 95 = (ascii "<PM:").map (fun b => [b.toNat]) := by
  decide +kernel

private theorem mem_of_lookup {table : List Transition} {key : Nat × Nat} {next : Nat}
    (h : table.lookup key = some next) : (key, next) ∈ table := by
  obtain ⟨_, _, rfl, _⟩ := List.lookup_eq_some_iff.mp h
  simp

/-- A transition is a row of the byte itself or of any byte. -/
theorem plainStep_row {state next : Nat} {b : Byte} (h : plainStep state b = some next) :
    ((state, b.toNat), next) ∈ initTransitionMap ∨
      ((state, inputAll), next) ∈ initTransitionMap := by
  unfold plainStep at h
  split_ifs at h with hnone
  obtain rfl : doTransition state b = next := by simpa using h
  unfold doTransition at hnone ⊢
  split
  · rename_i hrow
    exact .inl (mem_of_lookup hrow)
  · rename_i hmiss
    rw [hmiss] at hnone
    split
    · rename_i hrow
      exact .inr (mem_of_lookup hrow)
    · rename_i hall
      simp [hall] at hnone

/-- Where all rows from some states lead, every transition from them leads. -/
theorem plainStep_mem {sources targets : List Nat}
    (hrows : ∀ row ∈ initTransitionMap, row.1.1 ∈ sources → row.2 ∈ targets) {state next : Nat}
    {b : Byte} (h : plainStep state b = some next) (hstate : state ∈ sources) :
    next ∈ targets := by
  rcases plainStep_row h with hrow | hrow
  · exact hrows ((state, b.toNat), next) hrow hstate
  · exact hrows ((state, inputAll), next) hrow hstate

private theorem mem_inputsTo {source input target : Nat}
    (h : ((source, input), target) ∈ initTransitionMap) : input ∈ inputsTo source target := by
  unfold inputsTo
  generalize initTransitionMap = table at h
  rw [List.mem_map]
  exact ⟨((source, input), target), List.mem_filter.mpr ⟨h, by simp⟩, rfl⟩

/-- Every transition adds one position to the text of its state. -/
theorem spelling : Spelling plainStep stateText InputReads where
  step_text := by
    intro state next b h
    rcases plainStep_row h with hrow | hrow
    · have htext := stateText_row ((state, b.toNat), next) hrow
      exact ⟨inputsTo state next, htext, .inl (mem_inputsTo hrow)⟩
    · have htext := stateText_row ((state, inputAll), next) hrow
      exact ⟨inputsTo state next, htext, .inr (mem_inputsTo hrow)⟩

/-- The states that a scan from the initial state can reach. -/
def reachableStates : List Nat :=
  initTransitionMap.foldl
    (fun states row => if row.1.1 ∈ states then states ++ [row.2] else states) [initialState]

private theorem reachableStates_row :
    ∀ row ∈ initTransitionMap, row.1.1 ∈ reachableStates → row.2 ∈ reachableStates := by
  decide +kernel

/-- What is known of a scan from the initial state: it is in a reachable
state, and it has read the text of that state. -/
def HasRead (state : Nat) (w : UString) : Prop :=
  state ∈ reachableStates ∧ List.Forall₂ InputReads (stateText state) w

theorem hasRead_initial : HasRead initialState [] := by
  refine ⟨by decide +kernel, ?_⟩
  rw [stateText_root initialState (by decide)]
  exact .nil

theorem hasRead_step (state next : Nat) (b : Byte) (w : UString) (h : HasRead state w)
    (hstep : plainStep state b = some next) : HasRead next (w ++ [b]) := by
  obtain ⟨hstate, hw⟩ := h
  exact ⟨plainStep_mem reachableStates_row hstep hstate,
    spelling.spells state next b w hw hstep⟩

/-- The finite states that a scan from the initial state can stop in, and the
special states that it can enter. -/
theorem reachableStates_stop :
    ∀ state ∈ reachableStates, plainStop state = true →
      state ∈ [5, 8, 103, 15, 28, 32, 38, 42, 47, 57, 63, 68, 73, 78] ∨
        state ∈ initSpecialStates := by
  decide +kernel

/-! ## Completions -/

/-- The byte of the first row of a state: 0 when the row takes any byte. -/
def firstInput (state : Nat) : Option Byte :=
  (initTransitionMap.find? (·.1.1 = state)).map fun row =>
    if row.1.2 = inputAll then 0 else row.1.2.toUInt8

/-- A word that takes a state to one at which a scan stops. -/
def completionFrom : Nat → Nat → UString
  | 0, _ => []
  | fuel + 1, state =>
    if plainStop state then []
    else
      match firstInput state with
      | none => []
      | some b => b :: completionFrom fuel (doTransition state b)

/-- The longest way through the tree has ten transitions. -/
def completion (state : Nat) : UString := completionFrom 10 state

theorem completion_stops :
    ∀ state ∈ reachableStates, plainStop state = false →
      ∃ s ∈ reachableStates, plainStop s = true ∧
        plainScan state 0 (completion state) = .stopped s (completion state).length := by
  decide +kernel

end Clibcdc.Parser
