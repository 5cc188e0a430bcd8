import Clibcdc.Parser.Ending
import Clibcdc.Parser.Unsized

/-!
# Reads past the end of a state array

`initStatesInfoMap` reads three numbers past the end of `resUploadDownload`
and inserts them as states of an upload.  `insert` keeps the row that is there
already, so a number changes a row when no array up to that one lists it.

* `SameTypes` is what two constructions of the parser should have in common,
  whatever they have read: the answers, the types of accepted messages, and
  above all the type of download data.
* `statesInfoMap_overread` says when they have it.  State 97 is the only finite
  state that an array behind `resUploadDownload` lists.
-/

namespace Clibcdc.Parser

/-! ## The rows of the reads -/

/-- The states that the arrays up to `resUploadDownload` list. -/
def listedStates : List Nat := listedRows.map Prod.fst

/-- A state is in an array of this type. -/
def ListedWith (state : Nat) (msgType : MessageType) : Prop :=
  ∃ multiType, (state, ⟨msgType, multiType⟩) ∈ initStatesInfoMap listedOnly

/-- A state has the row that the array initialisers give it, or none. -/
def SameRow (beyond : Beyond) (state : Nat) : Prop :=
  (initStatesInfoMap beyond).lookup state = (initStatesInfoMap listedOnly).lookup state

theorem lookup_eq_none_iff_not_mem {map : MapOfStates} {state : Nat} :
    map.lookup state = none ↔ state ∉ map.map Prod.fst := by
  rw [List.lookup_eq_none_iff]
  constructor
  · intro h hmem
    obtain ⟨row, hrow, rfl⟩ := List.mem_map.mp hmem
    simpa using h row hrow
  · intro h row hrow
    rw [bne_iff_ne]
    intro heq
    exact h (heq ▸ List.mem_map_of_mem hrow)

/-- The reads add a row for a state exactly when one of them yields it. -/
theorem overreadRows_lookup_none {beyond : Beyond} {state : Nat} :
    (overreadRows beyond).lookup state = none ↔ ∀ i < 3, beyond 14 i ≠ some state := by
  rw [lookup_eq_none_iff_not_mem]
  constructor
  · intro h i hi hread
    refine h (List.mem_map.mpr ⟨(state, ⟨.msgUploadDownload, false⟩), ?_, rfl⟩)
    exact List.mem_filterMap.mpr ⟨i, List.mem_range.mpr hi, by rw [hread]; rfl⟩
  · intro h hmem
    obtain ⟨row, hrow, rfl⟩ := List.mem_map.mp hmem
    obtain ⟨i, hi, hread⟩ := List.mem_filterMap.mp hrow
    obtain ⟨state, hstate, rfl⟩ := Option.map_eq_some_iff.mp hread
    exact h i (List.mem_range.mp hi) hstate

/-- A state keeps its row exactly when an array up to `resUploadDownload`
lists it, or no read yields it. -/
theorem sameRow_iff {beyond : Beyond} {state : Nat} :
    SameRow beyond state ↔ state ∈ listedStates ∨ ∀ i < 3, beyond 14 i ≠ some state := by
  have hnothing : overreadRows listedOnly = [] := rfl
  rw [SameRow, statesInfoMap_eq, statesInfoMap_eq, hnothing, List.append_nil, List.append_assoc,
    List.lookup_append, List.lookup_append, List.lookup_append, ← overreadRows_lookup_none]
  cases hlisted : listedRows.lookup state with
  | some stateInfo =>
    have hmem : state ∈ listedStates := by
      by_contra hno
      rw [lookup_eq_none_iff_not_mem.mpr hno] at hlisted
      cases hlisted
    exact iff_of_true rfl (.inl hmem)
  | none =>
    have hno : state ∉ listedStates := lookup_eq_none_iff_not_mem.mp hlisted
    cases hover : (overreadRows beyond).lookup state with
    | none => exact iff_of_true rfl (.inr rfl)
    | some stateInfo =>
      rw [overreadRows_lookup_some hover]
      refine iff_of_false (fun h => ?_) (by simp [hno])
      obtain ⟨_, _, hrows, -⟩ := List.lookup_eq_some_iff.mp h.symm
      have hmem : (state, (⟨.msgUploadDownload, false⟩ : StateInfo)) ∈
          [(96, ⟨.msgDownloadData, false⟩), (97, (⟨.msgDownloadData, false⟩ : StateInfo))] := by
        rw [hrows]
        simp
      simp at hmem

/-! ## The types of the messages -/

/-- The parser of a construction, behind any call before. -/
def CDCMessageParserPrivate.constructed (beyond : Beyond) (lastParseResult : ParseResult) :
    CDCMessageParserPrivate := { CDCMessageParserPrivate.new beyond with lastParseResult }

@[simp] theorem constructed_statesInfoMap (beyond : Beyond) (last : ParseResult) :
    (CDCMessageParserPrivate.constructed beyond last).statesInfoMap = initStatesInfoMap beyond :=
  rfl

/-- Two constructions answer alike, an accepted message has the type of the
array of its state, and download data have their own type. -/
structure SameTypes (beyond beyond' : Beyond) : Prop where
  answers : ∀ last data, parseData (.constructed beyond last) data =
    parseData (.constructed beyond' last) data
  listed : ∀ last data result, parseData (.constructed beyond last) data = .ok result →
    result.resultType = .parseOk →
      ∃ state, ending data last.lastPosition = .ok (.accept state result.lastPosition) ∧
        ListedWith state result.msgType
  downloads : ∀ last payload, (ascii "<PM:" ++ payload ++ [cr]).length ∉ [5, 7, 9] →
    ∃ p, parseData (.constructed beyond last) (ascii "<PM:" ++ payload ++ [cr]) =
      .ok ⟨.msgDownloadData, .parseOk, p⟩

section Types

variable {beyond : Beyond} {last : ParseResult}

/-- State 97 has the type of download data exactly when no read yields it. -/
theorem stateType_downloadData_iff :
    (CDCMessageParserPrivate.constructed beyond last).stateType 97 = .msgDownloadData ↔
      ∀ i < 3, beyond 14 i ≠ some 97 := by
  have hlisted : listedRows.lookup 97 = none := by decide
  rw [← overreadRows_lookup_none, CDCMessageParserPrivate.stateType, constructed_statesInfoMap,
    statesInfoMap_eq, List.append_assoc, List.lookup_append, hlisted, Option.none_or,
    List.lookup_append]
  cases hover : (overreadRows beyond).lookup 97 with
  | none => exact iff_of_true rfl rfl
  | some stateInfo =>
    rw [overreadRows_lookup_some hover]
    exact iff_of_false (by decide) (by simp)

/-- Then every finite state has its listed type. -/
theorem stateType_constructed (h : ∀ i < 3, beyond 14 i ≠ some 97) {state : Nat}
    (hstate : isFiniteState state = true) :
    (CDCMessageParserPrivate.constructed beyond last).stateType state = listedType state := by
  by_cases h97 : state = 97
  · have hlisted : listedType 97 = .msgDownloadData := by decide
    rw [h97, hlisted]
    exact stateType_downloadData_iff.mpr h
  · exact stateType_eq_listedType _ hstate h97

theorem listedWith_listedType {state : Nat} (hstate : isFiniteState state = true) :
    ListedWith state (listedType state) := by
  have hrows : ∀ s ∈ initFiniteStates, (s, ⟨listedType s, false⟩) ∈
      initStatesInfoMap listedOnly := by
    decide
  exact ⟨false, hrows state (by simpa [isFiniteState] using hstate)⟩

/-- Download data take the type of state 97. -/
theorem parseData_download (self : CDCMessageParserPrivate) {payload : UString}
    (hsize : (ascii "<PM:" ++ payload ++ [cr]).length ∉ [5, 7, 9]) :
    parseData self (ascii "<PM:" ++ payload ++ [cr]) =
      .ok ⟨self.stateType 97, .parseOk, payload.length + 4⟩ := by
  have hlen : (ascii "<PM:" ++ payload ++ [cr]).length = payload.length + 5 := by
    simp only [List.length_append, List.length_singleton]
    simp [ascii]
    omega
  simp only [hlen, List.mem_cons, List.not_mem_nil, or_false, not_or] at hsize
  obtain ⟨result, hresult, hverdict⟩ := parseData_eq_verdict self (ascii "<PM:" ++ payload ++ [cr])
  have hlast : (payload ++ [cr]).getLast? = some cr := List.getLast?_concat
  have hword : (payload ++ [cr]).length = payload.length + 1 := List.length_append
  rw [List.append_assoc, verdict_pmResp_eq, hword, if_neg (by omega), if_neg (by omega),
    if_pos hlast, verdictOf_eq_accept] at hverdict
  rw [hresult, hverdict]

/-- An accepted message has the type of the state that accepts it. -/
theorem parseData_accepts (self : CDCMessageParserPrivate) {data : UString} {result : ParseResult}
    (h : parseData self data = .ok result) (haccept : result.resultType = .parseOk) :
    ∃ state, ending data self.lastParseResult.lastPosition =
        .ok (.accept state result.lastPosition) ∧
      isFiniteState state = true ∧ result.msgType = self.stateType state := by
  rw [parseData_eq_answer] at h
  cases hending : ending data self.lastParseResult.lastPosition with
  | error e => simp [hending, bind, Except.bind] at h
  | ok e =>
    rw [hending] at h
    cases e with
    | wait p =>
      rw [← Except.ok.inj h] at haccept
      cases haccept
    | reject p =>
      rw [← Except.ok.inj h] at haccept
      cases haccept
    | accept s p =>
      have hfinite := endingLoop_accept hending
      have hrow := (acceptState_eq self hfinite _).symm.trans h
      rw [← Except.ok.inj hrow]
      exact ⟨s, rfl, hfinite, rfl⟩

end Types

/-! ## When the memory behind the array does not matter -/

section Overread

variable {beyond beyond' : Beyond}

/-- Parsers that give each finite state the same type answer alike. -/
theorem parseData_congr {self self' : CDCMessageParserPrivate}
    (hlast : self.lastParseResult = self'.lastParseResult)
    (htypes : ∀ state, isFiniteState state = true → self.stateType state = self'.stateType state)
    (data : UString) : parseData self data = parseData self' data := by
  rw [parseData_eq_answer, parseData_eq_answer, hlast]
  cases hending : ending data self'.lastParseResult.lastPosition with
  | error e => rfl
  | ok e =>
    cases e with
    | wait p => rfl
    | reject p => rfl
    | accept s p =>
      have hfinite := endingLoop_accept hending
      exact (acceptState_eq self hfinite _).trans
        (htypes s hfinite ▸ (acceptState_eq self' hfinite _).symm)

/-- The two constructions have what they should have in common exactly when no
read yields state 97. -/
theorem sameTypes_iff :
    SameTypes beyond beyond' ↔ ∀ i < 3, beyond 14 i ≠ some 97 ∧ beyond' 14 i ≠ some 97 := by
  constructor
  · intro h i hi
    -- a payload of one byte is as good as any
    obtain ⟨payload, hsize⟩ : ∃ payload : UString,
        (ascii "<PM:" ++ payload ++ [cr]).length ∉ [5, 7, 9] := ⟨[7], by decide⟩
    obtain ⟨p, hdownload⟩ := h.downloads ⟨.msgError, .parseNotComplete, 0⟩ payload hsize
    have hanswer := (h.answers _ _).symm.trans hdownload
    rw [parseData_download _ hsize] at hdownload hanswer
    simp only [Except.ok.injEq, ParseResult.mk.injEq] at hdownload hanswer
    exact ⟨stateType_downloadData_iff.mp hdownload.1 i hi,
      stateType_downloadData_iff.mp hanswer.1 i hi⟩
  · intro h
    have hleft : ∀ i < 3, beyond 14 i ≠ some 97 := fun i hi => (h i hi).1
    have hright : ∀ i < 3, beyond' 14 i ≠ some 97 := fun i hi => (h i hi).2
    have htypes : ∀ last state, isFiniteState state = true →
        (CDCMessageParserPrivate.constructed beyond last).stateType state =
          (CDCMessageParserPrivate.constructed beyond' last).stateType state := by
      intro last state hstate
      rw [stateType_constructed hleft hstate, stateType_constructed hright hstate]
    refine ⟨fun last data => ?_, fun last data result hresult haccept => ?_,
      fun last payload hsize => ?_⟩
    · exact @parseData_congr (.constructed beyond last) (.constructed beyond' last) rfl
        (htypes last) data
    · obtain ⟨state, hending, hfinite, htype⟩ := parseData_accepts _ hresult haccept
      refine ⟨state, hending, ?_⟩
      rw [htype, stateType_constructed hleft hfinite]
      exact listedWith_listedType hfinite
    · refine ⟨payload.length + 4, ?_⟩
      rw [parseData_download _ hsize, stateType_downloadData_iff.mpr hleft]

/-- The memory behind `resUploadDownload` does not matter exactly when each
number read there is a state that an array up to that one lists.  For the
answers it does not matter exactly when none of the numbers is 97, and a single
state keeps its row when it is listed or not read. -/
theorem statesInfoMap_overread (beyond beyond' : Beyond) :
    ((SameTypes beyond beyond' ∧ ∀ state, SameRow beyond state ∧ SameRow beyond' state) ↔
      ∀ i < 3, ∀ state, beyond 14 i = some state ∨ beyond' 14 i = some state →
        state ∈ listedStates) ∧
    (SameTypes beyond beyond' ↔ ∀ i < 3, beyond 14 i ≠ some 97 ∧ beyond' 14 i ≠ some 97) ∧
    ∀ state, (SameRow beyond state ∧ SameRow beyond' state) ↔
      state ∈ listedStates ∨ ∀ i < 3, beyond 14 i ≠ some state ∧ beyond' 14 i ≠ some state := by
  have hrows : ∀ state, (SameRow beyond state ∧ SameRow beyond' state) ↔
      state ∈ listedStates ∨
        ∀ i < 3, beyond 14 i ≠ some state ∧ beyond' 14 i ≠ some state := by
    intro state
    rw [sameRow_iff, sameRow_iff]
    by_cases hlisted : state ∈ listedStates
    · simp [hlisted]
    · simp only [hlisted, false_or]
      exact ⟨fun h i hi => ⟨h.1 i hi, h.2 i hi⟩,
        fun h => ⟨fun i hi => (h i hi).1, fun i hi => (h i hi).2⟩⟩
  refine ⟨?_, sameTypes_iff, hrows⟩
  constructor
  · intro h i hi state hread
    rcases (hrows state).mp (h.2 state) with hlisted | hno
    · exact hlisted
    · exact absurd hread (not_or.mpr (hno i hi))
  · intro h
    have h97 : 97 ∉ listedStates := by decide
    refine ⟨sameTypes_iff.mpr fun i hi => ?_, fun state => (hrows state).mpr ?_⟩
    · exact not_or.mp fun hread => h97 (h i hi 97 hread)
    · by_cases hlisted : state ∈ listedStates
      · exact .inl hlisted
      · exact .inr fun i hi => not_or.mp fun hread => hlisted (h i hi state hread)

/-- The array that follows in the source, `dataDownload`, holds 96 and 97.  A
parser that reads these numbers takes download data for an upload response, and
a parser that reads zeros does not. -/
theorem statesInfoMap_overread_dataDownload :
    parseData (.new fun _ i => [96, 97, 0][i]?) (ascii "<PM:" ++ [7] ++ [cr]) =
        .ok ⟨.msgUploadDownload, .parseOk, 5⟩ ∧
      parseData (.new fun _ _ => some 0) (ascii "<PM:" ++ [7] ++ [cr]) =
        .ok ⟨.msgDownloadData, .parseOk, 5⟩ ∧
      ¬ SameTypes (fun _ i => [96, 97, 0][i]?) (fun _ _ => some 0) := by
  refine ⟨by decide, by decide, fun h => ?_⟩
  exact (sameTypes_iff.mp h 1 (by decide)).1 rfl

end Overread

end Clibcdc.Parser
