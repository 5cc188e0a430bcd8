import Clibcdc.Parser.Loop

/-!
# How the loop of the parser ends

The loop of `parseData` looks at `statesInfoMap` once, when it accepts.
`endingLoop` is the loop without that look: it ends with the state in which it
accepts, or with the position at which it rejects, or it waits.  `answer` is
the look.

`parseData_eq_answer` puts them together.  What a call answers depends on the
parser at hand through `answer` alone.
-/

namespace Clibcdc.Parser

inductive Ending where
  | wait (lastPosition : Nat)
  | reject (lastPosition : Nat)
  | accept (state lastPosition : Nat)
  deriving DecidableEq, Repr

/-- The loop of `parseData` from `state` and `pos` on. -/
def endingLoop (data : UString) : Nat → Nat → Nat → Nat → Except CdcException Ending
  | 0, _, _, _ => .error ⟨.undefined, "the loop of parseData does not end"⟩
  | fuel + 1, state, pos, lastPosition =>
    if h : pos < data.length then
      if isSpecialState state then
        match processSpecialState state data pos with
        | .error e => .error e
        | .ok procResult =>
          if procResult.formatError then .ok (.reject procResult.lastPosition)
          else if isFiniteState procResult.newState then
            .ok (.accept procResult.newState procResult.lastPosition)
          else
            endingLoop data fuel procResult.newState (procResult.lastPosition + 1)
              procResult.lastPosition
      else
        let state := doTransition state data[pos]
        if state = noTransition then .ok (.reject pos)
        else if isFiniteState state then .ok (.accept state pos)
        else endingLoop data fuel state (pos + 1) pos
    else .ok (.wait lastPosition)

/-- What `parseData` makes of the end of its loop. -/
def answer (map : MapOfStates) (lastParseResult : ParseResult) :
    Ending → Except CdcException ParseResult
  | .wait lastPosition => .ok { lastParseResult with lastPosition }
  | .reject lastPosition =>
    .ok { lastParseResult with lastPosition, resultType := .parseBadFormat }
  | .accept state lastPosition => acceptState map state { lastParseResult with lastPosition }

/-- The end of the loop says which position is the last. -/
theorem answer_lastPosition (map : MapOfStates) (last : ParseResult) (lastPosition : Nat) :
    answer map { last with lastPosition } = answer map last := by
  funext e
  cases e <;> rfl

theorem parseLoop_eq_answer (map : MapOfStates) (data : UString) (fuel state pos : Nat)
    (last : ParseResult) :
    parseLoop map data fuel state pos last =
      endingLoop data fuel state pos last.lastPosition >>= answer map last := by
  induction fuel generalizing state pos last with
  | zero => rfl
  | succ fuel ih =>
    have hnext : ∀ next lastPosition, parseLoop map data fuel next (lastPosition + 1)
        { last with lastPosition } =
          endingLoop data fuel next (lastPosition + 1) lastPosition >>= answer map last := by
      intro next lastPosition
      rw [ih, answer_lastPosition]
    rw [parseLoop, endingLoop]
    by_cases hpos : pos < data.length
    · by_cases hstate : isSpecialState state
      · cases hproc : processSpecialState state data pos with
        | error e => simp only [dif_pos hpos, if_pos hstate]; rfl
        | ok procResult =>
          simp only [dif_pos hpos, if_pos hstate, hnext]
          split_ifs <;> rfl
      · simp only [dif_pos hpos, if_neg hstate, hnext]
        split_ifs <;> rfl
    · simp only [dif_neg hpos]
      rfl

/-- The loop accepts in a finite state. -/
theorem endingLoop_accept {data : UString} {fuel state pos lastPosition s p : Nat}
    (h : endingLoop data fuel state pos lastPosition = .ok (.accept s p)) :
    isFiniteState s = true := by
  induction fuel generalizing state pos lastPosition with
  | zero => cases h
  | succ fuel ih =>
    rw [endingLoop] at h
    by_cases hpos : pos < data.length
    · by_cases hstate : isSpecialState state
      · cases hproc : processSpecialState state data pos with
        | error e => simp [hpos, hstate, hproc] at h
        | ok procResult =>
          simp only [dif_pos hpos, if_pos hstate, hproc] at h
          split_ifs at h with herror hfinite
          · cases h
          · cases h
            exact hfinite
          · exact ih h
      · simp only [dif_pos hpos, if_neg hstate] at h
        split_ifs at h with hnone hfinite
        · cases h
        · cases h
          exact hfinite
        · exact ih h
    · simp [hpos] at h

/-- How the loop of a call of `parseData` ends. -/
def ending (data : UString) (lastPosition : Nat) : Except CdcException Ending :=
  endingLoop data (2 * data.length + 2) initialState 0 lastPosition

/-- What a call answers depends on the parser at hand through `answer` alone. -/
theorem parseData_eq_answer (self : CDCMessageParserPrivate) (data : UString) :
    parseData self data = ending data self.lastParseResult.lastPosition >>=
      answer self.statesInfoMap { self.lastParseResult with resultType := .parseNotComplete } :=
  parseLoop_eq_answer _ _ _ _ _ _

end Clibcdc.Parser
