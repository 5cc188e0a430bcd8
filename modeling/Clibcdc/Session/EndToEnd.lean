import Clibcdc.Session.System

/-!
# A session from end to end

When the device answers each command with one frame of its type, every call
returns what its own response encodes, and the listener gets the asynchronous
messages in order (`session_endToEnd`).  This holds in every state of every
run, however the bytes are cut into reads and whichever party runs when.

The system follows the exchange of frames: between two rounds, the buffer of
the reader thread and the bytes at the port are the frames that have not been
dispatched (`Follows`).  A round that takes an item takes the first of them.
-/

namespace Clibcdc

open Clibcdc.Automata Clibcdc.Parser Clibcdc.Reader

/-- The actions of a session in which the library calls succeed, no wait runs
out of time, and the device keeps to its protocol. -/
def System.Regular (s : System) : SystemAction → Prop
  | .client action => action.Regular
  | .transmit sent => DeviceSends s.client.calls s.impl.portOutput s.sent sent
  | .read _ | .round | .signal => True

instance (s : System) : DecidablePred s.Regular
  | .client action => inferInstanceAs (Decidable action.Regular)
  | .transmit sent =>
    inferInstanceAs (Decidable (DeviceSends s.client.calls s.impl.portOutput s.sent sent))
  | .read _ | .round | .signal => inferInstanceAs (Decidable True)

/-- The system stands where the exchange of frames does. -/
structure Follows (s : System) (t : Exchange) : Prop where
  impl : s.impl = t.impl
  client : s.client = t.client
  sent : s.sent = t.done ++ t.pending
  bytes : repair (s.receivedBytes ++ s.port) = repair (bytesOf t.pending)
  signalling : t.signalling = decide (s.reader = .signalling)
  running : s.reader ≠ .returned ∧ s.reader ≠ .terminated
  good : t.Good

theorem follows_start (msgParser : CDCMessageParserPrivate) :
    Follows (.start msgParser) (.start msgParser) where
  impl := rfl
  client := rfl
  sent := rfl
  bytes := rfl
  signalling := rfl
  running := by simp [System.start]
  good := Exchange.good_start msgParser

theorem repair_append_congr {w w' : UString} (h : repair w = repair w') (v : UString) :
    repair (w ++ v) = repair (w' ++ v) := by
  rw [← repair_repair_append w, ← repair_repair_append w', h]

namespace Follows

variable {s s' : System} {t : Exchange}

/-- A step of the client is one of the exchange. -/
theorem client_step (h : Follows s t) {action : ClientAction} (hregular : action.Regular)
    (hstep : system.step s (.client action) = some s') :
    ∃ t', exchange.run t [.client action] = some t' ∧ Follows s' t' := by
  obtain ⟨impl, client, hclient, rfl⟩ : ∃ impl client,
      s.client.step .linux s.impl action = some (impl, client) ∧ { s with impl, client } = s' := by
    simp only [system, System.step, if_neg h.running.2] at hstep
    obtain ⟨⟨impl, client⟩, hclient, rfl⟩ := Option.map_eq_some_iff.mp hstep
    exact ⟨impl, client, hclient, rfl⟩
  have hexchange : exchange.step t (.client action) = some { t with impl, client } := by
    simp [exchange, Exchange.step, hregular, ← h.impl, ← h.client, hclient]
  exact ⟨_, Machine.run_singleton.trans hexchange, { h with
    impl := rfl, client := rfl, good := h.good.step hexchange }⟩

/-- A frame that is sent is the last that has not been dispatched. -/
theorem transmit_step (h : Follows s t) {sent : SentFrame}
    (hregular : s.Regular (.transmit sent))
    (hstep : system.step s (.transmit sent) = some s') :
    ∃ t', exchange.run t [.transmit sent] = some t' ∧ Follows s' t' := by
  obtain rfl := Option.some.inj hstep
  have hsends : DeviceSends t.client.calls t.impl.portOutput (t.done ++ t.pending) sent := by
    rw [← h.client, ← h.impl, ← h.sent]
    exact hregular
  have hexchange : exchange.step t (.transmit sent) =
      some { t with pending := t.pending ++ [sent] } := if_pos hsends
  refine ⟨_, Machine.run_singleton.trans hexchange, { h with
    sent := ?_, bytes := ?_, good := h.good.step hexchange }⟩
  · rw [h.sent, List.append_assoc]
  · have hbytes : bytesOf (t.pending ++ [sent]) = bytesOf t.pending ++ sent.bytes := by
      simp [bytesOf]
    rw [hbytes, ← List.append_assoc]
    exact repair_append_congr h.bytes sent.bytes

/-- A read moves bytes from the port to the buffer. -/
theorem read_step (h : Follows s t) {buflen : Nat}
    (hstep : system.step s (.read buflen) = some s') : Follows s' t := by
  simp only [system, System.step, appendDataFromPort] at hstep
  split_ifs at hstep with hreader hmessageEnd
  all_goals
    obtain rfl := Option.some.inj hstep
    refine { h with bytes := ?_, signalling := ?_, running := by simp }
    · rw [List.append_assoc, List.take_append_drop]
      exact h.bytes
    · simpa [hreader] using h.signalling

/-- A round takes the first frame that has not been dispatched, or finds none in
the buffer. -/
theorem round_step (h : Follows s t) (hstep : system.step s .round = some s') :
    ∃ actions t', exchange.run t actions = some t' ∧ Follows s' t' := by
  simp only [system, System.step] at hstep
  split_ifs at hstep with hreader
  have hsignalling := h.signalling
  rw [hreader] at hsignalling
  rw [h.impl] at hstep
  cases hlook : (lexer t.impl.msgParser.stateType).look s.receivedBytes with
  | none =>
    obtain ⟨last, hround⟩ := beginRound_wait hlook
    rw [hround] at hstep
    obtain rfl := Option.some.inj hstep
    refine ⟨[.parse last], _, Machine.run_singleton.trans rfl, { h with
      impl := rfl, bytes := ?_, signalling := hsignalling, running := by simp
      good := h.good.parse last }⟩
    rw [repair_repair_append]
    exact h.bytes
  | some found =>
    obtain ⟨item, rest⟩ := found
    obtain ⟨sent, pending, hpending, rfl, hrest⟩ :=
      stream_takes t.impl.msgParser h.good.sized h.bytes hlook
    obtain ⟨last, hround⟩ := beginRound_message hlook
    rw [@beginMessage_frame (withParse t.impl last) h.good.listener sent] at hround
    have hexchange : exchange.step { t with impl := withParse t.impl last } .store = some { t with
        impl := storeFrame (withParse t.impl last) sent, done := t.done ++ [sent], pending
        signalling := !isAsync sent } := by
      simp [exchange, Exchange.step, hsignalling, hpending]
    obtain rfl : s' = { s with
        impl := storeFrame (withParse t.impl last) sent, receivedBytes := rest
        reader := if isAsync sent then .processing else .signalling } := by
      rw [hround] at hstep
      cases hasync : isAsync sent <;> simpa [hasync] using hstep.symm
    refine ⟨[.parse last, .store], _, Machine.run_cons.mpr ⟨_, rfl,
      Machine.run_singleton.trans hexchange⟩, ?_⟩
    exact {
      impl := rfl, client := h.client, sent := by simp [h.sent, hpending]
      bytes := by rw [hrest], signalling := by cases isAsync sent <;> simp
      running := by cases isAsync sent <;> simp
      good := (h.good.parse last).step hexchange }

theorem signal_step (h : Follows s t) (hstep : system.step s .signal = some s') :
    ∃ t', exchange.run t [.signal] = some t' ∧ Follows s' t' := by
  simp only [system, System.step] at hstep
  split_ifs at hstep with hreader
  have hsignalling := h.signalling
  rw [hreader] at hsignalling
  rw [h.impl, setMyEvent_eq .linux h.good.writes] at hstep
  obtain rfl := Option.some.inj hstep
  have hexchange : exchange.step t .signal = some { t with
      impl := { t.impl with newMsgEvent := t.impl.newMsgEvent + 1 }.emit .newMsgSignalled
      signalling := false } := by
    simp [exchange, Exchange.step, hsignalling, setMyEvent_eq .linux h.good.writes, signalled]
  exact ⟨_, Machine.run_singleton.trans hexchange, { h with
    impl := rfl, signalling := rfl, running := by simp, good := h.good.step hexchange }⟩

end Follows

/-- The system follows the exchange of frames. -/
theorem system_follows : Machine.Simulation system System.Regular exchange Follows := by
  intro s s' t action h hregular hstep
  cases action with
  | client action => exact ⟨_, h.client_step hregular hstep⟩
  | transmit sent => exact ⟨_, h.transmit_step hregular hstep⟩
  | read buflen => exact ⟨[], t, rfl, h.read_step hstep⟩
  | round => exact h.round_step hstep
  | signal => exact ⟨_, h.signal_step hstep⟩

/-- In every state of a session, each call that has ended has returned the
value that its own response encodes, the listener has been called with the
payloads of the asynchronous messages dispatched so far, in order, and the
reader thread runs. -/
theorem session_endToEnd {msgParser : CDCMessageParserPrivate} {actions : List SystemAction}
    {s : System} (halong : system.Along System.Regular (.start msgParser) actions)
    (hrun : system.run (.start msgParser) actions = some s) :
    (∀ k result, s.client.results[k]? = some result →
      Answered s.client.calls (responsesOf s.sent) k result) ∧
    (∃ dispatched pending, s.sent = dispatched ++ pending ∧
      dispatchedMessages s.impl.log = dispatched.map (·.frame.message) ∧
      listenerCalls s.impl.log = dispatched.filterMap payloadOf) ∧
    s.reader ≠ .returned ∧ s.reader ≠ .terminated := by
  obtain ⟨_, t, -, h⟩ := Machine.Simulation.run system_follows (follows_start msgParser) halong hrun
  refine ⟨?_, ⟨t.done, t.pending, h.sent, ?_, ?_⟩, h.running⟩
  · rw [h.client, h.sent]
    exact h.good.results
  · rw [h.impl]
    exact h.good.dispatched
  · rw [h.impl]
    exact h.good.listened

/-- A test, with an asynchronous message that arrives in two reads before its
response. -/
theorem session_endToEnd_test :
    ∃ s, system.run (.start (.new listedOnly)) [.client (.call .test),
        .transmit ⟨.async ⟨[cr], by decide⟩, true⟩, .client (.send (.written 1)), .read 3,
        .client (.send (.written 1)), .transmit ⟨.test, false⟩, .read 1024, .round, .round,
        .signal, .client (.wait .signalled), .round, .client .check, .client .answer] = some s ∧
      s.client.calls = [.test] ∧ s.client.results.length = 1 ∧ s.sent.length = 2 ∧
      (∀ k result, s.client.results[k]? = some result →
        Answered s.client.calls (responsesOf s.sent) k result) ∧
      s.reader ≠ .terminated := by
  have hfinal : (system.run (.start (.new listedOnly)) [.client (.call .test),
      .transmit ⟨.async ⟨[cr], by decide⟩, true⟩, .client (.send (.written 1)), .read 3,
      .client (.send (.written 1)), .transmit ⟨.test, false⟩, .read 1024, .round, .round,
      .signal, .client (.wait .signalled), .round, .client .check, .client .answer]).map
        (fun s => (s.client.calls, s.client.results.length, s.sent.length)) =
      some ([.test], 1, 2) := by
    decide
  obtain ⟨s, hrun, hs⟩ := Option.map_eq_some_iff.mp hfinal
  obtain ⟨hcalls, hs⟩ := Prod.mk.inj hs
  obtain ⟨hresults, hsent⟩ := Prod.mk.inj hs
  obtain ⟨hanswered, -, -, hreader⟩ := session_endToEnd (by decide) hrun
  exact ⟨s, hrun, hcalls, hresults, hsent, hanswered, hreader⟩

end Clibcdc
