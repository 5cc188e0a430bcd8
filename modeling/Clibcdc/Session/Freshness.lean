import Clibcdc.Session.Basic

/-!
# Is the response that a command accepts its own?

`processCommand` returns when the last response has passed its check.  The
response is fresh when the reader thread has stored it since the command began.

* On Windows it always is: `sendCommand` resets the event
  (`processCommand_fresh_windows`).
* On Linux `sendCommand` leaves the event as it is.  A response that arrives
  after its command has run out of time stays signalled, and the wait of the
  next command takes the signal for its own.  `processCommand_fresh` says that
  nothing else goes wrong, and that this always can.
-/

namespace Clibcdc

open Clibcdc.Automata Clibcdc.Parser Clibcdc.Reader

/-- The last response is the latest that was stored since the call began. -/
def Session.Fresh (s : Session) : Prop :=
  (storedResponses (s.impl.log.drop s.began)).getLast? = some s.impl.lastResponse

instance : DecidablePred Session.Fresh := fun s =>
  inferInstanceAs (Decidable
    ((storedResponses (s.impl.log.drop s.began)).getLast? = some s.impl.lastResponse))

/-- The check of the last response for `cmd` throws. -/
def Refuses (lastResponse : ParsedMessage) (cmd : Command) : Prop :=
  ∃ e, checkResponse cmd lastResponse = .error e

/-- A call that starts finds the event cleared, or a last response that the
check of its command refuses. -/
def StartsClean (s : Session) : SessionAction → Prop
  | .client (.call op) => ∀ cmd, op.command = .ok cmd →
      s.impl.newMsgEvent = 0 ∨ Refuses s.impl.lastResponse cmd
  | _ => True

/-! ## The invariant -/

/-- The command that the last response would be checked for if the reader
thread did nothing more. -/
def ClientPhase.checks (newMsgEvent : Nat) : ClientPhase → Option Command
  | .sending _ cmd _ | .writing _ cmd | .waiting _ cmd =>
    if newMsgEvent = 0 then none else some cmd
  | .checking _ cmd => some cmd
  | .idle | .answering _ _ => none

theorem checks_sendLoop (newMsgEvent : Nat) (op : Operation) (cmd : Command) (text : UString) :
    (sendLoop op cmd text).checks newMsgEvent = if newMsgEvent = 0 then none else some cmd := by
  unfold sendLoop
  by_cases htext : text = []
  · rw [if_pos htext]
    rfl
  · rw [if_neg htext]
    rfl

/-- What would be checked is fresh, or will be refused. -/
structure Session.Sound (s : Session) : Prop where
  began : s.began ≤ s.impl.log.length
  responses : ∀ response ∈ storedResponses (s.impl.log.drop s.began),
    response.parseResult.msgType ≠ .msgAsync
  checks : ∀ cmd, s.client.phase.checks s.impl.newMsgEvent = some cmd →
    s.Fresh ∨ Refuses s.impl.lastResponse cmd

theorem Session.sound_start (impl : CDCImplPrivate) : (Session.start impl).Sound where
  began := Nat.le_refl _
  responses := by
    simp [Session.start, storedResponses]
  checks := by
    intro cmd hcmd
    cases hcmd

variable {platform : Platform} {s s' : Session}

/-- A response that is stored is fresh. -/
theorem sound_dispatch {parsedMessage : ParsedMessage} (hs : s.Sound)
    (hstep : (session platform).step s (.dispatch parsedMessage) = some s') : s'.Sound := by
  obtain ⟨⟨effects, hdispatches⟩, hclient, hbegan, -⟩ := session_dispatch hstep
  have hlog : storedResponses (s'.impl.log.drop s'.began) =
      storedResponses (s.impl.log.drop s.began) ++ storedResponses effects := by
    rw [hdispatches.log, hbegan, List.drop_append_of_le_length hs.began, storedResponses_append]
  have hle : s'.began ≤ s'.impl.log.length := by
    rw [hbegan, hdispatches.log, List.length_append]
    exact Nat.le_add_right_of_le hs.began
  rcases hdispatches.stores with
    ⟨-, hstores, hresponse, hevent⟩ | ⟨hasync, hstores, hresponse⟩
  all_goals rw [hstores] at hlog
  · rw [List.append_nil] at hlog
    refine ⟨hle, by rw [hlog]; exact hs.responses, fun cmd hcmd => ?_⟩
    rw [hclient, hevent] at hcmd
    rw [Session.Fresh, hlog, hresponse]
    exact hs.checks cmd hcmd
  · refine ⟨hle, fun response hmem => ?_, fun cmd _ => .inl ?_⟩
    · rw [hlog, List.mem_append, List.mem_singleton] at hmem
      rcases hmem with hmem | rfl
      · exact hs.responses response hmem
      · exact hasync
    · rw [Session.Fresh, hlog, hresponse]
      simp

/-- The client does not touch what makes a response fresh. -/
theorem sound_client {action : ClientAction} (hs : s.Sound)
    (hclean : platform = .linux → StartsClean s (.client action))
    (hstep : (session platform).step s (.client action) = some s') : s'.Sound := by
  obtain ⟨hsteps, -, hbegan, -⟩ := session_client hstep
  obtain ⟨impl, client, running, began, checked⟩ := s
  obtain ⟨impl', client', running', began', checked'⟩ := s'
  dsimp only at hsteps hbegan
  subst hbegan
  have hnone : ∀ log : List Effect, ∀ response ∈ storedResponses (log.drop log.length),
      response.parseResult.msgType ≠ .msgAsync := by
    simp [storedResponses]
  cases hsteps with
  | refused hphase herror =>
    exact ⟨Nat.le_refl _, hnone _, fun cmd hcmd => by cases hcmd⟩
  | started hphase hreception hcommand htext =>
    refine ⟨Nat.le_refl _, hnone _, fun cmd hcmd => ?_⟩
    dsimp only [ClientPhase.checks] at hcmd
    rw [Option.ite_none_left_eq_some] at hcmd
    obtain ⟨hevent, hcmd⟩ := hcmd
    obtain rfl := Option.some.inj hcmd
    exact .inr ((hclean rfl _ hcommand).resolve_left hevent)
  | reset hphase hreception hcommand =>
    exact ⟨Nat.le_refl _, hnone _, fun cmd hcmd => by cases hcmd⟩
  | written hphase hwritten =>
    refine ⟨hs.began, hs.responses, fun cmd hcmd => hs.checks cmd ?_⟩
    rw [checks_sendLoop] at hcmd
    rwa [hphase]
  | wrote hphase htext =>
    refine ⟨hs.began, hs.responses, fun cmd hcmd => hs.checks cmd ?_⟩
    rwa [hphase]
  | signalled hphase hevent =>
    cases platform with
    | linux | windows =>
      refine ⟨hs.began, hs.responses, fun cmd hcmd => hs.checks cmd ?_⟩
      rw [hphase, ClientPhase.checks, if_neg (Nat.ne_of_gt hevent)]
      exact hcmd
  | accepted | sendFailed | writeFailed | waitFailed | rejected | answered =>
    exact ⟨hs.began, hs.responses, fun cmd hcmd => by cases hcmd⟩

theorem sound_step {action : SessionAction} (hs : s.Sound)
    (hclean : platform = .linux → StartsClean s action)
    (hstep : (session platform).step s action = some s') : s'.Sound := by
  cases action with
  | client action => exact sound_client hs hclean hstep
  | dispatch parsedMessage => exact sound_dispatch hs hstep

/-! ## What is accepted -/

/-- A check that succeeds leads to the answer of the command that it was for. -/
theorem checked_of_answering {op : Operation} {cmd : Command}
    (hcheck : (session platform).step s (.client .check) = some s')
    (hphase : s'.client.phase = .answering op cmd) :
    s.client.phase = .checking op cmd ∧ checkResponse cmd s.impl.lastResponse = .ok () := by
  obtain ⟨hsteps, -⟩ := session_client hcheck
  obtain ⟨impl, client, running, began, checked⟩ := s
  obtain ⟨impl', client', running', began', checked'⟩ := s'
  dsimp only at hsteps hphase ⊢
  cases hsteps with
  | accepted hchecking haccepts =>
    obtain ⟨rfl, rfl⟩ := ClientPhase.answering.inj hphase
    exact ⟨hchecking, haccepts⟩
  | rejected => cases hphase

/-- What passes the check of a sound session is fresh. -/
theorem Session.Sound.fresh {op : Operation} {cmd : Command} (hs : s.Sound)
    (hcheck : (session platform).step s (.client .check) = some s')
    (hphase : s'.client.phase = .answering op cmd) : s.Fresh := by
  obtain ⟨hchecking, haccepts⟩ := checked_of_answering hcheck hphase
  refine (hs.checks cmd (by rw [hchecking]; rfl)).resolve_right ?_
  rintro ⟨e, he⟩
  cases haccepts.symm.trans he

theorem consistent_step {action : SessionAction} (hs : s.client.Consistent)
    (hstep : (session platform).step s action = some s') : s'.client.Consistent := by
  cases action with
  | client action => exact (session_client hstep).1.consistent hs
  | dispatch parsedMessage => rwa [(session_dispatch hstep).2.1]

/-- On Windows a response that passes the check of a command has been stored
since that command reset the event, and it has a type that answers the
command. -/
theorem processCommand_fresh_windows (impl : CDCImplPrivate) {actions : List SessionAction}
    {s s' : Session} {op : Operation} {cmd : Command}
    (hrun : (session .windows).run (.start impl) actions = some s)
    (hcheck : (session .windows).step s (.client .check) = some s')
    (hphase : s'.client.phase = .answering op cmd) :
    (op.command = .ok cmd ∧ ∃ done, s.client.calls = done ++ [op] ∧
        s.client.results.length = done.length) ∧
      s.Fresh ∧ s.impl.lastResponse.parseResult.msgType ≠ .msgAsync ∧
      (s.impl.lastResponse.parseResult.msgType = cmd.msgType ∨
        (cmd.msgType = .msgUploadDownload ∧
          s.impl.lastResponse.parseResult.msgType = .msgDownloadData ∧
          cmd.data.headD 0 &&& 0x80 = 0)) := by
  have hsound := Machine.invariant (I := Session.Sound)
    (fun hs hstep => sound_step hs (fun h => by cases h) hstep) (Session.sound_start impl) hrun
  have hconsistent := Machine.invariant (I := fun s => s.client.Consistent) consistent_step
    Client.consistent_new hrun
  obtain ⟨hchecking, haccepts⟩ := checked_of_answering hcheck hphase
  have hfresh := hsound.fresh hcheck hphase
  refine ⟨⟨hconsistent.command op cmd (by rw [hchecking]; rfl), ?_⟩, hfresh,
    hsound.responses _ (List.mem_of_getLast? hfresh), checkResponse_ok.mp haccepts⟩
  obtain ⟨done, hcalls, hlen⟩ := hconsistent.calls
  rw [hchecking] at hcalls
  exact ⟨done, hcalls, hlen⟩

/-- A call that does not start clean can accept the response that was there
before it. -/
theorem stale_of_not_clean {op : Operation} {cmd : Command} {text : UString}
    (hphase : s.client.phase = .idle) (hreception : s.impl.receptionStopped = false)
    (hcommand : op.command = .ok cmd) (htext : commandText cmd = .ok text)
    (hclean : ¬ StartsClean s (.client (.call op))) :
    ∃ s₁ s₂, (session .linux).run s [.client (.call op), .client (.send (.written text.length)),
        .client (.wait .signalled)] = some s₁ ∧
      (session .linux).step s₁ (.client .check) = some s₂ ∧
      s₂.client.phase = .answering op cmd ∧ ¬ s₁.Fresh := by
  have hstale : 0 < s.impl.newMsgEvent ∧ checkResponse cmd s.impl.lastResponse = .ok () := by
    simp only [StartsClean, not_forall, not_or] at hclean
    obtain ⟨cmd', hcommand', hevent, hrefuses⟩ := hclean
    obtain rfl := Except.ok.inj (hcommand'.symm.trans hcommand)
    refine ⟨Nat.pos_of_ne_zero hevent, ?_⟩
    cases haccepts : checkResponse cmd' s.impl.lastResponse with
    | ok _ => rfl
    | error e => exact absurd ⟨e, haccepts⟩ hrefuses
  obtain ⟨buffer, bufferLen, hstart⟩ := startCall_linux hreception hcommand htext
  obtain ⟨body, hbody⟩ := commandText_ends htext
  obtain ⟨impl, ⟨phase, calls, results⟩, running, began, checked⟩ := s
  dsimp only at hphase hreception hstale hstart
  subst hphase
  refine ⟨{
      impl := { impl with
        m_transmitBuffer := buffer, m_transmitBufferLen := bufferLen
        portOutput := impl.portOutput ++ text, newMsgEvent := 0 }
      client := ⟨.checking op cmd, calls ++ [op], results⟩
      readerRunning := running, began := impl.log.length, checked }, {
      impl := { impl with
        m_transmitBuffer := buffer, m_transmitBufferLen := bufferLen
        portOutput := impl.portOutput ++ text, newMsgEvent := 0 }
      client := ⟨.answering op cmd, calls ++ [op], results⟩
      readerRunning := running, began := impl.log.length, checked := impl.log.length },
    ?_, ?_, rfl, ?_⟩
  · simp [Machine.run, session, Session.clientStep, Client.step, hstart, Client.proceed,
      SendOutcome.Possible, sendRound, sendLoop, WaitOutcome.Possible, hstale.1, waitForMyEvent,
      CDCImplPrivate.consumeMyEvent, Session.beganAfter, Session.checkedAfter]
  · simp [session, Session.clientStep, Client.step, hstale.2, Client.proceed,
      Session.beganAfter, Session.checkedAfter]
  · simp [Session.Fresh, storedResponses]

/-- On Linux a response that passes the check of a command has been stored
since that command began, in every run whose calls start clean.  From any state
in which a call would not start clean, the call can accept a response that was
stored before it. -/
theorem processCommand_fresh (impl : CDCImplPrivate) :
    (∀ {actions : List SessionAction} {s s' : Session} {op : Operation} {cmd : Command},
      (session .linux).Along StartsClean (.start impl) actions →
      (session .linux).run (.start impl) actions = some s →
      (session .linux).step s (.client .check) = some s' →
      s'.client.phase = .answering op cmd → s.Fresh) ∧
    ∀ {s : Session} {op : Operation} {cmd : Command} {text : UString},
      s.client.phase = .idle → s.impl.receptionStopped = false → op.command = .ok cmd →
      commandText cmd = .ok text → ¬ StartsClean s (.client (.call op)) →
      ∃ s₁ s₂, (session .linux).run s [.client (.call op),
          .client (.send (.written text.length)), .client (.wait .signalled)] = some s₁ ∧
        (session .linux).step s₁ (.client .check) = some s₂ ∧
        s₂.client.phase = .answering op cmd ∧ ¬ s₁.Fresh := by
  refine ⟨fun hclean hrun hcheck hphase => ?_, stale_of_not_clean⟩
  have hsound := Machine.invariant_along (I := Session.Sound)
    (fun hs hclean hstep => sound_step hs (fun _ => hclean) hstep) (Session.sound_start impl)
    hclean hrun
  exact hsound.fresh hcheck hphase

/-- A run that ends with a check that succeeds. -/
private theorem exists_checked {platform : Platform} {s₀ : Session} {actions : List SessionAction}
    {phase : ClientPhase} (h : ((session platform).run s₀
      (actions ++ [.client .check])).map (·.client.phase) = some phase) :
    ∃ s s', (session platform).run s₀ actions = some s ∧
      (session platform).step s (.client .check) = some s' ∧ s'.client.phase = phase := by
  obtain ⟨s', hrun, hphase⟩ := Option.map_eq_some_iff.mp h
  obtain ⟨s, hactions, hcheck⟩ := Machine.run_append.mp hrun
  exact ⟨s, s', hactions, Machine.run_singleton ▸ hcheck, hphase⟩

theorem processCommand_fresh_test :
    ∃ s, (session .linux).run (.start (.init (.new listedOnly))) [.client (.call .test),
      .client (.send (.written 2)), .dispatch Frame.test.message, .client (.wait .signalled)] =
        some s ∧ s.Fresh := by
  obtain ⟨s, s', hrun, hcheck, hphase⟩ := @exists_checked .linux (.start (.init (.new listedOnly)))
    [.client (.call .test), .client (.send (.written 2)), .dispatch Frame.test.message,
      .client (.wait .signalled)] (.answering .test ⟨.msgTest, []⟩) (by decide)
  refine ⟨s, hrun, (processCommand_fresh (.init (.new listedOnly))).1 ?_ hrun hcheck hphase⟩
  exact ⟨fun _ _ => .inl rfl, fun _ _ => ⟨trivial, fun _ _ => ⟨trivial, fun _ _ =>
    ⟨trivial, fun _ _ => trivial⟩⟩⟩⟩

/-- The answer to a test that has run out of time is accepted as the answer to
the next test. -/
theorem processCommand_accepts_late_answer :
    ∃ (actions : List SessionAction) (s s' : Session),
      (session .linux).run (.start (.init (.new listedOnly))) actions = some s ∧
      (session .linux).step s (.client .check) = some s' ∧
      s'.client.phase = .answering .test ⟨.msgTest, []⟩ ∧ ¬ s.Fresh := by
  have hstale : ((session .linux).run (.start (.init (.new listedOnly))) [.client (.call .test),
      .client (.send (.written 2)), .client (.wait .timedOut), .dispatch Frame.test.message,
      .client (.call .test), .client (.send (.written 2)), .client (.wait .signalled)]).all
        (¬ ·.Fresh) = true := by
    decide
  obtain ⟨s, s', hrun, hcheck, hphase⟩ := @exists_checked .linux (.start (.init (.new listedOnly)))
    [.client (.call .test), .client (.send (.written 2)), .client (.wait .timedOut),
      .dispatch Frame.test.message, .client (.call .test), .client (.send (.written 2)),
      .client (.wait .signalled)] (.answering .test ⟨.msgTest, []⟩) (by decide)
  refine ⟨_, s, s', hrun, hcheck, hphase, ?_⟩
  rw [hrun] at hstale
  simpa using hstale

theorem processCommand_fresh_windows_test :
    ∃ s, (session .windows).run (.start (.init (.new listedOnly))) [.client (.call .test),
      .client (.writeFile (.completed 2)), .dispatch Frame.test.message,
      .client (.wait .signalled)] = some s ∧ s.Fresh ∧
      s.impl.lastResponse.parseResult.msgType = .msgTest := by
  obtain ⟨s, s', hrun, hcheck, hphase⟩ :=
    @exists_checked .windows (.start (.init (.new listedOnly)))
      [.client (.call .test), .client (.writeFile (.completed 2)), .dispatch Frame.test.message,
        .client (.wait .signalled)] (.answering .test ⟨.msgTest, []⟩) (by decide)
  obtain ⟨-, hfresh, -, htype⟩ := processCommand_fresh_windows _ hrun hcheck hphase
  exact ⟨s, hrun, hfresh, htype.resolve_right (fun h => by cases h.1)⟩

end Clibcdc
