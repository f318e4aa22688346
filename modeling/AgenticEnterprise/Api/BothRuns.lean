import AgenticEnterprise.Api.Conversations
import AgenticEnterprise.Api.TrailLedger

/-! `/run` beside `/run/stream`: the same run of the graph behind either of them, and
what their clients are told of it. -/

set_option autoImplicit false

namespace AgenticEnterprise.Api.BothRuns

open Core Library Graph Threads ExecutionTrail StreamVerdict

/-- The two routes have done the same, and have told the same of a run that completes or
is cut off. Only the trail may differ. -/
structure SameRun (run stream : Served) : Prop where
  system : { run.system with executions := stream.system.executions } = stream.system
  supersteps : run.supersteps = stream.supersteps
  completed : (∃ response, run.response = { body := .agent response }) ↔
    ∃ messages, stream.response = { body := .events (messages ++ [doneEvent]) }
  cutOff : ∀ messages, stream.response = { body := .events (messages ++ [recursionEvent]) } →
    run.response = errorResponse maxRecursionError

section

variable (deployment : Deployment) (outside : Outside) (payload : AgentRequest)
  (username : String)

/-- The state once the graph has run, if it is run at all. -/
def launch (state : State) : State :=
  match outside.fault .buildWorkflow, outside.fault .getTools with
  | none, none =>
      let ran := runOn deployment outside { username := username }
        (some [.human payload.taskDescription]) "" (state.runInputs (runThreadId payload))
      ((recordRun (runThreadId payload) ran.2 ran.1.steps).exec state).2
  | _, _ => state

end

section

variable {deployment : Deployment} {outside : Outside} {payload : AgentRequest}
  {username : String} {state : State}

theorem runAgent_launch :
    ∃ rows, ((runAgent deployment outside payload username).exec state).2 =
      { launch deployment outside payload username state with added := rows } := by
  rw [runAgent, Effect.exec_bind]
  simp only [addExecution, changeSession, Effect.exec_write]
  rw [Effect.exec_tryCatch, Effect.exec_bind, answer_exec]
  unfold launch
  cases outside.fault .buildWorkflow with
  | some failure =>
      dsimp only
      cases failure <;> exact ⟨_, rfl⟩
  | none =>
      cases outside.fault .getTools with
      | some failure =>
          dsimp only
          cases failure <;> exact ⟨_, rfl⟩
      | none =>
          dsimp only
          generalize Except.map Message.content _ = answered
          rcases answered with failure | output
          · cases failure <;> exact ⟨_, rfl⟩
          · exact ⟨_, rfl⟩

theorem runAgentStream_launch :
    ∃ rows, ((runAgentStream deployment outside payload username).exec state).2 =
      { launch deployment outside payload username state with added := rows } := by
  rw [runAgentStream, Effect.exec_bind]
  simp only [addExecution, changeSession, Effect.exec_write, streamRun, Effect.exec_bind,
    Effect.exec_tryCatch, call, Effect.exec_ofExcept]
  unfold launch
  cases outside.fault .buildWorkflow with
  | some failure =>
      dsimp only
      cases failure <;> exact ⟨_, rfl⟩
  | none =>
      cases outside.fault .getTools with
      | some failure =>
          dsimp only
          cases failure <;> exact ⟨_, rfl⟩
      | none =>
          simp only [astream, Effect.exec_bind, Effect.exec_read, recordRun, Effect.exec_write,
            Effect.exec_pure]
          generalize outside.ending outside.recursionLimit _ = ended
          rcases ended with failure | final
          · cases failure <;> exact ⟨_, rfl⟩
          · exact ⟨_, rfl⟩

/-- Behind an input there always is a last message, so that a run answers if it
completes. -/
theorem outcome_of_ended {system : System} :
    match (graphRun deployment outside payload username
        { system := system, added := [execution payload] }).outcome with
    | .ok _ => ∃ output, outcome deployment outside system payload username = .ok output
    | .error failure => outcome deployment outside system payload username = .error failure := by
  unfold outcome graphRun Run.outcome raised graphExecution
  rw [answer_exec]
  cases outside.fault .buildWorkflow with
  | some failure => rfl
  | none =>
      cases outside.fault .getTools with
      | some failure => rfl
      | none =>
          dsimp only
          cases ended : outside.ending outside.recursionLimit
            (runOn deployment outside { username := username }
              (some [.human payload.taskDescription]) ""
              (State.runInputs (runThreadId payload)
                { system := system, added := [execution payload] })).1.result with
          | error failure => rfl
          | ok final =>
              obtain ⟨⟨replies, grown⟩, _⟩ :=
                Conversations.runOn_messages (result_of_ending ended)
              have spoken : final.messages ≠ [] := by simp [← grown]
              have last := List.getLast?_eq_some_getLast spoken
              have answered := bind_eq_ok_iff.mpr
                ⟨final, rfl, Engine.lastMessage_eq_ok_iff.mpr last⟩
              exact ⟨_, by rw [answered]; rfl⟩

variable {token : Option String} {system : System}

theorem streamed_eq (called : currentUser deployment outside token = .ok username)
    (admitted : outside.fault .limiter = none) :
    serve deployment outside system { token := token, route := .runStream (some payload) } =
      match (runAgentStream deployment outside payload username).exec { system := system } with
      | (.ok (response, none), after) =>
          ⟨response, after.supersteps, (after.commit outside).system⟩
      | (.ok (response, some _), after) => ⟨response, after.supersteps, after.rollback.system⟩
      | (.error failure, after) =>
          ⟨errorResponse failure, after.supersteps, after.rollback.system⟩ := by
  simp only [serve, handle, getDbStreaming_exec, Effect.exec_bind, getCurrentUser, validated,
    Effect.exec_ofExcept, called, limited_exec admitted]
  rcases (runAgentStream deployment outside payload username).exec { system := system } with
    ⟨failure | ⟨response, _ | broken⟩, after⟩
  · rfl
  · simp only [supersteps_commit]
  · rfl

theorem unanswered (failure : Exn) :
    ¬∃ response, errorResponse failure = { body := .agent response } := by
  rintro ⟨response, told⟩
  cases failure <;> cases told

theorem SameRun.refused {failure : Exn} {served : Served}
    (told : served.response = errorResponse failure) : SameRun served served where
  system := rfl
  supersteps := rfl
  completed := by
    rw [told]
    refine iff_of_false (unanswered failure) fun done => ?_
    obtain ⟨messages, sent⟩ := done
    cases failure <;> cases sent
  cutOff messages sent := by
    rw [told] at sent
    cases failure <;> cases sent

/-- The end of a session leaves what the run has left. -/
theorem system_of_ended (settled : state.system.ownership.Settled) {rows : List AgentExecution}
    {executions : List AgentExecution} :
    { (State.commit outside { state with added := rows }).system with executions := executions } =
        { state.system with executions := executions } ∧
      { (State.rollback { state with added := rows }).system with executions := executions } =
        { state.system with executions := executions } := by
  unfold State.commit State.rollback
  rw [settled.rollback_eq]
  cases outside.fault .commit with
  | none => simp only [settled.commit_eq, and_self]
  | some failure => simp only [and_self]

theorem ownership_launch :
    (launch deployment outside payload username state).system.ownership =
      state.system.ownership := by
  unfold launch
  split <;> rfl

/-- Wherever the two sessions end up, they have left the same run. -/
theorem systems_agree (settled : state.system.ownership.Settled) {left right : State}
    {rows others : List AgentExecution} {run stream : System}
    (ran : left = { state with added := rows }) (streamed : right = { state with added := others })
    (runEnds : run = (left.commit outside).system ∨ run = left.rollback.system)
    (streamEnds : stream = (right.commit outside).system ∨ stream = right.rollback.system) :
    { run with executions := stream.executions } = stream := by
  subst ran streamed
  have former := @system_of_ended outside state settled rows stream.executions
  have latter := @system_of_ended outside state settled others stream.executions
  calc { run with executions := stream.executions }
      = { state.system with executions := stream.executions } := by
        rcases runEnds with rfl | rfl
        · exact former.1
        · exact former.2
    _ = { stream with executions := stream.executions } := by
        rcases streamEnds with same | same
        · rw [← same] at latter
          exact latter.1.symm
        · rw [← same] at latter
          exact latter.2.symm

theorem runAgent_error {failure : Exn}
    (failed : outcome deployment outside system payload username = .error failure) :
    ∃ raised left, (failure = .graphRecursionError → raised = maxRecursionError) ∧
      (runAgent deployment outside payload username).exec { system := system } =
        (.error raised, left) := by
  obtain ⟨reached, _, _, ran⟩ := @runAgent_exec deployment outside system payload username
  rw [failed] at ran
  cases failure with
  | graphRecursionError => exact ⟨_, _, fun _ => rfl, ran⟩
  | _ => exact ⟨_, _, nofun, ran⟩

theorem runAgent_answers {output : String}
    (answered : outcome deployment outside system payload username = .ok output) :
    ∃ left, (runAgent deployment outside payload username).exec { system := system } =
      (.ok { body := .agent (agentResponse payload output) }, left) := by
  obtain ⟨reached, _, _, ran⟩ := @runAgent_exec deployment outside system payload username
  rw [answered] at ran
  exact ⟨_, ran⟩

theorem last_event {messages others : List StreamEvent} {event other : StreamEvent}
    (same : (⟨200, .events (messages ++ [event])⟩ : Response) =
      ⟨200, .events (others ++ [other])⟩) : event = other := by
  injection same with _ same
  injection same with same
  simpa using (List.append_inj' same rfl).2

theorem accepted_same (settled : system.ownership.Settled)
    (called : currentUser deployment outside token = .ok username)
    (admitted : outside.fault .limiter = none) :
    SameRun (serve deployment outside system { token := token, route := .run (some payload) })
      (serve deployment outside system
        { token := token, route := .runStream (some payload) }) := by
  have run := @served_eq deployment outside system token payload username called admitted
  unfold served at run
  rw [streamed_eq called admitted, run]
  obtain ⟨rows, ranLeft⟩ := @runAgent_launch deployment outside payload username
    { system := system }
  obtain ⟨others, streamLeft⟩ := @runAgentStream_launch deployment outside payload username
    { system := system }
  obtain ⟨messages, after, _, plain, ended⟩ :=
    @TrailLedger.runAgentStream_told deployment outside { system := system } payload username rfl
  have told := @outcome_of_ended deployment outside payload username system
  have owned : (launch deployment outside payload username
      { system := system }).system.ownership.Settled := by
    rw [ownership_launch]
    exact settled
  rcases ended with ⟨done, streamed⟩ | ⟨cut, streamed⟩ | ⟨broken, broke, streamed⟩
  · rw [show (graphRun deployment outside payload username
      { system := system, added := [execution payload] }).outcome = _ from done] at told
    obtain ⟨output, answered⟩ := told
    obtain ⟨left, ran⟩ := runAgent_answers answered
    rw [ran] at ranLeft ⊢
    rw [streamed] at streamLeft ⊢
    exact {
      system := systems_agree owned ranLeft streamLeft (.inl rfl) (.inl rfl)
      supersteps :=
        (congrArg State.supersteps ranLeft).trans (congrArg State.supersteps streamLeft).symm
      completed := ⟨fun _ => ⟨messages, rfl⟩, fun _ => ⟨_, rfl⟩⟩
      cutOff := fun others sent => absurd (last_event sent) (by decide) }
  · rw [show (graphRun deployment outside payload username
      { system := system, added := [execution payload] }).outcome = _ from cut] at told
    obtain ⟨raised, left, recursion, ran⟩ := runAgent_error told
    cases recursion rfl
    rw [ran] at ranLeft ⊢
    rw [streamed] at streamLeft ⊢
    exact {
      system := systems_agree owned ranLeft streamLeft (.inr rfl) (.inl rfl)
      supersteps :=
        (congrArg State.supersteps ranLeft).trans (congrArg State.supersteps streamLeft).symm
      completed := iff_of_false (unanswered maxRecursionError) fun done =>
        absurd (last_event done.choose_spec) (by decide)
      cutOff := fun _ _ => rfl }
  · rw [show (graphRun deployment outside payload username
      { system := system, added := [execution payload] }).outcome = _ from broke] at told
    obtain ⟨raised, left, _, ran⟩ := runAgent_error told
    rw [ran] at ranLeft ⊢
    rw [streamed] at streamLeft ⊢
    have unconcluded {others : List StreamEvent} {event : StreamEvent}
        (terminal : event.event ≠ "message") :
        (⟨200, .events messages⟩ : Response) ≠ ⟨200, .events (others ++ [event])⟩ := by
      intro same
      cases same
      exact terminal (plain event (by simp))
    exact {
      system := @systems_agree outside _ owned _ _ _ _ _ _ ranLeft streamLeft (.inr rfl) (.inr rfl)
      supersteps :=
        (congrArg State.supersteps ranLeft).trans (congrArg State.supersteps streamLeft).symm
      completed := iff_of_false (unanswered raised) fun done =>
        unconcluded (show doneEvent.event ≠ "message" by decide) done.choose_spec
      cutOff := fun others sent =>
        (unconcluded (show recursionEvent.event ≠ "message" by decide) sent).elim }

end

/-- Whatever the run meets, the route it is made by decides about the trail alone. -/
theorem same_run (deployment : Deployment) (outside : Outside) (system : System)
    (token : Option String) (payload : Option AgentRequest)
    (settled : system.ownership.Settled) :
    SameRun (serve deployment outside system { token := token, route := .run payload })
      (serve deployment outside system { token := token, route := .runStream payload }) := by
  have refused {failure : Exn} {after : State}
      (run : (handle deployment outside { token := token, route := .run payload }).exec
        { system := system } = (.error failure, after))
      (stream : (handle deployment outside { token := token, route := .runStream payload }).exec
        { system := system } = (.error failure, after)) :
      SameRun (serve deployment outside system { token := token, route := .run payload })
        (serve deployment outside system { token := token, route := .runStream payload }) := by
    simp only [serve, run, stream]
    exact .refused rfl
  simp only [handle, getDb_exec, getDbStreaming_exec, withUser, getCurrentUser, validated,
    limited, call, Effect.exec_bind, Effect.exec_ofExcept] at refused
  cases called : currentUser deployment outside token with
  | error failure =>
      simp only [called] at refused
      exact refused rfl rfl
  | ok username =>
      cases payload with
      | none =>
          simp only [called] at refused
          exact refused rfl rfl
      | some payload =>
          cases admitted : outside.fault .limiter with
          | some failure =>
              simp only [called, admitted] at refused
              exact refused rfl rfl
          | none => exact accepted_same settled called admitted

/-- The run is cut off behind its first superstep. -/
def cutShort : Outside :=
  { answering with recursionLimit := 1 }

theorem invoice_cut_off :
    SameRun (serve twoUsers cutShort {} ⟨some "bob", .run (some invoice)⟩)
      (serve twoUsers cutShort {} ⟨some "bob", .runStream (some invoice)⟩) :=
  same_run twoUsers cutShort {} (some "bob") (some invoice) fun _ member => by cases member

end AgenticEnterprise.Api.BothRuns
