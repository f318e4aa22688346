import AgenticEnterprise.Api.ExecutionTrail
import AgenticEnterprise.Api.StreamVerdict
import AgenticEnterprise.Api.Writes

/-! `agent_executions` over a history of requests, and `/run` beside `/run/stream`.

Both routes make the same run. They differ in what they do with a run that is cut
off: the stream concludes and commits, the other raises and is rolled back. -/

set_option autoImplicit false

namespace AgenticEnterprise.Api.TrailLedger

open Core Library Graph Threads PartialEquivalence ExecutionTrail StreamVerdict

/-! ## What clients are told -/

/-- The rows that the client of a request can tell from its response. -/
def told (exchange : Exchange) (response : Response) : List AgentExecution :=
  match exchange.request.route, response.body with
  | .run (some payload), .agent _ => [row payload "completed"]
  | .runStream (some payload), .events events =>
      match events.getLast? with
      | none => []
      | some last =>
          if last.event = "done" then [row payload "completed"]
          else if last.event = "error" then [row payload "failed"] else []
  | _, _ => []

/-- The rows of a history whose sessions are committed. -/
def rowsTold (deployment : Deployment) : System → List Exchange → List AgentExecution
  | _, [] => []
  | system, exchange :: rest =>
      let served := exchange.serve deployment system
      let rows :=
        if exchange.outside.fault .commit = none then told exchange served.response else []
      rows ++ rowsTold deployment served.system rest

def sameExecutions : PartialEquivalence State :=
  .same fun state => state.system.executions

section

variable {deployment : Deployment} {outside : Outside} {system next : System} {state : State}
  {payload : AgentRequest} {username : String} {exchange : Exchange} {write : Write}

theorem runs_keep_executions {threadId : String} : IgnoresRuns sameExecutions threadId :=
  fun _ _ _ _ => rfl

theorem session_keeps_executions : IgnoresSession sameExecutions :=
  fun _ _ _ => rfl

/-! ## The other routes -/

theorem executions_of_written (written : Written deployment outside system write next) :
    next.executions = system.executions ∨
      ∃ table rows, write = .session table rows ∧ next.executions = system.executions ++ rows := by
  cases write with
  | session table rows =>
      cases written
      exact .inr ⟨table, rows, rfl, rfl⟩
  | edit threadId query =>
      obtain ⟨edited, _, rfl⟩ := map_eq_ok_iff.mp written
      exact .inl rfl
  | remember threadId text =>
      obtain ⟨store, _, rfl⟩ := map_eq_ok_iff.mp written
      exact .inl rfl
  | run | research | cache | sweep =>
      cases written
      exact .inl rfl

theorem serve_executions_same
    (run : ∀ payload, exchange.request.route ≠ .run (some payload))
    (stream : ∀ payload, exchange.request.route ≠ .runStream (some payload)) :
    (exchange.serve deployment system).system.executions = system.executions := by
  obtain ⟨writes, allowed, writing⟩ := serve_writes deployment system exchange
  refine @Runs.invariant_of_labels _ _ _
    (fun state : System => state.executions = system.executions) _
    (fun same permitted taken => ?_) _ _ _ writing allowed rfl
  rcases executions_of_written taken with kept | ⟨table, rows, rfl, added⟩
  · exact kept.trans same
  · cases permitted with
    | user _ permits =>
        generalize exchange.request.route = route at permits
        cases permits
    | session recorded =>
        obtain rfl : rows = [] := by
          refine List.eq_nil_iff_forall_not_mem.mpr fun row member => ?_
          obtain ⟨payload, _, own | own, _⟩ := recorded row member
          · exact run payload own
          · exact stream payload own
        rw [added, List.append_nil, same]

theorem executions_commit_cases :
    (state.commit outside).system.executions =
      state.system.executions ++ if outside.fault .commit = none then state.added else [] := by
  unfold State.commit
  cases outside.fault .commit with
  | none => simp
  | some failure => simp [State.rollback]

/-! ## `/run` -/

theorem run_executions (runs : exchange.request.route = .run (some payload)) :
    let served := exchange.serve deployment system
    served.system.executions = system.executions ++
      if exchange.outside.fault .commit = none then told exchange served.response else [] := by
  intro served
  have keeps : sameExecutions.Keeps (withUser deployment exchange.outside exchange.request.token
      (some payload) fun payload username =>
        limited exchange.outside (runAgent deployment exchange.outside payload username)) :=
    withUser_keeps fun _ _ _ _ =>
      limited_keeps (runAgent_keeps runs_keep_executions session_keeps_executions)
  have same := keeps { system := system } rfl
  have handled : handle deployment exchange.outside exchange.request =
      getDb exchange.outside (withUser deployment exchange.outside exchange.request.token
        (some payload) fun payload username =>
          limited exchange.outside (runAgent deployment exchange.outside payload username)) := by
    simp only [handle, runs]
  simp only [served, Exchange.serve, serve, told, runs, handled, getDb_exec]
  rcases ran : (withUser deployment exchange.outside exchange.request.token (some payload)
      fun payload username => limited exchange.outside
        (runAgent deployment exchange.outside payload username)).exec { system := system } with
    ⟨failure | response, after⟩ <;> rw [ran] at same
  · have kept : system.executions = after.system.executions := same
    cases failure <;> simp [errorResponse, State.rollback, kept]
  · have kept : system.executions = after.system.executions := same
    obtain ⟨username, args, _, valid, body⟩ := withUser_ok ran
    cases valid
    obtain ⟨output, running, answered, rfl, rfl⟩ := runAgent_ok (limited_ok body)
    have added : running.added = [execution payload] := by
      have trail := (@answer_trail deployment exchange.outside (runThreadId payload) ""
        { username := username } (some [.human payload.taskDescription])
        { system := system, added := [execution payload] }).2
      exact (congrArg (fun ended => State.added ended.2) answered).symm.trans trail
    dsimp only at kept ⊢
    rw [executions_commit_cases, ← kept, added]
    rfl

/-! ## `/run/stream` -/

/-- The stream concludes with its object marked accordingly, or it breaks off. -/
theorem runAgentStream_told (own : state.added = []) :
    let ended := (graphRun deployment outside payload username
      { state with added := [execution payload] }).outcome
    ∃ messages after,
      after.system.executions = state.system.executions ∧
      (∀ message ∈ messages, message.event = "message") ∧
      ((ended = .ok () ∧
          (runAgentStream deployment outside payload username).exec state =
            (.ok ({ body := .events (messages ++ [doneEvent]) }, none),
              { after with added := [row payload "completed"] })) ∨
        (ended = .error .graphRecursionError ∧
          (runAgentStream deployment outside payload username).exec state =
            (.ok ({ body := .events (messages ++ [recursionEvent]) }, none),
              { after with added := [row payload "failed"] })) ∨
        ∃ broken, ended = .error broken ∧
          (runAgentStream deployment outside payload username).exec state =
            (.ok ({ body := .events messages }, some broken), after)) := by
  intro ended
  have kept : state.system.executions =
      ((runAgentStream deployment outside payload username).exec state).2.system.executions :=
    runAgentStream_keeps runs_keep_executions session_keeps_executions state rfl
  have adding : (addExecution (execution payload)).exec state =
      (.ok (), { state with added := [execution payload] }) := by
    simp [addExecution, changeSession, own]
  obtain ⟨after, ran, added⟩ := @streamRun_exec deployment outside payload username
    { state with added := [execution payload] } (execution payload) rfl
  obtain ⟨messages, same, concluded⟩ := @ended_of_readable
    (graphRun deployment outside payload username { state with added := [execution payload] })
    (execution payload) graphRun_readable
  rw [concluded] at ran added
  rw [runAgentStream, Effect.exec_bind, adding] at kept ⊢
  simp only [Effect.exec_bind, ran, Effect.exec_pure] at kept ⊢
  refine ⟨messages, after, kept.symm, messages_event same, ?_⟩
  obtain ⟨left, rows, supersteps⟩ := after
  obtain rfl : rows = [_] := added
  rw [show (graphRun deployment outside payload username
    { state with added := [execution payload] }).outcome = ended from rfl]
  clear_value ended
  rcases ended with failure | ⟨⟩
  · cases failure with
    | graphRecursionError => exact .inr (.inl ⟨rfl, rfl⟩)
    | _ => exact .inr (.inr ⟨_, rfl, rfl⟩)
  · exact .inl ⟨rfl, rfl⟩

theorem stream_executions (streams : exchange.request.route = .runStream (some payload)) :
    let served := exchange.serve deployment system
    served.system.executions = system.executions ++
      if exchange.outside.fault .commit = none then told exchange served.response else [] := by
  intro served
  simp only [served, Exchange.serve, serve, told, streams, handle, getDbStreaming_exec]
  generalize bodied : (do
    let username ← getCurrentUser deployment exchange.outside exchange.request.token
    let payload ← validated (some payload)
    limited exchange.outside (runAgentStream deployment exchange.outside payload username) :
      Handler (Response × Option Exn)) = body
  have keeps : sameExecutions.Keeps body := by
    rw [← bodied]
    exact .bind (.ofExcept _) fun _ => .bind (.ofExcept _) fun _ =>
      limited_keeps (runAgentStream_keeps runs_keep_executions session_keeps_executions)
  have same := keeps { system := system } rfl
  rcases ran : body.exec { system := system } with ⟨failure | ⟨response, broken⟩, after⟩ <;>
    rw [ran] at same
  · have kept : system.executions = after.system.executions := same
    cases failure <;> simp [errorResponse, State.rollback, kept]
  · rw [← bodied] at ran
    obtain ⟨username, first, called, rest⟩ := Effect.exec_bind_ok ran
    obtain ⟨args, second, valid, streamed⟩ := Effect.exec_bind_ok rest
    obtain rfl := (Effect.exec_ofExcept_ok called).2
    obtain ⟨given, rfl⟩ := Effect.exec_ofExcept_ok valid
    cases given
    obtain ⟨messages, reached, kept, plain, ended⟩ :=
      @runAgentStream_told deployment exchange.outside { system := system } payload username rfl
    have sent := limited_ok streamed
    rcases ended with ⟨_, concluded⟩ | ⟨_, cut⟩ | ⟨failure, _, broke⟩
    · cases sent.symm.trans concluded
      simp [executions_commit_cases, kept, doneEvent]
    · cases sent.symm.trans cut
      simp [executions_commit_cases, kept, recursionEvent]
    · cases sent.symm.trans broke
      cases last : messages.getLast? with
      | none => simp [State.rollback, kept, last]
      | some message =>
          have event := plain message (List.mem_of_getLast? last)
          simp [State.rollback, kept, last, event]

theorem serve_executions :
    let served := exchange.serve deployment system
    served.system.executions = system.executions ++
      if exchange.outside.fault .commit = none then told exchange served.response else [] := by
  by_cases run : ∃ payload, exchange.request.route = .run (some payload)
  · obtain ⟨payload, runs⟩ := run
    exact run_executions runs
  by_cases stream : ∃ payload, exchange.request.route = .runStream (some payload)
  · obtain ⟨payload, streams⟩ := stream
    exact stream_executions streams
  have untold (response : Response) : told exchange response = [] := by
    unfold told
    split
    · exact absurd ⟨_, ‹_›⟩ run
    · exact absurd ⟨_, ‹_›⟩ stream
    · rfl
  intro served
  rw [untold, ite_self, List.append_nil]
  exact serve_executions_same (fun payload runs => run ⟨payload, runs⟩)
    fun payload streams => stream ⟨payload, streams⟩

end

/-- The committed rows are those that the clients have been told, in the order of
their requests. -/
theorem executions_told (deployment : Deployment) (first : System) (history : List Exchange) :
    (reached deployment first history).executions =
      first.executions ++ rowsTold deployment first history := by
  induction history generalizing first with
  | nil => simp [reached, rowsTold]
  | cons exchange history ih =>
      have served := @serve_executions deployment first exchange
      have later := ih (exchange.serve deployment first).system
      dsimp only at served
      rw [served, List.append_assoc] at later
      exact later

end AgenticEnterprise.Api.TrailLedger
