import AgenticEnterprise.Api.Frames

/-! What `/run` leaves in `agent_executions`.

The row is an object of the session, and the session is rolled back by every
exception that leaves the handler. -/

set_option autoImplicit false

namespace AgenticEnterprise.Api.ExecutionTrail

open Core Library Graph Engine Threads PartialEquivalence

def Response.succeeded (response : Response) : Bool :=
  decide (response.status = 200)

def row (payload : AgentRequest) (status : String) : AgentExecution :=
  ⟨payload.requestId, payload.agentId, status⟩

section

variable (deployment : Deployment) (outside : Outside) (system : System) (token : Option String)
  (payload : AgentRequest) (username : String)

def served : Served :=
  serve deployment outside system { token := token, route := .run (some payload) }

/-- How the run inside the handler ends. -/
def outcome : Except Exn String :=
  ((answer deployment outside { username := username } (runThreadId payload)
    (some [.human payload.taskDescription]) "").exec
      { system := system, added := [execution payload] }).1

/-- One row is committed, which says what the client was told. -/
def Trailed : Prop :=
  (served deployment outside system token payload).system.executions =
    system.executions ++
      [row payload
        (if Response.succeeded (served deployment outside system token payload).response then
          "completed"
        else "failed")]

instance : Decidable (Trailed deployment outside system token payload) :=
  inferInstanceAs (Decidable (_ = _))

end

/-- The exceptions the handler has no branch for. -/
def Unexpected (failure : Exn) : Prop :=
  failure ≠ .graphRecursionError ∧
    ∀ errorCode statusCode message, failure ≠ .agenticException errorCode statusCode message

/-! ## The session during a run -/

/-- The committed rows and the objects of the session. -/
def sameTrail : PartialEquivalence State :=
  .same fun state => (state.system.executions, state.added)

section

variable {deployment : Deployment} {outside : Outside} {system : System} {token : Option String}
  {payload : AgentRequest} {username : String}

theorem sameTrail_ignoresRuns {threadId : String} : IgnoresRuns sameTrail threadId :=
  fun _ _ => .write fun same => same

theorem answer_trail {threadId checkpointId : String} {caller : Caller}
    {input : Option (List Message)} {state : State} :
    let after := ((answer deployment outside caller threadId input checkpointId).exec state).2
    after.system.executions = state.system.executions ∧ after.added = state.added := by
  intro after
  have kept : (state.system.executions, state.added) = (after.system.executions, after.added) :=
    answer_keeps sameTrail_ignoresRuns state rfl
  exact ⟨(congrArg Prod.fst kept).symm, (congrArg Prod.snd kept).symm⟩

/-- The handler runs the graph with its row in the session. -/
theorem runAgent_exec :
    ∃ after, after.system.executions = system.executions ∧ after.added = [execution payload] ∧
      (runAgent deployment outside payload username).exec { system := system } =
        match outcome deployment outside system payload username with
        | .ok output =>
            (.ok { body := .agent (agentResponse payload output) },
              { after with added := [row payload "completed"] })
        | .error .graphRecursionError =>
            (.error maxRecursionError, { after with added := [row payload "failed"] })
        | .error (.agenticException errorCode statusCode message) =>
            (.error (.agenticException errorCode statusCode message),
              { after with added := [row payload "failed"] })
        | .error failure => (.error failure, after) := by
  obtain ⟨executions, added⟩ := @answer_trail deployment outside (runThreadId payload) ""
    { username := username } (some [.human payload.taskDescription])
    { system := system, added := [execution payload] }
  refine ⟨_, executions, added, ?_⟩
  have adding : (addExecution (execution payload)).exec { system := system } =
      (.ok (), { system := system, added := [execution payload] }) := rfl
  have marking (status : String) {state : State} (own : state.added = [execution payload]) :
      (setStatus status).exec state =
        (.ok (), { state with added := [row payload status] }) := by
    simp [setStatus, changeSession, own, row, execution]
  rw [runAgent, Effect.exec_bind, adding]
  dsimp only
  rw [Effect.exec_tryCatch, Effect.exec_bind, outcome]
  generalize (answer deployment outside { username := username } (runThreadId payload)
    (some [.human payload.taskDescription]) "").exec
      { system := system, added := [execution payload] } = ran at added ⊢
  obtain ⟨failure | output, after⟩ := ran
  · cases failure <;> simp [Effect.exec_bind, marking _ added]
  · simp only [Effect.exec_bind, marking _ added, Effect.exec_pure]

/-! ## The session behind it -/

theorem served_eq (called : currentUser deployment outside token = .ok username)
    (admitted : outside.fault .limiter = none) :
    served deployment outside system token payload =
      let ran := (runAgent deployment outside payload username).exec { system := system }
      match ran with
      | (.ok response, after) =>
          ⟨response, after.supersteps, (after.commit outside).system⟩
      | (.error failure, after) =>
          ⟨errorResponse failure, after.supersteps, after.rollback.system⟩ := by
  have body : (withUser deployment outside token (some payload) fun payload username =>
      limited outside (runAgent deployment outside payload username)).exec { system := system } =
        (runAgent deployment outside payload username).exec { system := system } :=
    (withUser_exec called _ _).trans (limited_exec admitted)
  simp only [served, serve, handle, getDb_exec, body]
  rcases (runAgent deployment outside payload username).exec { system := system } with
    ⟨failure | response, after⟩
  · rfl
  · simp only [supersteps_commit]

theorem executions_commit (commits : outside.fault .commit = none) {state : State} :
    (state.commit outside).system.executions = state.system.executions ++ state.added := by
  simp [State.commit, commits]

/-- A run that succeeds is recorded as completed, and one that ends with an exception
the handler has no branch for is not recorded. -/
theorem completed_or_unrecorded (called : currentUser deployment outside token = .ok username)
    (admitted : outside.fault .limiter = none) (commits : outside.fault .commit = none) :
    (∀ output, outcome deployment outside system payload username = .ok output →
      (served deployment outside system token payload).response =
          { body := .agent (agentResponse payload output) } ∧
        (served deployment outside system token payload).system.executions =
          system.executions ++ [row payload "completed"]) ∧
    ∀ failure, outcome deployment outside system payload username = .error failure →
      Unexpected failure →
      (served deployment outside system token payload).response = errorResponse failure ∧
        (served deployment outside system token payload).system.executions =
          system.executions := by
  obtain ⟨after, executions, added, ran⟩ :=
    @runAgent_exec deployment outside system payload username
  rw [served_eq called admitted, ran]
  constructor
  · intro output completed
    rw [completed]
    refine ⟨rfl, ?_⟩
    dsimp only
    rw [executions_commit commits]
    simp [executions]
  · intro failure failed unexpected
    rw [failed]
    obtain ⟨notRecursion, notAgentic⟩ := unexpected
    cases failure with
    | graphRecursionError => exact absurd rfl notRecursion
    | agenticException errorCode statusCode message =>
        exact absurd rfl (notAgentic errorCode statusCode message)
    | _ => exact ⟨rfl, executions⟩

end

/-! ## Three requests -/

def invoice : AgentRequest where
  requestId := ⟨0x123e4567e89b42d3a456426614174000⟩
  taskDescription := "the invoice of May"
  agentId := "desk"
  taskDescription_min := by decide
  taskDescription_max := by decide
  agentId_nonempty := by decide
  agentId_slug := by decide

def answering : Outside :=
  undisturbed ⟨"it is paid", []⟩ ⟨"", []⟩

/-- The tool server cannot be reached. -/
def unreachable : Outside :=
  { answering with
    fault := fun place => if place = .getTools then some (.external "mcp") else none }

/-- The database refuses the commit. -/
def refusing : Outside :=
  { answering with
    fault := fun place => if place = .commit then some (.external "postgres") else none }

theorem invoice_completed : outcome twoUsers answering {} invoice "admin" = .ok "it is paid" := by
  decide

/-- A run that succeeds, and one that cannot start. -/
theorem invoice_recorded :
    (served twoUsers answering {} (some "admin") invoice).system.executions =
        [row invoice "completed"] ∧
      (served twoUsers unreachable {} (some "admin") invoice).system.executions = [] := by
  have answered : currentUser twoUsers answering (some "admin") = .ok "admin" := by decide
  have started : currentUser twoUsers unreachable (some "admin") = .ok "admin" := by decide
  have failed : outcome twoUsers unreachable {} invoice "admin" = .error (.external "mcp") := by
    decide
  have recorded := (completed_or_unrecorded answered rfl rfl).1 _ invoice_completed
  have unrecorded := (completed_or_unrecorded started rfl rfl).2 _ failed ⟨by decide, by simp⟩
  exact ⟨recorded.2, unrecorded.2⟩

/-- An exception the handler has no branch for leaves no row, and neither does a
commit that fails behind the response. -/
theorem trail_incomplete :
    ¬Trailed twoUsers unreachable {} (some "admin") invoice ∧
      ¬Trailed twoUsers refusing {} (some "admin") invoice ∧
      Response.succeeded (served twoUsers refusing {} (some "admin") invoice).response = true := by
  refine ⟨?_, ?_, ?_⟩ <;> decide

end AgenticEnterprise.Api.ExecutionTrail
