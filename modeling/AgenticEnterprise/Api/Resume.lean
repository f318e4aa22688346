import AgenticEnterprise.Api.Service

/-! What a client is told of a run it resumed.

The pending nodes run, and their checkpoints are saved, before the response is
built, and the response carries the name of the caller as a request identifier. -/

set_option autoImplicit false

namespace AgenticEnterprise.Api.Resume

open Core Library Graph Engine Threads

section

variable (deployment : Deployment) (outside : Outside) (threadId : String)

def served (system : System) (token : Option String) : Served :=
  serve deployment outside system { token := token, route := .resume threadId }

/-- The run that continues a thread for a user, from the state the request was
admitted in. -/
def resumed (admitted : State) (username : String) : Execution × Thread :=
  runOn deployment outside { username := username } none "" (admitted.runInputs threadId)

/-- A thread with pending nodes, which the request runs to the end. -/
structure RunsToEnd (admitted : State) (username : String) (message : Message) : Prop where
  builds : outside.fault .buildWorkflow = none
  reads : outside.fault .getState = none
  loads : outside.fault .getTools = none
  pending : History.isInterrupted (admitted.system.threads threadId) = true
  completes : ∃ values,
    (resumed deployment outside threadId admitted username).1.result = .ok values ∧
      lastMessage values = .ok message

end

/-- The request succeeds with this output. -/
def Answered (response : Response) (output : String) : Prop :=
  ∃ written : AgentResponse, response = { body := .agent written } ∧ written.output = output

section

variable {deployment : Deployment} {outside : Outside} {system : System} {admitted : State}
  {threadId username : String} {token : Option String} {message : Message}

/-- The run is saved whatever becomes of the response. -/
theorem resumeThread_exec
    (ends : RunsToEnd deployment outside threadId admitted username message) :
    (resumeThread deployment outside threadId username).exec admitted =
      (resumeResponse username message.content,
        ((recordRun threadId (resumed deployment outside threadId admitted username).2
          (resumed deployment outside threadId admitted username).1.steps).exec admitted).2) := by
  obtain ⟨values, result, last⟩ := ends.completes
  have ran : (ainvoke deployment outside { username := username } threadId none "").exec admitted =
      (.ok values,
        ((recordRun threadId (resumed deployment outside threadId admitted username).2
          (resumed deployment outside threadId admitted username).1.steps).exec admitted).2) := by
    unfold resumed at result ⊢
    simp only [ainvoke, astream, Effect.exec_bind, Effect.exec_read, recordRun,
      Effect.exec_write, Effect.exec_pure, Effect.exec_ofExcept, result, Outside.ending]
  simp only [resumeThread, currentThread, Effect.exec_bind, call_exec ends.builds,
    call_exec ends.reads, call_exec ends.loads, Effect.exec_read, ends.pending, if_true, ran, last,
    Effect.exec_ofExcept]

theorem commit_threads (state : State) :
    (state.commit outside).system.threads = state.system.threads := by
  unfold State.commit
  split <;> rfl

theorem served_of_runsToEnd
    (admits : (requireThreadOwner deployment outside threadId token).exec { system := system } =
      (.ok username, admitted))
    (ends : RunsToEnd deployment outside threadId admitted username message) :
    (served deployment outside threadId system token).response =
        (match resumeResponse username message.content with
        | .ok response => response
        | .error failure => errorResponse failure) ∧
      (served deployment outside threadId system token).system.threads threadId =
        (resumed deployment outside threadId admitted username).2 := by
  simp only [served, serve, handle, withThreadOwner, validated, getDb_exec, Effect.exec_bind,
    admits, Effect.exec_ofExcept, resumeThread_exec ends]
  rcases resumeResponse username message.content with failure | response
  · simp [State.rollback, recordRun]
  · simp [commit_threads, recordRun]

theorem resumeResponse_answered_iff {output : String} :
    Answered
        (match resumeResponse username output with
        | .ok response => response
        | .error failure => errorResponse failure) output ↔
      isUuid username = true := by
  by_cases uuid : isUuid username = true
  · simp only [resumeResponse, parseUuid, uuid, if_true, iff_true]
    exact ⟨_, rfl, rfl⟩
  · refine ⟨fun answered => ?_, fun isOne => absurd isOne uuid⟩
    rw [resumeResponse, parseUuid, if_neg uuid] at answered
    obtain ⟨written, told, _⟩ := answered
    cases told

/-- A resume that ran its thread to the end succeeds exactly for the callers whose
name is a UUID. -/
theorem answered_iff_uuid
    (admits : (requireThreadOwner deployment outside threadId token).exec { system := system } =
      (.ok username, admitted))
    (ends : RunsToEnd deployment outside threadId admitted username message) :
    Answered (served deployment outside threadId system token).response message.content ↔
      isUuid username = true := by
  rw [(served_of_runsToEnd admits ends).1]
  exact resumeResponse_answered_iff

end

/-! ## Two callers -/

/-- The users of an app whose admin is called by a UUID. -/
def uuidUsers : Deployment where
  settings :=
    { demoUsername := "6f1c7d0a-52be-4e0f-9a35-0c2d6b1e8f47", demoPassword := "first" }

def replying : Outside :=
  undisturbed ⟨"forty invoices", []⟩ ⟨"", []⟩

/-- The process stops behind the first superstep of a question. -/
def stopping : Outside :=
  { replying with stop := some (1, .external "cancelled") }

/-- What a question leaves that was cut off. -/
def cutOff (deployment : Deployment) (username : String) : System :=
  (serve deployment stopping {} { token := some username, route := .ask (some "how many?") }).system

theorem cutOff_runsToEnd :
    RunsToEnd uuidUsers replying (askThreadId uuidUsers.settings.demoUsername)
      { system := cutOff uuidUsers uuidUsers.settings.demoUsername }
      uuidUsers.settings.demoUsername (.ai "forty invoices" []) where
  builds := rfl
  reads := rfl
  loads := rfl
  pending := by decide
  completes := ⟨_, rfl, by decide⟩

/-- The thread of a caller called by a UUID is run to the end, and it is told so. -/
theorem answered_uuidUser :
    Answered
      (served uuidUsers replying (askThreadId uuidUsers.settings.demoUsername)
        (cutOff uuidUsers uuidUsers.settings.demoUsername)
        (some uuidUsers.settings.demoUsername)).response "forty invoices" := by
  have uuid : isUuid uuidUsers.settings.demoUsername = true := by decide
  exact (answered_iff_uuid rfl cutOff_runsToEnd).mpr uuid

/-- The admin is told that the resume failed, although it ran the thread to the end. -/
theorem admin_not_answered :
    RunsToEnd twoUsers replying "ask:admin" { system := cutOff twoUsers "admin" } "admin"
        (.ai "forty invoices" []) ∧
      History.isInterrupted
        ((served twoUsers replying "ask:admin" (cutOff twoUsers "admin")
          (some "admin")).system.threads "ask:admin") = false ∧
      (served twoUsers replying "ask:admin" (cutOff twoUsers "admin")
        (some "admin")).response = errorResponse .validationError ∧
      ¬Answered
        (served twoUsers replying "ask:admin" (cutOff twoUsers "admin")
          (some "admin")).response "forty invoices" := by
  have told : (served twoUsers replying "ask:admin" (cutOff twoUsers "admin")
      (some "admin")).response = errorResponse .validationError := by
    decide
  refine ⟨⟨rfl, rfl, rfl, by decide, _, rfl, by decide⟩, by decide, told, ?_⟩
  intro answered
  rw [told] at answered
  obtain ⟨written, agent, _⟩ := answered
  cases agent

end AgenticEnterprise.Api.Resume
