import AgenticEnterprise.Api.Endpoints

/-! The app as a whole: every mounted route with its dependencies, one request
after another. -/

set_option autoImplicit false

namespace AgenticEnterprise.Api

open Core Library Graph Threads

/-- The routes with what the framework reads for them: path parameters as they
are, a query string or a body as `none` when it does not validate. -/
inductive Route where
  | root
  | health
  | graph
  | graphPng
  | docs (path : String)
  | smoke (payload : Option SmokeTestRequest)
  | token (form : Option (String × String))
  | run (payload : Option AgentRequest)
  | runStream (payload : Option AgentRequest)
  | ask (query : Option String)
  | analyze (ticker : Option String)
  | research (payload : Option ResearchRequest)
  | conversation (conversationId : String)
  | history (threadId : String) (limit : Option Int)
  | resume (threadId : String)
  | fork (threadId : String) (query : Option (String × String))
  | edit (threadId : String) (query : Option EditQuery)
  | branches (threadId : String) (limit : Option Int)
  | remember (threadId : String) (text : Option String)
  | searchMemory (query : Option (String × Int))
  | gc
  | gcStats

/-- The thread of a route behind `require_thread_owner`. -/
def checkedThread : Route → Option String
  | .history threadId _ | .resume threadId | .fork threadId _ | .edit threadId _
  | .branches threadId _ | .remember threadId _ => some threadId
  | _ => none

/-- The thread whose checkpoints a route reads or writes for a user. -/
def threadOf (username : String) : Route → Option String
  | .run (some payload) | .runStream (some payload) => some (runThreadId payload)
  | .ask (some _) => some (askThreadId username)
  | .research (some payload) => some payload.threadId
  | .conversation threadId | .history threadId _ | .resume threadId | .fork threadId _
  | .edit threadId _ | .branches threadId _ => some threadId
  | _ => none

/-- `token` is the bearer credential of the request, if it has one. -/
structure Request where
  token : Option String := none
  route : Route

section

variable (deployment : Deployment) (outside : Outside)

/-- A route behind `get_current_user` alone. -/
def withUser {Payload : Type} (token : Option String) (payload : Option Payload)
    (handler : Payload → String → Handler Response) : Handler Response := do
  let username ← getCurrentUser deployment outside token
  let payload ← validated payload
  handler payload username

/-- A route behind `require_thread_owner`, whose session spans the handler. -/
def withThreadOwner {Payload : Type} (threadId : String) (token : Option String)
    (payload : Option Payload) (handler : Payload → String → Handler Response) :
    Handler Response :=
  getDb outside do
    let username ← requireThreadOwner deployment outside threadId token
    let payload ← validated payload
    handler payload username

/-- The routes with a rate limit check it in front of the handler. -/
def limited {Result : Type} (body : Handler Result) : Handler Result := do
  call outside .limiter
  body

def handle (request : Request) : Handler Response :=
  let user {Payload : Type} := @withUser deployment outside Payload request.token
  let owner {Payload : Type} (threadId : String) :=
    @withThreadOwner deployment outside Payload threadId request.token
  match request.route with
  | .root => root
  | .health => healthCheck
  | .graph => graphStructure outside
  | .graphPng => graphImage outside
  | .docs path => return { body := .text (deployment.docs path) }
  | .smoke payload => do
      let payload ← validated payload
      runSmokeTest deployment outside payload
  | .token form => do
      let form ← validated form
      login deployment outside form.1 form.2
  | .run payload =>
      getDb outside <| user payload fun payload username =>
        limited outside (runAgent deployment outside payload username)
  | .runStream payload =>
      getDbStreaming outside do
        let username ← getCurrentUser deployment outside request.token
        let payload ← validated payload
        limited outside (runAgentStream deployment outside payload username)
  | .ask query =>
      getDb outside <| user query fun query username =>
        limited outside (ask deployment outside query username)
  | .analyze ticker => user ticker (analyzeInvestment deployment outside)
  | .research payload => user payload fun payload _ => runResearch outside payload
  | .conversation conversationId =>
      user (some ()) fun _ _ => getConversation outside conversationId
  | .history threadId limit =>
      owner threadId limit fun limit _ => threadHistory outside threadId limit
  | .resume threadId =>
      owner threadId (some ()) fun _ username => resumeThread deployment outside threadId username
  | .fork threadId query =>
      owner threadId query fun query username =>
        forkThread deployment outside threadId query.1 query.2 username
  | .edit threadId query =>
      owner threadId query fun query _ => editThreadCheckpoint outside threadId query
  | .branches threadId limit =>
      owner threadId limit fun limit _ => threadBranches outside threadId limit
  | .remember threadId text =>
      owner threadId text fun text _ => rememberThreadFact outside threadId text
  | .searchMemory query =>
      getDb outside <| user query fun query username =>
        searchMemory deployment outside query.1 query.2 username
  | .gc => user (some ()) fun _ _ => runGc deployment outside
  | .gcStats => user (some ()) fun _ _ => gcStats deployment outside

/-- What comes of a request: the response, what it made the main graph do, and
the stores afterwards. -/
structure Served where
  response : Response
  supersteps : List Superstep
  system : System

def serve (system : System) (request : Request) : Served :=
  let ended := (handle deployment outside request).exec { system := system }
  { response :=
      match ended.1 with
      | .ok response => response
      | .error failure => errorResponse failure
    supersteps := ended.2.supersteps
    system := ended.2.system }

end

/-! ## What the parts of a request execute -/

section

variable {deployment : Deployment} {outside : Outside} {token : Option String} {state : State}
  {username : String} {Payload Result : Type}

theorem call_exec {place : Call} (succeeds : outside.fault place = none) (state : State) :
    (call outside place).exec state = (.ok (), state) := by
  simp [call, succeeds]

theorem call_ok_iff {place : Call} {done : Unit} {after : State} :
    (call outside place).exec state = (.ok done, after) ↔
      outside.fault place = none ∧ after = state := by
  rw [call, Effect.exec_ofExcept]
  cases outside.fault place <;> simp [eq_comm]

theorem limited_exec {body : Handler Result} (admitted : outside.fault .limiter = none) :
    (limited outside body).exec state = body.exec state := by
  simp only [limited, Effect.exec_bind, call_exec admitted]

theorem withUser_exec (called : currentUser deployment outside token = .ok username)
    (payload : Payload) (handler : Payload → String → Handler Response) :
    (withUser deployment outside token (some payload) handler).exec state =
      (handler payload username).exec state := by
  simp only [withUser, getCurrentUser, validated, Effect.exec_bind, Effect.exec_ofExcept, called]

theorem limited_ok {body : Handler Result} {result : Result} {after : State}
    (ran : (limited outside body).exec state = (.ok result, after)) :
    body.exec state = (.ok result, after) := by
  unfold limited call at ran
  obtain ⟨_, middle, admitted, passed⟩ := Effect.exec_bind_ok ran
  obtain ⟨_, rfl⟩ := Effect.exec_ofExcept_ok admitted
  exact passed

theorem withUser_ok {payload : Option Payload} {handler : Payload → String → Handler Response}
    {response : Response} {after : State}
    (ran : (withUser deployment outside token payload handler).exec state =
      (.ok response, after)) :
    ∃ username args, currentUser deployment outside token = .ok username ∧ payload = some args ∧
      (handler args username).exec state = (.ok response, after) := by
  unfold withUser getCurrentUser validated at ran
  obtain ⟨username, reached, decoded, checked⟩ := Effect.exec_bind_ok ran
  obtain ⟨called, rfl⟩ := Effect.exec_ofExcept_ok decoded
  obtain ⟨args, middle, read, handled⟩ := Effect.exec_bind_ok checked
  obtain ⟨valid, rfl⟩ := Effect.exec_ofExcept_ok read
  cases payload with
  | none => cases valid
  | some payload =>
      cases valid
      exact ⟨username, args, called, rfl, handled⟩

theorem getDb_exec (body : Handler Result) :
    (getDb outside body).exec state =
      match body.exec state with
      | (.ok result, after) => (.ok result, after.commit outside)
      | (.error failure, after) => (.error failure, after.rollback) := by
  simp only [getDb, rollbackOnFailure, Effect.exec_bind, Effect.exec_tryCatch]
  rcases body.exec state with ⟨_ | _, _⟩ <;> rfl

theorem getDbStreaming_exec (body : Handler (Result × Option Exn)) :
    (getDbStreaming outside body).exec state =
      match body.exec state with
      | (.ok (result, none), after) => (.ok result, after.commit outside)
      | (.ok (result, some _), after) => (.ok result, after.rollback)
      | (.error failure, after) => (.error failure, after.rollback) := by
  simp only [getDbStreaming, rollbackOnFailure, Effect.exec_bind, Effect.exec_tryCatch]
  rcases body.exec state with ⟨failure | ⟨result, _ | broken⟩, after⟩ <;> rfl

theorem getDb_ok {body : Handler Result} {result : Result} {after : State}
    (ran : (getDb outside body).exec state = (.ok result, after)) :
    ∃ middle, body.exec state = (.ok result, middle) ∧ after = middle.commit outside := by
  rw [getDb_exec] at ran
  rcases inner : body.exec state with ⟨failure | returned, middle⟩
  · simp [inner] at ran
  · rw [inner] at ran
    cases ran
    exact ⟨middle, rfl, rfl⟩

theorem answer_exec {caller : Caller} {threadId : String} {input : Option (List Message)}
    {checkpointId : String} :
    (answer deployment outside caller threadId input checkpointId).exec state =
      match outside.fault .buildWorkflow, outside.fault .getTools with
      | some failure, _ => (.error failure, state)
      | none, some failure => (.error failure, state)
      | none, none =>
          let ran := runOn deployment outside caller input checkpointId (state.runInputs threadId)
          ((outside.ending outside.recursionLimit ran.1.result >>= Engine.lastMessage).map
              Message.content,
            ((recordRun threadId ran.2 ran.1.steps).exec state).2) := by
  simp only [answer, Effect.exec_bind, call, Effect.exec_ofExcept]
  cases outside.fault .buildWorkflow with
  | some failure => rfl
  | none =>
      cases outside.fault .getTools with
      | some failure => rfl
      | none =>
          simp only [ainvoke, astream, Effect.exec_bind, Effect.exec_read, recordRun,
            Effect.exec_write, Effect.exec_pure, Effect.exec_ofExcept]
          cases outside.ending outside.recursionLimit
            (runOn deployment outside caller input checkpointId
              (state.runInputs threadId)).1.result with
          | error failure => rfl
          | ok final =>
              simp only [bind, Except.bind]
              cases Engine.lastMessage final <;> rfl

theorem result_of_ending {limit : Nat} {result : Except Exn Engine.GraphState}
    {final : Engine.GraphState} (ended : outside.ending limit result = .ok final) :
    result = .ok final := by
  unfold Outside.ending at ended
  split at ended
  · cases ended
  · exact ended

/-- An answer is the last message of a run that completes. -/
theorem answer_ok {caller : Caller} {threadId output checkpointId : String}
    {input : Option (List Message)} {after : State}
    (ran : (answer deployment outside caller threadId input checkpointId).exec state =
      (.ok output, after)) :
    ∃ final last,
      (runOn deployment outside caller input checkpointId (state.runInputs threadId)).1.result =
        .ok final ∧
      final.messages.getLast? = some last ∧ last.content = output ∧
      after.system.threads threadId =
        (runOn deployment outside caller input checkpointId (state.runInputs threadId)).2 := by
  rw [answer_exec] at ran
  split at ran
  · cases ran
  · cases ran
  · obtain ⟨outcome, rfl⟩ := Prod.mk.inj ran
    obtain ⟨last, replied, rfl⟩ := map_eq_ok_iff.mp outcome
    obtain ⟨final, ended, found⟩ := bind_eq_ok_iff.mp replied
    exact ⟨final, last, result_of_ending ended, Engine.lastMessage_eq_ok_iff.mp found, rfl,
      Function.update_self ..⟩

/-- `/run` returns what the run answers, with its object marked as completed. -/
theorem runAgent_ok {payload : AgentRequest} {response : Response} {after : State}
    (ran : (runAgent deployment outside payload username).exec state = (.ok response, after)) :
    ∃ output running,
      (answer deployment outside { username := username } (runThreadId payload)
        (some [.human payload.taskDescription]) "").exec
          { state with added := state.added ++ [execution payload] } = (.ok output, running) ∧
      response = { body := .agent (agentResponse payload output) } ∧
      after = { running with
        added := running.added.map fun execution => { execution with status := "completed" } } := by
  rw [runAgent, Effect.exec_bind] at ran
  simp only [addExecution, changeSession, Effect.exec_write] at ran
  rw [Effect.exec_tryCatch, Effect.exec_bind] at ran
  rcases answered : (answer deployment outside { username := username } (runThreadId payload)
    (some [.human payload.taskDescription]) "").exec
      { state with added := state.added ++ [execution payload] } with ⟨failure | output, running⟩
  · simp only [answered] at ran
    cases failure <;> simp [Effect.exec_bind, setStatus, changeSession] at ran
  · simp only [answered, Effect.exec_bind, setStatus, changeSession, Effect.exec_write,
      Effect.exec_pure] at ran
    cases ran
    exact ⟨output, running, rfl, rfl, rfl⟩

/-- The session ends without another superstep. -/
theorem supersteps_commit : (state.commit outside).supersteps = state.supersteps := by
  unfold State.commit
  split <;> rfl

end

/-- A request together with what it meets outside the program. -/
structure Exchange where
  request : Request
  outside : Outside

/-- Who a request is accepted from. -/
def Exchange.caller (deployment : Deployment) (exchange : Exchange) : Option String :=
  (currentUser deployment exchange.outside exchange.request.token).toOption

theorem Exchange.caller_eq_some_iff {deployment : Deployment} {exchange : Exchange}
    {username : String} :
    exchange.caller deployment = some username ↔
      currentUser deployment exchange.outside exchange.request.token = .ok username := by
  unfold Exchange.caller
  cases currentUser deployment exchange.outside exchange.request.token <;> simp [Except.toOption]

def Exchange.serve (deployment : Deployment) (system : System) (exchange : Exchange) : Served :=
  Api.serve deployment exchange.outside system exchange.request

/-- The stores behind a history of requests, each served on what the one before
it left. -/
def reached (deployment : Deployment) (first : System) (history : List Exchange) : System :=
  history.foldl (fun system exchange => (exchange.serve deployment system).system) first

theorem reached_append {deployment : Deployment} {first : System} {history more : List Exchange} :
    reached deployment first (history ++ more) =
      reached deployment (reached deployment first history) more :=
  List.foldl_append

/-- The responses a user gets in a history. -/
def responsesTo (deployment : Deployment) (username : String) :
    System → List Exchange → List Response
  | _, [] => []
  | system, exchange :: rest =>
      let served := exchange.serve deployment system
      let later := responsesTo deployment username served.system rest
      if exchange.caller deployment = some username then served.response :: later else later

end AgenticEnterprise.Api
