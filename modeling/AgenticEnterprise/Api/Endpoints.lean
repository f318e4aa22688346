import AgenticEnterprise.Api.Dependencies

/-! The routes: `app/api/v1/endpoints.py`, `app/api/v1/health.py` and those of
`app/main.py`. -/

set_option autoImplicit false

namespace AgenticEnterprise.Api

open Core Library Memory Graph Engine Threads Ownership

section

variable (deployment : Deployment) (outside : Outside)

/-! ## Runs of the main graph -/

/-- The context a handler builds: `withDb` and `withTools` say whether it passes
its database session and a model with tools. -/
structure Caller where
  username : String
  withDb : Bool := true
  withTools : Bool := true

/-- What a run reads of the app's state. -/
structure RunInputs where
  thread : Thread
  ownership : ThreadOwnership
  memory : VectorStore.Store

def State.runInputs (threadId : String) (state : State) : RunInputs where
  thread := state.system.threads threadId
  ownership := state.system.ownership
  memory := state.system.memory

def environment (caller : Caller) (inputs : RunInputs) (index : Nat) : Environment where
  settings := deployment.settings
  context :=
    { llm := outside.llm index
      toolLlm :=
        if caller.withTools then some ((outside.llm index).bindTools outside.tools none) else none
      db := if caller.withDb then some ⟨transaction, inputs.ownership⟩ else none
      username := caller.username }
  embedder := outside.embedder
  ranking := outside.ranking
  memory := inputs.memory
  runTool := outside.runTool index

def runOn (caller : Caller) (input : Option (List Message)) (checkpointId : String)
    (inputs : RunInputs) : Execution × Thread :=
  Threads.ainvoke (outside.budget outside.recursionLimit)
    (environment deployment outside caller inputs) input
    (History.checkpointConfig inputs.thread checkpointId) inputs.thread

def recordRun (threadId : String) (thread : Thread) (supersteps : List Superstep) :
    Handler Unit :=
  Effect.write fun state =>
    { state with
      system := { state.system with
        threads := Function.update state.system.threads threadId thread }
      supersteps := state.supersteps ++ supersteps }

/-- A run on a thread, and how it ended. -/
def astream (caller : Caller) (threadId : String) (input : Option (List Message))
    (checkpointId : String) : Handler Execution := do
  let inputs ← Effect.read (State.runInputs threadId)
  let ran := runOn deployment outside caller input checkpointId inputs
  recordRun threadId ran.2 ran.1.steps
  return { ran.1 with result := outside.ending outside.recursionLimit ran.1.result }

def ainvoke (caller : Caller) (threadId : String) (input : Option (List Message))
    (checkpointId : String) : Handler GraphState := do
  let execution ← astream deployment outside caller threadId input checkpointId
  Effect.ofExcept execution.result

/-- The run every handler of an answer makes: build the graph and the tools,
invoke it and take the last message. -/
def answer (caller : Caller) (threadId : String) (input : Option (List Message))
    (checkpointId : String) : Handler String := do
  call outside .buildWorkflow
  call outside .getTools
  let result ← ainvoke deployment outside caller threadId input checkpointId
  let message ← Effect.ofExcept (lastMessage result)
  return message.content

/-! ## `/run` and `/run/stream` -/

def runThreadId (payload : AgentRequest) : String :=
  match payload.conversationId with
  | none => payload.requestId.str
  | some conversationId => if conversationId = "" then payload.requestId.str else conversationId

def execution (payload : AgentRequest) : AgentExecution :=
  ⟨payload.requestId, payload.agentId, "running"⟩

def agentResponse (payload : AgentRequest) (output : String) : AgentResponse where
  requestId := payload.requestId
  status := "success"
  output := output

def runAgent (payload : AgentRequest) (username : String) : Handler Response := do
  addExecution (execution payload)
  tryCatch
    (do
      let output ← answer deployment outside { username := username } (runThreadId payload)
        (some [.human payload.taskDescription]) ""
      setStatus "completed"
      return { body := .agent (agentResponse payload output) })
    fun failure =>
      match failure with
      | .graphRecursionError => do
          setStatus "failed"
          throw maxRecursionError
      | .agenticException errorCode statusCode message => do
          setStatus "failed"
          throw (.agenticException errorCode statusCode message)
      | other => throw other

def statusEvent (status : String) : StreamEvent :=
  { event := "message", phase := "status", content := status }

def stepEvents (step : Superstep) : List StreamEvent :=
  step.streamed.map statusEvent ++
    match step.pending, step.outcome with
    | .node node, .ok _ =>
        [{ event := "message", phase := "node", node := some node.name
           content := "step complete" }]
    | _, _ => []

/-- The events of a run, and what breaks the stream off. -/
def streamRun (payload : AgentRequest) (username : String) :
    Handler (List StreamEvent × Option Exn) :=
  tryCatch
    (do
      call outside .buildWorkflow
      call outside .getTools
      let execution ← astream deployment outside { username := username } (runThreadId payload)
        (some [.human payload.taskDescription]) ""
      let sent := execution.steps.flatMap stepEvents
      match execution.result with
      | .ok _ => do
          setStatus "completed"
          return (sent ++ [{ event := "done", phase := "done", content := "run finished" }], none)
      | .error .graphRecursionError => do
          setStatus "failed"
          return (sent ++ [{ event := "error", phase := "error"
                             content := "recursion limit exceeded" }], none)
      | .error failure => return (sent, some failure))
    fun failure =>
      match failure with
      | .graphRecursionError => do
          setStatus "failed"
          return ([{ event := "error", phase := "error"
                     content := "recursion limit exceeded" }], none)
      | other => return ([], some other)

def runAgentStream (payload : AgentRequest) (username : String) :
    Handler (Response × Option Exn) := do
  addExecution (execution payload)
  let sent ← streamRun deployment outside payload username
  return ({ body := .events sent.1 }, sent.2)

/-! ## `/ask`, `/analyze` and `/research` -/

/-- The cache hands the prefix it was set up with and the route's namespace, which
is empty, to the key builder. -/
def askCacheKey (username query : String) : String :=
  "agent-cache:" ++ "" ++ ":ask:" ++ username ++ ":" ++ query

def askThreadId (username : String) : String :=
  "ask:" ++ username

def cached (key : String) : Handler (Option AskResponse) :=
  Effect.read fun state => if outside.cacheAnswers then state.system.cache key else none

def setCached (key : String) (response : AskResponse) : Handler Unit :=
  Effect.write fun state =>
    if outside.cacheStores then
      { state with
        system := { state.system with
          cache := Function.update state.system.cache key (some response) } }
    else state

def ask (query username : String) : Handler Response := do
  let kept ← cached outside (askCacheKey username query)
  match kept with
  | some response => return { body := .ask response }
  | none => do
      let output ← answer deployment outside { username := username } (askThreadId username)
        (some [.human query]) ""
      setCached outside (askCacheKey username query) ⟨query, output⟩
      return { body := .ask ⟨query, output⟩ }

def analyzeThreadId (username : String) : String :=
  "analyze:" ++ username ++ ":" ++ outside.uuid

/-- The one handler that passes neither a session nor a model with tools. -/
def analyzeInvestment (ticker username : String) : Handler Response := do
  call outside .buildWorkflow
  let result ← ainvoke deployment outside
    { username := username, withDb := false, withTools := false }
    (analyzeThreadId outside username) (some [.human ("Analyze " ++ ticker)]) ""
  match result.analysis with
  | none => throw (.keyError "analysis")
  | some report => return { body := .analysis report }

def researchRecursionLimit : Nat := 50

def researchEnvironment (index : Nat) : Research.Environment where
  toolLlm := (outside.llm index).bindTools outside.tools none
  withStructuredOutput := outside.writeReport index
  runTool := outside.runTool index

def recordResearch (threadId : String) (thread : Research.ResearchThread) : Handler Unit :=
  Effect.write fun state =>
    { state with
      system := { state.system with
        research := Function.update state.system.research threadId thread } }

def runResearch (request : ResearchRequest) : Handler Response := do
  call outside .buildResearchWorkflow
  call outside .getTools
  let thread ← Effect.read fun state : State => state.system.research request.threadId
  let ran := Research.ainvoke (outside.budget researchRecursionLimit)
    (researchEnvironment outside) [.human ("Research the following: " ++ request.topic)] thread
  recordResearch request.threadId ran.2
  match outside.ending researchRecursionLimit ran.1.result with
  | .error .graphRecursionError => throw maxRecursionError
  | .error failure => throw failure
  | .ok result =>
      match result.report with
      | none => throw .validationError
      | some report => return { body := .report report }

/-! ## Reading a thread -/

def currentThread (threadId : String) : Handler Thread :=
  Effect.read fun state => state.system.threads threadId

def historyTurn (message : Message) : HistoryTurn :=
  ⟨message.type, message.content⟩

def getConversation (conversationId : String) : Handler Response := do
  call outside .buildWorkflow
  call outside .getState
  let thread ← currentThread conversationId
  let messages := (History.agetState thread).values.messages
  return { body := .conversation conversationId (messages.map historyTurn) }

/-- Postgres refuses a negative limit. -/
def listHistory (limit : Int) : Handler Unit := do
  call outside .listHistory
  if limit < 0 then throw (.external "postgres")

def threadHistory (threadId : String) (limit : Int) : Handler Response := do
  call outside .buildWorkflow
  listHistory outside limit
  call outside .getState
  let thread ← currentThread threadId
  let timeline := History.threadTimeline thread limit
  return { body := .history threadId (History.isInterrupted thread) timeline }

def forkPoints (tree : History.Tree) : List (Nat × Nat) :=
  tree.filterMap fun group =>
    match group with
    | (none, _) => none
    | (some parent, children) =>
        if children.length > 1 then some (parent, children.length) else none

def threadBranches (threadId : String) (limit : Int) : Handler Response := do
  call outside .buildWorkflow
  listHistory outside limit
  let thread ← currentThread threadId
  let timeline := History.threadTimeline thread limit
  let tree := History.branchTree timeline
  return { body := .branches threadId timeline.length (forkPoints tree) tree }

/-! ## Writing to a thread -/

/-- The response names the caller where a request identifier is expected. -/
def resumeResponse (username output : String) : Except Exn Response :=
  match parseUuid username with
  | some requestId => .ok { body := .agent ⟨requestId, "success", output⟩ }
  | none => .error .validationError

def resumeThread (threadId username : String) : Handler Response := do
  call outside .buildWorkflow
  call outside .getState
  let thread ← currentThread threadId
  if History.isInterrupted thread then do
    call outside .getTools
    let result ← ainvoke deployment outside { username := username } threadId none ""
    let message ← Effect.ofExcept (lastMessage result)
    Effect.ofExcept (resumeResponse username message.content)
  else throw (.httpException 404 "No interrupted run for this thread_id (nothing pending).")

def forkThread (threadId checkpointId message username : String) : Handler Response := do
  call outside .buildWorkflow
  call outside .getTools
  let result ← ainvoke deployment outside { username := username } threadId
    (some [.human message]) checkpointId
  call outside .getState
  let forked ← currentThread threadId
  let last ← Effect.ofExcept (lastMessage result)
  return { body := .fork threadId checkpointId forked.latestId last.content }

def recordEdit (threadId : String) (thread : Thread) : Handler Unit :=
  recordRun threadId thread []

def editThreadCheckpoint (threadId : String) (query : EditQuery) : Handler Response :=
  if query.critique = none ∧ query.revisionCount = none then
    throw (.httpException 422 "Provide critique and/or revision_count.")
  else do
    call outside .buildWorkflow
    call outside .updateState
    let thread ← currentThread threadId
    let edited ← Effect.ofExcept <|
      Threads.aupdateState thread (History.checkpointConfig thread query.checkpointId)
        { critique := query.critique, revisionCount := query.revisionCount } query.asNode
    recordEdit threadId edited
    call outside .updateStateReply
    let written := .edit threadId query.checkpointId edited.latestId query.critique
      query.revisionCount
    return { body := written }

/-! ## Semantic memory -/

def setMemory (store : VectorStore.Store) : Handler Unit :=
  Effect.write fun state => { state with system := { state.system with memory := store } }

def rememberThreadFact (threadId text : String) : Handler Response := do
  call outside .vectorStore
  let store ← Effect.read fun state : State => state.system.memory
  let written ← Effect.ofExcept <|
    VectorStore.remember outside.embedder outside.pointId store threadId text []
  setMemory written
  call outside .vectorStoreReply
  return { body := .remembered outside.pointId threadId }

/-- A hit needs a text to be a `MemoryHit`. -/
def memoryHit (hit : VectorStore.Hit) : Except Exn MemoryHit :=
  match hit.text with
  | none => .error .validationError
  | some text => .ok ⟨hit.score, text, hit.threadId⟩

/-- The threads a search is limited to. -/
def searchedThreads (username : String) : Handler (Option (List String)) :=
  if isAdmin deployment.settings username then return none
  else do
    call outside .ownership
    let table ← Effect.read fun state : State => state.system.ownership
    return some (ownedThreadIds transaction table username)

def searchMemory (query : String) (limit : Int) (username : String) : Handler Response := do
  let allowed ← searchedThreads deployment outside username
  call outside .vectorStore
  let store ← Effect.read fun state : State => state.system.memory
  let hits ← Effect.ofExcept <|
    VectorStore.search outside.embedder outside.ranking store query limit allowed
  let shown ← Effect.ofExcept (hits.mapM memoryHit)
  return { body := .hits query shown }

/-! ## Retention -/

/-- The threads the stale query names, deleted one after another. -/
def runGc : Handler Response := do
  call outside .buildWorkflow
  call outside .sweep
  Effect.write fun state : State =>
    { state with
      system := { state.system with
        threads := fun threadId =>
          if threadId ∈ outside.staleThreads then .empty else state.system.threads threadId } }
  return { body := .swept outside.staleThreads.length deployment.settings.checkpointRetentionDays }

def gcStats : Handler Response := do
  call outside .buildWorkflow
  call outside .stats
  return { body := .stats outside.gcStats deployment.settings.checkpointRetentionDays }

/-! ## Open routes -/

def root : Handler Response :=
  return { body := .fields [("status", "Active"), ("message", "Sovereign Agent Node Online")] }

def healthCheck : Handler Response :=
  let report := [("status", "healthy"), ("uptime", "nominal"), ("agent_engine", "ready")]
  return { body := .fields report }

def graphStructure : Handler Response := do
  call outside .buildWorkflow
  return { body := .text outside.mermaid }

def graphImage : Handler Response :=
  tryCatch
    (do
      call outside .buildWorkflow
      call outside .renderPng
      return { body := .text outside.png })
    fun failure =>
      throw (.httpException 502
        ("Graph PNG render failed (mermaid.ink unreachable?): " ++ outside.printed failure))

def smokeThreadId (testId : String) : String :=
  "smoke:" ++ testId

def runSmokeTest (request : SmokeTestRequest) : Handler Response :=
  tryCatch
    (do
      let output ← answer deployment outside
        { username := deployment.settings.demoUsername, withDb := false }
        (smokeThreadId request.testId) (some [.human request.payload]) ""
      return { body := .smoke request.testId "COMPLETED" output })
    fun failure =>
      match failure with
      | .timeoutError => throw (.httpException 504 "System Ignition Timed Out")
      | _ => throw (.httpException 500 "System Ignition Failed")

end

end AgenticEnterprise.Api
