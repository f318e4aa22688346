import AgenticEnterprise.Api.Schemas
import AgenticEnterprise.Library.Effects
import Mathlib.Logic.Function.Basic

/-! What a request is handled with: the stores of the app, the services outside
it, the database session of `app/database.py` and the dependencies of
`app/api/v1/auth.py`. -/

set_option autoImplicit false

namespace AgenticEnterprise.Api

open Core Library Memory Graph Engine Threads Ownership

/-! ## The deployed app -/

structure User where
  username : String
  password : String
  deriving DecidableEq, Repr

/-- Each user is seeded only if its password is set. -/
def seedUsers (settings : Settings) : List User :=
  (if settings.demoPassword ≠ "" then [⟨settings.demoUsername, settings.demoPassword⟩] else []) ++
    if settings.demo2Password ≠ "" then [⟨settings.demo2Username, settings.demo2Password⟩] else []

/-- `docs` are the pages the framework mounts on its own. -/
structure Deployment where
  settings : Settings := {}
  users : List User := seedUsers settings
  docs : String → String := fun _ => ""

def Deployment.getUser (deployment : Deployment) (username : String) : Option User :=
  deployment.users.reverse.find? fun user => decide (user.username = username)

structure AgentExecution where
  requestId : UUID
  agentId : String
  status : String
  deriving DecidableEq, Repr

/-- What outlives a request. The two graphs keep their threads in different
stores. -/
structure System where
  ownership : ThreadOwnership := .empty
  executions : List AgentExecution := []
  threads : String → Thread := fun _ => .empty
  research : String → Research.ResearchThread := fun _ => .empty
  memory : VectorStore.Store := none
  cache : String → Option AskResponse := fun _ => none

/-! ## Outside the app -/

/-- The places where something outside the program can raise. -/
inductive Call where
  | limiter
  | buildWorkflow
  | buildResearchWorkflow
  | getTools
  | getState
  | listHistory
  | updateState
  | updateStateReply
  | vectorStore
  | vectorStoreReply
  | ownership
  | commit
  | sweep
  | stats
  | renderPng
  deriving DecidableEq, Repr

/-- Everything a request meets outside the program. What varies while a graph
runs is indexed by the superstep; `stop` ends a run from outside after that many
supersteps. -/
structure Outside where
  decodeSubject : String → Option String
  createAccessToken : String → String
  fault : Call → Option Exn
  printed : Exn → String
  llm : Nat → Llm
  tools : List String
  writeReport : Nat → String → Except Exn ResearchReport
  runTool : Nat → ToolCall → String
  recursionLimit : Nat
  stop : Option (Nat × Exn)
  embedder : VectorStore.Embedder
  ranking : VectorStore.PointRanking
  pointId : Nat
  uuid : String
  cacheAnswers : Bool
  cacheStores : Bool
  staleThreads : List String
  gcStats : GcStats
  mermaid : String
  png : String

/-- How far a run gets that may take `limit` supersteps. -/
def Outside.budget (outside : Outside) (limit : Nat) : Nat :=
  match outside.stop with
  | none => limit
  | some (supersteps, _) => min supersteps limit

/-- What a run raises that used up its budget. -/
def Outside.exhausted (outside : Outside) (limit : Nat) : Exn :=
  match outside.stop with
  | none => .graphRecursionError
  | some (supersteps, failure) => if supersteps < limit then failure else .graphRecursionError

def Outside.ending {Result : Type} (outside : Outside) (limit : Nat) :
    Except Exn Result → Except Exn Result
  | .error .graphRecursionError => .error (outside.exhausted limit)
  | result => result

/-- Nothing fails, a token is the name of its user, and the models are those of
`scripted`. -/
def undisturbed (plain withTools : Reply) : Outside where
  decodeSubject token := some token
  createAccessToken username := username
  fault _ := none
  printed _ := ""
  llm _ :=
    { (scripted plain withTools).context.llm with bindTools := fun _ _ _ => .ok withTools }
  tools := []
  writeReport _ _ := .error .validationError
  runTool _ := (scripted plain withTools).runTool
  recursionLimit := 25
  stop := none
  embedder := (scripted plain withTools).embedder
  ranking := (scripted plain withTools).ranking
  pointId := 0
  uuid := ""
  cacheAnswers := true
  cacheStores := true
  staleThreads := []
  gcStats := ⟨0, 0, 0, 0, none⟩
  mermaid := ""
  png := ""

/-- The admin and one other user, with passwords set. -/
def twoUsers : Deployment where
  settings := { demoPassword := "first", demo2Username := "bob", demo2Password := "second" }

/-! ## Handlers -/

/-- `added` are the objects in the database session, `supersteps` what the
request has made the main graph do. -/
structure State where
  system : System
  added : List AgentExecution := []
  supersteps : List Superstep := []

abbrev Handler := Effect State Exn

section

variable (deployment : Deployment) (outside : Outside)

def call (place : Call) : Handler Unit :=
  Effect.ofExcept <|
    match outside.fault place with
    | none => .ok ()
    | some failure => .error failure

/-- A query string or a body that does not validate is refused once the
dependencies have run. -/
def validated {Payload : Type} (payload : Option Payload) : Handler Payload :=
  Effect.ofExcept <|
    match payload with
    | none => .error .requestValidationError
    | some payload => .ok payload

/-! ## `app/database.py` -/

/-- Requests follow one another, so one number serves every session. -/
def transaction : Nat := 0

def State.rollback (state : State) : State :=
  { state with
    system := { state.system with ownership := state.system.ownership.rollback transaction }
    added := [] }

def State.commit (state : State) : State :=
  match outside.fault .commit with
  | some _ => state.rollback
  | none =>
      { state with
        system := { state.system with
          ownership := state.system.ownership.commit transaction
          executions := state.system.executions ++ state.added }
        added := [] }

def commitSession : Handler Unit :=
  Effect.write (State.commit outside)

def rollbackSession : Handler Unit :=
  Effect.write State.rollback

def rollbackOnFailure {Result : Type} (body : Handler Result) : Handler Result :=
  tryCatch body fun failure => do
    rollbackSession
    throw failure

/-- The commit comes after the response has been sent, so its failure takes the
session back but not the response. -/
def getDb {Result : Type} (body : Handler Result) : Handler Result := do
  let result ← rollbackOnFailure body
  commitSession outside
  return result

/-- The same for a response that is sent while the body runs and may break off. -/
def getDbStreaming {Result : Type} (body : Handler (Result × Option Exn)) : Handler Result := do
  let result ← rollbackOnFailure body
  match result.2 with
  | none => commitSession outside
  | some _ => rollbackSession
  return result.1

def changeSession (change : List AgentExecution → List AgentExecution) : Handler Unit :=
  Effect.write fun state => { state with added := change state.added }

def addExecution (execution : AgentExecution) : Handler Unit :=
  changeSession (· ++ [execution])

/-- The objects of the session are changed in place. -/
def setStatus (status : String) : Handler Unit :=
  changeSession (List.map fun execution => { execution with status := status })

/-! ## `app/api/v1/auth.py` -/

def credentialsError : Exn :=
  .httpException 401 "Could not validate credentials"

def currentUser (token : Option String) : Except Exn String :=
  match token with
  | none => .error (.httpException 401 "Not authenticated")
  | some token =>
      match outside.decodeSubject token with
      | none => .error credentialsError
      | some username =>
          if (deployment.getUser username).isSome then .ok username
          else .error credentialsError

def getCurrentUser (token : Option String) : Handler String :=
  Effect.ofExcept (currentUser deployment outside token)

def State.withOwnership (table : ThreadOwnership) (state : State) : State :=
  { state with system := { state.system with ownership := table } }

def claimOrCheck (threadId username : String) : Handler Bool :=
  if isAdmin deployment.settings username then return true
  else do
    call outside .ownership
    let table ← Effect.read fun state : State => state.system.ownership
    match Ownership.claimOrCheck deployment.settings transaction table threadId username with
    | none => throw (.external "lock")
    | some (granted, claimed) =>
        Effect.write (State.withOwnership claimed)
        return granted

def requireThreadOwner (threadId : String) (token : Option String) : Handler String := do
  let username ← getCurrentUser deployment outside token
  let granted ← claimOrCheck deployment outside threadId username
  if granted then return username
  else throw (.httpException 403 "Not the owner of this thread_id.")

def login (username password : String) : Handler Response :=
  Effect.ofExcept <|
    match deployment.getUser username with
    | none => .error (.httpException 401 "Incorrect username or password")
    | some user =>
        if user.password = password then
          .ok { body := .token (outside.createAccessToken user.username) "bearer" }
        else .error (.httpException 401 "Incorrect username or password")

end

end AgenticEnterprise.Api
