import AgenticEnterprise.Core.Uuid
import AgenticEnterprise.Graph.History
import AgenticEnterprise.Graph.Research

/-! What the API reads and answers: `app/schemas` and the handlers of `app/main.py`
that turn an exception into a response. Timestamps, latencies and trace
identifiers are left out. -/

set_option autoImplicit false

namespace AgenticEnterprise.Api

open Core Memory Graph

/-! ## Requests -/

def isSlugChar (char : Char) : Bool :=
  char.isAlphanum || char = '_' || char = '-'

structure AgentRequest where
  requestId : UUID
  conversationId : Option String := none
  taskDescription : String
  agentId : String
  taskDescription_min : 10 ≤ taskDescription.length
  taskDescription_max : taskDescription.length ≤ 500
  agentId_nonempty : agentId ≠ ""
  agentId_slug : agentId.toList.all isSlugChar = true

structure ResearchRequest where
  topic : String
  threadId : String
  topic_min : 3 ≤ topic.length
  topic_max : topic.length ≤ 500

structure SmokeTestRequest where
  testId : String
  payload : String := "System Check: Respond with 'READY'"

structure EditQuery where
  checkpointId : String
  asNode : String
  critique : Option String := none
  revisionCount : Option Int := none

/-! ## Responses -/

structure AgentResponse where
  requestId : UUID
  status : String
  output : String
  deriving DecidableEq, Repr

structure AskResponse where
  query : String
  output : String
  deriving DecidableEq, Repr

structure HistoryTurn where
  role : String
  content : String
  deriving DecidableEq, Repr

structure MemoryHit where
  score : Rat
  text : String
  threadId : Option String
  deriving DecidableEq, Repr

/-- One frame of `/run/stream`. -/
structure StreamEvent where
  event : String
  phase : String
  node : Option String := none
  content : String
  deriving DecidableEq, Repr

/-- What the database answers the checkpoint statistics with. -/
structure GcStats where
  checkpoints : Nat
  checkpointWrites : Nat
  checkpointBlobs : Nat
  threads : Nat
  oldestCheckpoint : Option String
  deriving DecidableEq, Repr

inductive Body where
  | text (content : String)
  | fields (fields : List (String × String))
  | detail (detail : String)
  | error (errorCode message : String)
  | agent (response : AgentResponse)
  | events (events : List StreamEvent)
  | ask (response : AskResponse)
  | analysis (report : InvestmentAnalysis)
  | report (report : ResearchReport)
  | conversation (conversationId : String) (turns : List HistoryTurn)
  | history (threadId : String) (interrupted : Bool) (checkpoints : List History.SnapshotSummary)
  | fork (threadId forkedFrom : String) (newCheckpointId : Option Nat) (output : String)
  | edit (threadId editedFrom : String) (newCheckpointId : Option Nat) (critique : Option String)
      (revisionCount : Option Int)
  | branches (threadId : String) (checkpointCount : Nat) (forkPoints : List (Nat × Nat))
      (tree : History.Tree)
  | remembered (pointId : Nat) (threadId : String)
  | hits (query : String) (hits : List MemoryHit)
  | smoke (testId graphState llmResponse : String)
  | swept (deleted : Nat) (retentionDays : Int)
  | stats (row : GcStats) (retentionDays : Int)
  | token (accessToken tokenType : String)
  deriving DecidableEq, Repr

structure Response where
  status : Nat := 200
  body : Body
  deriving DecidableEq, Repr

/-- The exception handlers of the app, and the framework's own for the rest. -/
def errorResponse : Exn → Response
  | .agenticException errorCode statusCode message => ⟨statusCode, .error errorCode message⟩
  | .graphRecursionError =>
      ⟨422, .error "MAX_RECURSION_REACHED"
        "Agent entered a loop or exceeded its reasoning-step budget."⟩
  | .requestValidationError => ⟨422, .error "VALIDATION_ERROR" "Request body failed validation."⟩
  | .rateLimitExceeded limit =>
      ⟨429, .error "RATE_LIMIT_EXCEEDED" ("Rate limit exceeded: " ++ limit)⟩
  | .httpException statusCode detail => ⟨statusCode, .detail detail⟩
  | _ => ⟨500, .text "Internal Server Error"⟩

end AgenticEnterprise.Api
