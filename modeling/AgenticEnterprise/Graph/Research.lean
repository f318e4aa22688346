import AgenticEnterprise.Graph.Engine
import AgenticEnterprise.Library.CheckpointStore

/-! The research graph: `app/graph/research.py`, and its runs over a thread. -/

set_option autoImplicit false

namespace AgenticEnterprise.Graph.Research

open Core Library Engine

structure ResearchState where
  messages : List Message := []
  report : Option ResearchReport := none
  deriving DecidableEq, Repr

/-- What the nodes reach outside the state. -/
structure Environment where
  toolLlm : ChatModel
  withStructuredOutput : String → Except Exn ResearchReport
  runTool : ToolCall → String

inductive Node where
  | agent
  | tools
  | report
  deriving DecidableEq, Repr

def reportPrompt (messages : List Message) : String :=
  "Synthesize a ResearchReport from this research transcript. " ++
    "confidence must be a fraction between 0.0 and 1.0 (not a percentage, " ++
    "not out of 100):\n" ++ Text.join "\n" (messages.map Message.content)

def researcher (environment : Environment) (state : ResearchState) : Except Exn ResearchState := do
  let response ← environment.toolLlm state.messages
  return { state with messages := state.messages ++ [response.message] }

def toolNode (environment : Environment) (state : ResearchState) : Except Exn ResearchState :=
  match state.messages.reverse.find? Message.isAi with
  | none => .error (.valueError "No AIMessage found in input")
  | some message =>
      .ok { state with
        messages := state.messages ++ message.toolCalls.map fun call =>
          .tool (environment.runTool call) call.id }

def generateResearchReport (environment : Environment) (state : ResearchState) :
    Except Exn ResearchState := do
  let report ← environment.withStructuredOutput (reportPrompt state.messages)
  return { state with report := some report }

def runNode (environment : Environment) (state : ResearchState) :
    Node → Except Exn ResearchState
  | .agent => researcher environment state
  | .tools => toolNode environment state
  | .report => generateResearchReport environment state

def shouldContinue (state : ResearchState) : Except Exn Node :=
  match state.messages.getLast? with
  | none => .error .indexError
  | some message => .ok (if message.toolCalls = [] then .report else .tools)

def nextNode (state : ResearchState) : Node → Except Exn (Option Node)
  | .agent => (shouldContinue state).map some
  | .tools => .ok (some .agent)
  | .report => .ok none

/-! ## Runs -/

inductive Pending where
  | input (messages : List Message)
  | node (node : Node)
  deriving DecidableEq, Repr

structure Checkpoint where
  values : ResearchState := {}
  next : Option Pending := none
  deriving DecidableEq, Repr

/-- The input of a run sets the report back. -/
def superstep (environment : Environment) (values : ResearchState) :
    Pending → Except Exn Checkpoint
  | .input messages =>
      .ok ⟨⟨values.messages ++ messages, none⟩, some (.node .agent)⟩
  | .node node => do
      let reached ← runNode environment values node
      let target ← nextNode reached node
      return ⟨reached, target.map .node⟩

/-- The checkpoints of a run, in the order they are saved, and how it ends. -/
structure Execution where
  checkpoints : List Checkpoint
  result : Except Exn ResearchState

def execute : Nat → (Nat → Environment) → Checkpoint → Execution
  | _, _, ⟨values, none⟩ => ⟨[], .ok values⟩
  | 0, _, ⟨_, some _⟩ => ⟨[], .error .graphRecursionError⟩
  | limit + 1, environments, ⟨values, some pending⟩ =>
      match superstep (environments 0) values pending with
      | .error failure => ⟨[], .error failure⟩
      | .ok next =>
          let rest := execute limit (fun index => environments (index + 1)) next
          ⟨next :: rest.checkpoints, rest.result⟩

abbrev ResearchThread := CheckpointStore Checkpoint

def load (thread : ResearchThread) : Checkpoint :=
  thread.latest.getD {}

/-- Every checkpoint of a run is derived from the one saved before it. -/
def save (thread : ResearchThread) (checkpoint : Checkpoint) : ResearchThread :=
  thread.put thread.latestId checkpoint

def ainvoke (limit : Nat) (environments : Nat → Environment) (messages : List Message)
    (thread : ResearchThread) : Execution × ResearchThread :=
  let start : Checkpoint := ⟨(load thread).values, some (.input messages)⟩
  let execution := execute limit environments start
  (execution, execution.checkpoints.foldl save (save thread start))

end AgenticEnterprise.Graph.Research
