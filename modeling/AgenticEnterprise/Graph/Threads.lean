import AgenticEnterprise.Graph.Engine
import AgenticEnterprise.Library.CheckpointStore

/-! Runs of the compiled graph over a checkpointed thread.

A run loads a checkpoint and takes one superstep after another, each of which is
saved as a new checkpoint. The number of supersteps a run may take is a
parameter: it stands for the recursion limit and for a process that stops. The
environment of every superstep is its own, so model and tools may answer
differently each time. -/

set_option autoImplicit false

namespace AgenticEnterprise.Graph.Threads

open Core Library Engine

/-- What the next superstep does: write an input to the state, or run a node. -/
inductive Pending where
  | input (messages : List Message)
  | node (node : Node)
  deriving DecidableEq, Repr

structure Checkpoint where
  values : GraphState := {}
  next : Option Pending := none
  deriving DecidableEq, Repr

structure Superstep where
  pending : Pending
  prompts : List Prompt := []
  reply : Option Reply := none
  streamed : List String := []
  outcome : Except Exn Checkpoint

def superstep (environment : Environment) (values : GraphState) : Pending → Superstep
  | .input messages =>
      { pending := .input messages
        outcome := .ok ⟨values.apply { messages := messages }, some (.node .router)⟩ }
  | .node node =>
      let run := runNode environment values node
      { pending := .node node
        prompts := run.prompts
        reply := run.reply
        streamed := run.streamed
        outcome := do
          let update ← run.update
          let target ← nextNode (values.apply update) node
          return ⟨values.apply update, target.map .node⟩ }

structure Execution where
  steps : List Superstep
  result : Except Exn GraphState

def execute : Nat → (Nat → Environment) → Checkpoint → Execution
  | _, _, ⟨values, none⟩ => ⟨[], .ok values⟩
  | 0, _, ⟨_, some _⟩ => ⟨[], .error .graphRecursionError⟩
  | limit + 1, environments, ⟨values, some pending⟩ =>
      let step := superstep (environments 0) values pending
      match step.outcome with
      | .error failure => ⟨[step], .error failure⟩
      | .ok next =>
          let rest := execute limit (fun index => environments (index + 1)) next
          ⟨step :: rest.steps, rest.result⟩

/-- An environment whose plain model and whose model with tools each give one
fixed answer, as the test doubles of the source do. -/
def scripted (plain withTools : Reply) : Environment where
  settings := {}
  context :=
    { llm :=
        { ainvoke := fun _ => .ok plain
          bindTools := fun _ _ _ => .ok withTools
          withStructuredOutput := fun _ =>
            .ok
              { ticker := "AAPL", sentiment := .neutral, riskScore := 5
                keyDrivers := ["demand", "margins", "rates"]
                riskScore_ge := by decide, riskScore_le := by decide
                keyDrivers_min := by decide } }
      toolLlm := some fun _ => .ok withTools
      username := "admin" }
  embedder := fun _ => .ok []
  ranking := .ofScore (fun _ _ => 0) _
  memory := none
  runTool := fun _ => ""

/-! ## What a run can do -/

/-- A superstep that succeeds. -/
inductive Advance (environment : Environment) (values : GraphState) :
    Pending → Checkpoint → Prop where
  | input {messages} :
      Advance environment values (.input messages)
        ⟨values.apply { messages := messages }, some (.node .router)⟩
  | node {node update target} :
      NodeEffect environment values node update →
      nextNode (values.apply update) node = .ok target →
      Advance environment values (.node node) ⟨values.apply update, target.map .node⟩

theorem advance_of_outcome {environment : Environment} {values : GraphState} {pending : Pending}
    {next : Checkpoint} (succeeded : (superstep environment values pending).outcome = .ok next) :
    Advance environment values pending next := by
  cases pending with
  | input messages =>
      cases succeeded
      exact .input
  | node node =>
      obtain ⟨update, written, rest⟩ := bind_eq_ok_iff.mp succeeded
      obtain ⟨target, decided, rest⟩ := bind_eq_ok_iff.mp rest
      cases rest
      exact .node (nodeEffect_of_update written) decided

/-- Messages are only ever appended, an input first of all. -/
theorem Advance.messages {environment : Environment} {values : GraphState} {pending : Pending}
    {next : Checkpoint} (advanced : Advance environment values pending next) :
    ∃ added, next.values.messages = values.messages ++ added ∧
      ∀ input, pending = .input input → added = input := by
  cases advanced with
  | @input messages =>
      refine ⟨messages, rfl, fun input same => ?_⟩
      cases same
      rfl
  | @node _ update => exact ⟨update.messages, rfl, nofun⟩

section

variable {environments : Nat → Environment} {start : Checkpoint} {limit : Nat}

/-- Every superstep of a run starts from a checkpoint that satisfies what the
first one does, if every successful superstep keeps it. -/
theorem execute_steps {holds : Checkpoint → Prop} {allowed : Environment → Prop}
    (kept : ∀ {environment values pending next}, allowed environment →
      holds ⟨values, some pending⟩ → Advance environment values pending next → holds next)
    (permitted : ∀ index, allowed (environments index)) (initially : holds start) :
    ∀ step ∈ (execute limit environments start).steps,
      ∃ environment values pending, allowed environment ∧ holds ⟨values, some pending⟩ ∧
        step = superstep environment values pending := by
  induction limit generalizing environments start with
  | zero =>
      intro step member
      obtain ⟨values, next⟩ := start
      cases next <;> cases member
  | succ limit ih =>
      intro step member
      obtain ⟨values, next⟩ := start
      cases next with
      | none => cases member
      | some pending =>
          simp only [execute] at member
          split at member
          · obtain rfl := List.mem_singleton.mp member
            exact ⟨_, _, _, permitted 0, initially, rfl⟩
          · rename_i next succeeded
            rcases List.mem_cons.mp member with rfl | later
            · exact ⟨_, _, _, permitted 0, initially, rfl⟩
            · have advanced := kept (permitted 0) initially (advance_of_outcome succeeded)
              exact ih (fun index => permitted (index + 1)) advanced step later

/-- A relation between the checkpoint and what has been recorded of the
supersteps before it holds at the end of a run that completes. -/
theorem execute_result {Recorded : Type} {holds : Checkpoint → Recorded → Prop}
    (record : Recorded → Superstep → Recorded)
    (kept : ∀ {environment values pending next recorded},
      holds ⟨values, some pending⟩ recorded →
      (superstep environment values pending).outcome = .ok next →
      holds next (record recorded (superstep environment values pending)))
    {recorded : Recorded} (initially : holds start recorded) {final : GraphState}
    (completed : (execute limit environments start).result = .ok final) :
    holds ⟨final, none⟩
      ((execute limit environments start).steps.foldl record recorded) := by
  induction limit generalizing environments start recorded with
  | zero =>
      obtain ⟨values, next⟩ := start
      cases next with
      | none =>
          cases completed
          exact initially
      | some pending => cases completed
  | succ limit ih =>
      obtain ⟨values, next⟩ := start
      cases next with
      | none =>
          cases completed
          exact initially
      | some pending =>
          simp only [execute] at completed ⊢
          split at completed
          · cases completed
          · rename_i next succeeded
            rw [List.foldl_cons]
            exact ih (kept initially succeeded) completed

end

/-! ## Two runs -/

/-- Both fail alike, or both succeed with related results. -/
inductive Matching {Result : Type} (related : Result → Result → Prop) :
    Except Exn Result → Except Exn Result → Prop where
  | ok {left right} : related left right → Matching related (.ok left) (.ok right)
  | error {failure} : Matching related (.error failure) (.error failure)

/-- Two runs that hand the model the same and reach related checkpoints in every
superstep do so as a whole. -/
theorem execute_matching {related : Checkpoint → Checkpoint → Prop}
    {leftEnvironments rightEnvironments : Nat → Environment}
    (next : ∀ {left right}, related left right → left.next = right.next)
    (kept : ∀ index {left right pending}, related ⟨left, some pending⟩ ⟨right, some pending⟩ →
      (superstep (leftEnvironments index) left pending).prompts =
          (superstep (rightEnvironments index) right pending).prompts ∧
        Matching related (superstep (leftEnvironments index) left pending).outcome
          (superstep (rightEnvironments index) right pending).outcome)
    {left right : Checkpoint} (initially : related left right) (limit : Nat) :
    (execute limit leftEnvironments left).steps.map Superstep.prompts =
        (execute limit rightEnvironments right).steps.map Superstep.prompts ∧
      Matching (fun left right => related ⟨left, none⟩ ⟨right, none⟩)
        (execute limit leftEnvironments left).result
        (execute limit rightEnvironments right).result := by
  induction limit generalizing leftEnvironments rightEnvironments left right with
  | zero =>
      obtain ⟨leftValues, pending⟩ := left
      obtain ⟨rightValues, other⟩ := right
      obtain rfl : pending = other := next initially
      cases pending with
      | none => exact ⟨rfl, .ok initially⟩
      | some pending => exact ⟨rfl, .error⟩
  | succ limit ih =>
      obtain ⟨leftValues, pending⟩ := left
      obtain ⟨rightValues, other⟩ := right
      obtain rfl : pending = other := next initially
      cases pending with
      | none => exact ⟨rfl, .ok initially⟩
      | some pending =>
          obtain ⟨prompts, outcomes⟩ := kept 0 initially
          simp only [execute]
          generalize (superstep (leftEnvironments 0) leftValues pending).outcome = leftOutcome,
            (superstep (rightEnvironments 0) rightValues pending).outcome = rightOutcome
            at outcomes
          cases outcomes with
          | error => exact ⟨by simp [prompts], .error⟩
          | ok reached =>
              obtain ⟨rest, result⟩ := ih (fun index => kept (index + 1)) reached
              exact ⟨by simp [prompts, rest], result⟩

/-! ## Threads -/

inductive Source where
  | input
  | loop
  | update
  deriving DecidableEq, Repr

structure Entry where
  source : Source
  step : Int
  checkpoint : Checkpoint
  deriving DecidableEq, Repr

abbrev Thread := CheckpointStore Entry

/-- Where a run starts: at a given checkpoint or at the latest one. An unknown
checkpoint is an empty one that has no identifier. -/
structure Start where
  id : Option Nat := none
  step : Int := -2
  checkpoint : Checkpoint := {}
  deriving DecidableEq, Repr

def load (thread : Thread) (checkpointId : Option Nat) : Start :=
  let id := checkpointId.orElse fun _ => thread.latestId
  match id.bind thread.find? with
  | some saved => ⟨id, saved.state.step, saved.state.checkpoint⟩
  | none => {}

/-- The checkpoint a new input is saved as, before anything has run. -/
def withInput (start : Start) (messages : List Message) : Entry :=
  ⟨.input, start.step + 1, ⟨start.checkpoint.values, some (.input messages)⟩⟩

def saveSteps : List Superstep → Option Nat → Int → Thread → Thread
  | [], _, _, thread => thread
  | superstep :: rest, parent, step, thread =>
      match superstep.outcome with
      | .error _ => saveSteps rest parent step thread
      | .ok checkpoint =>
          saveSteps rest (some thread.nextId) (step + 1)
            (thread.put parent ⟨.loop, step, checkpoint⟩)

/-- `ainvoke`: with an input the graph starts over behind the loaded checkpoint,
without one it continues with what is pending there. -/
def ainvoke (limit : Nat) (environments : Nat → Environment) (input : Option (List Message))
    (checkpointId : Option Nat) (thread : Thread) : Execution × Thread :=
  let start := load thread checkpointId
  match input with
  | some messages =>
      let entry := withInput start messages
      let execution := execute limit environments entry.checkpoint
      (execution, saveSteps execution.steps (some thread.nextId) (entry.step + 1)
        (thread.put start.id entry))
  | none =>
      let execution := execute limit environments start.checkpoint
      (execution, saveSteps execution.steps start.id (start.step + 1) thread)

def nodes : List Node :=
  [.router, .agent, .billing, .general, .critic, .fetchMetrics, .formatReport, .memoryRetriever,
    .tools]

def nodeNamed (name : String) : Option Node :=
  nodes.find? fun node => decide (node.name = name)

/-- The checkpoint `aupdate_state` makes of another one, as if `asNode` had
returned the values. The entry points read nothing but messages from them. -/
def updateState (checkpoint : Checkpoint) (values : Update) (asNode : String) :
    Except Exn Checkpoint :=
  if asNode = "__input__" then .ok ⟨checkpoint.values, some (.input [])⟩
  else if asNode = "__start__" then .ok ⟨checkpoint.values, some (.node .router)⟩
  else
    match nodeNamed asNode with
    | none => .error (.invalidUpdateError ("Node " ++ asNode ++ " does not exist"))
    | some node =>
        (nextNode (checkpoint.values.apply values) node).map fun target =>
          ⟨checkpoint.values.apply values, target.map .node⟩

def aupdateState (thread : Thread) (checkpointId : Option Nat) (values : Update)
    (asNode : String) : Except Exn Thread :=
  let start := load thread checkpointId
  (updateState start.checkpoint values asNode).map fun checkpoint =>
    thread.put start.id ⟨.update, start.step + 1, checkpoint⟩

/-! ## Histories of a thread -/

/-- A run (a new turn, a resume or a fork) or an edit. -/
inductive Operation where
  | invoke (limit : Nat) (environments : Nat → Environment) (input : Option (List Message))
      (checkpointId : Option Nat)
  | edit (checkpointId : Option Nat) (critique : Option String) (revisionCount : Option Int)
      (asNode : String)

inductive Operate : Thread → Operation → Thread → Prop where
  | invoke {thread limit environments input checkpointId} :
      Operate thread (.invoke limit environments input checkpointId)
        (ainvoke limit environments input checkpointId thread).2
  | edit {thread checkpointId critique revisionCount asNode after} :
      aupdateState thread checkpointId { critique := critique, revisionCount := revisionCount }
        asNode = .ok after →
      Operate thread (.edit checkpointId critique revisionCount asNode) after

def Thread.All (holds : Checkpoint → Prop) (thread : Thread) : Prop :=
  CheckpointStore.All (fun entry => holds entry.checkpoint) thread

section

variable {holds : Checkpoint → Prop} {thread : Thread} {checkpointId : Option Nat}

theorem Thread.All.load (all : Thread.All holds thread) (empty : holds {}) :
    holds (load thread checkpointId).checkpoint := by
  unfold Threads.load
  dsimp only
  split
  · rename_i saved found
    obtain ⟨id, _, stored⟩ := Option.bind_eq_some_iff.mp found
    exact all id saved stored
  · exact empty

theorem load_latest {entry : Entry} (latest : thread.latest = some entry) :
    (Threads.load thread none).checkpoint = entry.checkpoint := by
  rw [CheckpointStore.latest_eq_find?, Option.map_eq_some_iff] at latest
  obtain ⟨saved, found, rfl⟩ := latest
  have loaded : thread.latestId.bind thread.find? = some saved := found
  simp [Threads.load, loaded]

theorem Thread.All.put (all : Thread.All holds thread) {parent : Option Nat} {entry : Entry}
    (new : holds entry.checkpoint) : Thread.All holds (CheckpointStore.put thread parent entry) :=
  CheckpointStore.All.put all new

theorem Thread.All.saveSteps (all : Thread.All holds thread) {steps : List Superstep}
    (new : ∀ step ∈ steps, ∀ checkpoint, step.outcome = .ok checkpoint → holds checkpoint)
    (parent : Option Nat) (index : Int) :
    Thread.All holds (Threads.saveSteps steps parent index thread) := by
  induction steps generalizing thread parent index with
  | nil => exact all
  | cons step rest ih =>
      have later : ∀ other ∈ rest, ∀ checkpoint, other.outcome = .ok checkpoint →
          holds checkpoint := fun other member => new other (.tail _ member)
      unfold Threads.saveSteps
      split
      · exact ih all later parent index
      · rename_i checkpoint succeeded
        exact ih (all.put (new step (.head _) checkpoint succeeded)) later _ _

theorem Thread.All.aupdateState (all : Thread.All holds thread) {values : Update}
    {asNode : String} {after : Thread}
    (new : ∀ checkpoint, updateState (Threads.load thread checkpointId).checkpoint values asNode =
      .ok checkpoint → holds checkpoint)
    (edited : Threads.aupdateState thread checkpointId values asNode = .ok after) :
    Thread.All holds after := by
  obtain ⟨checkpoint, written, rfl⟩ := map_eq_ok_iff.mp edited
  exact all.put (new checkpoint written)

/-- What every input and every superstep keeps holds in a thread after a run. -/
theorem Thread.All.ainvoke {allowed : Environment → Prop} (all : Thread.All holds thread)
    {limit : Nat} {environments : Nat → Environment} {input : Option (List Message)}
    (empty : holds {})
    (started : ∀ messages, input = some messages →
      holds (withInput (Threads.load thread checkpointId) messages).checkpoint)
    (kept : ∀ {environment values pending next}, allowed environment →
      holds ⟨values, some pending⟩ → Advance environment values pending next → holds next)
    (permitted : ∀ index, allowed (environments index)) :
    Thread.All holds (Threads.ainvoke limit environments input checkpointId thread).2 := by
  have new {start : Checkpoint} (initially : holds start) :
      ∀ step ∈ (execute limit environments start).steps, ∀ checkpoint,
        step.outcome = .ok checkpoint → holds checkpoint := by
    intro step member checkpoint succeeded
    obtain ⟨environment, values, pending, fine, before, rfl⟩ :=
      execute_steps kept permitted initially step member
    exact kept fine before (advance_of_outcome succeeded)
  cases input with
  | none => exact all.saveSteps (new (all.load empty)) _ _
  | some messages =>
      have initially := started messages rfl
      exact (all.put initially).saveSteps (new initially) _ _

end

end AgenticEnterprise.Graph.Threads
