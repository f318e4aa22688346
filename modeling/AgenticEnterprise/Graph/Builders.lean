import AgenticEnterprise.Graph.Research
import AgenticEnterprise.Library.Runs
import Mathlib.Data.List.Induction
import Mathlib.Data.List.Nodup
import Mathlib.Logic.Function.Basic

/-! Concurrent callers of `build_workflow` of `app/graph/engine.py` and of
`build_research_workflow` of `app/graph/research.py`.

A caller can be overtaken where it awaits the lock, and where it awaits `load_tools`.
Only the main graph is built behind a lock. -/

set_option autoImplicit false

namespace AgenticEnterprise.Graph.Builders

open Core Library

/-! ## The builders -/

/-- `tools` are what a `ToolNode` is made with. -/
structure GraphNode where
  name : String
  tools : List String := []
  deriving DecidableEq, Repr

/-- `branches` are the conditional edges, with what their functions can return. -/
structure StateGraph where
  nodes : List GraphNode
  edges : List (String × String)
  branches : List (String × List String)
  deriving DecidableEq, Repr

namespace StateGraph

variable (graph : StateGraph)

def has (name : String) : Bool :=
  graph.nodes.any fun node => decide (node.name = name)

def addNode (node : GraphNode) : Except Exn StateGraph :=
  if graph.has node.name then
    .error (.valueError ("Node `" ++ node.name ++ "` already present."))
  else .ok { graph with nodes := graph.nodes ++ [node] }

def sources : List String :=
  graph.edges.map Prod.fst ++ graph.branches.map Prod.fst

def targets : List String :=
  graph.edges.map Prod.snd ++ graph.branches.flatMap Prod.snd

/-- What `compile` checks. -/
def valid : Bool :=
  (graph.sources.all fun name => decide (name = "__start__") || graph.has name) &&
    (graph.targets.all fun name => decide (name = "__end__") || graph.has name)

def withTools (tools : List String) : StateGraph :=
  { graph with nodes := graph.nodes ++ [⟨"tools", tools⟩] }

end StateGraph

def graphBuilder : StateGraph where
  nodes :=
    [⟨"router", []⟩, ⟨"agent", []⟩, ⟨"billing", []⟩, ⟨"general", []⟩, ⟨"critic", []⟩,
      ⟨"fetch_metrics", []⟩, ⟨"format_report", []⟩, ⟨"memory_retriever", []⟩]
  edges :=
    [("fetch_metrics", "format_report"), ("format_report", "__end__"), ("__start__", "router"),
      ("router", "memory_retriever"), ("tools", "agent"), ("billing", "__end__"),
      ("general", "critic")]
  branches :=
    [("memory_retriever", ["agent", "general", "billing", "fetch_metrics"]),
      ("agent", ["tools", "__end__"]), ("critic", ["general", "__end__"])]

def researchBuilder : StateGraph where
  nodes := [⟨"agent", []⟩, ⟨"report", []⟩]
  edges := [("__start__", "agent"), ("tools", "agent"), ("report", "__end__")]
  branches := [("agent", ["tools", "report"])]

/-- Only the node of the tools is missing. -/
structure Lacking (builder : StateGraph) : Prop where
  lacks : builder.has "tools" = false
  completes : ∀ tools, (builder.withTools tools).valid = true

theorem graphBuilder_lacking : Lacking graphBuilder where
  lacks := by decide
  completes _ := rfl

theorem researchBuilder_lacking : Lacking researchBuilder where
  lacks := by decide
  completes _ := rfl

/-! ### Where the edges lead -/

def StateGraph.leads (graph : StateGraph) (source target : String) : Bool :=
  graph.edges.contains (source, target) ||
    graph.branches.any fun branch =>
      decide (branch.1 = source) && branch.2.contains target

/-- Control goes along the edges of the main graph. -/
theorem nextNode_leads {values : Engine.GraphState} {node : Engine.Node}
    {target : Option Engine.Node} (decided : Engine.nextNode values node = .ok target) :
    graphBuilder.leads node.name ((target.map Engine.Node.name).getD "__end__") = true := by
  cases node with
  | router | tools | billing | general | fetchMetrics | formatReport =>
      cases decided
      decide
  | memoryRetriever =>
      cases decided
      simp only [Engine.afterMemoryRetriever]
      split <;> decide
  | agent =>
      rcases Engine.toolsCondition_cases decided with rfl | rfl
      · decide
      · decide
  | critic =>
      rcases Engine.afterCritic_cases decided with ⟨rfl, _⟩ | ⟨rfl, _⟩
      · decide
      · decide

def researchName : Research.Node → String
  | .agent => "agent"
  | .tools => "tools"
  | .report => "report"

theorem research_nextNode_leads {values : Research.ResearchState} {node : Research.Node}
    {target : Option Research.Node} (decided : Research.nextNode values node = .ok target) :
    researchBuilder.leads (researchName node) ((target.map researchName).getD "__end__") =
      true := by
  cases node with
  | tools | report =>
      cases decided
      decide
  | agent =>
      obtain rfl | rfl : target = some .report ∨ target = some .tools := by
        simp only [Research.nextNode, Research.shouldContinue] at decided
        split at decided
        · cases decided
        · cases decided
          split <;> simp
      · decide
      · decide

/-! ## The callers -/

/-- Two graphs compiled from the same builder are different objects. -/
structure CompiledGraph where
  serial : Nat
  graph : StateGraph
  deriving DecidableEq, Repr

/-- What a caller awaits, or how it ended: `loadFailed` is what its own `load_tools`
raised, `raised` everything else. -/
inductive Phase where
  | ready
  | locking
  | loading
  | returned (graph : CompiledGraph)
  | loadFailed (failure : Exn)
  | raised (failure : Exn)

/-- The module's globals. `waiters` are in front of the lock, in the order in which it
lets them in. -/
structure State where
  builder : StateGraph
  app : Option CompiledGraph := none
  compiled : Nat := 0
  lock : Option Nat := none
  waiters : List Nat := []
  phase : Nat → Phase := fun _ => .ready

inductive Event where
  | call (id : Nat)
  | acquire (id : Nat)
  | loaded (id : Nat) (tools : List String)
  | loadFails (id : Nat) (failure : Exn)

namespace State

variable (state : State) (id : Nat)

def setPhase (phase : Phase) : State :=
  { state with phase := Function.update state.phase id phase }

/-- Compile the graph and keep it. -/
def compile : State :=
  if state.builder.valid then
    let graph : CompiledGraph := ⟨state.compiled, state.builder⟩
    { state with app := some graph, compiled := state.compiled + 1 }.setPhase id (.returned graph)
  else state.setPhase id (.raised (.external "langgraph"))

/-- What follows the tools, up to the end of the call. -/
def addTools (tools : List String) : State :=
  match state.builder.addNode ⟨"tools", tools⟩ with
  | .error failure => state.setPhase id (.raised failure)
  | .ok builder => { state with builder := builder }.compile id

/-- What a caller does with the lock until it awaits its tools. -/
def enter : State :=
  match state.app with
  | some graph => state.setPhase id (.returned graph)
  | none =>
      if state.builder.has "tools" then state.compile id
      else { state with lock := some id }.setPhase id .loading

def release : State :=
  { state with lock := none }

end State

def buildWorkflow (state : State) : Event → Option State
  | .call id =>
      match state.phase id with
      | .ready =>
          if state.lock = none ∧ state.waiters = [] then some (state.enter id)
          else some ({ state with waiters := state.waiters ++ [id] }.setPhase id .locking)
      | _ => none
  | .acquire id =>
      match state.lock, state.waiters with
      | none, first :: rest =>
          if first = id then some ({ state with waiters := rest }.enter id) else none
      | _, _ => none
  | .loaded id tools =>
      match state.phase id with
      | .loading => some (state.addTools id tools).release
      | _ => none
  | .loadFails id failure =>
      match state.phase id with
      | .loading => some (state.setPhase id (.loadFailed failure)).release
      | _ => none

def buildResearchWorkflow (state : State) : Event → Option State
  | .call id =>
      match state.phase id with
      | .ready =>
          match state.app with
          | some graph => some (state.setPhase id (.returned graph))
          | none => some (state.setPhase id .loading)
      | _ => none
  | .acquire _ => none
  | .loaded id tools =>
      match state.phase id with
      | .loading => some (state.addTools id tools)
      | _ => none
  | .loadFails id failure =>
      match state.phase id with
      | .loading => some (state.setPhase id (.loadFailed failure))
      | _ => none

def initial (builder : StateGraph) : State :=
  { builder := builder }

abbrev Taken (step : State → Event → Option State) (state : State) (event : Event)
    (next : State) : Prop :=
  step state event = some next

/-! ## What the callers are promised -/

/-- The caller can still get a graph. -/
def Served (step : State → Event → Option State) (state : State) (id : Nat) : Prop :=
  ∃ events next graph, Runs (Taken step) state events next ∧ next.phase id = .returned graph

/-- Whoever ended has the same graph, unless its own `load_tools` failed, and whoever
comes or waits can still get one. -/
structure BuiltOnce (step : State → Event → Option State) (state : State) : Prop where
  same : ∀ id other graph another, state.phase id = .returned graph →
    state.phase other = .returned another → graph = another
  unraised : ∀ id failure, state.phase id ≠ .raised failure
  later : ∀ id, state.phase id = .ready ∨ state.phase id = .locking → Served step state id

/-! ## The builder and the graph -/

/-- The graph is kept in the step that adds the tools, and is what callers get. -/
structure Kept (builder : StateGraph) (state : State) : Prop where
  unbuilt : state.app = none → state.builder = builder
  built : ∀ graph, state.app = some graph → state.builder.has "tools" = true
  returned : ∀ id graph, state.phase id = .returned graph → state.app = some graph

def State.built (state : State) (id : Nat) (tools : List String) : State :=
  let graph : CompiledGraph := ⟨state.compiled, state.builder.withTools tools⟩
  { state with
    builder := state.builder.withTools tools
    app := some graph
    compiled := state.compiled + 1 }.setPhase id (.returned graph)

section

variable {builder : StateGraph} {state next : State} {id other : Nat} {phase : Phase}
  {tools : List String} {event : Event} {graph : CompiledGraph}

theorem phase_setPhase :
    (state.setPhase id phase).phase other = if other = id then phase else state.phase other := by
  simp only [State.setPhase, Function.update_apply]

theorem phases_setPhase {holds : Phase → Prop} (before : ∀ id, holds (state.phase id))
    (own : holds phase) : ∀ other, holds ((state.setPhase id phase).phase other) := by
  intro other
  rw [phase_setPhase]
  split
  · exact own
  · exact before other

theorem kept_initial : Kept builder (initial builder) where
  unbuilt _ := rfl
  built _ same := by cases same
  returned _ _ same := by cases same

theorem Kept.setPhase (kept : Kept builder state)
    (own : ∀ graph, phase = .returned graph → state.app = some graph) :
    Kept builder (state.setPhase id phase) where
  unbuilt := kept.unbuilt
  built := kept.built
  returned other graph returned := by
    rw [phase_setPhase] at returned
    split at returned
    · exact own graph returned
    · exact kept.returned other graph returned

theorem has_withTools : (builder.withTools tools).has "tools" = true := by
  simp [StateGraph.has, StateGraph.withTools]

theorem Kept.build (kept : Kept builder state) (unbuilt : state.app = none) :
    Kept builder (state.built id tools) where
  unbuilt none := by cases none
  built _ _ := has_withTools
  returned other graph returned := by
    rw [State.built, phase_setPhase] at returned
    split at returned
    · cases returned
      rfl
    · have before := kept.returned other graph returned
      rw [unbuilt] at before
      cases before

theorem unraised_setPhase (unraised : ∀ id failure, state.phase id ≠ .raised failure)
    (own : ∀ failure, phase ≠ .raised failure) :
    ∀ other failure, (state.setPhase id phase).phase other ≠ .raised failure :=
  @phases_setPhase state id phase (fun phase => ∀ failure, phase ≠ .raised failure) unraised own

theorem Kept.same (kept : Kept builder state) {another : CompiledGraph}
    (first : state.phase id = .returned graph) (second : state.phase other = .returned another) :
    graph = another := by
  have one := kept.returned id graph first
  rw [kept.returned other another second] at one
  exact (Option.some.inj one).symm

/-- Nobody has built the graph: the tools go in, and it compiles. -/
theorem addTools_unbuilt (lacking : Lacking builder) (kept : Kept builder state)
    (unbuilt : state.app = none) : state.addTools id tools = state.built id tools := by
  have same := kept.unbuilt unbuilt
  have lacks : state.builder.has "tools" = false := same ▸ lacking.lacks
  have completes : (state.builder.withTools tools).valid = true := same ▸ lacking.completes tools
  have added : state.builder.addNode ⟨"tools", tools⟩ = .ok (state.builder.withTools tools) := by
    rw [StateGraph.addNode, if_neg (by simp [lacks])]
    rfl
  rw [State.addTools, added]
  dsimp only
  rw [State.compile, if_pos completes]
  rfl

/-- Somebody has built it already. -/
theorem addTools_built (present : state.builder.has "tools" = true) :
    state.addTools id tools =
      state.setPhase id (.raised (.valueError ("Node `" ++ "tools" ++ "` already present."))) := by
  have refused : state.builder.addNode ⟨"tools", tools⟩ =
      .error (.valueError ("Node `" ++ "tools" ++ "` already present.")) := by
    rw [StateGraph.addNode, if_pos present]
  rw [State.addTools, refused]

end

/-! ## Behind the lock -/

/-- Who awaits its tools holds the lock, and nobody has built the graph then. -/
structure Coherent (builder : StateGraph) (state : State) : Prop
    extends Kept builder state where
  locked : ∀ id, state.phase id = .loading ↔ state.lock = some id
  building : state.lock ≠ none → state.app = none
  queued : ∀ id, id ∈ state.waiters ↔ state.phase id = .locking
  distinct : state.waiters.Nodup
  unraised : ∀ id failure, state.phase id ≠ .raised failure

/-- The caller gets the lock; `rest` wait on. -/
structure Enters (state : State) (id : Nat) (rest : List Nat) : Prop where
  free : state.lock = none
  outside : state.phase id = .ready ∨ state.phase id = .locking
  others : ∀ other, other ∈ rest ↔ other ∈ state.waiters ∧ other ≠ id
  distinct : rest.Nodup

inductive Move (state : State) : Event → State → Prop where
  | join {id} : state.phase id = .ready →
      Move state (.call id)
        ({ state with waiters := state.waiters ++ [id] }.setPhase id .locking)
  | get {event id rest graph} : Enters state id rest → state.app = some graph →
      Move state event ({ state with waiters := rest }.setPhase id (.returned graph))
  | load {event id rest} : Enters state id rest → state.app = none →
      Move state event ({ state with waiters := rest, lock := some id }.setPhase id .loading)
  | build {id tools} : state.phase id = .loading →
      Move state (.loaded id tools) (state.built id tools).release
  | fail {id failure} : state.phase id = .loading →
      Move state (.loadFails id failure) (state.setPhase id (.loadFailed failure)).release

section

variable {builder : StateGraph} {state next : State} {id other : Nat} {phase : Phase}
  {tools : List String} {event : Event} {graph : CompiledGraph} {rest : List Nat} {failure : Exn}

theorem coherent_initial : Coherent builder (initial builder) where
  toKept := kept_initial
  locked id := by simp [initial]
  building held := absurd rfl held
  queued id := by simp [initial]
  distinct := List.nodup_nil
  unraised _ _ same := by cases same

theorem Coherent.not_loading (coherent : Coherent builder state) (free : state.lock = none)
    (loading : state.phase id = .loading) : False := by
  have held := (coherent.locked id).mp loading
  rw [free] at held
  cases held

/-- Behind a step that takes a caller out of the queue, or leaves it outside. -/
theorem Coherent.queued_setPhase (coherent : Coherent builder state)
    (others : ∀ other, other ∈ rest ↔ other ∈ state.waiters ∧ other ≠ id)
    (outside : phase ≠ .locking) :
    ∀ other, other ∈ rest ↔ (state.setPhase id phase).phase other = .locking := by
  intro other
  rw [others, phase_setPhase, coherent.queued]
  by_cases same : other = id <;> simp [same, outside]

theorem Coherent.join (coherent : Coherent builder state) (ready : state.phase id = .ready) :
    Coherent builder
      ({ state with waiters := state.waiters ++ [id] }.setPhase id .locking) where
  toKept := by
    have kept : Kept builder { state with waiters := state.waiters ++ [id] } :=
      { coherent.toKept with }
    exact kept.setPhase (by simp)
  locked other := by
    rw [phase_setPhase]
    split
    · rename_i same
      subst same
      have outside := coherent.locked other
      rw [ready] at outside
      simpa [State.setPhase] using outside
    · exact coherent.locked other
  building := coherent.building
  queued other := by
    have before := coherent.queued other
    rw [phase_setPhase]
    by_cases same : other = id <;> simp [State.setPhase, same, before]
  distinct := by
    have unqueued : id ∉ state.waiters := fun member => by
      have locking := (coherent.queued id).mp member
      rw [ready] at locking
      cases locking
    exact coherent.distinct.append (List.nodup_singleton _) (by simpa using unqueued)
  unraised := unraised_setPhase coherent.unraised (by simp)

theorem Coherent.get (coherent : Coherent builder state) (enters : Enters state id rest)
    (built : state.app = some graph) :
    Coherent builder ({ state with waiters := rest }.setPhase id (.returned graph)) where
  toKept := by
    have kept : Kept builder { state with waiters := rest } := { coherent.toKept with }
    exact kept.setPhase fun other same => by cases same; exact built
  locked other := by
    rw [phase_setPhase]
    split
    · simp [State.setPhase, enters.free]
    · exact coherent.locked other
  building := coherent.building
  queued := coherent.queued_setPhase enters.others (by simp)
  distinct := enters.distinct
  unraised := unraised_setPhase coherent.unraised (by simp)

theorem Coherent.load (coherent : Coherent builder state) (enters : Enters state id rest)
    (unbuilt : state.app = none) :
    Coherent builder ({ state with waiters := rest, lock := some id }.setPhase id .loading) where
  toKept := by
    have kept : Kept builder { state with waiters := rest, lock := some id } :=
      { coherent.toKept with }
    exact kept.setPhase (by simp)
  locked other := by
    rw [phase_setPhase]
    split
    · rename_i same
      simp [State.setPhase, same]
    · rename_i different
      constructor
      · intro loading
        exact (coherent.not_loading enters.free loading).elim
      · intro held
        exact absurd (Option.some.inj held).symm different
  building _ := unbuilt
  queued := coherent.queued_setPhase enters.others (by simp)
  distinct := enters.distinct
  unraised := unraised_setPhase coherent.unraised (by simp)

/-- Behind the step in which the holder of the lock ends. -/
theorem Coherent.locked_release (coherent : Coherent builder state)
    (loading : state.phase id = .loading) (ended : phase ≠ .loading) :
    ∀ other, (state.setPhase id phase).phase other = .loading ↔
      (none : Option Nat) = some other := by
  intro other
  rw [phase_setPhase]
  have held := (coherent.locked id).mp loading
  split
  · simp [ended]
  · rename_i different
    simp only [reduceCtorEq, iff_false, coherent.locked other, held, Option.some.injEq]
    exact Ne.symm different

theorem Coherent.waiting_apart (coherent : Coherent builder state)
    (loading : state.phase id = .loading) :
    ∀ other, other ∈ state.waiters ↔ other ∈ state.waiters ∧ other ≠ id := by
  intro other
  refine ⟨fun member => ⟨member, ?_⟩, And.left⟩
  rintro rfl
  have locking := (coherent.queued other).mp member
  rw [loading] at locking
  cases locking

theorem Coherent.build (coherent : Coherent builder state) (loading : state.phase id = .loading) :
    Coherent builder (state.built id tools).release where
  toKept := by
    have held := (coherent.locked id).mp loading
    have unbuilt := coherent.building (by simp [held])
    exact { coherent.toKept.build unbuilt with }
  locked := coherent.locked_release loading (by simp)
  building held := absurd rfl held
  queued := coherent.queued_setPhase (coherent.waiting_apart loading) (by simp)
  distinct := coherent.distinct
  unraised := unraised_setPhase coherent.unraised (by simp)

theorem Coherent.fail (coherent : Coherent builder state) (loading : state.phase id = .loading) :
    Coherent builder (state.setPhase id (.loadFailed failure)).release where
  toKept := by
    have kept : Kept builder (state.setPhase id (.loadFailed failure)) :=
      coherent.toKept.setPhase (by simp)
    exact { kept with }
  locked := coherent.locked_release loading (by simp)
  building held := absurd rfl held
  queued := coherent.queued_setPhase (coherent.waiting_apart loading) (by simp)
  distinct := coherent.distinct
  unraised := unraised_setPhase coherent.unraised (by simp)

theorem Coherent.move (coherent : Coherent builder state) (move : Move state event next) :
    Coherent builder next := by
  cases move with
  | join ready => exact coherent.join ready
  | get enters built => exact coherent.get enters built
  | load enters unbuilt => exact coherent.load enters unbuilt
  | build loading => exact coherent.build loading
  | fail loading => exact coherent.fail loading

theorem Coherent.enters_call (free : state.lock = none) (nobody : state.waiters = [])
    (ready : state.phase id = .ready) : Enters state id [] where
  free := free
  outside := .inl ready
  others other := by simp [nobody]
  distinct := List.nodup_nil

theorem Coherent.enters_acquire (coherent : Coherent builder state) (free : state.lock = none)
    (first : state.waiters = id :: rest) : Enters state id rest where
  free := free
  outside := .inr ((coherent.queued id).mp (first ▸ .head _))
  others other := by
    have distinct := coherent.distinct
    rw [first, List.nodup_cons] at distinct
    rw [first, List.mem_cons]
    constructor
    · intro member
      exact ⟨.inr member, fun same => distinct.1 (same ▸ member)⟩
    · rintro ⟨same | member, different⟩
      · exact absurd same different
      · exact member
  distinct := by
    have distinct := coherent.distinct
    rw [first, List.nodup_cons] at distinct
    exact distinct.2

/-- With the lock a caller gets the graph, or loads the tools for it. -/
theorem move_of_enter (lacking : Lacking builder) (coherent : Coherent builder state)
    (enters : Enters state id rest) :
    Move state event ({ state with waiters := rest }.enter id) := by
  unfold State.enter
  cases built : state.app with
  | some graph =>
      have move : Move state event _ := .get enters built
      simpa [built] using move
  | none =>
      have lacks : state.builder.has "tools" = false := by
        rw [coherent.unbuilt built]
        exact lacking.lacks
      have move : Move state event _ := .load enters built
      simpa [built, lacks] using move

theorem move_of_step (lacking : Lacking builder) (coherent : Coherent builder state)
    (taken : buildWorkflow state event = some next) : Move state event next := by
  cases event with
  | call id =>
      simp only [buildWorkflow] at taken
      split at taken
      · rename_i ready
        split at taken
        · rename_i open'
          cases taken
          have moves := @move_of_enter builder state id (.call id) [] lacking coherent
            (Coherent.enters_call open'.1 open'.2 ready)
          rwa [← open'.2] at moves
        · cases taken
          exact .join ready
      · cases taken
  | acquire id =>
      simp only [buildWorkflow] at taken
      split at taken
      · rename_i first rest free waiting
        split at taken
        · rename_i same
          subst same
          cases taken
          exact move_of_enter lacking coherent (coherent.enters_acquire free waiting)
        · cases taken
      · cases taken
  | loaded id tools =>
      simp only [buildWorkflow] at taken
      split at taken
      · rename_i loading
        have held := (coherent.locked id).mp loading
        have unbuilt := coherent.building (by simp [held])
        rw [addTools_unbuilt lacking coherent.toKept unbuilt] at taken
        cases taken
        exact .build loading
      · cases taken
  | loadFails id failure =>
      simp only [buildWorkflow] at taken
      split at taken
      · rename_i loading
        cases taken
        exact .fail loading
      · cases taken

theorem coherent_of_run {events : List Event} (lacking : Lacking builder)
    (run : Runs (Taken buildWorkflow) (initial builder) events state) : Coherent builder state :=
  run.invariant (fun coherent taken => coherent.move (move_of_step lacking coherent taken))
    coherent_initial

/-! ### A caller that comes later -/

theorem Served.cons {step : State → Event → Option State} (taken : step state event = some next)
    (served : Served step next id) : Served step state id := by
  obtain ⟨events, last, graph, run, returned⟩ := served
  exact ⟨event :: events, last, graph, .cons taken run, returned⟩

theorem acquire_first (free : state.lock = none) (first : state.waiters = id :: rest) :
    buildWorkflow state (.acquire id) = some ({ state with waiters := rest }.enter id) := by
  simp [buildWorkflow, free, first]

theorem call_open (ready : state.phase id = .ready) (free : state.lock = none)
    (nobody : state.waiters = []) : buildWorkflow state (.call id) = some (state.enter id) := by
  simp [buildWorkflow, ready, free, nobody]

theorem enter_built (built : state.app = some graph) :
    state.enter id = state.setPhase id (.returned graph) := by
  simp [State.enter, built]

theorem enter_unbuilt (lacking : Lacking builder) (kept : Kept builder state)
    (unbuilt : state.app = none) :
    state.enter id = { state with lock := some id }.setPhase id .loading := by
  have lacks : state.builder.has "tools" = false := by
    rw [kept.unbuilt unbuilt]
    exact lacking.lacks
  simp [State.enter, unbuilt, lacks]

theorem loaded_builds (lacking : Lacking builder) (coherent : Coherent builder state)
    (loading : state.phase id = .loading) :
    buildWorkflow state (.loaded id tools) = some (state.built id tools).release := by
  have held := (coherent.locked id).mp loading
  have unbuilt := coherent.building (by simp [held])
  simp [buildWorkflow, loading, addTools_unbuilt lacking coherent.toKept unbuilt]

theorem served_of_loading (lacking : Lacking builder) (coherent : Coherent builder state)
    (loading : state.phase id = .loading) : Served buildWorkflow state id := by
  refine .cons (@loaded_builds builder state id [] lacking coherent loading) ?_
  exact ⟨[], _, _, .refl, by rw [State.release, State.built, phase_setPhase, if_pos rfl]⟩

theorem Coherent.ready_of_nobody (coherent : Coherent builder state) (nobody : state.waiters = [])
    (outside : state.phase id = .ready ∨ state.phase id = .locking) : state.phase id = .ready := by
  refine outside.resolve_right fun locking => ?_
  have member := (coherent.queued id).mpr locking
  rw [nobody] at member
  cases member

/-- Once the graph is built, everyone before the lock gets it in turn. -/
theorem served_of_built (lacking : Lacking builder) (coherent : Coherent builder state)
    (built : state.app = some graph)
    (outside : state.phase id = .ready ∨ state.phase id = .locking) :
    Served buildWorkflow state id := by
  have free : state.lock = none := by
    by_contra held
    rw [coherent.building held] at built
    cases built
  induction waiting : state.waiters generalizing state with
  | nil =>
      have ready := coherent.ready_of_nobody waiting outside
      refine ⟨_, _, graph, .single (call_open ready free waiting), ?_⟩
      rw [enter_built built, phase_setPhase, if_pos rfl]
  | cons first rest ih =>
      have taken := acquire_first free waiting
      have after : Coherent builder ({ state with waiters := rest }.enter first) :=
        coherent.move (move_of_step lacking coherent taken)
      have entered : { state with waiters := rest }.enter first =
          { state with waiters := rest }.setPhase first (.returned graph) := enter_built built
      rw [entered] at taken after
      refine .cons taken ?_
      by_cases same : id = first
      · exact ⟨[], _, graph, .refl, by rw [phase_setPhase, if_pos same]⟩
      · exact ih after built (by rwa [phase_setPhase, if_neg same]) free rfl

theorem served (lacking : Lacking builder) (coherent : Coherent builder state)
    (outside : state.phase id = .ready ∨ state.phase id = .locking) :
    Served buildWorkflow state id := by
  cases built : state.app with
  | some graph => exact served_of_built lacking coherent built outside
  | none =>
      -- somebody who loads the tools can succeed, and the rest follows
      have behind {state : State} {holder : Nat} (coherent : Coherent builder state)
          (outside : state.phase id = .ready ∨ state.phase id = .locking)
          (loading : state.phase holder = .loading) : Served buildWorkflow state id := by
        have taken := @loaded_builds builder state holder [] lacking coherent loading
        have different : id ≠ holder := by
          rintro rfl
          simp [loading] at outside
        refine .cons taken (served_of_built lacking (coherent.build loading) rfl ?_)
        rwa [State.release, State.built, phase_setPhase, if_neg different]
      cases held : state.lock with
      | some holder => exact behind coherent outside ((coherent.locked holder).mpr held)
      | none =>
          cases waiting : state.waiters with
          | nil =>
              have ready := coherent.ready_of_nobody waiting outside
              have taken := call_open ready held waiting
              have after := coherent.move (move_of_step lacking coherent taken)
              rw [enter_unbuilt lacking coherent.toKept built] at taken after
              refine .cons taken (served_of_loading lacking after ?_)
              rw [phase_setPhase, if_pos rfl]
          | cons first rest =>
              have taken := acquire_first held waiting
              have after := coherent.move (move_of_step lacking coherent taken)
              have kept : Kept builder { state with waiters := rest } :=
                { coherent.toKept with }
              rw [enter_unbuilt lacking kept built] at taken after
              refine .cons taken ?_
              by_cases same : id = first
              · subst same
                exact served_of_loading lacking after (by rw [phase_setPhase, if_pos rfl])
              · refine behind after ?_ (by rw [phase_setPhase, if_pos rfl])
                rwa [phase_setPhase, if_neg same]

theorem builtOnce_of_coherent (lacking : Lacking builder) (coherent : Coherent builder state) :
    BuiltOnce buildWorkflow state where
  same _ _ _ _ first second := coherent.toKept.same first second
  unraised := coherent.unraised
  later _ outside := served lacking coherent outside

end

/-! ## Without a lock -/

/-- Without a lock nobody waits for it. -/
structure Unlocked (builder : StateGraph) (state : State) : Prop extends Kept builder state where
  unlocked : ∀ id, state.phase id ≠ .locking

/-- When a caller's tools arrive, nobody has built the graph. -/
def LoadsAlone (state : State) (event : Event) : Prop :=
  ∀ id tools, event = .loaded id tools → state.phase id = .loading →
    state.builder.has "tools" = false

inductive ResearchMove (state : State) : Event → State → Prop where
  | get {id graph} : state.phase id = .ready → state.app = some graph →
      ResearchMove state (.call id) (state.setPhase id (.returned graph))
  | load {id} : state.phase id = .ready → state.app = none →
      ResearchMove state (.call id) (state.setPhase id .loading)
  | build {id tools} : state.phase id = .loading → state.app = none →
      ResearchMove state (.loaded id tools) (state.built id tools)
  | late {id tools graph} : state.phase id = .loading → state.app = some graph →
      ResearchMove state (.loaded id tools)
        (state.setPhase id (.raised (.valueError ("Node `" ++ "tools" ++ "` already present."))))
  | fail {id failure} : state.phase id = .loading →
      ResearchMove state (.loadFails id failure) (state.setPhase id (.loadFailed failure))

section

variable {builder : StateGraph} {state next : State} {id other : Nat} {phase : Phase}
  {tools : List String} {event : Event} {events : List Event}

theorem researchMove_of_step (lacking : Lacking builder) (kept : Kept builder state)
    (taken : buildResearchWorkflow state event = some next) : ResearchMove state event next := by
  cases event with
  | call id =>
      simp only [buildResearchWorkflow] at taken
      split at taken
      · rename_i ready
        split at taken
        · rename_i graph built
          cases taken
          exact .get ready built
        · rename_i unbuilt
          cases taken
          exact .load ready unbuilt
      · cases taken
  | acquire id => cases taken
  | loaded id tools =>
      simp only [buildResearchWorkflow] at taken
      split at taken
      · rename_i loading
        cases built : state.app with
        | none =>
            rw [addTools_unbuilt lacking kept built] at taken
            cases taken
            exact .build loading built
        | some graph =>
            rw [addTools_built (kept.built graph built)] at taken
            cases taken
            exact .late loading built
      · cases taken
  | loadFails id failure =>
      simp only [buildResearchWorkflow] at taken
      split at taken
      · rename_i loading
        cases taken
        exact .fail loading
      · cases taken

theorem unlocked_setPhase (unlocked : ∀ id, state.phase id ≠ .locking) (own : phase ≠ .locking) :
    ∀ other, (state.setPhase id phase).phase other ≠ .locking :=
  @phases_setPhase state id phase (fun phase => phase ≠ .locking) unlocked own

theorem Unlocked.move (unlocked : Unlocked builder state) (move : ResearchMove state event next) :
    Unlocked builder next := by
  cases move with
  | get _ built =>
      exact ⟨unlocked.toKept.setPhase fun _ same => by cases same; exact built,
        unlocked_setPhase unlocked.unlocked (by simp)⟩
  | load =>
      exact ⟨unlocked.toKept.setPhase (by simp), unlocked_setPhase unlocked.unlocked (by simp)⟩
  | build _ unbuilt =>
      exact ⟨unlocked.toKept.build unbuilt, unlocked_setPhase unlocked.unlocked (by simp)⟩
  | late =>
      exact ⟨unlocked.toKept.setPhase (by simp), unlocked_setPhase unlocked.unlocked (by simp)⟩
  | fail =>
      exact ⟨unlocked.toKept.setPhase (by simp), unlocked_setPhase unlocked.unlocked (by simp)⟩

theorem unlocked_of_run (lacking : Lacking builder)
    (run : Runs (Taken buildResearchWorkflow) (initial builder) events state) :
    Unlocked builder state :=
  run.invariant
    (fun unlocked taken => unlocked.move (researchMove_of_step lacking unlocked.toKept taken))
    ⟨kept_initial, fun _ same => by cases same⟩

theorem served_research (lacking : Lacking builder) (kept : Kept builder state)
    (ready : state.phase id = .ready) : Served buildResearchWorkflow state id := by
  cases built : state.app with
  | some graph =>
      refine ⟨[.call id], state.setPhase id (.returned graph), graph, .single ?_, ?_⟩
      · simp [Taken, buildResearchWorkflow, ready, built]
      · rw [phase_setPhase, if_pos rfl]
  | none =>
      have calls : buildResearchWorkflow state (.call id) = some (state.setPhase id .loading) := by
        simp [buildResearchWorkflow, ready, built]
      have loads : buildResearchWorkflow (state.setPhase id .loading) (.loaded id []) =
          some ((state.setPhase id .loading).built id []) := by
        have loading : Kept builder (state.setPhase id .loading) := kept.setPhase (by simp)
        simp only [buildResearchWorkflow, phase_setPhase, if_true]
        rw [addTools_unbuilt lacking loading built]
      refine .cons calls (.cons loads
        ⟨[], _, ⟨state.compiled, state.builder.withTools []⟩, .refl, ?_⟩)
      rw [State.built, phase_setPhase, if_pos rfl]
      rfl

/-- Everything but the exceptions is met without a lock. -/
theorem builtOnce_iff_unraised (lacking : Lacking builder) (unlocked : Unlocked builder state) :
    BuiltOnce buildResearchWorkflow state ↔ ∀ id failure, state.phase id ≠ .raised failure := by
  refine ⟨BuiltOnce.unraised, fun unraised => ⟨?_, unraised, ?_⟩⟩
  · intro _ _ _ _ first second
    exact unlocked.toKept.same first second
  · intro id outside
    exact served_research lacking unlocked.toKept (outside.resolve_right (unlocked.unlocked id))

theorem loadsAlone_of_other (other : ∀ id tools, event ≠ .loaded id tools) :
    LoadsAlone state event :=
  fun id tools same _ => absurd same (other id tools)

/-- Whose tools arrive behind somebody else's gets an exception, and nobody else. -/
theorem unraised_step_iff (lacking : Lacking builder) (unlocked : Unlocked builder state)
    (unraised : ∀ id failure, state.phase id ≠ .raised failure)
    (taken : buildResearchWorkflow state event = some next) :
    (∀ id failure, next.phase id ≠ .raised failure) ↔ LoadsAlone state event := by
  cases researchMove_of_step lacking unlocked.toKept taken with
  | get =>
      exact ⟨fun _ => loadsAlone_of_other (by simp), fun _ => unraised_setPhase unraised (by simp)⟩
  | load =>
      exact ⟨fun _ => loadsAlone_of_other (by simp), fun _ => unraised_setPhase unraised (by simp)⟩
  | fail =>
      exact ⟨fun _ => loadsAlone_of_other (by simp), fun _ => unraised_setPhase unraised (by simp)⟩
  | build loading unbuilt =>
      constructor
      · intro _ _ _ same _
        cases same
        rw [unlocked.unbuilt unbuilt]
        exact lacking.lacks
      · intro _
        exact unraised_setPhase unraised (by simp)
  | @late id tools graph loading built =>
      constructor
      · intro after
        exact absurd (by rw [phase_setPhase, if_pos rfl]) (after id _)
      · intro alone
        have lacks := alone id tools rfl loading
        rw [unlocked.built graph built] at lacks
        cases lacks

theorem loadsAlone_of_ended (ended : ∀ next, buildResearchWorkflow state event ≠ some next) :
    LoadsAlone state event := by
  rintro id tools rfl loading
  exact absurd (by simp [buildResearchWorkflow, loading]) (ended (state.addTools id tools))

end

/-! ## Both builders -/

/-- Whatever has happened of the events, the promise holds. -/
def BuiltThroughout (step : State → Event → Option State) (builder : StateGraph)
    (events : List Event) : Prop :=
  ∀ front back state, events = front ++ back →
    Runs (Taken step) (initial builder) front state → BuiltOnce step state

def LoadsAloneThroughout (events : List Event) : Prop :=
  ∀ front event back state, events = front ++ event :: back →
    Runs (Taken buildResearchWorkflow) (initial researchBuilder) front state →
    LoadsAlone state event

/-- The main graph is built once in every run. The research graph is exactly if no
caller's tools arrive behind those of another one. -/
theorem built_once_iff (events : List Event) :
    BuiltThroughout buildWorkflow graphBuilder events ∧
      (BuiltThroughout buildResearchWorkflow researchBuilder events ↔
        LoadsAloneThroughout events) := by
  have unlocked {events : List Event} {state : State}
      (run : Runs (Taken buildResearchWorkflow) (initial researchBuilder) events state) :=
    unlocked_of_run researchBuilder_lacking run
  refine ⟨fun _ _ _ _ run => builtOnce_of_coherent graphBuilder_lacking
    (coherent_of_run graphBuilder_lacking run), ?_, ?_⟩
  · intro built front event back state split reached
    have before := built front (event :: back) state split reached
    by_cases moves : ∃ next, buildResearchWorkflow state event = some next
    · obtain ⟨next, taken⟩ := moves
      have after := built (front ++ [event]) back next (by simp [split])
        (reached.append (.single taken))
      exact (unraised_step_iff researchBuilder_lacking (unlocked reached) before.unraised taken).mp
        after.unraised
    · exact loadsAlone_of_ended fun next taken => moves ⟨next, taken⟩
  · intro alone front
    induction front using List.reverseRecOn with
    | nil =>
        intro back state _ reached
        refine (builtOnce_iff_unraised researchBuilder_lacking (unlocked reached)).mpr ?_
        cases reached
        exact fun _ _ same => by cases same
    | append_singleton front event ih =>
        intro back state split reached
        refine (builtOnce_iff_unraised researchBuilder_lacking (unlocked reached)).mpr ?_
        obtain ⟨before, earlier, rest⟩ := reached.split
        cases rest with
        | cons taken rest =>
            cases rest
            rw [List.append_assoc, List.singleton_append] at split
            have unraised := (ih (event :: back) before split earlier).unraised
            exact (unraised_step_iff researchBuilder_lacking (unlocked earlier) unraised taken).mpr
              (alone front event back before split earlier)

/-- Both callers find no graph and load the tools for it. -/
theorem second_loader_raises :
    ¬ BuiltThroughout buildResearchWorkflow researchBuilder
      [.call 0, .call 1, .loaded 0 [], .loaded 1 []] := by
  intro built
  have raised : ∃ state failure, Runs (Taken buildResearchWorkflow) (initial researchBuilder)
      [.call 0, .call 1, .loaded 0 [], .loaded 1 []] state ∧ state.phase 1 = .raised failure :=
    ⟨_, _, runSteps_eq_some_iff.mp rfl, rfl⟩
  obtain ⟨state, failure, run, raised⟩ := raised
  exact (built _ [] state rfl run).unraised 1 failure raised

end AgenticEnterprise.Graph.Builders
