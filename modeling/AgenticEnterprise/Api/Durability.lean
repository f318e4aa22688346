import AgenticEnterprise.Graph.Research
import AgenticEnterprise.Graph.Turns
import Mathlib.Logic.Function.Basic

/-! What a restart leaves of the threads of the two graphs.

Both graphs are compiled with the in-memory saver of their module. The startup in
`app/main.py` gives the main graph the saver over Postgres instead; nothing does
that for the research graph. -/

set_option autoImplicit false

namespace AgenticEnterprise.Api.Durability

open Core Library Graph Engine Threads Turns

/-- `InMemorySaver` or `AsyncPostgresSaver`. -/
inductive Checkpointer where
  | inMemory
  | postgres
  deriving DecidableEq, Repr

/-- What a saver holds. -/
structure Saver where
  threads : String → Thread := fun _ => .empty
  research : String → Research.ResearchThread := fun _ => .empty

/-- The module state of a process: the in-memory saver and the checkpointer each
compiled graph has, once it is built. -/
structure Process where
  inMemory : Saver := {}
  workflow : Option Checkpointer := none
  researchApp : Option Checkpointer := none

/-- `lastRun` and `lastResearch` record the last checkpoint a request has written
to a thread. -/
structure World where
  postgres : Saver := {}
  process : Option Process := none
  lastRun : String → Option Checkpoint := fun _ => none
  lastResearch : String → Option Research.Checkpoint := fun _ => none

def buildWorkflow (process : Process) : Checkpointer × Process :=
  match process.workflow with
  | some checkpointer => (checkpointer, process)
  | none => (.inMemory, { process with workflow := some .inMemory })

def buildResearchWorkflow (process : Process) : Checkpointer × Process :=
  match process.researchApp with
  | some checkpointer => (checkpointer, process)
  | none => (.inMemory, { process with researchApp := some .inMemory })

/-- The startup of a new process. -/
def lifespan : Process :=
  { (buildWorkflow {}).2 with workflow := some .postgres }

def World.saver (world : World) (process : Process) : Checkpointer → Saver
  | .inMemory => process.inMemory
  | .postgres => world.postgres

def World.save (world : World) (process : Process) : Checkpointer → Saver → World
  | .inMemory, saver => { world with process := some { process with inMemory := saver } }
  | .postgres, saver => { world with postgres := saver, process := some process }

/-! ## Requests, stops and starts -/

inductive Event where
  | start
  | stop
  | run (threadId message : String) (limit : Nat) (environments : Nat → Environment)
  | research (threadId topic : String) (limit : Nat)
      (environments : Nat → Research.Environment)

def question (topic : String) : List Message :=
  [.human ("Research the following: " ++ topic)]

section

variable (world : World) (process : Process)

/-- The thread a request of the main graph loads. -/
def runThread (threadId : String) : Thread :=
  let (checkpointer, built) := buildWorkflow process
  (world.saver built checkpointer).threads threadId

def serveRun (threadId message : String) (limit : Nat) (environments : Nat → Environment) :
    World :=
  let (checkpointer, built) := buildWorkflow process
  let saver := world.saver built checkpointer
  let thread := saver.threads threadId
  let ran := Threads.ainvoke limit environments (some [.human message]) none thread
  let started := withInput (load thread none) [.human message]
  let written := Turns.reached started.checkpoint ran.1.steps
  { world with lastRun := Function.update world.lastRun threadId (some written) }.save built
    checkpointer { saver with threads := Function.update saver.threads threadId ran.2 }

/-- The thread a request of the research graph loads. -/
def researchThread (threadId : String) : Research.ResearchThread :=
  let (checkpointer, built) := buildResearchWorkflow process
  (world.saver built checkpointer).research threadId

def serveResearch (threadId topic : String) (limit : Nat)
    (environments : Nat → Research.Environment) : World :=
  let (checkpointer, built) := buildResearchWorkflow process
  let saver := world.saver built checkpointer
  let thread := saver.research threadId
  let ran := Research.ainvoke limit environments (question topic) thread
  let written := ran.1.checkpoints.getLastD
    ⟨(Research.load thread).values, some (.input (question topic))⟩
  { world with lastResearch := Function.update world.lastResearch threadId (some written) }.save
    built checkpointer { saver with research := Function.update saver.research threadId ran.2 }

end

def step (world : World) (event : Event) : Option World :=
  match event, world.process with
  | .start, none => some { world with process := some lifespan }
  | .stop, some _ => some { world with process := none }
  | .run threadId message limit environments, some process =>
      some (serveRun world process threadId message limit environments)
  | .research threadId topic limit environments, some process =>
      some (serveResearch world process threadId topic limit environments)
  | _, _ => none

def Step (world : World) (event : Event) (next : World) : Prop :=
  step world event = some next

/-! ## What durability asks for -/

/-- A request starts from the last checkpoint a request of its graph wrote to its thread. -/
def StartsFromLast (world : World) (process : Process) : Event → Prop
  | .run threadId _ _ _ =>
      (load (runThread world process threadId) none).checkpoint =
        (world.lastRun threadId).getD {}
  | .research threadId _ _ _ =>
      Research.load (researchThread world process threadId) =
        (world.lastResearch threadId).getD {}
  | _ => True

def Event.researches (threadId : String) : Event → Prop
  | .research other _ _ _ => other = threadId
  | _ => False

/-- A stop lies behind the last research request on the thread. -/
def Interrupted (threadId : String) (history : List Event) : Prop :=
  ∃ before request between, history = before ++ request :: between ∧
    request.researches threadId ∧ .stop ∈ between ∧
    ∀ later ∈ between, ¬later.researches threadId

/-! ## What a request writes -/

section

variable {thread : Thread} {messages : List Message} {limit : Nat}
  {environments : Nat → Environment}

theorem load_ainvoke :
    (load (Threads.ainvoke limit environments (some messages) none thread).2 none).checkpoint =
      Turns.reached (withInput (load thread none) messages).checkpoint
        (Threads.ainvoke limit environments (some messages) none thread).1.steps :=
  load_saveSteps load_put _ _ _

end

section

variable {thread : Research.ResearchThread} {start : Research.Checkpoint}
  {environment : Research.Environment} {environments : Nat → Research.Environment} {limit : Nat}

theorem load_saves (loaded : Research.load thread = start)
    (checkpoints : List Research.Checkpoint) :
    Research.load (checkpoints.foldl Research.save thread) = checkpoints.getLastD start := by
  induction checkpoints generalizing thread start with
  | nil => exact loaded
  | cons checkpoint rest ih =>
      have saved : Research.load (Research.save thread checkpoint) = checkpoint := by
        simp [Research.load, Research.save]
      rw [List.foldl_cons, ih saved, List.getLastD_cons]

/-- The next superstep leaves messages behind. -/
def Speaks (checkpoint : Research.Checkpoint) : Prop :=
  checkpoint.values.messages ≠ [] ∨
    ∃ messages, messages ≠ [] ∧ checkpoint.next = some (.input messages)

theorem Speaks.ne_empty (speaks : Speaks start) : start ≠ {} := by
  rintro rfl
  rcases speaks with written | ⟨messages, _, pending⟩
  · exact written rfl
  · cases pending

theorem Speaks.step {values : Research.ResearchState} {pending : Research.Pending}
    {next : Research.Checkpoint} (speaks : Speaks ⟨values, some pending⟩)
    (succeeded : Research.superstep environment values pending = .ok next) :
    Speaks next := by
  left
  cases pending with
  | input messages =>
      cases succeeded
      rcases speaks with written | ⟨_, given, same⟩
      · simp [written]
      · cases same
        simp [given]
  | node node =>
      have written : values.messages ≠ [] := by
        rcases speaks with written | ⟨_, _, same⟩
        · exact written
        · cases same
      obtain ⟨after, ran, rest⟩ := bind_eq_ok_iff.mp succeeded
      obtain ⟨target, _, rest⟩ := bind_eq_ok_iff.mp rest
      cases rest
      cases node with
      | agent =>
          obtain ⟨reply, _, rest⟩ := bind_eq_ok_iff.mp ran
          cases rest
          simp
      | tools =>
          simp only [Research.runNode, Research.toolNode] at ran
          split at ran
          · cases ran
          · cases ran
            simp [written]
      | report =>
          obtain ⟨report, _, rest⟩ := bind_eq_ok_iff.mp ran
          cases rest
          exact written

theorem Speaks.execute (speaks : Speaks start) :
    ∀ checkpoint ∈ (Research.execute limit environments start).checkpoints,
      Speaks checkpoint := by
  induction limit generalizing environments start with
  | zero =>
      obtain ⟨values, next⟩ := start
      cases next <;> simp [Research.execute]
  | succ limit ih =>
      obtain ⟨values, next⟩ := start
      cases next with
      | none => simp [Research.execute]
      | some pending =>
          simp only [Research.execute]
          split
          · simp
          · rename_i next succeeded
            have reached := speaks.step succeeded
            exact List.forall_mem_cons.mpr ⟨reached, ih reached⟩

/-- A research request leaves more than an empty checkpoint. -/
theorem written_ne_empty {values : Research.ResearchState} {topic : String} :
    let start : Research.Checkpoint := ⟨values, some (.input (question topic))⟩
    (Research.execute limit environments start).checkpoints.getLastD start ≠ {} := by
  intro start
  have begins : Speaks start := .inr ⟨question topic, by simp [question], rfl⟩
  have all : ∀ checkpoint ∈ start :: (Research.execute limit environments start).checkpoints,
      Speaks checkpoint := List.forall_mem_cons.mpr ⟨begins, begins.execute⟩
  exact (all _ List.getLastD_mem_cons).ne_empty

end

/-! ## Interruptions -/

section

variable {threadId : String} {history : List Event} {event : Event}

/-- The last event is the one the history is split at, or it comes behind. -/
theorem split_last {before between : List Event} {request : Event}
    (split : history ++ [event] = before ++ request :: between) :
    (between = [] ∧ event = request) ∨
      ∃ middle, between = middle ++ [event] ∧ history = before ++ request :: middle := by
  rcases List.eq_nil_or_concat between with rfl | ⟨middle, last, rfl⟩
  · exact .inl ⟨rfl, (List.cons.inj (List.append_inj' split rfl).2).1⟩
  · have regrouped : history ++ [event] = (before ++ request :: middle) ++ [last] := by
      simpa using split
    obtain ⟨same, lasts⟩ := List.append_inj' regrouped rfl
    obtain ⟨rfl, _⟩ := List.cons.inj lasts
    exact .inr ⟨middle, by simp, same⟩

theorem interrupted_append_of_researches (researches : event.researches threadId) :
    ¬Interrupted threadId (history ++ [event]) := by
  rintro ⟨before, request, between, split, _, stopped, since⟩
  rcases split_last split with ⟨rfl, rfl⟩ | ⟨middle, rfl, _⟩
  · cases stopped
  · exact since event (by simp) researches

theorem exists_last_research (asked : ∃ request ∈ history, request.researches threadId) :
    ∃ before request between, history = before ++ request :: between ∧
      request.researches threadId ∧ ∀ later ∈ between, ¬later.researches threadId := by
  induction history with
  | nil =>
      obtain ⟨_, member, _⟩ := asked
      cases member
  | cons event rest ih =>
      by_cases later : ∃ request ∈ rest, request.researches threadId
      · obtain ⟨before, request, between, rfl, researches, since⟩ := ih later
        exact ⟨event :: before, request, between, rfl, researches, since⟩
      · obtain ⟨request, member, researches⟩ := asked
        have silent : ∀ other ∈ rest, ¬other.researches threadId := fun other inRest again =>
          later ⟨other, inRest, again⟩
        rcases List.mem_cons.mp member with rfl | inRest
        · exact ⟨[], request, rest, rfl, researches, silent⟩
        · exact absurd researches (silent request inRest)

theorem interrupted_append_stop :
    Interrupted threadId (history ++ [.stop]) ↔
      ∃ request ∈ history, request.researches threadId := by
  constructor
  · rintro ⟨before, request, between, split, researches, _, _⟩
    have member : request ∈ history ++ [.stop] := by simp [split]
    rcases List.mem_append.mp member with earlier | last
    · exact ⟨request, earlier, researches⟩
    · obtain rfl := List.mem_singleton.mp last
      exact researches.elim
  · intro asked
    obtain ⟨before, request, between, rfl, researches, since⟩ := exists_last_research asked
    refine ⟨before, request, between ++ [.stop], by simp, researches, by simp, ?_⟩
    intro later member
    rcases List.mem_append.mp member with earlier | last
    · exact since later earlier
    · obtain rfl := List.mem_singleton.mp last
      exact id

theorem interrupted_append (running : event ≠ .stop) (silent : ¬event.researches threadId) :
    Interrupted threadId (history ++ [event]) ↔ Interrupted threadId history := by
  constructor
  · rintro ⟨before, request, between, split, researches, stopped, since⟩
    rcases split_last split with ⟨rfl, rfl⟩ | ⟨middle, rfl, rfl⟩
    · cases stopped
    · refine ⟨before, request, middle, rfl, researches, ?_, fun later member =>
        since later (by simp [member])⟩
      simpa [Ne.symm running] using stopped
  · rintro ⟨before, request, between, rfl, researches, stopped, since⟩
    refine ⟨before, request, between ++ [event], by simp, researches, by simp [stopped], ?_⟩
    intro later member
    rcases List.mem_append.mp member with earlier | last
    · exact since later earlier
    · obtain rfl := List.mem_singleton.mp last
      exact silent

end

/-! ## The invariant of a history -/

section

variable {world next : World} {process : Process} {history : List Event} {event : Event}

theorem buildResearchWorkflow_eq (volatile : process.researchApp ≠ some .postgres) :
    buildResearchWorkflow process =
      (.inMemory, { process with researchApp := some .inMemory }) := by
  obtain ⟨inMemory, workflow, researchApp⟩ := process
  match researchApp with
  | none => rfl
  | some .inMemory => rfl
  | some .postgres => exact absurd rfl volatile

theorem runThread_eq (compiled : process.workflow = some .postgres) {threadId : String} :
    runThread world process threadId = world.postgres.threads threadId := by
  simp [runThread, buildWorkflow, compiled, World.saver]

theorem researchThread_eq (volatile : process.researchApp ≠ some .postgres) {threadId : String} :
    researchThread world process threadId = process.inMemory.research threadId := by
  simp [researchThread, buildResearchWorkflow_eq volatile, World.saver]

/-- The main graph is on Postgres and the research graph in memory, where a thread
holds the last checkpoint written to it unless a stop has come in between. -/
structure Kept (history : List Event) (world : World) : Prop where
  runs : ∀ threadId, (load (world.postgres.threads threadId) none).checkpoint =
    (world.lastRun threadId).getD {}
  asked : ∀ threadId, world.lastResearch threadId ≠ none ↔
    ∃ request ∈ history, request.researches threadId
  nonempty : ∀ threadId checkpoint, world.lastResearch threadId = some checkpoint →
    checkpoint ≠ {}
  compiled : ∀ process, world.process = some process →
    process.workflow = some .postgres ∧ process.researchApp ≠ some .postgres
  held : ∀ process, world.process = some process → ∀ threadId,
    (Interrupted threadId history → Research.load (process.inMemory.research threadId) = {}) ∧
      (¬Interrupted threadId history →
        Research.load (process.inMemory.research threadId) =
          (world.lastResearch threadId).getD {})
  stopped : world.process = none → ∀ threadId, (∃ request ∈ history,
    request.researches threadId) → Interrupted threadId history

theorem kept_initial : Kept [] {} where
  runs _ := rfl
  asked _ := by simp
  nonempty _ _ found := by cases found
  compiled _ up := by cases up
  held _ up := by cases up
  stopped _ _ asked := by
    obtain ⟨_, member, _⟩ := asked
    cases member

theorem asked_append (silent : ∀ threadId, ¬event.researches threadId) {threadId : String} :
    (∃ request ∈ history ++ [event], request.researches threadId) ↔
      ∃ request ∈ history, request.researches threadId := by
  simp [or_and_right, exists_or, silent]

theorem Kept.start (kept : Kept history world) (down : world.process = none) :
    Kept (history ++ [.start]) { world with process := some lifespan } := by
  have silent : ∀ threadId, ¬Event.start.researches threadId := fun _ => id
  refine ⟨kept.runs, fun threadId => ?_, kept.nonempty, ?_, ?_, by simp⟩
  · rw [asked_append silent]
    exact kept.asked threadId
  · rintro _ ⟨⟩
    exact ⟨rfl, by simp [lifespan, buildWorkflow]⟩
  · rintro _ ⟨⟩ threadId
    rw [interrupted_append (by simp) (silent threadId)]
    refine ⟨fun _ => rfl, fun kept' => ?_⟩
    have unasked : ¬∃ request ∈ history, request.researches threadId := fun asked =>
      kept' (kept.stopped down threadId asked)
    rw [← kept.asked threadId, not_not] at unasked
    rw [show ({ world with process := some lifespan } : World).lastResearch threadId = none
      from unasked]
    rfl

theorem Kept.stop (kept : Kept history world) :
    Kept (history ++ [.stop]) { world with process := none } := by
  have silent : ∀ threadId, ¬Event.stop.researches threadId := fun _ => id
  refine ⟨kept.runs, fun threadId => ?_, kept.nonempty, by simp, by simp, ?_⟩
  · rw [asked_append silent]
    exact kept.asked threadId
  · intro _ threadId asked
    rw [asked_append silent] at asked
    exact interrupted_append_stop.mpr asked

theorem Kept.run (kept : Kept history world) (up : world.process = some process)
    {threadId message : String} {limit : Nat} {environments : Nat → Environment} :
    Kept (history ++ [.run threadId message limit environments])
      (serveRun world process threadId message limit environments) := by
  obtain ⟨compiled, volatile⟩ := kept.compiled process up
  have silent : ∀ other, ¬(Event.run threadId message limit environments).researches other :=
    fun _ => id
  simp only [serveRun, buildWorkflow, compiled, World.saver, World.save]
  refine ⟨fun other => ?_, fun other => ?_, kept.nonempty, ?_, ?_, by simp⟩
  · by_cases same : other = threadId
    · subst same
      simp [load_ainvoke]
    · simpa [same] using kept.runs other
  · rw [asked_append silent]
    exact kept.asked other
  · rintro _ ⟨⟩
    exact ⟨compiled, volatile⟩
  · rintro _ ⟨⟩ other
    rw [interrupted_append (by simp) (silent other)]
    exact kept.held process up other

theorem Kept.research (kept : Kept history world) (up : world.process = some process)
    {threadId topic : String} {limit : Nat} {environments : Nat → Research.Environment} :
    Kept (history ++ [.research threadId topic limit environments])
      (serveResearch world process threadId topic limit environments) := by
  obtain ⟨compiled, volatile⟩ := kept.compiled process up
  simp only [serveResearch, buildResearchWorkflow_eq volatile, World.saver, World.save]
  refine ⟨kept.runs, fun other => ?_, fun other checkpoint found => ?_, ?_, ?_, by simp⟩
  · by_cases same : other = threadId
    · subst same
      simp [Event.researches]
    · have silent : ¬threadId = other := fun equal => same equal.symm
      simpa [same, silent, Event.researches, or_and_right, exists_or] using kept.asked other
  · dsimp only at found
    by_cases same : other = threadId
    · subst same
      rw [Function.update_self, Option.some.injEq] at found
      rw [← found]
      exact written_ne_empty
    · rw [Function.update_of_ne same] at found
      exact kept.nonempty other checkpoint found
  · rintro _ ⟨⟩
    exact ⟨compiled, by simp⟩
  · rintro _ ⟨⟩ other
    by_cases same : other = threadId
    · subst same
      refine ⟨fun interrupted => ?_, fun _ => ?_⟩
      · exact absurd interrupted (interrupted_append_of_researches rfl)
      · simp only [Function.update_self, Option.getD_some]
        exact load_saves (by simp [Research.load, Research.save]) _
    · have silent : ¬(Event.research threadId topic limit environments).researches other :=
        fun researches => same (Eq.symm researches)
      rw [interrupted_append (by simp) silent]
      simpa [same] using kept.held process up other

theorem Kept.step (kept : Kept history world) (taken : Step world event next) :
    Kept (history ++ [event]) next := by
  simp only [Step, Durability.step] at taken
  split at taken
  · rename_i down
    cases taken
    exact kept.start down
  · cases taken
    exact kept.stop
  · rename_i up
    cases taken
    exact kept.run up
  · rename_i up
    cases taken
    exact kept.research up
  · cases taken

theorem kept_of_run (run : Runs Step {} history world) : Kept history world :=
  run.invariant_of_history (fun kept taken => Kept.step kept taken) kept_initial

/-- Behind such a stop a research request starts from nothing. -/
theorem not_startsFromLast (run : Runs Step {} history world) (up : world.process = some process)
    {threadId topic : String} {limit : Nat} {environments : Nat → Research.Environment}
    (interrupted : Interrupted threadId history) :
    ¬StartsFromLast world process (.research threadId topic limit environments) := by
  have kept := kept_of_run run
  have asked : world.lastResearch threadId ≠ none := by
    obtain ⟨before, request, between, rfl, researches, _⟩ := interrupted
    exact (kept.asked threadId).mpr ⟨request, by simp, researches⟩
  obtain ⟨checkpoint, written⟩ := Option.ne_none_iff_exists'.mp asked
  intro fromLast
  rw [StartsFromLast, researchThread_eq (kept.compiled process up).2,
    (kept.held process up threadId).1 interrupted, written, Option.getD_some] at fromLast
  exact kept.nonempty threadId checkpoint written fromLast.symm

/-- A request starts from the last checkpoint of its graph on its thread exactly if
it is no research request behind a stop that the last research request on the
thread did not outlive. -/
theorem startsFromLast_iff (run : Runs Step {} history world)
    (up : world.process = some process) :
    StartsFromLast world process event ↔
      ∀ threadId, event.researches threadId → ¬Interrupted threadId history := by
  have kept := kept_of_run run
  obtain ⟨compiled, volatile⟩ := kept.compiled process up
  cases event with
  | start => simp [StartsFromLast, Event.researches]
  | stop => simp [StartsFromLast, Event.researches]
  | run threadId => simp [StartsFromLast, Event.researches, runThread_eq compiled, kept.runs]
  | research threadId topic limit environments =>
      constructor
      · rintro fromLast _ rfl interrupted
        exact not_startsFromLast run up interrupted fromLast
      · intro uninterrupted
        rw [StartsFromLast, researchThread_eq volatile]
        exact (kept.held process up threadId).2 (uninterrupted threadId rfl)

end

/-! ## One restart -/

/-- A research request whose model answers at once. -/
def notes : Event :=
  .research "notes" "logs" 50 fun _ =>
    { toolLlm := fun _ => .ok ⟨"nothing unusual", []⟩
      withStructuredOutput := fun _ =>
        .ok { topic := "logs", summary := "nothing unusual in the logs", confidence := 1
              summary_min := by decide, confidence_ge := by decide, confidence_le := by decide }
      runTool := fun _ => "" }

def beforeRestart : List Event :=
  [.start, notes]

theorem reaches_restart : ∃ world process,
    Runs Step {} beforeRestart world ∧ world.process = some process :=
  ⟨_, _, .cons rfl (.single rfl), rfl⟩

theorem same_process_starts_from_last : ∃ world process,
    Runs Step {} beforeRestart world ∧ world.process = some process ∧
      StartsFromLast world process notes := by
  obtain ⟨world, process, run, up⟩ := reaches_restart
  refine ⟨world, process, run, up, (startsFromLast_iff run up).mpr fun threadId researches => ?_⟩
  exact @interrupted_append_of_researches threadId [.start] notes researches

/-- The second request finds nothing of the first. -/
theorem research_lost_by_restart : ∃ world process,
    Runs Step {} (beforeRestart ++ [.stop, .start]) world ∧ world.process = some process ∧
      ¬StartsFromLast world process notes := by
  obtain ⟨before, process, run, up⟩ := reaches_restart
  have stopping : Step before .stop { before with process := none } := by
    simp [Step, step, up]
  have starting : Step { before with process := none } .start
      { before with process := some lifespan } := rfl
  have again := run.append (.cons stopping (.single starting))
  refine ⟨_, _, again, rfl, not_startsFromLast again rfl ?_⟩
  exact ⟨[.start], notes, [.stop, .start], rfl, rfl, .head _, by simp [Event.researches]⟩

end AgenticEnterprise.Api.Durability
