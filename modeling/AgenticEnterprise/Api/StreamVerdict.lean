import AgenticEnterprise.Api.Frames

/-! The events of `/run/stream`, whatever the graph yields and however it ends.

The generator has a branch for one exception. Every other one leaves it with the
messages that were sent before. -/

set_option autoImplicit false

namespace AgenticEnterprise.Api.StreamVerdict

open Core Library Graph Engine Threads

/-! ## The generator -/

/-- What a chunk holds under a key: something that validates as a text, or not. -/
inductive Value where
  | text (content : String)
  | other
  deriving DecidableEq, Repr

/-- One `(mode, chunk)` the graph yields. -/
structure Item where
  mode : String
  chunk : List (String × Value)
  deriving DecidableEq, Repr

/-- What the generator meets: the workflow, the model with its tools, the items in
their order, and how the iteration ends. -/
structure Run where
  workflow : Except Exn Unit := .ok ()
  toolLlm : Except Exn Unit := .ok ()
  items : List Item := []
  ending : Except Exn Unit := .ok ()

/-- The events sent so far, and the object of the execution. -/
structure Stream where
  sent : List StreamEvent := []
  execution : AgentExecution
  deriving DecidableEq, Repr

abbrev Generator := Effect Stream Exn

def send (event : StreamEvent) : Generator Unit :=
  Effect.write fun stream => { stream with sent := stream.sent ++ [event] }

def mark (status : String) : Generator Unit :=
  Effect.write fun stream => { stream with execution := { stream.execution with status := status } }

def nodeEvent (node : String) : StreamEvent :=
  { event := "message", phase := "node", node := some node, content := "step complete" }

def doneEvent : StreamEvent :=
  { event := "done", phase := "done", content := "run finished" }

def recursionEvent : StreamEvent :=
  { event := "error", phase := "error", content := "recursion limit exceeded" }

/-- The interpreter turns the `StopIteration` of an empty chunk into a `RuntimeError`. -/
def itemEvent (item : Item) : Except Exn StreamEvent :=
  if item.mode = "custom" then
    match item.chunk.lookup "status" with
    | none => .error (.keyError "status")
    | some .other => .error .validationError
    | some (.text content) => .ok (statusEvent content)
  else
    match item.chunk with
    | [] => .error (.external "RuntimeError")
    | (node, _) :: _ => .ok (nodeEvent node)

/-- The body of the `async for`. -/
def forward : List Item → Generator Unit
  | [] => pure ()
  | item :: rest => do
      let event ← Effect.ofExcept (itemEvent item)
      send event
      forward rest

def events (run : Run) : Generator Unit :=
  tryCatch
    (do
      Effect.ofExcept run.workflow
      Effect.ofExcept run.toolLlm
      forward run.items
      Effect.ofExcept run.ending
      mark "completed"
      send doneEvent)
    fun failure =>
      match failure with
      | .graphRecursionError => do
          mark "failed"
          send recursionEvent
      | other => throw other

/-- What the client has received and the object says once the generator is over. -/
def ended (run : Run) (execution : AgentExecution) : Except Exn Unit × Stream :=
  (events run).exec { execution := execution }

/-! ## The verdict -/

def Run.yielded (run : Run) : List Item :=
  match run.workflow, run.toolLlm with
  | .ok _, .ok _ => run.items
  | _, _ => []

def Run.outcome (run : Run) : Except Exn Unit := do
  run.workflow
  run.toolLlm
  run.ending

/-- How the stream ends behind its messages. -/
def conclusion (messages : List StreamEvent) (execution : AgentExecution) :
    Except Exn Unit → Except Exn Unit × Stream
  | .ok _ => (.ok (), ⟨messages ++ [doneEvent], { execution with status := "completed" }⟩)
  | .error .graphRecursionError =>
      (.ok (), ⟨messages ++ [recursionEvent], { execution with status := "failed" }⟩)
  | .error failure => (.error failure, ⟨messages, execution⟩)

/-- A message for each item and one terminal event, which tells like the object
whether the run completed. -/
def Concluded (run : Run) (stream : Stream) : Prop :=
  ∃ messages terminal, stream.sent = messages ++ [terminal] ∧
    messages.map Except.ok = run.yielded.map itemEvent ∧
    (∀ message ∈ messages, message.event = "message") ∧
    terminal.event = (if run.outcome = .ok () then "done" else "error") ∧
    stream.execution.status = if run.outcome = .ok () then "completed" else "failed"

/-- A status update with a text, or an update of some node. -/
def Readable (item : Item) : Prop :=
  if item.mode = "custom" then ∃ content, item.chunk.lookup "status" = some (.text content)
  else item.chunk ≠ []

section

variable {run : Run} {items : List Item} {item : Item} {stream : Stream}
  {execution : AgentExecution}

theorem readable_iff : Readable item ↔ ∃ event, itemEvent item = .ok event := by
  obtain ⟨mode, chunk⟩ := item
  unfold Readable itemEvent
  by_cases custom : mode = "custom"
  · simp only [custom, if_true]
    split <;> simp [*]
  · simp only [custom, if_false]
    cases chunk <;> simp

theorem itemEvent_event {event : StreamEvent} (written : itemEvent item = .ok event) :
    event.event = "message" := by
  unfold itemEvent at written
  split at written
  · split at written <;> cases written
    rfl
  · split at written <;> cases written
    rfl

theorem forward_exec_readable (readable : ∀ item ∈ items, Readable item) :
    ∃ messages, messages.map Except.ok = items.map itemEvent ∧
      (forward items).exec stream =
        (.ok (), { stream with sent := stream.sent ++ messages }) := by
  induction items generalizing stream with
  | nil => exact ⟨[], rfl, by simp [forward]⟩
  | cons item rest ih =>
      obtain ⟨event, written⟩ := readable_iff.mp (readable item List.mem_cons_self)
      obtain ⟨messages, same, ran⟩ :=
        @ih { stream with sent := stream.sent ++ [event] }
          fun item later => readable item (List.mem_cons_of_mem _ later)
      refine ⟨event :: messages, by simp [written, same], ?_⟩
      simp only [forward, Effect.exec_bind, Effect.exec_ofExcept, written, send,
        Effect.exec_write, ran, List.append_assoc, List.singleton_append]

theorem messages_event {messages : List StreamEvent}
    (same : messages.map Except.ok = items.map itemEvent) :
    ∀ message ∈ messages, message.event = "message" := by
  intro message member
  have written : Except.ok message ∈ items.map itemEvent := by
    rw [← same]
    exact List.mem_map_of_mem member
  obtain ⟨item, _, isEvent⟩ := List.mem_map.mp written
  exact itemEvent_event isEvent

theorem readable_of_messages {messages : List StreamEvent}
    (same : messages.map Except.ok = items.map itemEvent) :
    ∀ item ∈ items, Readable item := by
  intro item member
  have sent : itemEvent item ∈ messages.map Except.ok := by
    rw [same]
    exact List.mem_map_of_mem member
  obtain ⟨event, _, isEvent⟩ := List.mem_map.mp sent
  exact readable_iff.mpr ⟨event, isEvent.symm⟩

theorem ended_of_readable (readable : ∀ item ∈ run.yielded, Readable item) :
    ∃ messages, messages.map Except.ok = run.yielded.map itemEvent ∧
      ended run execution = conclusion messages execution run.outcome := by
  obtain ⟨workflow, toolLlm, items, ending⟩ := run
  unfold Run.yielded at readable ⊢
  have caught (failure : Exn) (reached : Stream) :
      Effect.exec
          (match failure with
          | .graphRecursionError => do
              mark "failed"
              send recursionEvent
          | other => throw other) reached =
        conclusion reached.sent reached.execution (.error failure) := by
    cases failure <;> rfl
  rcases workflow with failure | ⟨⟩
  · refine ⟨[], rfl, ?_⟩
    simp only [ended, events, Effect.exec_tryCatch, Effect.exec_bind, Effect.exec_ofExcept, caught]
    rfl
  · rcases toolLlm with failure | ⟨⟩
    · refine ⟨[], rfl, ?_⟩
      simp only [ended, events, Effect.exec_tryCatch, Effect.exec_bind, Effect.exec_ofExcept,
        caught]
      rfl
    · obtain ⟨messages, same, ran⟩ :=
        @forward_exec_readable items { execution := execution } readable
      refine ⟨messages, same, ?_⟩
      simp only [ended, events, Effect.exec_tryCatch, Effect.exec_bind, Effect.exec_ofExcept, ran]
      rcases ending with failure | ⟨⟩
      · simp only [caught]
        rfl
      · rfl

/-- A stream is concluded exactly if the run completes or uses up its recursion
limit, and every item can be read. -/
theorem concluded_iff :
    Concluded run (ended run execution).2 ↔
      (∀ item ∈ run.yielded, Readable item) ∧
        (run.outcome = .ok () ∨ run.outcome = .error .graphRecursionError) := by
  constructor
  · intro concluded
    obtain ⟨messages, terminal, sent, same, plain, told, _⟩ := concluded
    have readable := readable_of_messages same
    refine ⟨readable, ?_⟩
    obtain ⟨forwarded, forwardedSame, ran⟩ := @ended_of_readable run execution readable
    rw [ran] at sent
    unfold conclusion at sent
    split at sent
    · exact .inl ‹_›
    · exact .inr ‹_›
    · -- nothing but messages was sent, so the last one is no terminal event
      change forwarded = messages ++ [terminal] at sent
      have message := messages_event forwardedSame terminal (by simp [sent])
      rw [message] at told
      split at told <;> simp at told
  · intro condition
    obtain ⟨readable, decided⟩ := condition
    obtain ⟨messages, same, ran⟩ := @ended_of_readable run execution readable
    rcases decided with completed | exhausted
    · rw [ran, completed]
      refine ⟨messages, doneEvent, rfl, same, messages_event same, ?_, ?_⟩ <;>
        rw [if_pos completed] <;> rfl
    · have cutOff : run.outcome ≠ .ok () := by simp [exhausted]
      rw [ran, exhausted]
      refine ⟨messages, recursionEvent, rfl, same, messages_event same, ?_, ?_⟩ <;>
        rw [if_neg cutOff] <;> rfl

end

/-! ## The runs of the graph -/

section

variable (deployment : Deployment) (outside : Outside) (payload : AgentRequest)
  (username : String)

def raised (place : Call) : Except Exn Unit :=
  match outside.fault place with
  | none => .ok ()
  | some failure => .error failure

/-- What the main graph yields in a superstep. -/
def stepItems (step : Superstep) : List Item :=
  step.streamed.map (fun status => ⟨"custom", [("status", .text status)]⟩) ++
    match step.pending, step.outcome with
    | .node node, .ok _ => [⟨"updates", [(node.name, .other)]⟩]
    | _, _ => []

def graphExecution (state : State) : Execution :=
  (runOn deployment outside { username := username } (some [.human payload.taskDescription]) ""
    (state.runInputs (runThreadId payload))).1

/-- What the generator meets of the main graph. -/
def graphRun (state : State) : Run where
  workflow := raised outside .buildWorkflow
  toolLlm := raised outside .getTools
  items := (graphExecution deployment outside payload username state).steps.flatMap stepItems
  ending :=
    (outside.ending outside.recursionLimit
      (graphExecution deployment outside payload username state).result).map fun _ => ()

end

section

variable {deployment : Deployment} {outside : Outside} {payload : AgentRequest}
  {username : String} {state : State}

theorem stepItems_events (step : Superstep) :
    (stepItems step).map itemEvent = (stepEvents step).map Except.ok := by
  have statuses : (step.streamed.map fun status =>
      (⟨"custom", [("status", .text status)]⟩ : Item)).map itemEvent =
        (step.streamed.map statusEvent).map Except.ok := by
    rw [List.map_map, List.map_map]
    rfl
  unfold stepItems stepEvents
  rw [List.map_append, List.map_append, statuses]
  obtain ⟨pending, _, _, _, outcome⟩ := step
  cases pending <;> cases outcome <;> rfl

theorem items_events (steps : List Superstep) :
    (steps.flatMap stepItems).map itemEvent = (steps.flatMap stepEvents).map Except.ok := by
  simp only [List.map_flatMap, stepItems_events]

theorem graphRun_readable :
    ∀ item ∈ (graphRun deployment outside payload username state).yielded, Readable item := by
  intro item member
  have yields : item ∈ (graphRun deployment outside payload username state).items := by
    unfold Run.yielded at member
    split at member
    · exact member
    · cases member
  exact readable_of_messages (items_events _).symm item yields

theorem messages_unique {messages others : List StreamEvent}
    (same : messages.map (@Except.ok Exn _) = others.map .ok) : messages = others :=
  List.map_injective_iff.mpr (fun _ _ => Except.ok.inj) same

/-- The handler's stream is the one of the generator, and so is its object. -/
theorem streamRun_exec {given : AgentExecution} (own : state.added = [given]) :
    let done := ended (graphRun deployment outside payload username state) given
    ∃ after, (streamRun deployment outside payload username).exec state =
        (.ok (done.2.sent,
          match done.1 with
          | .ok _ => none
          | .error failure => some failure), after) ∧
      after.added = [done.2.execution] := by
  intro done
  obtain ⟨messages, same, ran⟩ :=
    @ended_of_readable (graphRun deployment outside payload username state) given
      graphRun_readable
  rw [show done = _ from ran]
  have calls (place : Call) (state : State) :
      (call outside place).exec state = (raised outside place, state) := rfl
  unfold graphRun Run.yielded at same
  unfold graphRun Run.outcome
  simp only [streamRun, Effect.exec_tryCatch, Effect.exec_bind, calls]
  rcases building : raised outside .buildWorkflow with failure | ⟨⟩
  · rw [building] at same
    obtain rfl : messages = [] := by simpa using same
    cases failure
    · exact ⟨_, rfl, by simp [own]; rfl⟩
    all_goals exact ⟨_, rfl, own⟩
  rcases loading : raised outside .getTools with failure | ⟨⟩
  · rw [building, loading] at same
    obtain rfl : messages = [] := by simpa using same
    cases failure
    · exact ⟨_, rfl, by simp [own]; rfl⟩
    all_goals exact ⟨_, rfl, own⟩
  · rw [building, loading] at same
    obtain rfl := messages_unique (same.trans (items_events _))
    simp only [astream, Effect.exec_bind, Effect.exec_read, recordRun, Effect.exec_write,
      Effect.exec_pure]
    unfold graphExecution
    generalize outside.ending outside.recursionLimit _ = ending
    rcases ending with failure | values
    · cases failure
      · exact ⟨_, rfl, by simp [own]; rfl⟩
      all_goals exact ⟨_, rfl, own⟩
    · exact ⟨_, rfl, by simp [own]; rfl⟩

end

/-- The tool server cannot be reached: nothing is sent, and the object keeps the
status it was added with. -/
theorem unreachable_not_concluded :
    ended { toolLlm := .error (.external "mcp") } ⟨⟨1⟩, "desk", "running"⟩ =
        (.error (.external "mcp"), ⟨[], ⟨⟨1⟩, "desk", "running"⟩⟩) ∧
      ¬Concluded { toolLlm := .error (.external "mcp") }
        (ended { toolLlm := .error (.external "mcp") } ⟨⟨1⟩, "desk", "running"⟩).2 := by
  refine ⟨rfl, fun concluded => ?_⟩
  obtain ⟨messages, terminal, sent, _⟩ := concluded
  have nothing : ([] : List StreamEvent) = messages ++ [terminal] := sent
  simp at nothing

end AgenticEnterprise.Api.StreamVerdict
