import AgenticEnterprise.Library.Runs
import Mathlib.Logic.Function.Basic

/-! The request ids of requests that are served at the same time: `app/core/context.py`,
`request_id_middleware`, the exception handlers and the log filter of `app/main.py`, and
the frames of `run_agent_stream`.

`_request_id` is a context variable. A task starts with a copy of the context of the
task that creates it, and what it sets is seen by itself and by the tasks it creates
from then on. Left out is what has no id in it: the body of an HTTPException or of an
unhandled exception, and the printed log line, whose format has no `request_id`. -/

set_option autoImplicit false

namespace AgenticEnterprise.Api.RequestIds

open Library

/-! ## The tasks of the process -/

/-- `request` is what the task works for, if it is not a background task. -/
structure Task where
  request : Option Nat
  requestId : String
  deriving DecidableEq, Repr

/-- Where an id goes, for the request of the task that puts it there: the `X-Request-ID`
of a response, the `trace_id` of an `ErrorResponse`, the `id` of a stream's event and the
attribute `request_id` of a log record. -/
inductive Output where
  | header (request : Option Nat) (id : String)
  | traceId (request : Option Nat) (id : Option String)
  | frame (request : Option Nat) (id : String)
  | record (request : Option Nat) (id : String)
  deriving DecidableEq, Repr

/-- `middleware` and `streams` are the local variables `request_id` of
`request_id_middleware` and of `run_agent_stream`. -/
structure State where
  tasks : Nat → Option Task := fun _ => none
  middleware : Nat → Option String := fun _ => none
  streams : Nat → Option (Option Nat × String) := fun _ => none
  outputs : List Output := []

/-- `receive` starts the task of a request in the context of some other task, up to
`call_next`, which goes on in a task of its own. `frame` is taken by whichever task
iterates over the response. -/
inductive Event where
  | background (task : Nat)
  | receive (request task inner : Nat) (creator : Option Nat) (header : Option String)
      (uuid : String)
  | spawn (parent task : Nat)
  | log (task : Nat)
  | fail (task : Nat)
  | openStream (task stream : Nat)
  | frame (stream : Nat)
  | respond (request : Nat)
  deriving DecidableEq, Repr

/-- `incoming or new_request_id()` -/
def chosenId (header : Option String) (uuid : String) : String :=
  match header with
  | none => uuid
  | some incoming => if incoming = "" then uuid else incoming

/-- `get_request_id() or None` -/
def orNone (id : String) : Option String :=
  if id = "" then none else some id

/-- `get_request_id() or "-"` -/
def orDash (id : String) : String :=
  if id = "" then "-" else id

namespace State

variable (state : State)

def setTask (id : Nat) (task : Task) : State :=
  { state with tasks := Function.update state.tasks id (some task) }

def send (output : Output) : State :=
  { state with outputs := state.outputs ++ [output] }

/-- The context that a new task starts with. -/
def inherited : Option Nat → String
  | none => ""
  | some creator =>
      match state.tasks creator with
      | none => ""
      | some task => task.requestId

/-- The middleware sets the id in its own task before it creates the one of the app. -/
def receive (request task inner : Nat) (creator : Option Nat) (header : Option String)
    (uuid : String) : State :=
  let started := state.setTask task ⟨some request, state.inherited creator⟩
  let chosen := started.setTask task ⟨some request, chosenId header uuid⟩
  let called := chosen.setTask inner ⟨some request, chosen.inherited (some task)⟩
  { called with
    middleware := Function.update called.middleware request (some (chosenId header uuid)) }

end State

def step (state : State) : Event → Option State
  | .background task =>
      match state.tasks task with
      | none => some (state.setTask task ⟨none, ""⟩)
      | some _ => none
  | .receive request task inner creator header uuid =>
      if state.tasks task = none ∧ state.tasks inner = none ∧ task ≠ inner ∧
          state.middleware request = none ∧ uuid ≠ "" then
        some (state.receive request task inner creator header uuid)
      else none
  | .spawn parent task =>
      match state.tasks parent, state.tasks task with
      | some creator, none => some (state.setTask task creator)
      | _, _ => none
  | .log task =>
      match state.tasks task with
      | some own => some (state.send (.record own.request (orDash own.requestId)))
      | none => none
  | .fail task =>
      match state.tasks task with
      | some own => some (state.send (.traceId own.request (orNone own.requestId)))
      | none => none
  | .openStream task stream =>
      match state.tasks task, state.streams stream with
      | some own, none =>
          some (State.send
            { state with
              streams := Function.update state.streams stream (some (own.request, own.requestId)) }
            (.header own.request own.requestId))
      | _, _ => none
  | .frame stream =>
      match state.streams stream with
      | some (request, id) => some (state.send (.frame request id))
      | none => none
  | .respond request =>
      match state.middleware request with
      | some id => some (state.send (.header (some request) id))
      | none => none

abbrev Step (state : State) (event : Event) (next : State) : Prop :=
  step state event = some next

/-! ## Whose id is where -/

/-- The id belongs to the request. A background task has none. -/
def Owns (state : State) (id : String) : Option Nat → Prop
  | some request => state.middleware request = some id
  | none => id = ""

def Output.Carries (state : State) : Output → Prop
  | .header request id | .frame request id => Owns state id request
  | .traceId request id => ∃ own, Owns state own request ∧ id = orNone own
  | .record request id => ∃ own, Owns state own request ∧ id = orDash own

def Output.request : Output → Option Nat
  | .header request _ | .traceId request _ | .frame request _ | .record request _ => request

/-- The id is in the output as it is. -/
def Output.Shows (id : String) : Output → Prop
  | .header _ shown | .frame _ shown | .record _ shown => shown = id
  | .traceId _ shown => shown = some id

/-- There is no id in the output. -/
def Output.Unnamed : Output → Prop
  | .header _ shown | .frame _ shown => shown = ""
  | .traceId _ shown => shown = none
  | .record _ shown => shown = "-"

structure Consistent (state : State) : Prop where
  tasks : ∀ id task, state.tasks id = some task → Owns state task.requestId task.request
  streams : ∀ stream request id, state.streams stream = some (request, id) →
    Owns state id request
  outputs : ∀ output ∈ state.outputs, output.Carries state

section

variable {state next : State} {event : Event} {id : String} {request : Option Nat}
  {output : Output} {events : List Event}

/-- Ids that have been chosen stay. -/
def Keeps (state next : State) : Prop :=
  ∀ request id, state.middleware request = some id → next.middleware request = some id

theorem Owns.keep (owns : Owns state id request) (keeps : Keeps state next) :
    Owns next id request := by
  cases request with
  | none => exact owns
  | some request => exact keeps request id owns

theorem Output.Carries.keep (carries : output.Carries state) (keeps : Keeps state next) :
    output.Carries next := by
  cases output with
  | header | frame => exact Owns.keep carries keeps
  | traceId | record =>
      obtain ⟨own, owns, same⟩ := carries
      exact ⟨own, owns.keep keeps, same⟩

theorem Consistent.setTask (consistent : Consistent state) {task : Nat} {own : Task}
    (owns : Owns state own.requestId own.request) : Consistent (state.setTask task own) where
  tasks other found same := by
    simp only [State.setTask, Function.update_apply] at same
    split at same
    · cases same
      exact owns
    · exact consistent.tasks other found same
  streams := consistent.streams
  outputs := consistent.outputs

theorem Consistent.send (consistent : Consistent state) (carries : output.Carries state) :
    Consistent (state.send output) where
  tasks := consistent.tasks
  streams := consistent.streams
  outputs other member := by
    rcases List.mem_append.mp member with earlier | last
    · exact consistent.outputs other earlier
    · exact List.mem_singleton.mp last ▸ carries

/-- The request has the id in its middleware. -/
def State.named (state : State) (request : Nat) (id : String) : State :=
  { state with middleware := Function.update state.middleware request (some id) }

theorem keeps_named {request : Nat} (unknown : state.middleware request = none) :
    Keeps state (state.named request id) := by
  intro other own chosen
  have different : other ≠ request := by
    rintro rfl
    rw [unknown] at chosen
    cases chosen
  exact (Function.update_of_ne different ..).trans chosen

theorem Consistent.named (consistent : Consistent state) {request : Nat}
    (unknown : state.middleware request = none) : Consistent (state.named request id) where
  tasks other task found := (consistent.tasks other task found).keep (keeps_named unknown)
  streams stream other own found :=
    (consistent.streams stream other own found).keep (keeps_named unknown)
  outputs output member := (consistent.outputs output member).keep (keeps_named unknown)

/-- Whatever context it was created in, a request has its id in both of its tasks. -/
theorem receive_eq {request task inner : Nat} {creator : Option Nat} {header : Option String}
    {uuid : String} :
    state.receive request task inner creator header uuid =
      ((state.named request (chosenId header uuid)).setTask task
        ⟨some request, chosenId header uuid⟩).setTask inner
          ⟨some request, chosenId header uuid⟩ := by
  simp [State.receive, State.setTask, State.named, State.inherited]

theorem Consistent.step (consistent : Consistent state) (taken : Step state event next) :
    Consistent next := by
  cases event with
  | background task =>
      simp only [Step, RequestIds.step] at taken
      split at taken <;> cases taken
      exact consistent.setTask rfl
  | receive request task inner creator header uuid =>
      simp only [Step, RequestIds.step] at taken
      split at taken <;> cases taken
      rename_i fresh
      have own : Owns (state.named request (chosenId header uuid)) (chosenId header uuid)
          (some request) := Function.update_self ..
      rw [receive_eq]
      exact ((consistent.named fresh.2.2.2.1).setTask own).setTask own
  | spawn parent task =>
      simp only [Step, RequestIds.step] at taken
      split at taken <;> cases taken
      rename_i creator found _
      exact consistent.setTask (consistent.tasks parent creator found)
  | log task =>
      simp only [Step, RequestIds.step] at taken
      split at taken <;> cases taken
      rename_i own found
      exact consistent.send ⟨own.requestId, consistent.tasks task own found, rfl⟩
  | fail task =>
      simp only [Step, RequestIds.step] at taken
      split at taken <;> cases taken
      rename_i own found
      exact consistent.send ⟨own.requestId, consistent.tasks task own found, rfl⟩
  | openStream task stream =>
      simp only [Step, RequestIds.step] at taken
      split at taken <;> cases taken
      rename_i own found _
      have owns := consistent.tasks task own found
      refine Consistent.send ⟨consistent.tasks, fun other request id opened => ?_,
        consistent.outputs⟩ owns
      simp only [Function.update_apply] at opened
      split at opened
      · cases opened
        exact owns
      · exact consistent.streams other request id opened
  | frame stream =>
      simp only [Step, RequestIds.step] at taken
      split at taken <;> cases taken
      rename_i request id found
      exact consistent.send (consistent.streams stream request id found)
  | respond request =>
      simp only [Step, RequestIds.step] at taken
      split at taken <;> cases taken
      rename_i id chosen
      exact consistent.send chosen

/-! ## Where the ids come from -/

/-- The id that the request was received with, or the one that was drawn for it. -/
def ReceivedAs (events : List Event) (request : Nat) (id : String) : Prop :=
  ∃ task inner creator header uuid,
    .receive request task inner creator header uuid ∈ events ∧ id = chosenId header uuid ∧ id ≠ ""

theorem ReceivedAs.more {request : Nat} (received : ReceivedAs events request id) :
    ReceivedAs (events ++ [event]) request id := by
  obtain ⟨task, inner, creator, header, uuid, member, chosen⟩ := received
  exact ⟨task, inner, creator, header, uuid, List.mem_append_left _ member, chosen⟩

theorem chosenId_ne_empty {header : Option String} {uuid : String} (drawn : uuid ≠ "") :
    chosenId header uuid ≠ "" := by
  unfold chosenId
  split
  · exact drawn
  · split
    · exact drawn
    · rename_i filled
      exact filled

theorem received_step
    (received : ∀ request id, state.middleware request = some id → ReceivedAs events request id)
    (taken : Step state event next) (request : Nat) (id : String)
    (chosen : next.middleware request = some id) :
    ReceivedAs (events ++ [event]) request id := by
  cases event with
  | receive fresh task inner creator header uuid =>
      simp only [Step, RequestIds.step] at taken
      split at taken <;> cases taken
      rename_i new
      have named : Function.update state.middleware fresh (some (chosenId header uuid)) request =
          some id := by
        rw [receive_eq] at chosen
        exact chosen
      rw [Function.update_apply] at named
      split at named
      · rename_i same
        cases named
        exact ⟨task, inner, creator, header, uuid, by simp [same], rfl,
          chosenId_ne_empty new.2.2.2.2⟩
      · exact (received request id named).more
  | background | spawn | log | fail | openStream | frame | respond =>
      simp only [Step, RequestIds.step] at taken
      split at taken <;> cases taken
      exact (received request id chosen).more

theorem Output.Carries.shows {request : Nat} (carries : output.Carries state)
    (sent : output.request = some request) :
    ∃ id, state.middleware request = some id ∧ (id ≠ "" → output.Shows id) := by
  cases output with
  | header own id | frame own id =>
      obtain rfl : own = some request := sent
      exact ⟨id, carries, fun _ => rfl⟩
  | traceId own shown | record own shown =>
      obtain rfl : own = some request := sent
      obtain ⟨id, chosen, rfl⟩ := carries
      exact ⟨id, chosen, fun filled => if_neg filled⟩

theorem Output.Carries.unnamed (carries : output.Carries state) (sent : output.request = none) :
    output.Unnamed := by
  cases output with
  | header own id | frame own id =>
      obtain rfl : own = none := sent
      exact carries
  | traceId own shown | record own shown =>
      obtain rfl : own = none := sent
      obtain ⟨id, rfl, rfl⟩ := carries
      rfl

end

/-- However the tasks of requests take turns, every id that is put anywhere for a request
is the one that it came with, or else the one that was drawn for it. Background tasks put
none anywhere. -/
theorem ids_own (events : List Event) (state : State) (run : Runs Step {} events state)
    (output : Output) (sent : output ∈ state.outputs) :
    match output.request with
    | some request => ∃ id, ReceivedAs events request id ∧ output.Shows id
    | none => output.Unnamed := by
  have consistent : Consistent state :=
    run.invariant (fun before taken => before.step taken) ⟨nofun, nofun, nofun⟩
  have received : ∀ request id, state.middleware request = some id →
      ReceivedAs events request id :=
    @Runs.invariant_of_history _ _ _
      (fun events state => ∀ request id, state.middleware request = some id →
        ReceivedAs events request id)
      (fun before taken => received_step before taken) _ _ _ run nofun
  have carries := consistent.outputs output sent
  split
  · rename_i request own
    obtain ⟨id, chosen, shows⟩ := carries.shows own
    have known := received request id chosen
    have filled : id ≠ "" := by
      obtain ⟨_, _, _, _, _, _, _, filled⟩ := known
      exact filled
    exact ⟨id, known, shows filled⟩
  · rename_i unowned
    exact carries.unnamed unowned

/-- A stream and a request that fails take turns. The second one is created in the
context of the first. -/
def interleaved : List Event :=
  [.background 0, .receive 1 1 2 none (some "upstream-trace-123") "drawn-first",
    .openStream 2 7, .receive 2 3 4 (some 1) none "drawn-second", .fail 4, .log 0, .frame 7,
    .respond 2, .respond 1]

def afterBoth : State :=
  (runSteps step {} interleaved).getD {}

theorem second_trace_own :
    ∃ id, ReceivedAs interleaved 2 id ∧
      Output.Shows id (.traceId (some 2) (some "drawn-second")) :=
  ids_own interleaved afterBoth (runSteps_eq_some_iff.mp rfl)
    (.traceId (some 2) (some "drawn-second")) (by decide)

end AgenticEnterprise.Api.RequestIds
