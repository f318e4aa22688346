import AgenticEnterprise.Graph.Threads
import AgenticEnterprise.Library.Runs

/-! The nodes a turn executes, and what they read of its route and its facts.

A turn is one run on a new message and any number of resumes behind it. Its
supersteps follow one path through the graph wherever it was interrupted, since
a resume continues at the checkpoint that was saved last. -/

set_option autoImplicit false

namespace AgenticEnterprise.Graph.Turns

open Core Library Engine Threads

/-! ## Completed supersteps -/

/-- A superstep that completes, with the state it read. -/
structure Visit where
  environment : Environment
  values : GraphState
  pending : Pending

def Visit.step (visit : Visit) : Superstep :=
  superstep visit.environment visit.values visit.pending

def Visit.node (visit : Visit) : Option Node :=
  match visit.pending with
  | .input _ => none
  | .node node => some node

/-- The supersteps of a run that complete. -/
def visits : Nat → (Nat → Environment) → Checkpoint → List Visit
  | _, _, ⟨_, none⟩ => []
  | 0, _, ⟨_, some _⟩ => []
  | limit + 1, environments, ⟨values, some pending⟩ =>
      match (superstep (environments 0) values pending).outcome with
      | .error _ => []
      | .ok next =>
          ⟨environments 0, values, pending⟩ ::
            visits limit (fun index => environments (index + 1)) next

def executed (visited : List Visit) : List Node :=
  visited.filterMap Visit.node

/-- The checkpoint behind the last superstep that completes. -/
def reached (start : Checkpoint) (steps : List Superstep) : Checkpoint :=
  steps.foldl
    (fun current step =>
      match step.outcome with
      | .ok next => next
      | .error _ => current)
    start

def Move (before : Checkpoint) (visit : Visit) (after : Checkpoint) : Prop :=
  before = ⟨visit.values, some visit.pending⟩ ∧ visit.step.outcome = .ok after

theorem move_of_update {environment : Environment} {values : GraphState} {node : Node}
    {update : Update} {target : Option Node}
    (written : (runNode environment values node).update = .ok update)
    (decided : nextNode (values.apply update) node = .ok target) :
    Move ⟨values, some (.node node)⟩ ⟨environment, values, .node node⟩
      ⟨values.apply update, target.map .node⟩ :=
  ⟨rfl, bind_eq_ok_iff.mpr ⟨update, written, bind_eq_ok_iff.mpr ⟨target, decided, rfl⟩⟩⟩

section

variable {start last : Checkpoint} {visited : List Visit} {limit : Nat}
  {environments : Nat → Environment}

/-- The visits are the supersteps that complete. -/
theorem visits_steps :
    (visits limit environments start).map Visit.step =
      (execute limit environments start).steps.filter (·.outcome.isOk) := by
  induction limit generalizing environments start with
  | zero =>
      obtain ⟨values, next⟩ := start
      cases next <;> rfl
  | succ limit ih =>
      obtain ⟨values, next⟩ := start
      cases next with
      | none => rfl
      | some pending =>
          simp only [visits, execute]
          split
          · rename_i failed
            simp [failed, Except.isOk, Except.toBool]
          · rename_i next succeeded
            simp [succeeded, Except.isOk, Except.toBool, Visit.step, ih]

theorem visits_moves :
    Runs Move start (visits limit environments start)
      (reached start (execute limit environments start).steps) := by
  induction limit generalizing environments start with
  | zero =>
      obtain ⟨values, next⟩ := start
      cases next <;> exact .refl
  | succ limit ih =>
      obtain ⟨values, next⟩ := start
      cases next with
      | none => exact .refl
      | some pending =>
          simp only [visits, execute]
          split
          · rename_i failed
            simp only [reached, List.foldl_cons, failed, List.foldl_nil]
            exact .refl
          · rename_i next succeeded
            simp only [reached, List.foldl_cons, succeeded]
            exact .cons ⟨rfl, succeeded⟩ ih

/-- Every path of supersteps is the one of a run. -/
theorem visits_of_moves {environment : Environment} (moves : Runs Move start visited last)
    (same : ∀ visit ∈ visited, visit.environment = environment) :
    visits visited.length (fun _ => environment) start = visited := by
  induction moves with
  | @refl start =>
      obtain ⟨values, next⟩ := start
      cases next <;> rfl
  | @cons first middle last visit visited moved _ ih =>
      obtain ⟨rfl, succeeded⟩ := moved
      have here : visit.environment = environment := same visit (.head _)
      subst here
      have rest := ih fun other member => same other (.tail _ member)
      simp only [List.length_cons, visits]
      rw [show (superstep visit.environment visit.values visit.pending).outcome = .ok middle from
        succeeded]
      simp only [rest]

end

/-! ## A turn and its resumes -/

structure Leg where
  limit : Nat
  environments : Nat → Environment

def resumes : Thread → List Leg → List Visit × Thread
  | thread, [] => ([], thread)
  | thread, leg :: rest =>
      let visited := visits leg.limit leg.environments (load thread none).checkpoint
      let later := resumes (ainvoke leg.limit leg.environments none none thread).2 rest
      (visited ++ later.1, later.2)

/-- What a turn executes, and the thread behind it. -/
def turn (thread : Thread) (checkpointId : Option Nat) (text : String) (first : Leg)
    (rest : List Leg) : List Visit × Thread :=
  let start := withInput (load thread checkpointId) [.human text]
  let visited := visits first.limit first.environments start.checkpoint
  let later := resumes
    (ainvoke first.limit first.environments (some [.human text]) checkpointId thread).2 rest
  (visited ++ later.1, later.2)

section

variable {thread : Thread} {current : Checkpoint}

theorem load_put {parent : Option Nat} {entry : Entry} :
    (load (thread.put parent entry) none).checkpoint = entry.checkpoint :=
  load_latest CheckpointStore.latest_put

/-- A thread is left at the last checkpoint its run has reached. -/
theorem load_saveSteps (loaded : (load thread none).checkpoint = current)
    (steps : List Superstep) (parent : Option Nat) (index : Int) :
    (load (saveSteps steps parent index thread) none).checkpoint = reached current steps := by
  induction steps generalizing thread current parent index with
  | nil => exact loaded
  | cons step rest ih =>
      unfold saveSteps
      split
      · rename_i failed
        simpa only [reached, List.foldl_cons, failed] using ih loaded parent index
      · rename_i next succeeded
        have saved : (load (thread.put parent ⟨.loop, index, next⟩) none).checkpoint = next :=
          load_put
        simpa only [reached, List.foldl_cons, succeeded] using
          ih saved (some thread.nextId) (index + 1)

theorem resumes_moves {legs : List Leg} :
    Runs Move (load thread none).checkpoint (resumes thread legs).1
      (load (resumes thread legs).2 none).checkpoint := by
  induction legs generalizing thread with
  | nil => exact .refl
  | cons leg rest ih =>
      have resumed := @ih (ainvoke leg.limit leg.environments none none thread).2
      rw [show (load (ainvoke leg.limit leg.environments none none thread).2 none).checkpoint = _
        from load_saveSteps rfl _ _ _] at resumed
      exact visits_moves.append resumed

/-- The visits of a turn lead from its input to the checkpoint it leaves behind. -/
theorem turn_moves {checkpointId : Option Nat} {text : String} {first : Leg} {rest : List Leg} :
    Runs Move (withInput (load thread checkpointId) [.human text]).checkpoint
      (turn thread checkpointId text first rest).1
      (load (turn thread checkpointId text first rest).2 none).checkpoint := by
  have resumed := @resumes_moves
    (ainvoke first.limit first.environments (some [.human text]) checkpointId thread).2 rest
  rw [show (load (ainvoke first.limit first.environments (some [.human text]) checkpointId
    thread).2 none).checkpoint = _ from load_saveSteps load_put _ _ _] at resumed
  exact visits_moves.append resumed

end

/-! ## What a run leaves in front of its own -/

section

variable {thread : Thread} {checkpointId : Option Nat} {limit : Nat}
  {environments : Nat → Environment} {start : Checkpoint} {final : GraphState}

theorem extends_saveSteps (steps : List Superstep) (parent : Option Nat) (index : Int) :
    thread.Extends (saveSteps steps parent index thread) := by
  induction steps generalizing thread parent index with
  | nil => exact CheckpointStore.extends_refl
  | cons step rest ih =>
      unfold saveSteps
      split
      · exact ih parent index
      · exact CheckpointStore.extends_put.trans (ih _ _)

theorem extends_ainvoke (input : Option (List Message)) :
    thread.Extends (Threads.ainvoke limit environments input checkpointId thread).2 := by
  cases input with
  | none => exact extends_saveSteps _ _ _
  | some messages => exact CheckpointStore.extends_put.trans (extends_saveSteps _ _ _)

theorem extends_aupdateState {values : Update} {asNode : String} {after : Thread}
    (edited : Threads.aupdateState thread checkpointId values asNode = .ok after) :
    thread.Extends after := by
  obtain ⟨_, _, rfl⟩ := map_eq_ok_iff.mp edited
  exact CheckpointStore.extends_put

/-- A run leaves the messages it has started from in front of its own. -/
theorem messages_reached :
    start.values.messages <+:
      (reached start (execute limit environments start).steps).values.messages := by
  induction limit generalizing environments start with
  | zero =>
      obtain ⟨values, next⟩ := start
      cases next <;> exact List.prefix_refl _
  | succ limit ih =>
      obtain ⟨values, next⟩ := start
      cases next with
      | none => exact List.prefix_refl _
      | some pending =>
          simp only [execute]
          split
          · rename_i failed
            simp only [reached, List.foldl_cons, List.foldl_nil, failed, List.prefix_refl]
          · rename_i next succeeded
            obtain ⟨added, appended, _⟩ := (advance_of_outcome succeeded).messages
            simp only [reached, List.foldl_cons, succeeded]
            refine List.IsPrefix.trans ?_ (@ih (fun index => environments (index + 1)) next)
            rw [appended]
            exact List.prefix_append _ _

/-- A run that completes is left behind in the checkpoint of its result. -/
theorem reached_of_result (completed : (execute limit environments start).result = .ok final) :
    reached start (execute limit environments start).steps = ⟨final, none⟩ := by
  refine (@execute_result environments start limit Checkpoint (fun checkpoint last =>
    last = checkpoint) _ (fun {environment values pending next recorded} same succeeded => ?_)
    start rfl final completed)
  simp only [succeeded]

/-- Behind an input come the replies to it. -/
theorem messages_of_result {values : GraphState} {messages : List Message}
    (completed : (execute limit environments ⟨values, some (.input messages)⟩).result =
      .ok final) :
    values.messages ++ messages <+: final.messages := by
  cases limit with
  | zero => cases completed
  | succ limit =>
      simp only [execute, superstep] at completed
      have left := reached_of_result completed
      have grown := @messages_reached limit (fun index => environments (index + 1))
        ⟨values.apply { messages := messages }, some (.node .router)⟩
      rw [left] at grown
      exact grown

end

end AgenticEnterprise.Graph.Turns
