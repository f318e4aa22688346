import AgenticEnterprise.Graph.Turns

/-! A run that is cut off and resumed, beside one that never was. Whatever stops a run
between two supersteps, a resume goes on where it was stopped, so that both leave the
same checkpoints. -/

set_option autoImplicit false

namespace AgenticEnterprise.Graph.Resumption

open Core Library Engine Threads Turns

/-- The supersteps that are saved. -/
def completed (steps : List Superstep) : List Superstep :=
  steps.filter (·.outcome.isOk)

/-- The first supersteps have the environments of one run, those behind them the
environments of another one. -/
def spliced (count : Nat) (first rest : Nat → Environment) (index : Nat) : Environment :=
  if index < count then first index else rest (index - count)

section

variable {environments first rest : Nat → Environment} {start current : Checkpoint}
  {limit more count : Nat} {step : Superstep} {steps others : List Superstep}
  {thread : Thread} {parent checkpointId : Option Nat} {index : Int}

@[simp] theorem spliced_none : spliced 0 first rest = rest := by
  funext index
  simp [spliced]

theorem spliced_head : spliced (count + 1) first rest 0 = first 0 := by
  simp [spliced]

theorem spliced_tail :
    (fun index => spliced (count + 1) first rest (index + 1)) =
      spliced count (fun index => first (index + 1)) rest := by
  funext index
  simp [spliced]

@[simp] theorem completed_nil : completed [] = [] := rfl

theorem completed_failed {failure : Exn} (failed : step.outcome = .error failure) :
    completed (step :: steps) = completed steps := by
  simp [completed, failed, Except.isOk, Except.toBool]

theorem completed_saved {next : Checkpoint} (saved : step.outcome = .ok next) :
    completed (step :: steps) = step :: completed steps := by
  simp [completed, saved, Except.isOk, Except.toBool]

/-- A run that goes on from where another one has stopped. -/
theorem execute_spliced :
    let stopped := execute limit first start
    let again := execute more rest (reached start stopped.steps)
    execute ((completed stopped.steps).length + more)
        (spliced (completed stopped.steps).length first rest) start =
      ⟨completed stopped.steps ++ again.steps, again.result⟩ := by
  induction limit generalizing first start with
  | zero =>
      obtain ⟨values, next⟩ := start
      cases next <;> simp [execute, reached]
  | succ limit ih =>
      obtain ⟨values, next⟩ := start
      cases next with
      | none => simp [execute, reached]
      | some pending =>
          simp only [execute]
          cases ended : (superstep (first 0) values pending).outcome with
          | error failure => simp [completed_failed ended, reached, ended]
          | ok next =>
              have further := @ih (fun index => first (index + 1)) next
              simp only [completed_saved ended, List.length_cons, Nat.add_right_comm _ 1 more,
                execute, spliced_head, ended, spliced_tail, further]
              simp [reached, ended]

/-! ## What is saved -/

theorem load_put_eq {entry : Entry} :
    load (thread.put parent entry) none =
      ⟨some thread.nextId, entry.step, entry.checkpoint⟩ := by
  have last : (thread.put parent entry).latestId = some thread.nextId := by
    simp [CheckpointStore.latestId, CheckpointStore.put, CheckpointStore.nextId]
  simp [load, last, CheckpointStore.find?_put_nextId]

/-- Further supersteps are saved behind the last one that was, as if they had followed
it in the same run. -/
theorem saveSteps_resumed (loaded : load thread none = ⟨parent, index, current⟩) :
    let left := saveSteps steps parent (index + 1) thread
    saveSteps (completed steps ++ others) parent (index + 1) thread =
      saveSteps others (load left none).id ((load left none).step + 1) left := by
  induction steps generalizing thread parent index current with
  | nil =>
      show saveSteps others parent (index + 1) thread =
        saveSteps others (load thread none).id ((load thread none).step + 1) thread
      rw [loaded]
  | cons step steps ih =>
      cases ended : step.outcome with
      | error failure =>
          simp only [completed_failed ended, saveSteps, ended]
          exact ih loaded
      | ok next =>
          simp only [completed_saved ended, List.cons_append, saveSteps, ended]
          exact ih load_put_eq

/-- A run on an input that is cut off and resumed is one run that was not. -/
theorem ainvoke_resumed {input : List Message} :
    let stopped := ainvoke limit first (some input) checkpointId thread
    let again := ainvoke more rest none none stopped.2
    ainvoke ((completed stopped.1.steps).length + more)
        (spliced (completed stopped.1.steps).length first rest) (some input) checkpointId thread =
      (⟨completed stopped.1.steps ++ again.1.steps, again.1.result⟩, again.2) := by
  simp only [ainvoke, execute_spliced]
  rw [saveSteps_resumed load_put_eq, load_saveSteps load_put]

/-! ## Any number of resumes -/

/-- One run on the input, that nothing interrupts, ends so and leaves the thread so. Its
supersteps are taken in environments that are allowed. -/
def OneRun (allowed : Environment → Prop) (thread : Thread) (checkpointId : Option Nat)
    (input : List Message) (result : Except Exn GraphState) (left : Thread) : Prop :=
  ∃ limit environments, (∀ index, allowed (environments index)) ∧
    (ainvoke limit environments (some input) checkpointId thread).1.result = result ∧
      (ainvoke limit environments (some input) checkpointId thread).2 = left

theorem OneRun.resume {allowed : Environment → Prop} {input : List Message}
    {result : Except Exn GraphState} {left : Thread}
    (run : OneRun allowed thread checkpointId input result left)
    (permitted : ∀ index, allowed (environments index)) :
    OneRun allowed thread checkpointId input (ainvoke limit environments none none left).1.result
      (ainvoke limit environments none none left).2 := by
  obtain ⟨before, first, others, _, rfl⟩ := run
  have whole := @ainvoke_resumed first environments before limit thread checkpointId input
  refine ⟨_, _, fun index => ?_, congrArg (fun ran => ran.1.result) whole,
    congrArg (fun ran => ran.2) whole⟩
  unfold spliced
  split
  · exact others index
  · exact permitted _

/-- A run leaves something pending unless it completes. -/
theorem pending_iff {start : Checkpoint} :
    (reached start (execute limit environments start).steps).next = none ↔
      ∃ final, (execute limit environments start).result = .ok final := by
  induction limit generalizing environments start with
  | zero =>
      obtain ⟨values, next⟩ := start
      cases next <;> simp [execute, reached]
  | succ limit ih =>
      obtain ⟨values, next⟩ := start
      cases next with
      | none => simp [execute, reached]
      | some pending =>
          simp only [execute]
          cases ended : (superstep (environments 0) values pending).outcome with
          | error failure => simp [reached, ended]
          | ok next => simpa [reached, ended] using @ih (fun index => environments (index + 1)) next

theorem OneRun.pending_iff {allowed : Environment → Prop} {input : List Message}
    {result : Except Exn GraphState} {left : Thread}
    (run : OneRun allowed thread checkpointId input result left) :
    (load left none).checkpoint.next = none ↔ ∃ final, result = .ok final := by
  obtain ⟨limit, environments, _, rfl, rfl⟩ := run
  simp only [ainvoke]
  rw [load_saveSteps load_put]
  exact Resumption.pending_iff

end

end AgenticEnterprise.Graph.Resumption
