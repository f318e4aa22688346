import AgenticEnterprise.Library.Runs
import Mathlib.Data.List.Nodup
import Mathlib.Logic.Function.Basic

/-! A value that is computed once behind a first-come-first-served lock, by any number
of tasks that may be overtaken where they await the lock and where they await what the
value is computed from. -/

set_option autoImplicit false

namespace AgenticEnterprise.Library

/-- Where a task is in its call, or how the call ended. -/
inductive CallPhase (Value Failure : Type) where
  | idle
  | waiting
  | computing
  | returned (value : Value)
  | raised (failure : Failure)
  | cancelled
  deriving DecidableEq, Repr

def CallPhase.pending {Value Failure : Type} : CallPhase Value Failure → Bool
  | .waiting | .computing => true
  | _ => false

/-- `waiters` are in front of the lock, in the order in which it lets them in. -/
structure LockedMemo (Task Value Failure : Type) where
  cache : Option Value := none
  lock : Option Task := none
  waiters : List Task := []
  phase : Task → CallPhase Value Failure := fun _ => .idle

inductive MemoEvent (Task Answer : Type) where
  | call (task : Task)
  | acquire (task : Task)
  | answered (task : Task) (answer : Answer)
  | cancel (task : Task)
  deriving DecidableEq, Repr

def MemoEvent.isCall {Task Answer : Type} : MemoEvent Task Answer → Bool
  | .call _ => true
  | _ => false

namespace LockedMemo

variable {Task Value Failure Answer : Type} [DecidableEq Task]

section

variable (memo : LockedMemo Task Value Failure) (task : Task)

def setPhase (phase : CallPhase Value Failure) : LockedMemo Task Value Failure :=
  { memo with phase := Function.update memo.phase task phase }

/-- What a task does with the lock until it awaits its answer. -/
def enter : LockedMemo Task Value Failure :=
  match memo.cache with
  | some value => memo.setPhase task (.returned value)
  | none => { memo with lock := some task }.setPhase task .computing

/-- What it does once it has one, up to the end of the call. -/
def conclude : Except Failure Value → LockedMemo Task Value Failure
  | .ok value => { memo with cache := some value, lock := none }.setPhase task (.returned value)
  | .error failure => { memo with lock := none }.setPhase task (.raised failure)

end

def step (compute : Answer → Except Failure Value) (memo : LockedMemo Task Value Failure) :
    MemoEvent Task Answer → Option (LockedMemo Task Value Failure)
  | .call task =>
      match memo.phase task with
      | .idle =>
          if memo.lock = none ∧ memo.waiters = [] then some (memo.enter task)
          else some ({ memo with waiters := memo.waiters ++ [task] }.setPhase task .waiting)
      | _ => none
  | .acquire task =>
      match memo.lock, memo.waiters with
      | none, first :: rest =>
          if first = task then some ({ memo with waiters := rest }.enter task) else none
      | _, _ => none
  | .answered task answer =>
      match memo.phase task with
      | .computing => some (memo.conclude task (compute answer))
      | _ => none
  | .cancel task =>
      match memo.phase task with
      | .waiting =>
          some ({ memo with waiters := memo.waiters.erase task }.setPhase task .cancelled)
      | .computing => some ({ memo with lock := none }.setPhase task .cancelled)
      | _ => none

abbrev Taken (compute : Answer → Except Failure Value) (memo : LockedMemo Task Value Failure)
    (event : MemoEvent Task Answer) (next : LockedMemo Task Value Failure) : Prop :=
  step compute memo event = some next

/-! ## What a step can do -/

/-- A step by what it does to the lock: a task that comes in at once or from the front
of the queue, one that queues up, one that gives the lock back, one that gives up. -/
inductive Move (compute : Answer → Except Failure Value)
    (memo : LockedMemo Task Value Failure) :
    MemoEvent Task Answer → LockedMemo Task Value Failure → Prop where
  | call {task} :
      memo.phase task = .idle → memo.lock = none → memo.waiters = [] →
      Move compute memo (.call task) (memo.enter task)
  | queue {task} :
      memo.phase task = .idle → ¬(memo.lock = none ∧ memo.waiters = []) →
      Move compute memo (.call task)
        ({ memo with waiters := memo.waiters ++ [task] }.setPhase task .waiting)
  | acquire {task rest} :
      memo.lock = none → memo.waiters = task :: rest →
      Move compute memo (.acquire task) ({ memo with waiters := rest }.enter task)
  | answered {task answer} :
      memo.phase task = .computing →
      Move compute memo (.answered task answer) (memo.conclude task (compute answer))
  | leave {task} :
      memo.phase task = .waiting →
      Move compute memo (.cancel task)
        ({ memo with waiters := memo.waiters.erase task }.setPhase task .cancelled)
  | abandon {task} :
      memo.phase task = .computing →
      Move compute memo (.cancel task) ({ memo with lock := none }.setPhase task .cancelled)

section

variable {compute : Answer → Except Failure Value} {memo next : LockedMemo Task Value Failure}
  {event : MemoEvent Task Answer} {task other : Task} {value : Value}
  {phase : CallPhase Value Failure}

@[simp] theorem phase_setPhase :
    (memo.setPhase task phase).phase other = if other = task then phase else memo.phase other := by
  simp [setPhase, Function.update_apply]

@[simp] theorem cache_setPhase : (memo.setPhase task phase).cache = memo.cache := rfl

@[simp] theorem lock_setPhase : (memo.setPhase task phase).lock = memo.lock := rfl

@[simp] theorem waiters_setPhase : (memo.setPhase task phase).waiters = memo.waiters := rfl

theorem move_of_step (taken : Taken compute memo event next) : Move compute memo event next := by
  cases event with
  | call task =>
      simp only [Taken, step] at taken
      split at taken
      · rename_i ready
        split at taken
        · rename_i free
          cases taken
          exact .call ready free.1 free.2
        · rename_i busy
          cases taken
          exact .queue ready busy
      · cases taken
  | acquire task =>
      simp only [Taken, step] at taken
      split at taken
      · rename_i first rest free queue
        split at taken
        · rename_i own
          cases taken
          subst own
          exact .acquire free queue
        · cases taken
      · cases taken
  | answered task answer =>
      simp only [Taken, step] at taken
      split at taken
      · rename_i computing
        cases taken
        exact .answered computing
      · cases taken
  | cancel task =>
      simp only [Taken, step] at taken
      split at taken
      · rename_i waiting
        cases taken
        exact .leave waiting
      · rename_i computing
        cases taken
        exact .abandon computing
      · cases taken

/-! ## The invariant -/

/-- A phase that fits what the lock, the queue and the cache say of the task. -/
structure Placed (memo : LockedMemo Task Value Failure) (task : Task)
    (phase : CallPhase Value Failure) : Prop where
  holder : phase = .computing ↔ memo.lock = some task
  queued : phase = .waiting ↔ task ∈ memo.waiters
  cached : ∀ value, phase = .returned value → memo.cache = some value

/-- The one who computes holds the lock, and only while there is no value. -/
structure Sound (memo : LockedMemo Task Value Failure) : Prop where
  placed : ∀ task, Placed memo task (memo.phase task)
  distinct : memo.waiters.Nodup
  unknown : ∀ task, memo.lock = some task → memo.cache = none

omit [DecidableEq Task] in
theorem sound_initial : Sound ({} : LockedMemo Task Value Failure) where
  placed task := ⟨by simp, by simp, by simp⟩
  distinct := List.nodup_nil
  unknown := by simp

/-- One task is given a phase that fits, and those of the others go on fitting. -/
theorem sound_setPhase (own : Placed memo task phase)
    (others : ∀ other, other ≠ task → Placed memo other (memo.phase other))
    (distinct : memo.waiters.Nodup) (unknown : ∀ task, memo.lock = some task → memo.cache = none) :
    Sound (memo.setPhase task phase) where
  placed other := by
    rw [phase_setPhase]
    by_cases same : other = task
    · subst same
      rw [if_pos rfl]
      exact ⟨own.holder, own.queued, own.cached⟩
    · rw [if_neg same]
      obtain ⟨holder, queued, cached⟩ := others other same
      exact ⟨holder, queued, cached⟩
  distinct := distinct
  unknown := unknown

/-- A task that has just got the lock, with everybody else where they were. -/
theorem sound_enter (free : memo.lock = none) (unqueued : task ∉ memo.waiters)
    (others : ∀ other, other ≠ task → Placed memo other (memo.phase other))
    (distinct : memo.waiters.Nodup) : Sound (memo.enter task) := by
  have unknown (other : Task) (held : memo.lock = some other) : memo.cache = none := by
    rw [free] at held
    cases held
  unfold enter
  split
  · rename_i value known
    refine sound_setPhase ⟨?_, ?_, ?_⟩ others distinct unknown
    · simp [free]
    · simp [unqueued]
    · simp [known]
  · rename_i missing
    refine sound_setPhase ⟨?_, ?_, ?_⟩ (fun other different => ?_) distinct fun _ _ => missing
    · simp
    · simp [unqueued]
    · simp
    · obtain ⟨holder, queued, cached⟩ := others other different
      exact ⟨by simpa [free, Ne.symm different] using holder, queued, cached⟩

theorem Sound.step (sound : Sound memo) (taken : Taken compute memo event next) :
    Sound next := by
  cases move_of_step taken with
  | @call task ready free empty =>
      exact sound_enter free (by simp [empty]) (fun other _ => sound.placed other) sound.distinct
  | @queue task ready busy =>
      obtain ⟨holder, queued, _⟩ := sound.placed task
      rw [ready] at holder queued
      refine sound_setPhase ⟨?_, ?_, ?_⟩ (fun other different => ?_) ?_ sound.unknown
      · simpa using holder
      · simp
      · simp
      · obtain ⟨holder, queued, cached⟩ := sound.placed other
        exact ⟨holder, by simp [queued, different], cached⟩
      · refine List.nodup_append.mpr ⟨sound.distinct, List.nodup_singleton _, ?_⟩
        intro kept member last fresh same
        obtain rfl := List.mem_singleton.mp fresh
        exact absurd (queued.mpr (same ▸ member)) nofun
  | @acquire task rest free queue =>
      obtain ⟨absent, distinct⟩ := List.nodup_cons.mp (queue ▸ sound.distinct)
      refine sound_enter free absent (fun other different => ?_) distinct
      obtain ⟨holder, queued, cached⟩ := sound.placed other
      exact ⟨holder, by simp [queued, queue, different], cached⟩
  | @answered task answer computing =>
      obtain ⟨holder, queued, _⟩ := sound.placed task
      have held := holder.mp computing
      have unqueued : task ∉ memo.waiters := by
        rw [← queued, computing]
        nofun
      have others (other : Task) (different : other ≠ task) :
          (memo.phase other = .computing ↔ False) := by
        rw [(sound.placed other).holder, held]
        simp [Ne.symm different]
      cases compute answer with
      | ok value =>
          refine sound_setPhase ⟨?_, ?_, ?_⟩ (fun other different => ?_) sound.distinct nofun
          · simp
          · simp [unqueued]
          · simp
          · obtain ⟨_, queued, cached⟩ := sound.placed other
            refine ⟨by simpa using others other different, queued, fun kept returned => ?_⟩
            rw [sound.unknown task held] at cached
            exact absurd (cached kept returned) nofun
      | error failure =>
          refine sound_setPhase ⟨?_, ?_, ?_⟩ (fun other different => ?_) sound.distinct nofun
          · simp
          · simp [unqueued]
          · simp
          · obtain ⟨_, queued, cached⟩ := sound.placed other
            exact ⟨by simpa using others other different, queued, cached⟩
  | @leave task waiting =>
      obtain ⟨holder, _, _⟩ := sound.placed task
      rw [waiting] at holder
      refine sound_setPhase ⟨?_, ?_, ?_⟩ (fun other different => ?_)
        (sound.distinct.erase task) sound.unknown
      · simpa using holder
      · simp [sound.distinct.mem_erase_iff]
      · simp
      · obtain ⟨holder, queued, cached⟩ := sound.placed other
        exact ⟨holder, by simp [queued, sound.distinct.mem_erase_iff, different], cached⟩
  | @abandon task computing =>
      obtain ⟨holder, queued, _⟩ := sound.placed task
      rw [computing] at queued
      refine sound_setPhase ⟨?_, ?_, ?_⟩ (fun other different => ?_) sound.distinct nofun
      · simp
      · simpa using queued
      · simp
      · obtain ⟨others, queued, cached⟩ := sound.placed other
        rw [holder.mp computing] at others
        exact ⟨by simpa [Ne.symm different] using others, queued, cached⟩

theorem Sound.runs {events : List (MemoEvent Task Answer)} (sound : Sound memo)
    (run : Runs (Taken compute) memo events next) : Sound next :=
  run.invariant (fun before taken => before.step taken) sound

/-! ## One value -/

def succeeds (compute : Answer → Except Failure Value) : MemoEvent Task Answer → Bool
  | .answered _ answer => (compute answer).toBool
  | _ => false

/-- How many values are still to come. -/
def missing (memo : LockedMemo Task Value Failure) : Nat :=
  match memo.cache with
  | none => 1
  | some _ => 0

theorem cache_enter : (memo.enter task).cache = memo.cache := by
  unfold enter
  split
  · rfl
  · rfl

theorem Sound.missing_step (sound : Sound memo) (taken : Taken compute memo event next) :
    next.missing + (if succeeds compute event then 1 else 0) ≤ memo.missing := by
  cases move_of_step taken with
  | call | acquire => simp [missing, cache_enter, succeeds]
  | queue | leave | abandon => exact Nat.le_refl _
  | @answered task answer computing =>
      have unknown := sound.unknown task ((sound.placed task).holder.mp computing)
      cases made : compute answer <;>
        simp [missing, conclude, succeeds, made, unknown, Except.toBool]

/-- One answer at most is made into a value. -/
theorem Sound.length_succeeds_le {events : List (MemoEvent Task Answer)} (sound : Sound memo)
    (run : Runs (Taken compute) memo events next) :
    (events.filter (succeeds compute)).length ≤ 1 := by
  have strict := run.restrict (fun before taken => Sound.step before taken) sound
  have bound := strict.length_filter_le (succeeds compute) missing
    fun taken => taken.1.missing_step taken.2
  have start : memo.missing ≤ 1 := by
    unfold missing
    split <;> decide
  omega

/-! ## How calls end -/

/-- What the calls so far go back to: a value or a failure has been made of an answer,
and a failure of the caller's own. -/
structure Traced (compute : Answer → Except Failure Value) (events : List (MemoEvent Task Answer))
    (memo : LockedMemo Task Value Failure) : Prop where
  value : ∀ value, memo.cache = some value →
    ∃ task answer, .answered task answer ∈ events ∧ compute answer = .ok value
  failure : ∀ task failure, memo.phase task = .raised failure →
    ∃ answer, .answered task answer ∈ events ∧ compute answer = .error failure
  cancelled : ∀ task, memo.phase task = .cancelled → .cancel task ∈ events

omit [DecidableEq Task] in
theorem Traced.more {events : List (MemoEvent Task Answer)} (traced : Traced compute events memo)
    (event : MemoEvent Task Answer) : Traced compute (events ++ [event]) memo where
  value value kept := by
    obtain ⟨task, answer, member, made⟩ := traced.value value kept
    exact ⟨task, answer, List.mem_append_left _ member, made⟩
  failure task failure raised := by
    obtain ⟨answer, member, made⟩ := traced.failure task failure raised
    exact ⟨answer, List.mem_append_left _ member, made⟩
  cancelled task gone := List.mem_append_left _ (traced.cancelled task gone)

/-- A phase that the events so far account for. -/
theorem Traced.setPhase {events : List (MemoEvent Task Answer)}
    (traced : Traced compute events memo)
    (failure : ∀ failure, phase = .raised failure →
      ∃ answer, .answered task answer ∈ events ∧ compute answer = .error failure)
    (cancelled : phase = .cancelled → .cancel task ∈ events) :
    Traced compute events (memo.setPhase task phase) where
  value := traced.value
  failure other failed raised := by
    rw [phase_setPhase] at raised
    split at raised
    · rename_i same
      exact same ▸ failure failed raised
    · exact traced.failure other failed raised
  cancelled other gone := by
    rw [phase_setPhase] at gone
    split at gone
    · rename_i same
      exact same ▸ cancelled gone
    · exact traced.cancelled other gone

theorem Traced.enter {events : List (MemoEvent Task Answer)}
    (traced : Traced compute events memo) : Traced compute events (memo.enter task) := by
  unfold LockedMemo.enter
  split
  · exact traced.setPhase nofun nofun
  · exact Traced.setPhase ⟨traced.value, traced.failure, traced.cancelled⟩ nofun nofun

theorem Traced.step {events : List (MemoEvent Task Answer)} (traced : Traced compute events memo)
    (taken : Taken compute memo event next) : Traced compute (events ++ [event]) next := by
  obtain ⟨value, failure, cancelled⟩ := traced.more event
  cases move_of_step taken with
  | call | acquire => exact Traced.enter ⟨value, failure, cancelled⟩
  | queue => exact Traced.setPhase ⟨value, failure, cancelled⟩ nofun nofun
  | leave | abandon =>
      exact Traced.setPhase ⟨value, failure, cancelled⟩ nofun fun _ => by simp
  | @answered task answer computing =>
      unfold conclude
      cases made : compute answer with
      | ok fresh =>
          refine Traced.setPhase ⟨fun kept same => ?_, failure, cancelled⟩ nofun nofun
          cases same
          exact ⟨task, answer, by simp, made⟩
      | error failed =>
          refine Traced.setPhase ⟨value, failure, cancelled⟩ (fun other same => ?_) nofun
          cases same
          exact ⟨answer, by simp, made⟩

omit [DecidableEq Task] in
theorem traced_initial : Traced compute [] ({} : LockedMemo Task Value Failure) where
  value := nofun
  failure := nofun
  cancelled := nofun

theorem traced_of_run {events : List (MemoEvent Task Answer)}
    (run : Runs (Taken compute) {} events next) : Traced compute events next :=
  run.invariant_of_history (fun before taken => before.step taken) traced_initial

/-! ## Every call ends -/

/-- What the lock has still to do for the calls that have been made. -/
def work (memo : LockedMemo Task Value Failure) : Nat :=
  2 * memo.waiters.length +
    match memo.lock with
    | none => 0
    | some _ => 1

theorem Sound.work_step (sound : Sound memo) (taken : Taken compute memo event next)
    (inside : event.isCall = false) : next.work + 1 ≤ memo.work := by
  cases move_of_step taken with
  | call | queue => cases inside
  | @acquire task rest free queue =>
      have entered : ({ memo with waiters := rest }.enter task).work ≤ 2 * rest.length + 1 := by
        unfold work enter
        split <;> simp [free]
      simp only [work, free, queue, List.length_cons] at entered ⊢
      omega
  | @answered task answer computing =>
      have held := (sound.placed task).holder.mp computing
      cases made : compute answer <;> simp [work, conclude, held]
  | @leave task waiting =>
      have member := (sound.placed task).queued.mp waiting
      have positive := List.length_pos_of_mem member
      simp only [work, waiters_setPhase, lock_setPhase, List.length_erase_of_mem member]
      omega
  | @abandon task computing =>
      have held := (sound.placed task).holder.mp computing
      simp [work, held]

theorem work_call (taken : Taken compute memo event next) (outside : event.isCall = true) :
    next.work ≤ memo.work + 2 := by
  cases move_of_step taken with
  | @call task ready free empty =>
      unfold work enter
      split <;> simp [free, empty]
  | queue =>
      simp only [work, waiters_setPhase, lock_setPhase, List.length_append, List.length_singleton]
      omega
  | acquire | answered | leave | abandon => cases outside

/-- A call takes three events at most: it comes, it gets the lock and it ends. -/
theorem Sound.length_le {events : List (MemoEvent Task Answer)} (sound : Sound memo)
    (run : Runs (Taken compute) memo events next) :
    events.length + next.work ≤ 3 * events.countP MemoEvent.isCall + memo.work := by
  induction run with
  | refl => simp
  | @cons first middle last event events taken _ ih =>
      have rest := ih (sound.step taken)
      cases called : event.isCall with
      | true =>
          have added := work_call taken called
          simp only [List.length_cons, List.countP_cons_of_pos called]
          omega
      | false =>
          have paid := sound.work_step taken called
          simp only [List.length_cons, List.countP_cons, called]
          omega

/-- Where only new calls are possible, no call is pending. -/
theorem Sound.ended (sound : Sound memo) (answer : Answer)
    (stuck : ∀ event next, Taken compute memo event next → event.isCall = true)
    (task : Task) : (memo.phase task).pending = false := by
  have unlocked : memo.lock = none := by
    cases held : memo.lock with
    | none => rfl
    | some holder =>
        have computing := (sound.placed holder).holder.mpr held
        have answers := stuck (.answered holder answer) (memo.conclude holder (compute answer))
          (by simp only [Taken, LockedMemo.step, computing])
        cases answers
  have empty : memo.waiters = [] := by
    cases queue : memo.waiters with
    | nil => rfl
    | cons first rest =>
        have enters := stuck (.acquire first) ({ memo with waiters := rest }.enter first)
          (by simp only [Taken, LockedMemo.step, unlocked, queue, if_true])
        cases enters
  obtain ⟨holder, queued, _⟩ := sound.placed task
  rw [unlocked] at holder
  rw [empty] at queued
  cases phase : memo.phase task with
  | waiting => exact absurd (queued.mp phase) List.not_mem_nil
  | computing => cases holder.mp phase
  | idle | returned | raised | cancelled => rfl

end

end LockedMemo

end AgenticEnterprise.Library
