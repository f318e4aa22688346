import AgenticEnterprise.Graph.Retention
import Mathlib.Algebra.Order.Field.Rat
import Mathlib.Tactic.Linarith

/-! The scheduled sweeps: `_gc_loop` of `app/main.py`, over the sweeps and writes of
`Retention`, in days. How late a sleeping task is woken and how long a sweep takes is
up to the event loop and the database. -/

set_option autoImplicit false

namespace AgenticEnterprise.Graph.RetentionLoop

open Library Retention

def seconds (count : Int) : Rat :=
  count / 86400

/-- `checkpoint_gc_interval_hours * 3600`. -/
def interval (intervalHours : Int) : Rat :=
  seconds (intervalHours * 3600)

/-- Where the task stands: in one of its sleeps, or in the sweep it has begun. -/
inductive Task where
  | asleep (wakes : Rat)
  | sweeping (id : Nat) (since : Rat)
  | ended
  deriving DecidableEq, Repr

/-- `cleared` is when the last sweep that returned began, at first when the first one is
due; `failed` counts the sweeps that have raised since. -/
structure State where
  store : Retention.State
  task : Task
  cleared : Rat
  failed : Nat := 0

inductive Event where
  | store (event : Retention.Event)
  | wake (id : Nat)
  | settle
  | cancel
  deriving DecidableEq, Repr

variable (retentionDays intervalHours : Int)

/-- The task as the lifespan creates it. -/
def initial (start : Rat) (rows : List Row) : State where
  store := Retention.initial start rows
  task := if intervalHours * 3600 ≤ 0 then .ended else .asleep (start + seconds 60)
  cleared := start + seconds 60

/-- A sweep that has not returned is left where the cancellation reaches it. -/
def abandon (store : Retention.State) : Task → Retention.State
  | .sweeping id _ => (Retention.step retentionDays store (.fail id)).getD store
  | _ => store

def step (state : State) : Event → Option State
  | .store event =>
      (Retention.step retentionDays state.store event).map fun store =>
        { state with store := store }
  | .wake id =>
      match state.task with
      | .asleep wakes =>
          if wakes ≤ state.store.now ∧ state.store.phase id = .idle then
            some { state with task := .sweeping id state.store.now }
          else none
      | _ => none
  | .settle =>
      match state.task with
      | .sweeping id since =>
          match state.store.phase id with
          | .returned _ =>
              some { state with
                task := .asleep (state.store.now + interval intervalHours)
                cleared := since
                failed := 0 }
          -- `except Exception`: logged, and retried after the same interval.
          | .failed =>
              some { state with
                task := .asleep (state.store.now + interval intervalHours)
                failed := state.failed + 1 }
          | _ => none
      | _ => none
  | .cancel =>
      match state.task with
      | .ended => none
      | task => some { state with store := abandon retentionDays state.store task, task := .ended }

/-! ## What is asked of the surroundings -/

/-- When the task is woken, or its sweep over, at the latest. -/
def Task.Due (latency duration now : Rat) : Task → Prop
  | .asleep wakes => now ≤ wakes + latency
  | .sweeping _ since => now ≤ since + duration
  | .ended => True

/-- No checkpoint is past the cutoff already when it is saved. -/
def Dated (store : Retention.State) : Retention.Event → Prop
  | .write row => store.now ≤ row.ts + retentionDays
  | _ => True

/-- Time passes no further than to where the task is due. -/
def Timely (latency duration : Rat) (state : State) : Event → Prop
  | .store (.wait elapsed) => state.task.Due latency duration (state.store.now + elapsed)
  | .store change => Dated retentionDays state.store change
  | _ => True

def TimelyStep (latency duration : Rat) (state : State) (event : Event) (next : State) : Prop :=
  step retentionDays intervalHours state event = some next ∧
    Timely retentionDays latency duration state event

/-! ## What a step can do -/

inductive Effect (state : State) : Event → State → Prop where
  | store {event store} :
      Retention.Step retentionDays state.store event store →
      Effect state (.store event) { state with store := store }
  | wake {id wakes} :
      state.task = .asleep wakes → wakes ≤ state.store.now → state.store.phase id = .idle →
      Effect state (.wake id) { state with task := .sweeping id state.store.now }
  | returned {id since deleted} :
      state.task = .sweeping id since → state.store.phase id = .returned deleted →
      Effect state .settle
        { state with
          task := .asleep (state.store.now + interval intervalHours)
          cleared := since
          failed := 0 }
  | raised {id since} :
      state.task = .sweeping id since → state.store.phase id = .failed →
      Effect state .settle
        { state with
          task := .asleep (state.store.now + interval intervalHours)
          failed := state.failed + 1 }
  | cancel :
      Effect state .cancel
        { state with store := abandon retentionDays state.store state.task, task := .ended }

variable {retentionDays intervalHours} {state next : State} {event : Event}

theorem effect_of_step (taken : step retentionDays intervalHours state event = some next) :
    Effect retentionDays intervalHours state event next := by
  cases event with
  | store event =>
      simp only [step, Option.map_eq_some_iff] at taken
      obtain ⟨store, moved, rfl⟩ := taken
      exact .store moved
  | wake id =>
      simp only [step] at taken
      split at taken
      · rename_i wakes asleep
        obtain ⟨⟨passed, idle⟩, same⟩ := Option.ite_none_right_eq_some.mp taken
        cases same
        exact .wake asleep passed idle
      · cases taken
  | settle =>
      simp only [step] at taken
      split at taken
      · rename_i id since sweeping
        split at taken
        · rename_i deleted returned
          cases taken
          exact .returned sweeping returned
        · rename_i raised
          cases taken
          exact .raised sweeping raised
        · cases taken
      · cases taken
  | cancel =>
      simp only [step] at taken
      split at taken
      · cases taken
      · cases taken
        exact .cancel

theorem abandon_cases (retentionDays : Int) (store : Retention.State) (task : Task) :
    abandon retentionDays store task = store ∨
      ∃ id, Retention.Step retentionDays store (.fail id) (abandon retentionDays store task) := by
  cases task with
  | sweeping id since =>
      simp only [abandon]
      cases failed : Retention.step retentionDays store (.fail id) with
      | none => exact .inl rfl
      | some after => exact .inr ⟨id, failed⟩
  | asleep => exact .inl rfl
  | ended => exact .inl rfl

/-! ## Which threads a sweep leaves -/

/-- Every thread that has checkpoints is listed or has one younger than the cutoff of
that moment. -/
def Covered (retentionDays : Int) (moment : Rat) (rows : List Row) (listed : List String) : Prop :=
  ∀ threadId last, newest rows threadId = some last →
    threadId ∈ listed ∨ moment ≤ last + retentionDays

section

variable {rows : List Row} {row : Row} {threadId other : String} {last moment now : Rat}
  {listed : List String}

theorem newest_append (found : newest (rows ++ [row]) threadId = some last) :
    row.ts ≤ last ∨ newest rows threadId = some last := by
  obtain ⟨name, ts⟩ := row
  by_cases same : name = threadId
  · subst same
    exact .inl (le_newest found (by simp))
  · refine .inr ?_
    rw [newest, List.filter_append, List.filter_cons_of_neg (by simpa using same),
      List.filter_nil, List.append_nil] at found
    exact found

theorem newest_adeleteThread (found : newest (adeleteThread rows other) threadId = some last) :
    threadId ≠ other ∧ newest rows threadId = some last := by
  have distinct : threadId ≠ other := (mem_adeleteThread.mp (mem_of_newest found)).2
  refine ⟨distinct, ?_⟩
  rw [newest, adeleteThread, List.filter_filter] at found
  rw [newest, ← found]
  congr 2
  refine List.filter_congr fun row _ => ?_
  by_cases same : row.threadId = threadId
  · simp [same, distinct]
  · simp [same]

theorem covered_findStaleThreads (passed : moment ≤ now) :
    Covered retentionDays moment rows (findStaleThreads rows now retentionDays) := by
  intro threadId last found
  by_cases past : last < now - retentionDays
  · refine .inl (List.mem_filter.mpr ⟨?_, ?_⟩)
    · exact List.mem_dedup.mpr (List.mem_map_of_mem (mem_of_newest found))
    · simp only [isStale, found, decide_eq_true_eq]
      exact past
  · exact .inr (by linarith)

theorem Covered.append (covered : Covered retentionDays moment rows listed)
    (young : moment ≤ row.ts + retentionDays) :
    Covered retentionDays moment (rows ++ [row]) listed := by
  intro threadId last found
  rcases newest_append found with newer | before
  · exact .inr (by linarith)
  · exact covered threadId last before

theorem Covered.shrink (covered : Covered retentionDays moment rows listed) :
    Covered retentionDays moment (adeleteThread rows other) listed :=
  fun threadId last found => covered threadId last (newest_adeleteThread found).2

theorem Covered.delete (covered : Covered retentionDays moment rows (other :: listed)) :
    Covered retentionDays moment (adeleteThread rows other) listed := by
  intro threadId last found
  obtain ⟨distinct, before⟩ := newest_adeleteThread found
  rcases covered threadId last before with member | young
  · exact .inl (List.mem_of_ne_of_mem distinct member)
  · exact .inr young

end

/-! ## What the store keeps for the task -/

/-- The threads a sweep behind its query has still to delete. -/
def remaining : Phase → Option (List String)
  | .sweeping sweep => some sweep.remaining
  | .returned _ => some []
  | _ => none

@[simp] theorem remaining_record (row : Row) (phase : Phase) :
    remaining (phase.record row) = remaining phase := by
  cases phase <;> rfl

@[simp] theorem remaining_deleted {sweep : Sweep} {rows : List Row} {threadId : String}
    {rest : List String} :
    remaining (.sweeping (sweep.deleted rows threadId rest)) = some rest := by
  unfold Sweep.deleted
  split <;> rfl

def Cleared (retentionDays : Int) (moment : Rat) (store : Retention.State) : Prop :=
  moment ≤ store.now ∧ Covered retentionDays moment store.rows []

def Clearing (retentionDays : Int) (moment : Rat) (id : Nat) (store : Retention.State) : Prop :=
  moment ≤ store.now ∧ ∀ listed, remaining (store.phase id) = some listed →
    Covered retentionDays moment store.rows listed

section

variable {store after : Retention.State} {change : Retention.Event} {moment : Rat} {id : Nat}

theorem now_le (taken : Retention.Step retentionDays store change after) :
    store.now ≤ after.now := by
  cases Retention.effect_of_step taken with
  | wait forward => exact le_add_of_nonneg_right forward
  | _ => exact le_rfl

theorem Cleared.step (cleared : Cleared retentionDays moment store)
    (taken : Retention.Step retentionDays store change after)
    (dated : Dated retentionDays store change) : Cleared retentionDays moment after := by
  refine ⟨cleared.1.trans (now_le taken), ?_⟩
  cases Retention.effect_of_step taken with
  | wait => exact cleared.2
  | write => exact cleared.2.append (cleared.1.trans dated)
  | query => exact cleared.2
  | delete => exact cleared.2.shrink
  | finish => exact cleared.2
  | fail => exact cleared.2

/-- The sweep lists what it does not find young enough, and deletes what it has listed. -/
theorem Clearing.step (clearing : Clearing retentionDays moment id store)
    (taken : Retention.Step retentionDays store change after)
    (dated : Dated retentionDays store change) : Clearing retentionDays moment id after := by
  obtain ⟨passed, covers⟩ := clearing
  refine ⟨passed.trans (now_le taken), fun listed left => ?_⟩
  cases Retention.effect_of_step taken with
  | wait => exact covers listed left
  | write =>
      simp only [remaining_record] at left
      exact (covers listed left).append (passed.trans dated)
  | @query other stale found =>
      by_cases same : id = other
      · subst same
        simp only [State.setPhase, Function.update_self, remaining, Option.some.injEq] at left
        subst left
        intro threadId last newer
        exact (covered_findStaleThreads passed threadId last newer).imp_left found.mem_iff.mpr
      · simp only [State.setPhase, Function.update_of_ne same] at left
        exact covers listed left
  | @delete other sweep threadId rest sweeping further =>
      by_cases same : id = other
      · subst same
        simp only [State.setPhase, Function.update_self, remaining_deleted,
          Option.some.injEq] at left
        subst left
        exact (covers (threadId :: rest) (by simp [sweeping, remaining, further])).delete
      · simp only [State.setPhase, Function.update_of_ne same] at left
        exact (covers listed left).shrink
  | @finish other sweep sweeping done =>
      by_cases same : id = other
      · subst same
        simp only [State.setPhase, Function.update_self, remaining, Option.some.injEq] at left
        subst left
        exact covers [] (by simp [sweeping, remaining, done])
      · simp only [State.setPhase, Function.update_of_ne same] at left
        exact covers listed left
  | @fail other =>
      by_cases same : id = other
      · subst same
        simp [State.setPhase, remaining] at left
      · simp only [State.setPhase, Function.update_of_ne same] at left
        exact covers listed left

end

/-! ## The whole loop -/

/-- What passes at most from where one sweep begins to where the next one does. -/
def period (intervalHours : Int) (latency duration : Rat) : Rat :=
  duration + interval intervalHours + latency

/-- Where the task begins its next sweep, or has begun this one, at the latest: one period
behind the last that returned, and one more for each that has raised since. -/
def Planned (intervalHours : Int) (latency duration : Rat) (state : State) : Prop :=
  match state.task with
  | .asleep wakes =>
      wakes + latency ≤ state.cleared + (state.failed + 1) * period intervalHours latency duration
  | .sweeping _ since =>
      since ≤ state.cleared + (state.failed + 1) * period intervalHours latency duration
  | .ended => True

structure Kept (retentionDays intervalHours : Int) (latency duration first : Rat)
    (state : State) : Prop where
  enabled : state.task ≠ .ended → 0 ≤ interval intervalHours
  due : state.task.Due latency duration state.store.now
  planned : Planned intervalHours latency duration state
  clearing : ∀ id since, state.task = .sweeping id since →
    Clearing retentionDays since id state.store
  cleared : state.cleared ≤ first ∨ Cleared retentionDays state.cleared state.store

section

variable {latency duration first start : Rat} {rows : List Row}

theorem kept_initial (prompt : 0 ≤ latency) (brief : 0 ≤ duration) :
    Kept retentionDays intervalHours latency duration (start + seconds 60)
      (initial intervalHours start rows) := by
  have minute : 0 ≤ seconds 60 := by norm_num [seconds]
  by_cases disabled : intervalHours * 3600 ≤ 0
  · have ended : (initial intervalHours start rows).task = .ended := if_pos disabled
    refine ⟨fun running => absurd ended running, ?_, ?_, ?_, .inl le_rfl⟩
    · rw [ended]
      trivial
    · rw [Planned, ended]
      trivial
    · intro id since sweeping
      rw [ended] at sweeping
      cases sweeping
  · have asleep : (initial intervalHours start rows).task = .asleep (start + seconds 60) :=
      if_neg disabled
    have between : 0 ≤ interval intervalHours := by
      have positive : (0 : Rat) ≤ (intervalHours * 3600 : Int) := by
        exact_mod_cast (not_le.mp disabled).le
      exact div_nonneg positive (by norm_num)
    refine ⟨fun _ => between, ?_, ?_, ?_, .inl le_rfl⟩
    · rw [asleep]
      show start ≤ start + seconds 60 + latency
      linarith
    · rw [Planned, asleep]
      show start + seconds 60 + latency ≤
        start + seconds 60 + ((0 : Nat) + 1) * period intervalHours latency duration
      rw [period]
      push_cast
      linarith
    · intro id since sweeping
      rw [asleep] at sweeping
      cases sweeping

theorem Kept.store {change : Retention.Event} {after : Retention.State}
    (kept : Kept retentionDays intervalHours latency duration first state)
    (taken : Retention.Step retentionDays state.store change after)
    (timely : Timely retentionDays latency duration state (.store change)) :
    Kept retentionDays intervalHours latency duration first { state with store := after } := by
  have dated : Dated retentionDays state.store change := by
    cases change with
    | wait => trivial
    | _ => exact timely
  refine ⟨kept.enabled, ?_, kept.planned, fun id since sweeping => ?_, ?_⟩
  · cases Retention.effect_of_step taken with
    | wait => exact timely
    | _ => exact kept.due
  · exact (kept.clearing id since sweeping).step taken dated
  · exact kept.cleared.imp_right fun cleared => cleared.step taken dated

theorem Kept.step (prompt : 0 ≤ latency) (brief : 0 ≤ duration)
    (kept : Kept retentionDays intervalHours latency duration first state)
    (taken : TimelyStep retentionDays intervalHours latency duration state event next) :
    Kept retentionDays intervalHours latency duration first next := by
  obtain ⟨taken, timely⟩ := taken
  cases effect_of_step taken with
  | store moved => exact kept.store moved timely
  | @wake id wakes asleep passed idle =>
      have enabled := kept.enabled (by simp [asleep])
      refine ⟨fun _ => enabled, le_add_of_nonneg_right brief, ?_, ?_, kept.cleared⟩
      · have planned := kept.planned
        have due := kept.due
        rw [Planned, asleep] at planned
        rw [asleep] at due
        exact due.trans planned
      · rintro other since same
        cases same
        refine ⟨le_rfl, fun listed left => ?_⟩
        simp [idle, remaining] at left
  | @returned id since deleted sweeping returned =>
      have due := kept.due
      rw [sweeping] at due
      have clearing := kept.clearing id since sweeping
      have enabled := kept.enabled (by simp [sweeping])
      refine ⟨fun _ => enabled, ?_, ?_, nofun,
        .inr ⟨clearing.1, clearing.2 [] (by simp [returned, remaining])⟩⟩
      · show state.store.now ≤ state.store.now + interval intervalHours + latency
        linarith
      · show _ + latency ≤ since + ((0 : Nat) + 1) * period intervalHours latency duration
        have bound : state.store.now ≤ since + duration := due
        rw [period]
        push_cast
        linarith
  | @raised id since sweeping raised =>
      have due := kept.due
      have planned := kept.planned
      rw [sweeping] at due
      rw [Planned, sweeping] at planned
      have enabled := kept.enabled (by simp [sweeping])
      refine ⟨fun _ => enabled, ?_, ?_, nofun, kept.cleared⟩
      · show state.store.now ≤ state.store.now + interval intervalHours + latency
        linarith
      · have bound : state.store.now ≤ since + duration := due
        have begun : since ≤ state.cleared +
          (state.failed + 1) * period intervalHours latency duration := planned
        show _ + latency ≤ state.cleared +
          ((state.failed + 1 : Nat) + 1) * period intervalHours latency duration
        have whole : duration + interval intervalHours + latency =
          period intervalHours latency duration := rfl
        push_cast
        linarith
  | cancel =>
      refine ⟨fun running => absurd rfl running, trivial, trivial, nofun, ?_⟩
      refine kept.cleared.imp_right fun cleared => ?_
      rcases abandon_cases retentionDays state.store state.task with same | ⟨id, failed⟩
      · rw [same]
        exact cleared
      · exact cleared.step failed trivial

/-- Nothing but its cancellation ends the task. -/
theorem lasts_step (lasts : state.task ≠ .ended) (uncancelled : event ≠ .cancel)
    (taken : TimelyStep retentionDays intervalHours latency duration state event next) :
    next.task ≠ .ended := by
  cases effect_of_step taken.1 with
  | store => exact lasts
  | wake => nofun
  | returned => nofun
  | raised => nofun
  | cancel => exact absurd rfl uncancelled

theorem initial_lasts (enabled : 0 < intervalHours) :
    (initial intervalHours start rows).task ≠ .ended := by
  have positive : ¬intervalHours * 3600 ≤ 0 := by omega
  simp [initial, positive]

/-- As long as the loop has not been cancelled it goes on, and a thread that still has
checkpoints was active, or the first sweep due, no longer ago than the retention period
and a period of the loop for the sweep that takes the thread and for each sweep that has
raised, and what the sweep takes itself. -/
theorem abandoned_swept (latency duration start : Rat) (rows : List Row) (events : List Event)
    (state : State) (prompt : 0 ≤ latency) (brief : 0 ≤ duration) (enabled : 0 < intervalHours)
    (run : Runs (TimelyStep retentionDays intervalHours latency duration)
      (initial intervalHours start rows) events state)
    (uncancelled : .cancel ∉ events) :
    state.task ≠ .ended ∧
      ∀ threadId last, newest state.store.rows threadId = some last →
        state.store.now ≤ max (last + retentionDays) (start + seconds 60) +
          (state.failed + 1) * period intervalHours latency duration + duration := by
  have lasts : state.task ≠ .ended :=
    run.invariant_of_labels (fun lasts other taken => lasts_step lasts other taken)
      (fun _ member same => uncancelled (same ▸ member)) (initial_lasts enabled)
  refine ⟨lasts, fun threadId last found => ?_⟩
  have kept : Kept retentionDays intervalHours latency duration (start + seconds 60) state :=
    run.invariant (fun before taken => before.step prompt brief taken) (kept_initial prompt brief)
  have recent : state.cleared ≤ max (last + retentionDays) (start + seconds 60) := by
    rcases kept.cleared with first | ⟨_, covered⟩
    · exact le_max_of_le_right first
    · rcases covered threadId last found with listed | young
      · cases listed
      · exact le_max_of_le_left young
  have due := kept.due
  have planned := kept.planned
  cases task : state.task with
  | asleep wakes =>
      rw [task] at due
      rw [Planned, task] at planned
      have bound : state.store.now ≤ wakes + latency := due
      have begins : wakes + latency ≤ state.cleared +
        (state.failed + 1) * period intervalHours latency duration := planned
      linarith
  | sweeping id since =>
      rw [task] at due
      rw [Planned, task] at planned
      have bound : state.store.now ≤ since + duration := due
      have begun : since ≤ state.cleared +
        (state.failed + 1) * period intervalHours latency duration := planned
      linarith
  | ended => exact absurd task lasts

end

/-- The first sweep of an hourly loop is due. -/
def due : State where
  store := { Retention.initial 40 [⟨"plans", 0⟩] with now := 40 + seconds 60 }
  task := .asleep (40 + seconds 60)
  cleared := 40 + seconds 60

/-- It has raised. -/
def retried : State where
  store := due.store.setPhase 0 .failed
  task := .asleep (40 + seconds 60 + interval 1)
  cleared := 40 + seconds 60
  failed := 1

theorem retried_reached :
    Runs (TimelyStep 30 1 0 0) (initial 1 40 [⟨"plans", 0⟩])
      [.store (.wait (seconds 60)), .wake 0, .store (.fail 0), .settle] retried := by
  have minute : 0 ≤ seconds 60 := by norm_num [seconds]
  have waited : TimelyStep 30 1 0 0 (initial 1 40 [⟨"plans", 0⟩])
      (.store (.wait (seconds 60))) due := by
    refine ⟨congrArg (Option.map _) (if_pos minute), ?_⟩
    show 40 + seconds 60 ≤ 40 + seconds 60 + 0
    rw [add_zero]
  have woken : TimelyStep 30 1 0 0 due (.wake 0)
      { due with task := .sweeping 0 (40 + seconds 60) } :=
    ⟨if_pos ⟨le_rfl, rfl⟩, trivial⟩
  exact .cons waited (.cons woken (.cons ⟨rfl, trivial⟩ (.cons ⟨rfl, trivial⟩ .refl)))

theorem retried_swept_soon :
    retried.task ≠ .ended ∧
      ∀ threadId last, newest retried.store.rows threadId = some last →
        40 + seconds 60 ≤ max (last + (30 : Int)) (40 + seconds 60) +
          ((1 : Nat) + 1) * period 1 0 0 + 0 :=
  abandoned_swept 0 0 40 [⟨"plans", 0⟩] _ retried le_rfl le_rfl (by decide) retried_reached
    (by decide)

end AgenticEnterprise.Graph.RetentionLoop
