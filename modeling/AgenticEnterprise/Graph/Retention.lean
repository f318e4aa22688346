import AgenticEnterprise.Library.Runs
import Mathlib.Algebra.Order.Ring.Rat
import Mathlib.Data.List.Dedup
import Mathlib.Logic.Function.Basic
import Mathlib.Tactic.NormNum

/-! Checkpoint retention: `app/graph/gc.py`, interleaved with checkpoint writes.

A sweep lists the threads past the cutoff in one query and then deletes them one
by one. Times are in days. -/

set_option autoImplicit false

namespace AgenticEnterprise.Graph.Retention

open Library

/-- A row of the `checkpoints` table, with the `ts` of its checkpoint. -/
structure Row where
  threadId : String
  ts : Rat
  deriving DecidableEq, Repr

/-- `MAX(ts)` of a thread. -/
def newest (rows : List Row) (threadId : String) : Option Rat :=
  ((rows.filter fun row => decide (row.threadId = threadId)).map Row.ts).max?

def isStale (rows : List Row) (now : Rat) (retentionDays : Int) (threadId : String) : Bool :=
  match newest rows threadId with
  | none => false
  | some ts => decide (ts < now - retentionDays)

/-- The stale query, up to the order of its result. -/
def findStaleThreads (rows : List Row) (now : Rat) (retentionDays : Int) : List String :=
  (rows.map Row.threadId).dedup.filter (isStale rows now retentionDays)

/-- The saver removes all checkpoints of the thread at once. -/
def adeleteThread (rows : List Row) (threadId : String) : List Row :=
  rows.filter fun row => decide (row.threadId ≠ threadId)

/-- `sweep` with nothing in between: the rows it leaves and its count. -/
def sweep (rows : List Row) (now : Rat) (retentionDays : Int) : List Row × Nat :=
  let stale := findStaleThreads rows now retentionDays
  (stale.foldl adeleteThread rows, stale.length)

/-! ## Sweeps among writes -/

/-- A sweep behind its query: the threads listed and those still to delete.
`written` records what has been saved since the query, `removed` and `missed` the
threads whose checkpoints a delete found and those where there were none left. -/
structure Sweep where
  stale : List String
  remaining : List String
  written : List Row := []
  removed : List String := []
  missed : List String := []
  deriving DecidableEq, Repr

inductive Phase where
  | idle
  | sweeping (sweep : Sweep)
  | returned (deleted : Nat)
  | failed
  deriving DecidableEq, Repr

structure State where
  now : Rat
  rows : List Row
  phase : Nat → Phase := fun _ => .idle

inductive Event where
  | wait (elapsed : Rat)
  | write (row : Row)
  | query (id : Nat) (stale : List String)
  | delete (id : Nat)
  | finish (id : Nat)
  | fail (id : Nat)
  deriving DecidableEq, Repr

def State.setPhase (state : State) (id : Nat) (phase : Phase) : State :=
  { state with phase := Function.update state.phase id phase }

def Phase.record (row : Row) : Phase → Phase
  | .sweeping sweep => .sweeping { sweep with written := sweep.written ++ [row] }
  | phase => phase

/-- What the sweep records of a delete. -/
def Sweep.deleted (sweep : Sweep) (rows : List Row) (threadId : String) (rest : List String) :
    Sweep :=
  match newest rows threadId with
  | none => { sweep with remaining := rest, missed := sweep.missed ++ [threadId] }
  | some _ => { sweep with remaining := rest, removed := sweep.removed ++ [threadId] }

variable (retentionDays : Int)

def step (state : State) (event : Event) : Option State :=
  match event with
  | .wait elapsed => if 0 ≤ elapsed then some { state with now := state.now + elapsed } else none
  | .write row =>
      some { state with
        rows := state.rows ++ [row]
        phase := fun id => (state.phase id).record row }
  | .query id stale =>
      if state.phase id = .idle ∧
          stale.Perm (findStaleThreads state.rows state.now retentionDays) then
        some (state.setPhase id (.sweeping { stale := stale, remaining := stale }))
      else none
  | .delete id =>
      match state.phase id with
      | .sweeping sweep =>
          match sweep.remaining with
          | [] => none
          | threadId :: rest =>
              some { state.setPhase id (.sweeping (sweep.deleted state.rows threadId rest)) with
                rows := adeleteThread state.rows threadId }
      | _ => none
  | .finish id =>
      match state.phase id with
      | .sweeping sweep =>
          if sweep.remaining = [] then
            some (state.setPhase id (.returned sweep.stale.length))
          else none
      | _ => none
  | .fail id =>
      match state.phase id with
      | .returned _ => none
      | _ => some (state.setPhase id .failed)

def Step (state : State) (event : Event) (next : State) : Prop :=
  step retentionDays state event = some next

def initial (now : Rat) (rows : List Row) : State :=
  { now := now, rows := rows }

/-! ## What retention asks for -/

/-- A delete takes a thread whose newest checkpoint is past the cutoff at that
moment and no row of another one, and a sweep returns the number of threads it
has removed. -/
def Retains (state : State) (event : Event) (next : State) : Prop :=
  match event with
  | .delete id =>
      ∀ sweep threadId rest, state.phase id = .sweeping sweep →
        sweep.remaining = threadId :: rest →
        (∀ ts, newest state.rows threadId = some ts → ts < state.now - retentionDays) ∧
          ∀ row, row ∈ next.rows ↔ row ∈ state.rows ∧ row.threadId ≠ threadId
  | .finish id =>
      ∀ sweep, state.phase id = .sweeping sweep → next.phase id = .returned sweep.removed.length
  | .write row => next.rows = state.rows ++ [row]
  | _ => next.rows = state.rows

def RetainingStep (state : State) (event : Event) (next : State) : Prop :=
  Step retentionDays state event next ∧ Retains retentionDays state event next

/-! ## When it is met -/

/-- When a sweep deletes a thread, nothing saved on it since the query is younger
than the retention period, and when it returns, no thread it listed had been
removed by another sweep. -/
def Undisturbed (state : State) : Event → Prop
  | .delete id =>
      ∀ sweep threadId rest, state.phase id = .sweeping sweep →
        sweep.remaining = threadId :: rest →
        ∀ row ∈ sweep.written, row.threadId = threadId → row.ts < state.now - retentionDays
  | .finish id => ∀ sweep, state.phase id = .sweeping sweep → sweep.missed = []
  | _ => True

def UndisturbedStep (state : State) (event : Event) (next : State) : Prop :=
  Step retentionDays state event next ∧ Undisturbed retentionDays state event

/-! ## What a step can do -/

inductive Effect (state : State) : Event → State → Prop where
  | wait {elapsed} :
      0 ≤ elapsed → Effect state (.wait elapsed) { state with now := state.now + elapsed }
  | write {row} :
      Effect state (.write row) { state with
        rows := state.rows ++ [row], phase := fun id => (state.phase id).record row }
  | query {id stale} :
      stale.Perm (findStaleThreads state.rows state.now retentionDays) →
      Effect state (.query id stale)
        (state.setPhase id (.sweeping { stale := stale, remaining := stale }))
  | delete {id sweep threadId rest} :
      state.phase id = .sweeping sweep → sweep.remaining = threadId :: rest →
      Effect state (.delete id)
        { state.setPhase id (.sweeping (sweep.deleted state.rows threadId rest)) with
          rows := adeleteThread state.rows threadId }
  | finish {id sweep} :
      state.phase id = .sweeping sweep → sweep.remaining = [] →
      Effect state (.finish id) (state.setPhase id (.returned sweep.stale.length))
  | fail {id} : Effect state (.fail id) (state.setPhase id .failed)

variable {retentionDays} {state next : State} {event : Event}

theorem effect_of_step (taken : Step retentionDays state event next) :
    Effect retentionDays state event next := by
  cases event with
  | wait elapsed =>
      simp only [Step, step, Option.ite_none_right_eq_some, Option.some.injEq] at taken
      obtain ⟨forward, rfl⟩ := taken
      exact .wait forward
  | write row =>
      cases taken
      exact .write
  | query id stale =>
      simp only [Step, step, Option.ite_none_right_eq_some, Option.some.injEq] at taken
      obtain ⟨⟨_, listed⟩, rfl⟩ := taken
      exact .query listed
  | delete id =>
      simp only [Step, step] at taken
      split at taken
      · rename_i sweep sweeping
        split at taken
        · cases taken
        · rename_i threadId rest remaining
          cases taken
          exact .delete sweeping remaining
      · cases taken
  | finish id =>
      simp only [Step, step] at taken
      split at taken
      · rename_i sweep sweeping
        split at taken
        · rename_i done
          cases taken
          exact .finish sweeping done
        · cases taken
      · cases taken
  | fail id =>
      simp only [Step, step] at taken
      split at taken
      · cases taken
      · cases taken
        exact .fail

/-! ## The newest checkpoint -/

section

variable {rows : List Row} {threadId : String} {cutoff ts : Rat}

theorem mem_timestamps :
    ts ∈ (rows.filter fun row => decide (row.threadId = threadId)).map Row.ts ↔
      ⟨threadId, ts⟩ ∈ rows := by
  simp only [List.mem_map, List.mem_filter, decide_eq_true_eq]
  constructor
  · rintro ⟨⟨_, _⟩, ⟨member, rfl⟩, rfl⟩
    exact member
  · intro member
    exact ⟨_, ⟨member, rfl⟩, rfl⟩

theorem mem_of_newest (last : newest rows threadId = some ts) : ⟨threadId, ts⟩ ∈ rows :=
  mem_timestamps.mp (List.max?_mem last)

theorem le_newest {other : Rat} (last : newest rows threadId = some ts)
    (member : ⟨threadId, other⟩ ∈ rows) : other ≤ ts :=
  (List.max?_eq_some_iff.mp last).2 other (mem_timestamps.mpr member)

theorem exists_newest (member : ⟨threadId, ts⟩ ∈ rows) :
    ∃ last, newest rows threadId = some last := by
  cases found : newest rows threadId with
  | some last => exact ⟨last, rfl⟩
  | none =>
      rw [newest, List.max?_eq_none_iff] at found
      have listed := mem_timestamps.mpr member
      rw [found] at listed
      cases listed

/-- The newest checkpoint is past the cutoff exactly if all are. -/
theorem newest_lt_iff :
    (∀ last, newest rows threadId = some last → last < cutoff) ↔
      ∀ ts, ⟨threadId, ts⟩ ∈ rows → ts < cutoff := by
  constructor
  · intro past ts member
    obtain ⟨last, found⟩ := exists_newest member
    exact lt_of_le_of_lt (le_newest found member) (past last found)
  · intro past last found
    exact past last (mem_of_newest found)

theorem mem_adeleteThread {row : Row} :
    row ∈ adeleteThread rows threadId ↔ row ∈ rows ∧ row.threadId ≠ threadId := by
  simp [adeleteThread]

end

/-! ## The invariant of every sweep -/

/-- Of the threads still to delete, whatever was not saved behind the query is past
the cutoff, and every listed thread is accounted for. -/
def Watches (retentionDays : Int) (now : Rat) (rows : List Row) : Phase → Prop
  | .sweeping sweep =>
      (∀ row ∈ rows, row.threadId ∈ sweep.remaining →
        row ∈ sweep.written ∨ row.ts < now - retentionDays) ∧
        sweep.removed.length + sweep.missed.length + sweep.remaining.length = sweep.stale.length
  | _ => True

def Watched (retentionDays : Int) (state : State) : Prop :=
  ∀ id, Watches retentionDays state.now state.rows (state.phase id)

section

variable {rows fewer : List Row} {now later : Rat} {threadId : String} {phase : Phase}

theorem past_of_findStaleThreads (listed : threadId ∈ findStaleThreads rows now retentionDays)
    {ts : Rat} (member : ⟨threadId, ts⟩ ∈ rows) : ts < now - retentionDays := by
  have stale : isStale rows now retentionDays threadId = true := (List.mem_filter.mp listed).2
  obtain ⟨last, found⟩ := exists_newest member
  rw [isStale, found] at stale
  exact lt_of_le_of_lt (le_newest found member) (of_decide_eq_true stale)

theorem past_later {ts : Rat} (past : ts < now - retentionDays) (passed : now ≤ later) :
    ts < later - retentionDays :=
  lt_of_lt_of_le past (sub_le_sub_right passed _)

theorem Watches.shrink (watches : Watches retentionDays now rows phase)
    (subset : fewer ⊆ rows) (passed : now ≤ later) :
    Watches retentionDays later fewer phase := by
  cases phase with
  | sweeping sweep =>
      obtain ⟨listed, counted⟩ := watches
      exact ⟨fun row member remains => (listed row (subset member) remains).imp id
        fun past => past_later past passed, counted⟩
  | _ => trivial

theorem Watches.record (watches : Watches retentionDays now rows phase) (row : Row) :
    Watches retentionDays now (rows ++ [row]) (phase.record row) := by
  cases phase with
  | sweeping sweep =>
      obtain ⟨listed, counted⟩ := watches
      refine ⟨fun other member remains => ?_, counted⟩
      rcases List.mem_append.mp member with old | new
      · exact (listed other old remains).imp (List.mem_append_left _) id
      · exact .inl (List.mem_append_right _ new)
  | _ => trivial

theorem Watches.query {stale : List String}
    (listed : stale.Perm (findStaleThreads rows now retentionDays)) :
    Watches retentionDays now rows (.sweeping { stale := stale, remaining := stale }) := by
  refine ⟨fun row member remains => .inr ?_, by simp⟩
  exact past_of_findStaleThreads (listed.mem_iff.mp remains) member

theorem Watches.delete {sweep : Sweep} {rest : List String}
    (watches : Watches retentionDays now rows (.sweeping sweep))
    (remaining : sweep.remaining = threadId :: rest) :
    Watches retentionDays now (adeleteThread rows threadId)
      (.sweeping (sweep.deleted rows threadId rest)) := by
  obtain ⟨listed, counted⟩ := watches
  have kept (row : Row) (member : row ∈ adeleteThread rows threadId)
      (remains : row.threadId ∈ rest) :
      row ∈ sweep.written ∨ row.ts < now - retentionDays :=
    listed row (mem_adeleteThread.mp member).1 (remaining ▸ .tail _ remains)
  rw [remaining, List.length_cons] at counted
  unfold Sweep.deleted
  split
  · refine ⟨kept, ?_⟩
    simp only [List.length_append, List.length_singleton]
    omega
  · refine ⟨kept, ?_⟩
    simp only [List.length_append, List.length_singleton]
    omega

end

theorem Watched.step (watched : Watched retentionDays state)
    (taken : Step retentionDays state event next) : Watched retentionDays next := by
  cases effect_of_step taken with
  | wait forward =>
      exact fun id => (watched id).shrink (List.Subset.refl _) (le_add_of_nonneg_right forward)
  | write => exact fun id => (watched id).record _
  | query listed =>
      exact (Function.forall_update_iff _ fun _ => Watches retentionDays state.now state.rows).mpr
        ⟨.query listed, fun other _ => watched other⟩
  | @delete id sweep threadId rest sweeping remaining =>
      have own : Watches retentionDays state.now state.rows (.sweeping sweep) :=
        sweeping ▸ watched id
      refine (Function.forall_update_iff _ fun _ => Watches retentionDays state.now
        (adeleteThread state.rows threadId)).mpr ⟨own.delete remaining, fun other _ => ?_⟩
      exact (watched other).shrink (List.filter_subset_self _) le_rfl
  | finish =>
      exact (Function.forall_update_iff _ fun _ => Watches retentionDays state.now state.rows).mpr
        ⟨trivial, fun other _ => watched other⟩
  | fail =>
      exact (Function.forall_update_iff _ fun _ => Watches retentionDays state.now state.rows).mpr
        ⟨trivial, fun other _ => watched other⟩

/-! ## What has become of the rows saved since -/

/-- A row saved since the query is still there or past the cutoff. -/
def Remembers (retentionDays : Int) (now : Rat) (rows : List Row) : Phase → Prop
  | .sweeping sweep => ∀ row ∈ sweep.written, row ∈ rows ∨ row.ts < now - retentionDays
  | _ => True

def Remembered (retentionDays : Int) (state : State) : Prop :=
  ∀ id, Remembers retentionDays state.now state.rows (state.phase id)

section

variable {rows : List Row} {now later : Rat} {threadId : String} {phase : Phase}

theorem Remembers.wait (remembers : Remembers retentionDays now rows phase)
    (passed : now ≤ later) : Remembers retentionDays later rows phase := by
  cases phase with
  | sweeping sweep =>
      exact fun row member => (remembers row member).imp id fun past => past_later past passed
  | _ => trivial

theorem Remembers.record (remembers : Remembers retentionDays now rows phase) (row : Row) :
    Remembers retentionDays now (rows ++ [row]) (phase.record row) := by
  cases phase with
  | sweeping sweep =>
      intro other member
      rcases List.mem_append.mp member with old | new
      · exact (remembers other old).imp (List.mem_append_left _) id
      · exact .inl (List.mem_append_right _ new)
  | _ => trivial

theorem written_deleted {sweep : Sweep} {rest : List String} :
    (sweep.deleted rows threadId rest).written = sweep.written := by
  unfold Sweep.deleted
  split <;> rfl

/-- What a delete takes is past the cutoff. -/
theorem Remembers.delete (remembers : Remembers retentionDays now rows phase)
    (past : ∀ ts, newest rows threadId = some ts → ts < now - retentionDays) :
    Remembers retentionDays now (adeleteThread rows threadId) phase := by
  cases phase with
  | sweeping sweep =>
      intro row member
      rcases remembers row member with present | old
      · by_cases taken : row.threadId = threadId
        · subst taken
          exact .inr (newest_lt_iff.mp past row.ts present)
        · exact .inl (mem_adeleteThread.mpr ⟨present, taken⟩)
      · exact .inr old
  | _ => trivial

end

theorem Remembered.step (remembered : Remembered retentionDays state)
    (taken : RetainingStep retentionDays state event next) : Remembered retentionDays next := by
  obtain ⟨taken, retains⟩ := taken
  cases effect_of_step taken with
  | wait forward => exact fun id => (remembered id).wait (le_add_of_nonneg_right forward)
  | write => exact fun id => (remembered id).record _
  | @query id stale =>
      have fresh : Remembers retentionDays state.now state.rows
          (.sweeping { stale := stale, remaining := stale }) := fun row member => by cases member
      exact (Function.forall_update_iff _ fun _ => Remembers retentionDays state.now
        state.rows).mpr ⟨fresh, fun other _ => remembered other⟩
  | @delete id sweep threadId rest sweeping remaining =>
      have past := (retains sweep threadId rest sweeping remaining).1
      have own : Remembers retentionDays state.now state.rows (.sweeping sweep) :=
        sweeping ▸ remembered id
      refine (Function.forall_update_iff _ fun _ => Remembers retentionDays state.now
        (adeleteThread state.rows threadId)).mpr ⟨?_, fun other _ => (remembered other).delete past⟩
      intro row member
      exact own.delete past row (written_deleted ▸ member)
  | finish =>
      exact (Function.forall_update_iff _ fun _ => Remembers retentionDays state.now
        state.rows).mpr ⟨trivial, fun other _ => remembered other⟩
  | fail =>
      exact (Function.forall_update_iff _ fun _ => Remembers retentionDays state.now
        state.rows).mpr ⟨trivial, fun other _ => remembered other⟩

/-! ## One step -/

/-- An undisturbed step deletes and counts as it should. -/
theorem retains_of_undisturbed (watched : Watched retentionDays state)
    (taken : Step retentionDays state event next)
    (undisturbed : Undisturbed retentionDays state event) :
    Retains retentionDays state event next := by
  cases effect_of_step taken with
  | wait => rfl
  | write => rfl
  | query => rfl
  | @delete id sweep threadId rest sweeping remaining =>
      intro other otherThread otherRest same first
      rw [sweeping] at same
      cases same
      rw [remaining] at first
      cases first
      refine ⟨newest_lt_iff.mpr fun ts member => ?_, fun row => mem_adeleteThread⟩
      have own : Watches retentionDays state.now state.rows (.sweeping sweep) :=
        sweeping ▸ watched id
      rcases own.1 _ member (remaining ▸ .head _) with written | past
      · exact undisturbed sweep threadId rest sweeping remaining _ written rfl
      · exact past
  | @finish id sweep sweeping remaining =>
      intro other same
      rw [sweeping] at same
      cases same
      have own : Watches retentionDays state.now state.rows (.sweeping sweep) :=
        sweeping ▸ watched id
      have counted := own.2
      rw [remaining, undisturbed sweep sweeping] at counted
      simp only [State.setPhase, Function.update_self, Phase.returned.injEq]
      simpa using counted.symm
  | fail => rfl

/-- A step that deletes and counts as it should was not disturbed. -/
theorem undisturbed_of_retains (watched : Watched retentionDays state)
    (remembered : Remembered retentionDays state)
    (taken : Step retentionDays state event next)
    (retains : Retains retentionDays state event next) :
    Undisturbed retentionDays state event := by
  cases effect_of_step taken with
  | wait => trivial
  | write => trivial
  | query => trivial
  | @delete id sweep threadId rest sweeping remaining =>
      intro other otherThread otherRest same first row written isThread
      rw [sweeping] at same
      cases same
      rw [remaining] at first
      cases first
      have own : Remembers retentionDays state.now state.rows (.sweeping sweep) :=
        sweeping ▸ remembered id
      rcases own row written with present | past
      · subst isThread
        have all := (retains sweep _ rest sweeping remaining).1
        exact newest_lt_iff.mp all row.ts present
      · exact past
  | @finish id sweep sweeping remaining =>
      intro other same
      rw [sweeping] at same
      cases same
      have own : Watches retentionDays state.now state.rows (.sweeping sweep) :=
        sweeping ▸ watched id
      have counted := own.2
      have returned := retains sweep sweeping
      simp only [State.setPhase, Function.update_self, Phase.returned.injEq] at returned
      rw [remaining, List.length_nil, returned] at counted
      exact List.length_eq_zero_iff.mp (by omega)
  | fail => trivial

/-! ## Every interleaving -/

section

variable {now : Rat} {rows : List Row} {events : List Event} {last : State}

theorem watched_initial : Watched retentionDays (initial now rows) :=
  fun _ => trivial

/-- Whatever is interleaved with them, sweeps delete nothing but threads past the
cutoff and count what they delete, exactly if they are undisturbed. -/
theorem retaining_iff_undisturbed :
    Runs (RetainingStep retentionDays) (initial now rows) events last ↔
      Runs (UndisturbedStep retentionDays) (initial now rows) events last := by
  constructor
  · intro run
    have history : Watched retentionDays last ∧ Remembered retentionDays last ∧
        Runs (UndisturbedStep retentionDays) (initial now rows) events last := by
      refine @Runs.invariant_of_history _ _ _ (fun events state =>
        Watched retentionDays state ∧ Remembered retentionDays state ∧
          Runs (UndisturbedStep retentionDays) (initial now rows) events state) ?_ _ _ _ run
        ⟨watched_initial, fun _ => trivial, .refl⟩
      intro labels state label next before taken
      obtain ⟨watched, remembered, undisturbed⟩ := before
      have here := undisturbed_of_retains watched remembered taken.1 taken.2
      exact ⟨watched.step taken.1, remembered.step taken,
        undisturbed.append (.single ⟨taken.1, here⟩)⟩
    exact history.2.2
  · intro run
    have history : Watched retentionDays last ∧
        Runs (RetainingStep retentionDays) (initial now rows) events last := by
      refine @Runs.invariant_of_history _ _ _ (fun events state =>
        Watched retentionDays state ∧
          Runs (RetainingStep retentionDays) (initial now rows) events state) ?_ _ _ _ run
        ⟨watched_initial, .refl⟩
      intro labels state label next before taken
      obtain ⟨watched, retaining⟩ := before
      have here := retains_of_undisturbed watched taken.1 taken.2
      exact ⟨watched.step taken.1, retaining.append (.single ⟨taken.1, here⟩)⟩
    exact history.2

end

/-! ## A sweep with nothing in between -/

section

variable {id : Nat}

/-- The deletes of a sweep, one after another. -/
theorem deletes_run {current : Sweep} (sweeping : state.phase id = .sweeping current) :
    ∃ last done, Runs (Step retentionDays) state
        (List.replicate current.remaining.length (.delete id)) last ∧
      last.phase id = .sweeping done ∧ done.remaining = [] ∧ done.stale = current.stale ∧
      last.rows = current.remaining.foldl adeleteThread state.rows := by
  generalize remaining : current.remaining = threadIds
  induction threadIds generalizing state current with
  | nil => exact ⟨state, current, .refl, sweeping, remaining, rfl, rfl⟩
  | cons threadId rest ih =>
      have taken : Step retentionDays state (.delete id)
          { state.setPhase id (.sweeping (current.deleted state.rows threadId rest)) with
            rows := adeleteThread state.rows threadId } := by
        simp [Step, step, sweeping, remaining]
      have left : (current.deleted state.rows threadId rest).remaining = rest := by
        unfold Sweep.deleted
        split <;> rfl
      have listed : (current.deleted state.rows threadId rest).stale = current.stale := by
        unfold Sweep.deleted
        split <;> rfl
      obtain ⟨last, done, run, swept, none, same, rows⟩ :=
        @ih { state.setPhase id (.sweeping (current.deleted state.rows threadId rest)) with
          rows := adeleteThread state.rows threadId } _ (Function.update_self ..) left
      exact ⟨last, done, .cons taken run, swept, none, same.trans listed, rows⟩

/-- A sweep that nothing interrupts is the sequential one. -/
theorem sweep_alone (idle : state.phase id = .idle) :
    ∃ events last, Runs (Step retentionDays) state events last ∧
      last.rows = (sweep state.rows state.now retentionDays).1 ∧
      last.phase id = .returned (sweep state.rows state.now retentionDays).2 := by
  have querying : Step retentionDays state
      (.query id (findStaleThreads state.rows state.now retentionDays))
      (state.setPhase id (.sweeping
        { stale := findStaleThreads state.rows state.now retentionDays
          remaining := findStaleThreads state.rows state.now retentionDays })) :=
    if_pos ⟨idle, .refl _⟩
  obtain ⟨last, done, run, swept, remaining, same, rows⟩ :=
    @deletes_run retentionDays (state.setPhase id (.sweeping
        { stale := findStaleThreads state.rows state.now retentionDays
          remaining := findStaleThreads state.rows state.now retentionDays })) id _
      (Function.update_self ..)
  have finishing : Step retentionDays last (.finish id)
      (last.setPhase id (.returned done.stale.length)) := by
    simp [Step, step, swept, remaining]
  refine ⟨_, _, .cons querying (run.append (.single finishing)), rows, ?_⟩
  simp [State.setPhase, same, sweep]

end

/-! ## A resumed thread -/

/-- A thread untouched for a hundred days, behind the query that lists it. -/
def listed : State :=
  (initial 100 [⟨"plans", 0⟩]).setPhase 0 (.sweeping { stale := ["plans"], remaining := ["plans"] })

/-- The thread is resumed before the delete. -/
def resumed : State :=
  { listed with
    rows := listed.rows ++ [⟨"plans", 100⟩]
    phase := fun id => (listed.phase id).record ⟨"plans", 100⟩ }

theorem listed_of_initial :
    Step 30 (initial 100 [⟨"plans", 0⟩]) (.query 0 ["plans"]) listed := by
  have last : newest [⟨"plans", 0⟩] "plans" = some 0 := rfl
  have stale : findStaleThreads [⟨"plans", 0⟩] 100 30 = ["plans"] := by
    norm_num [findStaleThreads, isStale, last]
  exact if_pos ⟨rfl, .of_eq stale.symm⟩

/-- The delete takes the checkpoint that was saved at that moment. -/
theorem resumed_thread_deleted : ∃ last,
    Runs (Step 30) (initial 100 [⟨"plans", 0⟩])
        [.query 0 ["plans"], .write ⟨"plans", 100⟩, .delete 0] last ∧
      last.rows = [] ∧
      ¬Runs (RetainingStep 30) (initial 100 [⟨"plans", 0⟩])
        [.query 0 ["plans"], .write ⟨"plans", 100⟩, .delete 0] last := by
  refine ⟨_, .cons listed_of_initial (.cons rfl (.single rfl)), by decide, fun retaining => ?_⟩
  cases retaining with
  | cons query rest =>
      cases Option.some.inj (listed_of_initial.symm.trans query.1)
      cases rest with
      | cons write rest =>
          cases write.1
          cases rest with
          | cons delete _ =>
              have past := (delete.2 _ "plans" [] rfl rfl).1 100 (by decide)
              norm_num [listed, State.setPhase, initial] at past

end AgenticEnterprise.Graph.Retention
