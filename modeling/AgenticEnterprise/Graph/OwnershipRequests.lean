import AgenticEnterprise.Graph.Ownership
import AgenticEnterprise.Library.Runs
import Mathlib.Logic.Function.Basic

/-! Concurrent requests that claim threads.

A request is one transaction of `get_db`: the insert and the select of
`claim_or_check`, then commit or rollback. Requests interleave at every step;
an insert that meets the uncommitted row of another request is not enabled. -/

set_option autoImplicit false

namespace AgenticEnterprise.Graph.OwnershipRequests

open Core Library Ownership

inductive Phase where
  | arrived
  | inserted
  | answered (granted : Bool)
  | committed (granted : Bool)
  | rolledBack
  deriving DecidableEq, Repr

structure Request where
  threadId : String
  username : String
  phase : Phase
  deriving DecidableEq, Repr

/-- A True result of `claim_or_check` in an open or committed transaction. -/
def Request.HoldsGrant (request : Request) : Prop :=
  request.phase = .answered true ∨ request.phase = .committed true

def Request.isOpen (request : Request) : Bool :=
  match request.phase with
  | .arrived | .inserted | .answered _ => true
  | .committed _ | .rolledBack => false

structure State where
  table : ThreadOwnership
  requests : Nat → Option Request

/-- Before the first request every row is a committed one. -/
def State.initial (table : ThreadOwnership) : State := ⟨table, fun _ => none⟩

def State.set (state : State) (transaction : Nat) (request : Request) (table : ThreadOwnership) :
    State :=
  ⟨table, Function.update state.requests transaction (some request)⟩

inductive Event where
  | arrive (transaction : Nat) (threadId username : String)
  | insert (transaction : Nat)
  | select (transaction : Nat)
  | commit (transaction : Nat)
  | rollback (transaction : Nat)
  deriving DecidableEq, Repr

def step (settings : Settings) (state : State) : Event → Option State
  | .arrive transaction threadId username =>
      match state.requests transaction with
      | none => some (state.set transaction ⟨threadId, username, .arrived⟩ state.table)
      | some _ => none
  | .insert transaction =>
      match state.requests transaction with
      | some ⟨threadId, username, .arrived⟩ =>
          -- the admin's call returns before its first statement
          if isAdmin settings username then
            some (state.set transaction ⟨threadId, username, .answered true⟩ state.table)
          else
            (insertClaim transaction state.table threadId username).map fun table =>
              state.set transaction ⟨threadId, username, .inserted⟩ table
      | _ => none
  | .select transaction =>
      match state.requests transaction with
      | some ⟨threadId, username, .inserted⟩ =>
          let granted := checkOwner transaction state.table threadId username
          some (state.set transaction ⟨threadId, username, .answered granted⟩ state.table)
      | _ => none
  | .commit transaction =>
      match state.requests transaction with
      | some ⟨threadId, username, .answered granted⟩ =>
          some (state.set transaction ⟨threadId, username, .committed granted⟩
            (state.table.commit transaction))
      | _ => none
  | .rollback transaction =>
      match state.requests transaction with
      | some request =>
          if request.isOpen then
            some (state.set transaction { request with phase := .rolledBack }
              (state.table.rollback transaction))
          else
            none
      | none => none

/-- The transitions `state` can make, as a relation. -/
def Step (settings : Settings) (state : State) (event : Event) (next : State) : Prop :=
  step settings state event = some next

/-! ## What one step can do -/

section

variable {settings : Settings} {state next : State} {transaction : Nat}

theorem step_arrive {threadId username : String}
    (taken : Step settings state (.arrive transaction threadId username) next) :
    state.requests transaction = none ∧
      next = state.set transaction ⟨threadId, username, .arrived⟩ state.table := by
  simp only [Step, step] at taken
  split at taken
  · next absent => exact ⟨absent, (Option.some.inj taken).symm⟩
  · cases taken

theorem step_insert (taken : Step settings state (.insert transaction) next) :
    ∃ threadId username, state.requests transaction = some ⟨threadId, username, .arrived⟩ ∧
      ((isAdmin settings username = true ∧
          next = state.set transaction ⟨threadId, username, .answered true⟩ state.table) ∨
        (isAdmin settings username = false ∧
          ∃ table, state.table.insertOrIgnore transaction threadId username = some table ∧
            next = state.set transaction ⟨threadId, username, .inserted⟩ table)) := by
  simp only [Step, step] at taken
  split at taken
  · next threadId username present =>
      refine ⟨threadId, username, present, ?_⟩
      split at taken
      · next admin => exact .inl ⟨admin, (Option.some.inj taken).symm⟩
      · next ordinary =>
          obtain ⟨table, inserted, rfl⟩ := Option.map_eq_some_iff.mp taken
          exact .inr ⟨by simpa using ordinary, table, inserted, rfl⟩
  · cases taken

theorem step_select (taken : Step settings state (.select transaction) next) :
    ∃ threadId username, state.requests transaction = some ⟨threadId, username, .inserted⟩ ∧
      next = state.set transaction
        ⟨threadId, username, .answered (checkOwner transaction state.table threadId username)⟩
        state.table := by
  simp only [Step, step] at taken
  split at taken
  · next threadId username present =>
      exact ⟨threadId, username, present, (Option.some.inj taken).symm⟩
  · cases taken

theorem step_commit (taken : Step settings state (.commit transaction) next) :
    ∃ threadId username granted,
      state.requests transaction = some ⟨threadId, username, .answered granted⟩ ∧
      next = state.set transaction ⟨threadId, username, .committed granted⟩
        (state.table.commit transaction) := by
  simp only [Step, step] at taken
  split at taken
  · next threadId username granted present =>
      exact ⟨threadId, username, granted, present, (Option.some.inj taken).symm⟩
  · cases taken

theorem step_rollback (taken : Step settings state (.rollback transaction) next) :
    ∃ request, state.requests transaction = some request ∧ request.isOpen = true ∧
      next = state.set transaction { request with phase := .rolledBack }
        (state.table.rollback transaction) := by
  simp only [Step, step] at taken
  split at taken
  · next request present =>
      split at taken
      · next live => exact ⟨request, present, live, (Option.some.inj taken).symm⟩
      · cases taken
  · cases taken

end

/-- Without interleaving, the insert and the select of a request together are
`claim_or_check`. -/
theorem claimOrCheck_eq_steps {settings : Settings} {state : State} {transaction : Nat}
    {threadId username : String} (ordinary : isAdmin settings username = false)
    (present : state.requests transaction = some ⟨threadId, username, .arrived⟩) :
    runSteps (step settings) state [.insert transaction, .select transaction] =
      (claimOrCheck settings transaction state.table threadId username).map
        fun (granted, table) =>
          (state.set transaction ⟨threadId, username, .inserted⟩ table).set transaction
            ⟨threadId, username, .answered granted⟩ table := by
  simp only [runSteps, step, present, ordinary, claimOrCheck, Bool.false_eq_true, ↓reduceIte]
  cases inserted : insertClaim transaction state.table threadId username with
  | none => rfl
  | some table => simp [State.set]

/-! ## The invariant over the table and all open transactions -/

structure Coherent (settings : Settings) (state : State) : Prop where
  writers : ∀ {threadId owner : String} {writer : Nat},
    state.table.find? threadId = some ⟨threadId, owner, some writer⟩ →
    ∃ request, state.requests writer = some request ∧ request.threadId = threadId ∧
      request.username = owner ∧ request.isOpen = true
  seen : ∀ {transaction : Nat} {threadId username : String},
    state.requests transaction = some ⟨threadId, username, .inserted⟩ →
    ∃ owner, state.table.visible transaction threadId = some owner
  granted : ∀ {transaction : Nat} {threadId username : String},
    isAdmin settings username = false →
    state.requests transaction = some ⟨threadId, username, .answered true⟩ →
    state.table.visible transaction threadId = some username
  kept : ∀ {transaction : Nat} {threadId username : String},
    isAdmin settings username = false →
    state.requests transaction = some ⟨threadId, username, .committed true⟩ →
    state.table.committed threadId = some username

section

variable {settings : Settings} {state next : State} {transaction : Nat}

theorem coherent_initial {table : ThreadOwnership}
    (settled : ∀ entry ∈ table.entries, entry.writer = none) :
    Coherent settings (State.initial table) where
  writers found := by
    have member := (UniqueKeyTable.find?_eq_some_iff.mp found).1
    have absent := settled _ member
    cases absent
  seen present := by cases present
  granted _ present := by cases present
  kept _ present := by cases present

/-- One request moves on and the table changes under it. The other transactions
keep what they see, and an uncommitted row is an old one of another transaction
or one of the request itself. -/
theorem Coherent.set (coherent : Coherent settings state) {request : Request}
    {table : ThreadOwnership}
    (rows : ∀ {threadId owner : String} {writer : Nat},
      table.find? threadId = some ⟨threadId, owner, some writer⟩ →
      (writer ≠ transaction ∧
        state.table.find? threadId = some ⟨threadId, owner, some writer⟩) ∨
      (writer = transaction ∧ request.threadId = threadId ∧ request.username = owner ∧
        request.isOpen = true))
    (others : ∀ {reader : Nat} {threadId owner : String}, reader ≠ transaction →
      state.table.visible reader threadId = some owner →
      table.visible reader threadId = some owner)
    (durable : ∀ {threadId owner : String}, state.table.committed threadId = some owner →
      table.committed threadId = some owner)
    (seen : request.phase = .inserted →
      ∃ owner, table.visible transaction request.threadId = some owner)
    (granted : isAdmin settings request.username = false → request.phase = .answered true →
      table.visible transaction request.threadId = some request.username)
    (kept : isAdmin settings request.username = false → request.phase = .committed true →
      table.committed request.threadId = some request.username) :
    Coherent settings (state.set transaction request table) := by
  constructor
  · intro threadId owner writer found
    rcases rows found with ⟨different, old⟩ | ⟨rfl, own⟩
    · obtain ⟨holder, present, facts⟩ := coherent.writers old
      exact ⟨holder, by simpa [State.set, different] using present, facts⟩
    · exact ⟨request, by simp [State.set], own⟩
  · intro reader threadId username present
    by_cases same : reader = transaction
    · subst same
      have equal : request = ⟨threadId, username, .inserted⟩ := by
        simpa [State.set] using present
      subst equal
      exact seen rfl
    · obtain ⟨owner, visible⟩ := coherent.seen (by simpa [State.set, same] using present)
      exact ⟨owner, others same visible⟩
  · intro reader threadId username ordinary present
    by_cases same : reader = transaction
    · subst same
      have equal : request = ⟨threadId, username, .answered true⟩ := by
        simpa [State.set] using present
      subst equal
      exact granted ordinary rfl
    · have visible := coherent.granted ordinary (by simpa [State.set, same] using present)
      exact others same visible
  · intro reader threadId username ordinary present
    by_cases same : reader = transaction
    · subst same
      have equal : request = ⟨threadId, username, .committed true⟩ := by
        simpa [State.set] using present
      subst equal
      exact kept ordinary rfl
    · exact durable (coherent.kept ordinary (by simpa [State.set, same] using present))

/-- The row a transaction has written before its request moves on stays the
request's own. -/
theorem Coherent.rows_of_same (coherent : Coherent settings state) {request moved : Request}
    (present : state.requests transaction = some request)
    (sameThread : moved.threadId = request.threadId)
    (sameUser : moved.username = request.username) (live : moved.isOpen = true)
    {threadId owner : String} {writer : Nat}
    (found : state.table.find? threadId = some ⟨threadId, owner, some writer⟩) :
    (writer ≠ transaction ∧
      state.table.find? threadId = some ⟨threadId, owner, some writer⟩) ∨
    (writer = transaction ∧ moved.threadId = threadId ∧ moved.username = owner ∧
      moved.isOpen = true) := by
  by_cases own : writer = transaction
  · subst own
    obtain ⟨holder, held, rfl, rfl, _⟩ := coherent.writers found
    rw [present] at held
    cases held
    exact .inr ⟨rfl, sameThread, sameUser, live⟩
  · exact .inl ⟨own, found⟩

theorem Coherent.step (coherent : Coherent settings state) {event : Event}
    (taken : Step settings state event next) : Coherent settings next := by
  cases event with
  | arrive transaction threadId username =>
      obtain ⟨absent, rfl⟩ := step_arrive taken
      refine coherent.set ?_ (fun _ visible => visible) (fun row => row) ?_ ?_ ?_
      · intro thread owner writer found
        obtain ⟨holder, held, _⟩ := coherent.writers found
        refine .inl ⟨?_, found⟩
        intro same
        rw [same, absent] at held
        cases held
      · intro phase; cases phase
      · intro _ phase; cases phase
      · intro _ phase; cases phase
  | insert transaction =>
      obtain ⟨threadId, username, present, ⟨admin, rfl⟩ | ⟨_, table, inserted, rfl⟩⟩ :=
        step_insert taken
      · refine coherent.set (coherent.rows_of_same present rfl rfl rfl)
          (fun _ visible => visible) (fun row => row) ?_ ?_ ?_
        · intro phase; cases phase
        · intro ordinary; rw [admin] at ordinary; cases ordinary
        · intro _ phase; cases phase
      · refine coherent.set ?_
          (fun _ visible => UniqueKeyTable.visible_insertOrIgnore_of_visible inserted visible) ?_
          (fun _ => UniqueKeyTable.visible_insertOrIgnore inserted) ?_ ?_
        · intro thread owner writer found
          rcases UniqueKeyTable.insertOrIgnore_cases inserted with
            ⟨rfl, _⟩ | ⟨_, added, unchanged⟩
          · exact coherent.rows_of_same present rfl rfl rfl found
          · by_cases same : thread = threadId
            · subst same
              rw [added] at found
              cases found
              exact .inr ⟨rfl, rfl, rfl, rfl⟩
            · rw [unchanged thread same] at found
              exact coherent.rows_of_same present rfl rfl rfl found
        · intro thread owner row
          rwa [UniqueKeyTable.committed_insertOrIgnore inserted]
        · intro _ phase; cases phase
        · intro _ phase; cases phase
  | select transaction =>
      obtain ⟨threadId, username, present, rfl⟩ := step_select taken
      refine coherent.set (coherent.rows_of_same present rfl rfl rfl)
        (fun _ visible => visible) (fun row => row) ?_ ?_ ?_
      · intro phase; cases phase
      · intro _ phase
        simpa [checkOwner] using phase
      · intro _ phase; cases phase
  | commit transaction =>
      obtain ⟨threadId, username, granted, present, rfl⟩ := step_commit taken
      refine coherent.set ?_ (fun _ visible => UniqueKeyTable.visible_commit_of_visible visible)
        UniqueKeyTable.committed_commit ?_ ?_ ?_
      · intro thread owner writer found
        rw [UniqueKeyTable.find?_commit] at found
        obtain ⟨entry, old, settled⟩ := Option.map_eq_some_iff.mp found
        unfold UniqueKeyTable.settle at settled
        split at settled
        · cases settled
        · next foreign =>
            subst settled
            exact .inl ⟨fun own => foreign (by rw [own]), old⟩
      · intro phase; cases phase
      · intro _ phase; cases phase
      · intro ordinary phase
        cases phase
        exact UniqueKeyTable.committed_commit_of_visible (coherent.granted ordinary present)
  | rollback transaction =>
      obtain ⟨request, present, live, rfl⟩ := step_rollback taken
      refine coherent.set ?_
        (fun different visible => UniqueKeyTable.visible_rollback_of_visible different visible)
        ?_ ?_ ?_ ?_
      · intro thread owner writer found
        rw [UniqueKeyTable.find?_rollback] at found
        obtain ⟨old, foreign⟩ := Option.filter_eq_some_iff.mp found
        exact .inl ⟨fun own => by simp [own] at foreign, old⟩
      · intro thread owner row
        rwa [UniqueKeyTable.committed_rollback]
      · intro phase; cases phase
      · intro _ phase; cases phase
      · intro _ phase; cases phase

theorem coherent_run {table : ThreadOwnership} {events : List Event}
    (settled : ∀ entry ∈ table.entries, entry.writer = none)
    (run : Runs (Step settings) (State.initial table) events state) : Coherent settings state :=
  run.invariant (fun coherent taken => coherent.step taken) (coherent_initial settled)

/-! ## Exclusive and permanent ownership -/

/-- A holder of a True result has a row of the thread in its own name. -/
theorem Coherent.row_of_holdsGrant (coherent : Coherent settings state) {request : Request}
    (present : state.requests transaction = some request)
    (ordinary : isAdmin settings request.username = false) (holds : request.HoldsGrant) :
    ∃ writer, state.table.find? request.threadId =
      some ⟨request.threadId, request.username, writer⟩ := by
  obtain ⟨threadId, username, phase⟩ := request
  rcases holds with answered | committed
  · dsimp only at answered
    subst answered
    have visible := coherent.granted ordinary present
    rcases UniqueKeyTable.visible_eq_some_iff.mp visible with found | found
    · exact ⟨_, found⟩
    · exact ⟨_, found⟩
  · dsimp only at committed
    subst committed
    exact ⟨none, UniqueKeyTable.committed_eq_some_iff.mp (coherent.kept ordinary present)⟩

theorem Coherent.exclusive (coherent : Coherent settings state) {left right : Nat}
    {first second : Request} (firstPresent : state.requests left = some first)
    (secondPresent : state.requests right = some second)
    (sameThread : first.threadId = second.threadId)
    (firstOrdinary : isAdmin settings first.username = false)
    (secondOrdinary : isAdmin settings second.username = false)
    (firstHolds : first.HoldsGrant) (secondHolds : second.HoldsGrant) :
    first.username = second.username := by
  obtain ⟨_, firstRow⟩ := coherent.row_of_holdsGrant firstPresent firstOrdinary firstHolds
  obtain ⟨_, secondRow⟩ := coherent.row_of_holdsGrant secondPresent secondOrdinary secondHolds
  rw [sameThread, secondRow] at firstRow
  have sameRow := Option.some.inj firstRow
  exact (congrArg Entry.row sameRow).symm

/-- A False result means that another user's row is committed: the caller's own
uncommitted row would have made it True. -/
theorem Coherent.refused (coherent : Coherent settings state)
    (taken : Step settings state (.select transaction) next) {request : Request}
    (present : next.requests transaction = some request)
    (refused : request.phase = .answered false) :
    ∃ owner, state.table.committed request.threadId = some owner ∧ owner ≠ request.username := by
  obtain ⟨threadId, username, before, rfl⟩ := step_select taken
  have answered :
      request = ⟨threadId, username, .answered (checkOwner transaction state.table threadId
        username)⟩ := by
    simpa [State.set, eq_comm] using present
  subst answered
  obtain ⟨owner, visible⟩ := coherent.seen before
  have other : owner ≠ username := by
    simpa [checkOwner, visible] using refused
  rcases UniqueKeyTable.visible_eq_some_iff.mp visible with found | found
  · exact ⟨owner, UniqueKeyTable.committed_eq_some_iff.mpr found, other⟩
  · obtain ⟨holder, held, _, own, _⟩ := coherent.writers found
    rw [before] at held
    cases held
    exact absurd own.symm other

theorem committed_step {event : Event} {threadId owner : String}
    (taken : Step settings state event next)
    (row : state.table.committed threadId = some owner) :
    next.table.committed threadId = some owner := by
  cases event with
  | arrive transaction thread username =>
      obtain ⟨_, rfl⟩ := step_arrive taken
      exact row
  | insert transaction =>
      obtain ⟨_, _, _, ⟨_, rfl⟩ | ⟨_, table, inserted, rfl⟩⟩ := step_insert taken
      · exact row
      · exact (UniqueKeyTable.committed_insertOrIgnore inserted threadId).trans row
  | select transaction =>
      obtain ⟨_, _, _, rfl⟩ := step_select taken
      exact row
  | commit transaction =>
      obtain ⟨_, _, _, _, rfl⟩ := step_commit taken
      exact UniqueKeyTable.committed_commit row
  | rollback transaction =>
      obtain ⟨_, _, _, rfl⟩ := step_rollback taken
      exact UniqueKeyTable.committed_rollback.trans row

/-- Under a committed row the select answers True exactly for its owner. -/
theorem answer_of_committed {threadId owner : String}
    (row : state.table.committed threadId = some owner)
    (taken : Step settings state (.select transaction) next) {request : Request}
    (present : next.requests transaction = some request)
    (sameThread : request.threadId = threadId) :
    request.phase = .answered (decide (request.username = owner)) := by
  obtain ⟨thread, username, _, rfl⟩ := step_select taken
  have answered :
      request = ⟨thread, username, .answered (checkOwner transaction state.table thread
        username)⟩ := by
    simpa [State.set, eq_comm] using present
  subst answered
  dsimp only at sameThread
  subst sameThread
  have visible : state.table.visible transaction thread = some owner :=
    UniqueKeyTable.visible_of_committed row
  simp [checkOwner, visible, eq_comm]

/-- Ownership is exclusive and permanent over every interleaving: two non-admin
holders of a True result for one thread are one user, a False result is given
only against a committed row of another user, and a committed claim decides
every later call and stays. -/
theorem ownership_exclusive_permanent {table : ThreadOwnership} {events : List Event}
    (settled : ∀ entry ∈ table.entries, entry.writer = none)
    (run : Runs (Step settings) (State.initial table) events state) :
    (∀ left right first second, state.requests left = some first →
      state.requests right = some second → first.threadId = second.threadId →
      isAdmin settings first.username = false → isAdmin settings second.username = false →
      first.HoldsGrant → second.HoldsGrant → first.username = second.username) ∧
    (∀ transaction next request, Step settings state (.select transaction) next →
      next.requests transaction = some request → request.phase = .answered false →
      ∃ owner, state.table.committed request.threadId = some owner ∧
        owner ≠ request.username) ∧
    (∀ transaction request, state.requests transaction = some request →
      isAdmin settings request.username = false → request.phase = .committed true →
      state.table.committed request.threadId = some request.username) ∧
    (∀ threadId owner, state.table.committed threadId = some owner →
      ∀ more later, Runs (Step settings) state more later →
        later.table.committed threadId = some owner ∧
        ∀ transaction next request, Step settings later (.select transaction) next →
          next.requests transaction = some request → request.threadId = threadId →
          request.phase = .answered (decide (request.username = owner))) := by
  have coherent := coherent_run settled run
  refine ⟨?_, ?_, ?_, ?_⟩
  · intro left right first second firstPresent secondPresent sameThread
    exact coherent.exclusive firstPresent secondPresent sameThread
  · intro transaction next request taken present refused
    exact coherent.refused taken present refused
  · intro transaction request present ordinary phase
    obtain ⟨threadId, username, _⟩ := request
    dsimp only at phase
    subst phase
    exact coherent.kept ordinary present
  · intro threadId owner row more later rest
    have kept : later.table.committed threadId = some owner :=
      rest.invariant (fun row taken => committed_step taken row) row
    exact ⟨kept, fun transaction next request taken present sameThread =>
      answer_of_committed kept taken present sameThread⟩

end

/-- Two users reach a new thread together: the second insert waits for the first
transaction and then finds its row. -/
def race : List Event :=
  [.arrive 0 "thread-1" "alice", .arrive 1 "thread-1" "bob", .insert 0, .select 0, .commit 0,
    .insert 1, .select 1]

theorem race_exclusive_permanent :
    ∃ state, Runs (Step {}) (State.initial UniqueKeyTable.empty) race state ∧
      (state.requests 1).map Request.phase = some (.answered false) ∧
      ∀ more later, Runs (Step {}) state more later →
        later.table.committed "thread-1" = some "alice" := by
  cases result : runSteps (step {}) (State.initial UniqueKeyTable.empty) race with
  | none => exact absurd (congrArg Option.isSome result) (by decide)
  | some state =>
      have run : Runs (Step {}) (State.initial UniqueKeyTable.empty) race state :=
        runSteps_eq_some_iff.mp result
      have facts : (runSteps (step {}) (State.initial UniqueKeyTable.empty) race).map (fun state =>
          ((state.requests 1).map Request.phase, state.table.committed "thread-1")) =
          some (some (.answered false), some "alice") := by decide
      rw [result] at facts
      obtain ⟨refused, row⟩ := Prod.mk.inj (Option.some.inj facts)
      have settled : ∀ entry ∈ (UniqueKeyTable.empty : ThreadOwnership).entries,
          entry.writer = none := by
        intro entry member
        cases member
      obtain ⟨_, _, _, permanent⟩ := ownership_exclusive_permanent settled run
      exact ⟨state, run, refused, fun more later rest =>
        (permanent "thread-1" "alice" row more later rest).1⟩

end AgenticEnterprise.Graph.OwnershipRequests
