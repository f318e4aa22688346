import AgenticEnterprise.Core.Columns
import AgenticEnterprise.Mcp.FileJail

/-! One call of a filesystem tool while no other one goes on, and the row that
Postgres takes or refuses of it. Any of its system calls may fail. -/

set_option autoImplicit false

namespace AgenticEnterprise.Mcp.FileCalls

open Core Library FileTree FileJail

/-- Postgres takes the row. -/
def accepted (event : FileAuditEvent) : Bool :=
  Columns.varchar 1024 event.path && Columns.varchar 32 event.action &&
    Columns.integer event.byteCount && Columns.text event.preview

theorem accepted_auditEvent {path action content : String}
    (short : Columns.varchar 32 action = true) :
    accepted (auditEvent path action content) = true ↔
      (path.length ≤ 1024 ∧ '\x00' ∉ path.toList) ∧
        content.utf8ByteSize < 2147483648 ∧ '\x00' ∉ content.toList.take 200 := by
  rw [accepted, auditEvent, short, Bool.and_true, Bool.and_eq_true, Bool.and_eq_true,
    Columns.varchar_iff, Columns.text_iff, Columns.integer, decide_eq_true_eq, and_assoc,
    String.toList_ofList]

def refused : Phase → Bool
  | .auditing event _ => !accepted event
  | _ => false

def Ended : Phase → Prop
  | .returned _ | .raised _ => True
  | _ => False

/-- The system calls that fail, and the bytes that a failing write has written. -/
structure Faults where
  fails : Phase → Bool
  written : Nat

section

variable (server : Server) (faults : Faults) (id : Nat)

def upcoming (state : State) : Event :=
  match state.call id with
  | .ready => .start id
  | phase =>
      if faults.fails phase || refused phase then .fail id faults.written else .proceed id

/-- A step of the one call that goes on. -/
def Sole (state : State) (event : Event) (next : State) : Prop :=
  event = upcoming faults id state ∧ Step server state event next

variable (first : State)

def Reaches (state : State) : Prop :=
  ∃ events, Runs (Sole server faults id) first events state

/-- The call has `real` open for writing. `existed` is what `exists` said. -/
def Opens (existed : Bool) (real : Path) : Prop :=
  ∃ state, Reaches server faults id first state ∧ state.call id = .writing existed real

end

def writeRow (call : Call) (existed : Bool) : FileAuditEvent :=
  auditEvent call.path (if existed then "write" else "create") call.content

theorem writeRow_short (existed : Bool) :
    Columns.varchar 32 (if existed then "write" else "create") = true := by
  cases existed
  · decide
  · decide

def confirmation (call : Call) : Result :=
  .line ("wrote " ++ toString call.content.utf8ByteSize ++ " bytes to " ++ call.path)

section

variable (server : Server) (faults : Faults) (id : Nat) (first : State)

/-- The text of the file that a path resolves to. -/
def Reads (text : String) : Prop :=
  ∃ target content real, begin server first.tree (server.calls id) = .ok (.reading target) ∧
    first.tree.openRead target = .ok (content, real) ∧ readText content = some text

def Examined (existed : Bool) (target : Path) : Prop :=
  existed = (first.tree.nodeAt target).isSome

/-- What a call has done up to a phase, unless it has opened a file for writing. -/
def Progress (state : State) : Phase → Prop
  | .ready => state.tree = first.tree ∧ state.audit = first.audit
  | .reading target =>
      state.tree = first.tree ∧ state.audit = first.audit ∧
        begin server first.tree (server.calls id) = .ok (.reading target)
  | .examining target =>
      state.tree = first.tree ∧ state.audit = first.audit ∧
        begin server first.tree (server.calls id) = .ok (.examining target)
  | .making existed target _ | .confirming existed target _ _ _ =>
      AddsDirs first.tree state.tree ∧ state.audit = first.audit ∧
        begin server first.tree (server.calls id) = .ok (.examining target) ∧
        Examined first existed target
  | .writing existed real =>
      Stores first.tree state.tree real .empty ∧ state.audit = first.audit ∧
        begin server first.tree (server.calls id) = .ok (.examining real) ∧
        Examined first existed real
  | .listing _ => state.tree = first.tree ∧ state.audit = first.audit
  | .auditing event result =>
      state.tree = first.tree ∧ state.audit = first.audit ∧ ∃ text, Reads server id first text ∧
        event = auditEvent (server.calls id).path "read" text ∧ result = .text text
  | .returned result =>
      state.tree = first.tree ∧
        ((∃ names, result = .names names) ∧ state.audit = first.audit ∨
          ∃ text, Reads server id first text ∧ result = .text text ∧
            state.audit = first.audit ++ [auditEvent (server.calls id).path "read" text])
  | .raised _ => AddsDirs first.tree state.tree ∧ state.audit = first.audit

end

section

variable {server : Server} {faults : Faults} {id : Nat} {first state next last : State}
  {event : Event}

@[simp] theorem setPhase_call {phase : Phase} : (state.setPhase id phase).call id = phase :=
  Function.update_self ..

theorem cutTarget_eq {written : Nat}
    (other : ¬∃ existed real, state.call id = .writing existed real) :
    state.cutTarget server id written = state := by
  unfold State.cutTarget
  split
  · rename_i existed real called
    exact absurd ⟨existed, real, called⟩ other
  · rfl

theorem sole_cases (taken : Sole server faults id state event next) :
    (state.call id = .ready ∧ next = state.setPhase id
        (match begin server state.tree (server.calls id) with
          | .ok phase => phase
          | .error error => .raised error)) ∨
      (((faults.fails (state.call id) || refused (state.call id)) = true ∧
          ∃ phase, failed (state.call id) = some phase ∧
            next = (state.cutTarget server id faults.written).setPhase id phase) ∨
        ((faults.fails (state.call id) || refused (state.call id)) = false ∧
          proceed server state id = some next)) := by
  obtain ⟨rfl, taken⟩ := taken
  cases phase : state.call id with
  | ready =>
      simp only [Step, upcoming, phase, FileJail.step] at taken
      exact .inl ⟨rfl, (Option.some.inj taken).symm⟩
  | _ =>
      refine .inr ?_
      simp only [Step, upcoming, phase] at taken
      split at taken
      · rename_i stops
        obtain ⟨after, failing, rfl⟩ := Option.map_eq_some_iff.mp taken
        rw [phase] at failing
        exact .inl ⟨stops, after, failing, rfl⟩
      · rename_i goes
        exact .inr ⟨(Bool.not_eq_true _).mp goes, taken⟩

theorem Progress.start (progress : Progress server id first state .ready) :
    Progress server id first
      (state.setPhase id
        (match begin server state.tree (server.calls id) with
          | .ok phase => phase
          | .error error => .raised error))
      (match begin server state.tree (server.calls id) with
        | .ok phase => phase
        | .error error => .raised error) := by
  obtain ⟨tree, audit⟩ := progress
  rw [tree]
  cases begun : begin server first.tree (server.calls id) with
  | error error => exact ⟨tree ▸ addsDirs_refl, audit⟩
  | ok phase =>
      obtain ⟨target, _, started⟩ := begin_ok begun
      rcases started with rfl | rfl | rfl
      · exact ⟨tree, audit, begun⟩
      · exact ⟨tree, audit, begun⟩
      · exact ⟨tree, audit⟩

theorem Progress.readTarget {target : Path}
    (progress : Progress server id first state (.reading target)) :
    Progress server id first (state.readTarget server id target)
      ((state.readTarget server id target).call id) := by
  obtain ⟨tree, audit, begun⟩ := progress
  unfold State.readTarget
  split
  · rw [setPhase_call]
    exact ⟨tree ▸ addsDirs_refl, audit⟩
  · rename_i content real opened
    rw [setPhase_call]
    split
    · exact ⟨tree ▸ addsDirs_refl, audit⟩
    · rename_i text decoded
      exact ⟨tree, audit, text, ⟨target, content, real, begun, tree ▸ opened, decoded⟩, rfl, rfl⟩

theorem Progress.makeTarget {existed parents : Bool} {target dir : Path}
    {dirs : List (Path × Bool)}
    (progress : Progress server id first state
      (.making existed target ((dir, parents) :: dirs))) :
    Progress server id first (state.makeTarget id existed target dir parents dirs)
      ((state.makeTarget id existed target dir parents dirs).call id) := by
  obtain ⟨adds, audit, begun, examined⟩ := progress
  unfold State.makeTarget
  split
  · rename_i tree real made
    rw [setPhase_call]
    exact ⟨adds.trans (makeDir_addsDirs made), audit, begun, examined⟩
  · split
    · rw [setPhase_call]
      exact ⟨adds, audit, begun, examined⟩
    · rw [setPhase_call]
      exact ⟨adds, audit⟩
  · rw [setPhase_call]
    exact ⟨adds, audit, begun, examined⟩

theorem canonical_of_begin {tree : FileTree ByteArray} {call : Call} {target : Path}
    {phase : Phase} (resolves : Resolves server) (begun : begin server tree call = .ok phase)
    (same : phase = .reading target ∨ phase = .examining target) :
    Canonical tree target ∧ server.root <+: target := by
  obtain ⟨place, resolved, started⟩ := begin_ok begun
  have own : place = target := by
    rcases same with rfl | rfl
    · rcases started with first | other | other
      · exact (Phase.reading.inj first).symm
      · cases other
      · cases other
    · rcases started with other | first | other
      · cases other
      · exact (Phase.examining.inj first).symm
      · cases other
  subst own
  obtain ⟨resolved, below⟩ := resolveInRoot_ok resolved
  exact ⟨(resolves _ _ _ resolved).canonical canonical_nil, below⟩

theorem Progress.openTarget (resolves : Resolves server) {existed : Bool} {target : Path}
    (progress : Progress server id first state (.making existed target [])) :
    Progress server id first (state.openTarget id existed target)
      ((state.openTarget id existed target).call id) := by
  obtain ⟨adds, audit, begun, examined⟩ := progress
  unfold State.openTarget
  split
  · rw [setPhase_call]
    exact ⟨adds, audit⟩
  · rename_i tree real opened
    have canonical := (canonical_of_begin resolves begun (.inr rfl)).1
    obtain ⟨rfl, stores⟩ := openWrite_stores opened (canonical.congr fun _ => adds.link?)
    rw [setPhase_call]
    exact ⟨.of_addsDirs adds stores, audit, begun, examined⟩

theorem Progress.listTarget {target : Path}
    (progress : Progress server id first state (.listing target)) :
    Progress server id first (state.listTarget id target)
      ((state.listTarget id target).call id) := by
  obtain ⟨tree, audit⟩ := progress
  unfold State.listTarget
  split
  · rw [setPhase_call]
    exact ⟨tree ▸ addsDirs_refl, audit⟩
  · rw [setPhase_call]
    exact ⟨tree, .inl ⟨⟨_, rfl⟩, audit⟩⟩

theorem Progress.failed {phase before : Phase}
    (fault : (faults.fails before || refused before) = true) (stops : failed before = some phase)
    (progress : Progress server id first state before) :
    Progress server id first (state.setPhase id phase) phase ∨
      ∃ existed real, before = .writing existed real := by
  cases before with
  | making existed target dirs =>
      cases dirs with
      | nil =>
          obtain ⟨adds, audit, _⟩ := progress
          cases stops
          exact .inl ⟨adds, audit⟩
      | cons entry dirs =>
          cases stops
          exact .inl progress
  | confirming existed target fault dir dirs =>
      obtain ⟨adds, audit, _⟩ := progress
      cases stops
      exact .inl ⟨adds, audit⟩
  | writing existed real => exact .inr ⟨existed, real, rfl⟩
  | reading | examining | auditing =>
      obtain ⟨tree, audit, _⟩ := progress
      cases stops
      exact .inl ⟨tree ▸ addsDirs_refl, audit⟩
  | listing =>
      obtain ⟨tree, audit⟩ := progress
      cases stops
      exact .inl ⟨tree ▸ addsDirs_refl, audit⟩
  | ready | returned | raised => cases stops

theorem Progress.proceed (resolves : Resolves server) {before : Phase}
    (called : state.call id = before) (unfailed : (faults.fails before || refused before) = false)
    (taken : FileJail.proceed server state id = some next)
    (progress : Progress server id first state before) :
    Progress server id first next (next.call id) ∨
      ∃ existed real, before = .writing existed real := by
  rw [FileJail.proceed, called] at taken
  cases before with
  | reading target =>
      cases taken
      exact .inl progress.readTarget
  | examining target =>
      obtain ⟨tree, audit, begun⟩ := progress
      cases taken
      rw [setPhase_call]
      exact .inl ⟨tree ▸ addsDirs_refl, audit, begun, by rw [Examined, tree]⟩
  | making existed target dirs =>
      cases dirs with
      | nil =>
          cases taken
          exact .inl (progress.openTarget resolves)
      | cons entry dirs =>
          cases taken
          exact .inl progress.makeTarget
  | confirming existed target fault dir dirs =>
      obtain ⟨adds, audit, rest⟩ := progress
      cases taken
      rw [setPhase_call]
      split
      · exact .inl ⟨adds, audit, rest⟩
      · exact .inl ⟨adds, audit⟩
  | writing existed real => exact .inr ⟨existed, real, rfl⟩
  | listing target =>
      cases taken
      exact .inl progress.listTarget
  | auditing event result =>
      obtain ⟨tree, audit, text, reads, rfl, rfl⟩ := progress
      cases taken
      rw [setPhase_call]
      refine .inl ⟨tree, .inr ⟨text, reads, rfl, ?_⟩⟩
      rw [← audit]
      rfl
  | ready | returned | raised => cases taken

theorem Progress.step (resolves : Resolves server) (taken : Sole server faults id state event next)
    (progress : Progress server id first state (state.call id)) :
    Progress server id first next (next.call id) ∨
      ∃ existed real, state.call id = .writing existed real := by
  rcases sole_cases taken with ⟨ready, rfl⟩ | ⟨fault, phase, stops, rfl⟩ | ⟨goes, proceeded⟩
  · rw [ready] at progress
    rw [setPhase_call]
    exact .inl progress.start
  · by_cases writing : ∃ existed real, state.call id = .writing existed real
    · exact .inr writing
    · rw [cutTarget_eq writing, setPhase_call]
      exact progress.failed fault stops
  · exact progress.proceed resolves rfl goes proceeded

/-! ## Behind the opening of a file -/

/-- The phases of a write that has written to its file. -/
def Past : Phase → Prop
  | .auditing _ _ | .returned _ | .raised _ => True
  | _ => False

theorem past_of_sole (taken : Sole server faults id state event next)
    (late : Past (state.call id) ∨ ∃ existed real, state.call id = .writing existed real) :
    Past (next.call id) := by
  rcases sole_cases taken with ⟨ready, rfl⟩ | ⟨_, phase, stops, rfl⟩ | ⟨_, proceeded⟩
  · rw [ready] at late
    rcases late with past | ⟨_, _, other⟩
    · exact past.elim
    · cases other
  · rw [setPhase_call]
    rcases late with past | ⟨existed, real, called⟩
    · cases called : state.call id with
      | auditing =>
          rw [called] at stops
          cases stops
          trivial
      | _ =>
          rw [called] at past stops
          first | exact past.elim | cases stops
    · rw [called] at stops
      cases stops
      trivial
  · rw [FileJail.proceed] at proceeded
    rcases late with past | ⟨existed, real, called⟩
    · cases called : state.call id with
      | auditing =>
          rw [called] at proceeded
          cases proceeded
          rw [setPhase_call]
          trivial
      | _ =>
          rw [called] at past proceeded
          first | exact past.elim | cases proceeded
    · rw [called] at proceeded
      cases proceeded
      rw [State.writeTarget, setPhase_call]
      trivial

/-- A call does what its phase says, until it has a file open for writing. -/
theorem progress_of_run (resolves : Resolves server) {events : List Event}
    (ready : first.call id = .ready) (run : Runs (Sole server faults id) first events last) :
    Progress server id first last (last.call id) ∨
      Past (last.call id) ∧ ∃ existed real, Opens server faults id first existed real := by
  refine @Runs.invariant_of_reached _ _ _ (fun state =>
    Progress server id first state (state.call id) ∨
      Past (state.call id) ∧ ∃ existed real, Opens server faults id first existed real) _ _ _
    (fun reached holds taken => ?_) run (.inl ?_)
  · rcases holds with progress | ⟨past, opens⟩
    · rcases progress.step resolves taken with further | ⟨existed, real, writing⟩
      · exact .inl further
      · exact .inr ⟨past_of_sole taken (.inr ⟨existed, real, writing⟩), existed, real, _,
          ⟨_, reached⟩, writing⟩
    · exact .inr ⟨past_of_sole taken (.inl past), opens⟩
  · rw [ready]
    exact ⟨rfl, rfl⟩

theorem setPhase_other {other : Nat} (apart : other ≠ id) {phase : Phase} :
    (state.setPhase id phase).call other = state.call other :=
  Function.update_of_ne apart ..

theorem proceed_other {other : Nat} (apart : other ≠ id)
    (taken : proceed server state id = some next) : next.call other = state.call other := by
  rw [FileJail.proceed] at taken
  cases called : state.call id with
  | making existed target dirs =>
      rw [called] at taken
      cases dirs with
      | nil =>
          cases taken
          unfold State.openTarget
          split
          all_goals exact setPhase_other apart
      | cons entry dirs =>
          cases taken
          unfold State.makeTarget
          split
          · exact setPhase_other apart
          · split
            all_goals exact setPhase_other apart
          · exact setPhase_other apart
  | reading target =>
      rw [called] at taken
      cases taken
      unfold State.readTarget
      split
      all_goals exact setPhase_other apart
  | listing target =>
      rw [called] at taken
      cases taken
      unfold State.listTarget
      split
      all_goals exact setPhase_other apart
  | examining | confirming | writing | auditing =>
      rw [called] at taken
      cases taken
      exact setPhase_other apart
  | ready | returned | raised =>
      rw [called] at taken
      cases taken

theorem other_of_run {other : Nat} {events : List Event} (apart : other ≠ id)
    (run : Runs (Sole server faults id) first events last) :
    last.call other = first.call other := by
  refine @Runs.invariant _ _ _ (fun state => state.call other = first.call other)
    (fun same taken => ?_) _ _ _ run rfl
  rcases sole_cases taken with ⟨_, rfl⟩ | ⟨_, phase, _, rfl⟩ | ⟨_, proceeded⟩
  · rw [setPhase_other apart, same]
  · rw [setPhase_other apart, ← same, State.cutTarget]
    split
    · rfl
    · rfl
  · rw [proceed_other apart proceeded, same]

theorem sole_deterministic {again : Event} {other : State}
    (taken : Sole server faults id state event next)
    (retaken : Sole server faults id state again other) : next = other := by
  obtain ⟨rfl, taken⟩ := taken
  obtain ⟨rfl, retaken⟩ := retaken
  exact Option.some.inj (taken.symm.trans retaken)

theorem Ended.stops (ended : Ended (state.call id)) : ¬Sole server faults id state event next := by
  intro taken
  rcases sole_cases taken with ⟨ready, _⟩ | ⟨_, phase, stops, _⟩ | ⟨_, proceeded⟩
  · rw [ready] at ended
    exact ended
  · cases called : state.call id with
    | returned | raised =>
        rw [called] at stops
        cases stops
    | _ =>
        rw [called] at ended
        exact ended
  · rw [FileJail.proceed] at proceeded
    cases called : state.call id with
    | returned | raised =>
        rw [called] at proceeded
        cases proceeded
    | _ =>
        rw [called] at ended
        exact ended

theorem Ended.eq {events : List Event} (ended : Ended (state.call id))
    (run : Runs (Sole server faults id) state events last) : last = state := by
  cases run with
  | refl => rfl
  | cons taken _ => exact absurd taken ended.stops

theorem eq_of_setPhase {phase : Phase} {events : List Event}
    (run : Runs (Sole server faults id) (state.setPhase id phase) events last)
    (ended : Ended phase) : last = state.setPhase id phase :=
  Ended.eq (by rw [setPhase_call]; exact ended) run

/-- A call that ends goes through every state it reaches. -/
theorem Reaches.onward {events : List Event} (reached : Reaches server faults id first state)
    (run : Runs (Sole server faults id) first events last) (ended : Ended (last.call id)) :
    ∃ rest, Runs (Sole server faults id) state rest last := by
  obtain ⟨before, reached⟩ := reached
  have linked := @Runs.connected _ _ (Sole server faults id)
    (fun taken again => sole_deterministic taken again) _ _ _ _ _ reached run
  rcases linked with onward | ⟨rest, back⟩
  · exact onward
  · obtain rfl := ended.eq back
    exact ⟨[], .refl⟩

theorem overwritten_empty (data : ByteArray) : overwritten data .empty = data := by
  have nothing : ByteArray.empty.extract data.size ByteArray.empty.size = .empty :=
    ByteArray.extract_eq_empty_iff.mpr (by simp)
  rw [overwritten, nothing, ByteArray.append_empty]

end

section

variable (server : Server) (faults : Faults) (id : Nat) (first : State)

/-- Neither the writing of the bytes nor the row's commit fails. -/
def commits (existed : Bool) (real : Path) : Bool :=
  let row := writeRow (server.calls id) existed
  !faults.fails (.writing existed real) &&
    !faults.fails (.auditing row (confirmation (server.calls id))) && accepted row

/-- What a write leaves in a file it has opened. -/
def left (existed : Bool) (real : Path) : ByteArray :=
  let data := (server.calls id).content.toUTF8
  if faults.fails (.writing existed real) then data.extract 0 faults.written else data

structure Outcome (existed : Bool) (real : Path) (last : State) : Prop where
  begun : begin server first.tree (server.calls id) = .ok (.examining real)
  examined : Examined first existed real
  stores : Stores first.tree last.tree real (left server faults id existed real)
  committed :
    if commits server faults id existed real then
      last.audit = first.audit ++ [writeRow (server.calls id) existed] ∧
        last.call id = .returned (confirmation (server.calls id))
    else last.audit = first.audit ∧ ∃ error, last.call id = .raised error

end

section

variable {server : Server} {faults : Faults} {id : Nat} {first state next last : State}
  {event : Event} {existed : Bool} {real : Path}

theorem ends_of_auditing {row : FileAuditEvent} {result : Result} {rest : List Event}
    (called : state.call id = .auditing row result)
    (run : Runs (Sole server faults id) state rest last) (ended : Ended (last.call id)) :
    last.tree = state.tree ∧
      if !faults.fails (.auditing row result) && accepted row then
        last.audit = state.audit ++ [row] ∧ last.call id = .returned result
      else last.audit = state.audit ∧ ∃ error, last.call id = .raised error := by
  cases run with
  | refl =>
      rw [called] at ended
      exact ended.elim
  | cons taken rest =>
      rcases sole_cases taken with ⟨ready, _⟩ | ⟨fault, phase, stops, rfl⟩ | ⟨goes, proceeded⟩
      · rw [called] at ready
        cases ready
      · rw [called] at fault stops
        cases stops
        rw [cutTarget_eq (by simp [called])] at rest
        obtain rfl := eq_of_setPhase rest trivial
        have lost : (!faults.fails (.auditing row result) && accepted row) = false := by
          rw [← Bool.not_eq_true', Bool.not_and, Bool.not_not]
          exact fault
        rw [lost]
        exact ⟨rfl, rfl, _, setPhase_call⟩
      · rw [called] at goes
        have kept : (!faults.fails (.auditing row result) && accepted row) = true := by
          rw [← Bool.not_eq_false', Bool.not_and, Bool.not_not]
          exact goes
        rw [FileJail.proceed, called] at proceeded
        cases proceeded
        obtain rfl := eq_of_setPhase rest trivial
        rw [kept]
        exact ⟨rfl, rfl, setPhase_call⟩

theorem outcome_of_writing (resolves : Resolves server) {rest : List Event}
    (called : state.call id = .writing existed real)
    (progress : Progress server id first state (.writing existed real))
    (run : Runs (Sole server faults id) state rest last) (ended : Ended (last.call id)) :
    Outcome server faults id first existed real last := by
  obtain ⟨stores, audit, begun, examined⟩ := progress
  have canonical := (canonical_of_begin resolves begun (.inr rfl)).1
  have same : Canonical state.tree real := canonical.congr fun path => stores.link?
  have written (data : ByteArray) :
      Stores first.tree (state.tree.overwrite (overwritten data) real) real data := by
    have filled := stores.overwrite same (overwritten data)
    rwa [overwritten_empty] at filled
  cases run with
  | refl =>
      rw [called] at ended
      exact ended.elim
  | cons taken rest =>
      rcases sole_cases taken with ⟨ready, _⟩ | ⟨fault, phase, stops, rfl⟩ | ⟨goes, proceeded⟩
      · rw [called] at ready
        cases ready
      · rw [called] at fault stops
        have fault : faults.fails (.writing existed real) = true := by simpa [refused] using fault
        have unwritten : commits server faults id existed real = false := by
          simp [commits, fault]
        cases stops
        obtain rfl := eq_of_setPhase rest trivial
        refine ⟨begun, examined, ?_, ?_⟩
        · rw [left, if_pos fault, State.cutTarget, called]
          exact written _
        · rw [unwritten, State.cutTarget, called]
          exact ⟨audit, _, setPhase_call⟩
      · rw [called] at goes
        have goes : faults.fails (.writing existed real) = false := by simpa [refused] using goes
        rw [FileJail.proceed, called] at proceeded
        cases proceeded
        obtain ⟨tree, committed⟩ := ends_of_auditing setPhase_call rest ended
        refine ⟨begun, examined, ?_, ?_⟩
        · rw [left, goes, tree]
          exact written _
        · rw [commits, goes, Bool.not_false, Bool.true_and]
          rw [← audit]
          exact committed

theorem Opens.outcome (opens : Opens server faults id first existed real)
    (resolves : Resolves server) {events : List Event} (ready : first.call id = .ready)
    (run : Runs (Sole server faults id) first events last) (ended : Ended (last.call id)) :
    Outcome server faults id first existed real last := by
  obtain ⟨state, reached, called⟩ := opens
  obtain ⟨rest, onward⟩ := reached.onward run ended
  obtain ⟨before, reached⟩ := reached
  rcases progress_of_run resolves ready reached with progress | ⟨past, _⟩
  · rw [called] at progress
    exact outcome_of_writing resolves called progress onward ended
  · rw [called] at past
    exact past.elim

theorem eq_of_begin_error {error : Exn} {events : List Event} (ready : first.call id = .ready)
    (refused : begin server first.tree (server.calls id) = .error error)
    (run : Runs (Sole server faults id) first events last) (ended : Ended (last.call id)) :
    last = first.setPhase id (.raised error) := by
  cases run with
  | refl =>
      rw [ready] at ended
      exact ended.elim
  | cons taken rest =>
      rcases sole_cases taken with ⟨_, rfl⟩ | ⟨_, phase, stops, _⟩ | ⟨_, proceeded⟩
      · rw [refused] at rest
        exact eq_of_setPhase rest trivial
      · rw [ready] at stops
        cases stops
      · rw [FileJail.proceed, ready] at proceeded
        cases proceeded

end

/-! ## Undisturbed calls -/

def calm : Faults := ⟨fun _ => false, 0⟩

section

variable {server : Server} {id : Nat} {first state next : State}

theorem sole_of_begin {phase : Phase} (ready : state.call id = .ready)
    (begun : begin server state.tree (server.calls id) = .ok phase) :
    Sole server calm id state (.start id) (state.setPhase id phase) := by
  refine ⟨by rw [upcoming, ready], ?_⟩
  rw [Step, FileJail.step, ready, begun]

theorem sole_of_proceed {phase : Phase} (called : state.call id = phase) (started : phase ≠ .ready)
    (taking : refused phase = false) (taken : proceed server state id = some next) :
    Sole server calm id state (.proceed id) next := by
  refine ⟨?_, taken⟩
  unfold upcoming
  split
  · rename_i ready
    exact absurd (called.symm.trans ready) started
  · rw [called, taking]
    rfl

theorem opens_of_dir {target real : Path} {tree : FileTree ByteArray}
    (ready : first.call id = .ready)
    (begun : begin server first.tree (server.calls id) = .ok (.examining target))
    (there : first.tree.makeDir target.dropLast = .error .exists)
    (isDir : first.tree.isDir target.dropLast = true)
    (opened : first.tree.openWrite .empty target = .ok (tree, real)) :
    Opens server calm id first (first.tree.nodeAt target).isSome real := by
  let At (phase : Phase) : Prop :=
    ∃ state, Reaches server calm id first state ∧ state.tree = first.tree ∧
      state.call id = phase
  have go {before after : Phase} (here : At before) (started : before ≠ .ready)
      (taking : refused before = false)
      (moves : ∀ state, state.tree = first.tree → state.call id = before →
        proceed server state id = some (state.setPhase id after)) : At after := by
    obtain ⟨state, ⟨events, run⟩, tree, called⟩ := here
    have taken := sole_of_proceed called started taking (moves state tree called)
    exact ⟨_, ⟨_, run.append (.single taken)⟩, tree, setPhase_call⟩
  have examining : At (.examining target) :=
    ⟨_, ⟨_, .single (sole_of_begin ready begun)⟩, rfl, setPhase_call⟩
  have making : At (.making (first.tree.nodeAt target).isSome target [(target.dropLast, true)]) :=
    go examining (by simp) rfl fun state tree called => by rw [proceed, called, ← tree]
  have confirming : At (.confirming (first.tree.nodeAt target).isSome target .exists
      target.dropLast []) :=
    go making (by simp) rfl fun state tree called => by
      rw [proceed, called]
      simp only [State.makeTarget, tree, there]
  have made : At (.making (first.tree.nodeAt target).isSome target []) :=
    go confirming (by simp) rfl fun state tree called => by
      rw [proceed, called]
      simp only [tree, isDir, if_true]
  obtain ⟨state, ⟨events, run⟩, same, called⟩ := made
  have taken : proceed server state id = some
      (({ state with tree := tree }.record id
        (if (state.tree.find real).isSome then .changed else .created) real).setPhase id
          (.writing (first.tree.nodeAt target).isSome real)) := by
    rw [proceed, called]
    simp only [State.openTarget, same, opened]
  exact ⟨_, ⟨_, run.append (.single (sole_of_proceed called (by simp) rfl taken))⟩,
    setPhase_call⟩

end

/-! ## Every call ends -/

/-- Bounds the calls of `mkdir` that are still to come. -/
def cost : Path × Bool → Nat
  | (dir, true) => 3 * dir.length + 2
  | (_, false) => 2

def costs : List (Path × Bool) → Nat
  | [] => 0
  | entry :: dirs => cost entry + costs dirs

def rank : Phase → Nat
  | .ready | .returned _ | .raised _ => 0
  | .auditing _ _ | .listing _ => 1
  | .reading _ | .writing _ _ => 2
  | .making _ _ dirs => costs dirs + 3
  | .confirming _ _ _ _ dirs => costs dirs + 4
  | .examining target => cost (target.dropLast, true) + 4

def Nears (before after : Phase) : Prop :=
  after ≠ .ready ∧ rank after < rank before

section

variable {server : Server} {faults : Faults} {id : Nat} {first state next last : State}
  {event : Event}

theorem two_le_cost (entry : Path × Bool) : 2 ≤ cost entry := by
  rcases entry with ⟨dir, _ | _⟩
  · exact Nat.le_refl 2
  · exact Nat.le_add_left 2 _

theorem makeTarget_nears {existed parents : Bool} {target dir : Path}
    {dirs : List (Path × Bool)} :
    Nears (.making existed target ((dir, parents) :: dirs))
      ((state.makeTarget id existed target dir parents dirs).call id) := by
  have positive := two_le_cost (dir, parents)
  unfold State.makeTarget
  split
  · rw [setPhase_call]
    refine ⟨by simp, ?_⟩
    simp only [rank, costs]
    omega
  · split
    · rename_i climbs
      obtain ⟨rfl, proper⟩ := climbs
      have nonempty : dir ≠ [] := fun empty => proper (by rw [empty]; rfl)
      have shorter := @List.length_dropLast _ dir
      have long := List.length_pos_iff.mpr nonempty
      rw [setPhase_call]
      refine ⟨by simp, ?_⟩
      simp only [rank, cost, costs]
      omega
    · rw [setPhase_call]
      simp [Nears, rank]
  · rw [setPhase_call]
    refine ⟨by simp, ?_⟩
    simp only [rank, costs]
    omega

theorem failed_nears {before after : Phase} (stops : failed before = some after) :
    Nears before after := by
  cases before with
  | making existed target dirs =>
      cases dirs with
      | nil =>
          cases stops
          simp [Nears, rank]
      | cons entry dirs =>
          have positive := two_le_cost entry
          cases stops
          refine ⟨by simp, ?_⟩
          simp only [rank, costs]
          omega
  | ready | returned | raised => cases stops
  | _ =>
      cases stops
      simp [Nears, rank]

theorem proceed_nears (taken : proceed server state id = some next) :
    Nears (state.call id) (next.call id) := by
  rw [FileJail.proceed] at taken
  cases called : state.call id with
  | making existed target dirs =>
      rw [called] at taken
      cases dirs with
      | nil =>
          cases taken
          unfold State.openTarget
          split
          all_goals
            rw [setPhase_call]
            simp [Nears, rank]
      | cons entry dirs =>
          cases taken
          exact makeTarget_nears
  | reading target =>
      rw [called] at taken
      cases taken
      unfold State.readTarget
      split
      · rw [setPhase_call]
        simp [Nears, rank]
      · rw [setPhase_call]
        split
        all_goals simp [Nears, rank]
  | listing target =>
      rw [called] at taken
      cases taken
      unfold State.listTarget
      split
      all_goals
        rw [setPhase_call]
        simp [Nears, rank]
  | confirming existed target fault dir dirs =>
      rw [called] at taken
      cases taken
      rw [setPhase_call]
      split
      all_goals simp [Nears, rank]
  | examining | writing | auditing =>
      rw [called] at taken
      cases taken
      simp [Nears, rank, costs, State.writeTarget]
  | ready | returned | raised =>
      rw [called] at taken
      cases taken

theorem exists_sole (unended : ¬Ended (state.call id)) :
    ∃ event next, Sole server faults id state event next := by
  have stops (present : (failed (state.call id)).isSome)
      (goes : (proceed server state id).isSome) (started : state.call id ≠ .ready) :
      ∃ next, FileJail.step server state (upcoming faults id state) = some next := by
    obtain ⟨phase, stops⟩ := Option.isSome_iff_exists.mp present
    obtain ⟨next, goes⟩ := Option.isSome_iff_exists.mp goes
    unfold upcoming
    split
    · rename_i ready
      exact absurd ready started
    · split
      · exact ⟨_, by rw [FileJail.step, stops]; rfl⟩
      · exact ⟨next, goes⟩
  refine ⟨upcoming faults id state, ?_⟩
  simp only [Sole, Step, true_and]
  cases called : state.call id with
  | ready => exact ⟨_, by rw [upcoming, called]; simp only [FileJail.step, called]; rfl⟩
  | returned | raised =>
      rw [called] at unended
      exact absurd trivial unended
  | making existed target dirs =>
      cases dirs with
      | nil => exact stops (by rw [called]; rfl) (by rw [proceed, called]; rfl) (by simp [called])
      | cons entry dirs =>
          exact stops (by rw [called]; rfl) (by rw [proceed, called]; rfl) (by simp [called])
  | _ => exact stops (by rw [called]; rfl) (by rw [proceed, called]; rfl) (by simp [called])

theorem ends_of_rank (bound : Nat) (started : state.call id ≠ .ready)
    (bounded : rank (state.call id) ≤ bound) :
    ∃ events last, Runs (Sole server faults id) state events last ∧ Ended (last.call id) := by
  induction bound using Nat.strongRecOn generalizing state with
  | ind bound ih =>
      by_cases ended : Ended (state.call id)
      · exact ⟨[], state, .refl, ended⟩
      · obtain ⟨event, next, taken⟩ := @exists_sole server faults id state ended
        have nears : Nears (state.call id) (next.call id) := by
          rcases sole_cases taken with ⟨ready, _⟩ | ⟨_, phase, stops, rfl⟩ | ⟨_, proceeded⟩
          · exact absurd ready started
          · rw [setPhase_call]
            exact failed_nears stops
          · exact proceed_nears proceeded
        obtain ⟨events, last, run, ended⟩ :=
          ih (rank (next.call id)) (Nat.lt_of_lt_of_le nears.2 bounded) nears.1 (Nat.le_refl _)
        exact ⟨_, last, .cons taken run, ended⟩

/-- Whatever fails, a call ends. -/
theorem call_ends (server : Server) (faults : Faults) (id : Nat) (first : State)
    (ready : first.call id = .ready) :
    ∃ events last, Runs (Sole server faults id) first events last ∧ Ended (last.call id) := by
  have unended : ¬Ended (first.call id) := by
    rw [ready]
    exact fun absurdity => absurdity
  obtain ⟨event, next, taken⟩ := @exists_sole server faults id first unended
  have started : next.call id ≠ .ready := by
    rcases sole_cases taken with ⟨_, rfl⟩ | ⟨_, phase, stops, _⟩ | ⟨_, proceeded⟩
    · rw [setPhase_call]
      cases begun : begin server first.tree (server.calls id) with
      | error => simp
      | ok phase =>
          obtain ⟨target, _, started⟩ := begin_ok begun
          rcases started with rfl | rfl | rfl
          all_goals simp
    · rw [ready] at stops
      cases stops
    · rw [FileJail.proceed, ready] at proceeded
      cases proceeded
  obtain ⟨events, last, run, ended⟩ := ends_of_rank _ started (Nat.le_refl _)
  exact ⟨_, last, .cons taken run, ended⟩

end

/-! ## A server with a file of notes -/

/-- Its first call writes the notes, and the others read them. -/
def notesServer (content : String) : Server where
  resolve := resolvePath
  root := ["srv", "files"]
  maxWriteBytes := 1048576
  calls
    | 0 => .writeTextFile "notes.txt" content
    | _ => .readTextFile "notes.txt"

def notes : Path := ["srv", "files", "notes.txt"]

theorem notes_opens {content : String} (fits : content.utf8ByteSize ≤ 1048576) :
    Opens (notesServer content) calm 0 (initial linkedTree) false notes := by
  have resolved : resolveInRoot (notesServer content) linkedTree "notes.txt" = .ok notes := rfl
  have begun : begin (notesServer content) linkedTree (.writeTextFile "notes.txt" content) =
      .ok (.examining notes) := by
    have limit : ¬(notesServer content).maxWriteBytes < content.utf8ByteSize :=
      Nat.not_lt.mpr fits
    rw [begin, if_neg limit, resolved]
    rfl
  have missing : linkedTree.nodeAt notes = none := by decide +kernel
  have opens := @opens_of_dir (notesServer content) 0 (initial linkedTree) notes notes
    ((notes, .file .empty) :: linkedTree) rfl begun (by decide +kernel) (by decide +kernel)
    (by decide +kernel)
  rwa [initial, missing] at opens

theorem notes_ends {content : String} (fits : content.utf8ByteSize ≤ 1048576) :
    ∃ events last, Runs (Sole (notesServer content) calm 0) (initial linkedTree) events last ∧
      Ended (last.call 0) ∧
      Outcome (notesServer content) calm 0 (initial linkedTree) false notes last := by
  obtain ⟨events, last, run, ended⟩ :=
    call_ends (notesServer content) calm 0 (initial linkedTree) rfl
  exact ⟨events, last, run, ended,
    (notes_opens fits).outcome (fun _ _ _ => resolvePath_leads) rfl run ended⟩

end AgenticEnterprise.Mcp.FileCalls
