import AgenticEnterprise.Mcp.FileCalls

/-! The row of a file access. `read_text_file` and `write_text_file` access the file
first and commit its row afterwards, and nothing takes an access back. -/

set_option autoImplicit false

namespace AgenticEnterprise.Mcp.FileAudit

open Core Library FileTree FileJail FileCalls

section

variable (server : Server)

def FileChanged (tree next : FileTree ByteArray) : Prop :=
  ∃ real content, server.root <+: real ∧ next.find real = some (.file content) ∧
    tree.find real ≠ some (.file content)

def FileMade (tree next : FileTree ByteArray) : Prop :=
  ∃ real content, server.root <+: real ∧ next.find real = some (.file content) ∧
    tree.find real = none

variable (id : Nat)

/-- The row is about what the call has read or written. -/
def RowOf (last : State) (event : FileAuditEvent) : Prop :=
  match server.calls id with
  | .readTextFile path =>
      ∃ text, last.call id = .returned (.text text) ∧ event = auditEvent path "read" text
  | .writeTextFile path content =>
      event = auditEvent path "write" content ∨ event = auditEvent path "create" content
  | .listDirectory _ => False

/-- No file access without its row, and a write over the limit without effect. -/
structure Recorded (first last : State) : Prop where
  told : (∃ text, last.call id = .returned (.text text)) ∨
      FileChanged server first.tree last.tree →
    ∃ event, last.audit = first.audit ++ [event] ∧ RowOf server id last event ∧
      (event.action = "create" ↔ FileMade server first.tree last.tree)
  limited : server.maxWriteBytes < (server.calls id).content.utf8ByteSize →
    last.tree = first.tree ∧ last.audit = first.audit

variable (faults : Faults) (first : State)

/-- A file that is opened gets its row, or is left with what it held. -/
def Sound : Prop :=
  ∀ existed real, Opens server faults id first existed real →
    commits server faults id existed real = true ∨
      first.tree.find real = some (.file (left server faults id existed real))

end

section

variable {server : Server} {faults : Faults} {id : Nat} {first last : State}
  {existed : Bool} {real : Path}

theorem not_fileChanged {tree next : FileTree ByteArray} (adds : AddsDirs tree next) :
    ¬FileChanged server tree next := by
  rintro ⟨real, content, _, found, changed⟩
  exact changed (adds.find_file_iff.mp found)

theorem not_fileChanged_of_stores {tree next : FileTree ByteArray} {content : ByteArray}
    (stores : Stores tree next real content) (same : tree.find real = some (.file content)) :
    ¬FileChanged server tree next := by
  rintro ⟨place, other, _, found, changed⟩
  by_cases own : place = real
  · subst own
    rw [stores.find] at found
    exact changed (found ▸ same)
  · rcases stores.elsewhere place own with unchanged | ⟨_, dir⟩
    · exact changed (unchanged ▸ found)
    · rw [dir] at found
      cases found

theorem fileMade_iff {tree next : FileTree ByteArray} {content : ByteArray}
    (stores : Stores tree next real content) (below : server.root <+: real) :
    FileMade server tree next ↔ tree.find real = none := by
  constructor
  · rintro ⟨place, other, _, found, missing⟩
    by_cases own : place = real
    · exact own ▸ missing
    · rcases stores.elsewhere place own with unchanged | ⟨_, dir⟩
      · rw [unchanged, missing] at found
        cases found
      · rw [dir] at found
        cases found
  · exact fun missing => ⟨real, content, below, stores.find, missing⟩

theorem limited_of_run {events : List Event} (ready : first.call id = .ready)
    (run : Runs (Sole server faults id) first events last) (ended : Ended (last.call id))
    (excess : server.maxWriteBytes < (server.calls id).content.utf8ByteSize) :
    last.tree = first.tree ∧ last.audit = first.audit := by
  have refused : ∃ error, begin server first.tree (server.calls id) = .error error := by
    cases call : server.calls id with
    | writeTextFile path content =>
        rw [call] at excess
        exact ⟨_, by rw [begin]; exact if_pos excess⟩
    | readTextFile | listDirectory =>
        rw [call] at excess
        exact absurd excess (Nat.not_lt_zero _)
  obtain ⟨error, refused⟩ := refused
  obtain rfl := eq_of_begin_error ready refused run ended
  exact ⟨rfl, rfl⟩

theorem begin_reading {tree : FileTree ByteArray} {call : Call} {target : Path}
    (begun : begin server tree call = .ok (.reading target)) :
    ∃ path, call = .readTextFile path := by
  cases call with
  | readTextFile path => exact ⟨path, rfl⟩
  | writeTextFile path content =>
      rw [begin] at begun
      split at begun
      · cases begun
      · obtain ⟨_, _, other⟩ := map_eq_ok_iff.mp begun
        cases other
  | listDirectory path =>
      obtain ⟨_, _, other⟩ := map_eq_ok_iff.mp begun
      cases other

theorem begin_examining {tree : FileTree ByteArray} {call : Call} {target : Path}
    (begun : begin server tree call = .ok (.examining target)) :
    ∃ path content, call = .writeTextFile path content := by
  cases call with
  | writeTextFile path content => exact ⟨path, content, rfl⟩
  | readTextFile path | listDirectory path =>
      obtain ⟨_, _, other⟩ := map_eq_ok_iff.mp begun
      cases other

theorem told_of_progress (progress : Progress server id first last (last.call id))
    (ended : Ended (last.call id))
    (accessed : (∃ text, last.call id = .returned (.text text)) ∨
      FileChanged server first.tree last.tree) :
    ∃ event, last.audit = first.audit ++ [event] ∧ RowOf server id last event ∧
      (event.action = "create" ↔ FileMade server first.tree last.tree) := by
  cases called : last.call id with
  | returned result =>
      rw [called] at progress accessed
      obtain ⟨tree, result⟩ := progress
      have unchanged : ¬FileChanged server first.tree last.tree :=
        not_fileChanged (tree ▸ addsDirs_refl)
      obtain ⟨shown, returned⟩ := accessed.resolve_right unchanged
      rcases result with ⟨⟨names, rfl⟩, _⟩ | ⟨text, ⟨target, _, _, begun, _⟩, rfl, audit⟩
      · cases returned
      · obtain ⟨path, call⟩ := begin_reading begun
        refine ⟨_, audit, ?_, ?_⟩
        · rw [RowOf, call]
          exact ⟨text, called, rfl⟩
        · have other : "read" ≠ "create" := by decide
          refine iff_of_false other ?_
          rintro ⟨real, content, _, found, missing⟩
          rw [tree, missing] at found
          cases found
  | raised error =>
      rw [called] at progress accessed
      rcases accessed with ⟨_, returned⟩ | changed
      · cases returned
      · exact absurd changed (not_fileChanged progress.1)
  | _ =>
      rw [called] at ended
      exact ended.elim

theorem rowOf_writeRow (begun : begin server first.tree (server.calls id) = .ok (.examining real)) :
    RowOf server id last (writeRow (server.calls id) existed) := by
  obtain ⟨path, content, call⟩ := begin_examining begun
  rw [RowOf, call]
  cases existed
  · exact .inr rfl
  · exact .inl rfl

theorem action_writeRow_iff {call : Call} :
    (writeRow call existed).action = "create" ↔ existed = false := by
  cases existed
  · exact iff_of_true rfl rfl
  · have other : "write" ≠ "create" := by decide
    exact iff_of_false other Bool.noConfusion

/-- What `exists` says of a file. -/
theorem examined_iff (examined : Examined first existed real)
    (canonical : Canonical first.tree real) (housed : Housed first.tree) :
    existed = false ↔ first.tree.find real = none := by
  rw [Examined, nodeAt_of_canonical canonical housed] at examined
  subst examined
  simp

/-- A call that has opened a file for writing is recorded exactly if it goes on to its
row, or leaves the file as it was. -/
theorem told_iff_of_outcome (outcome : Outcome server faults id first existed real last)
    (resolves : Resolves server) (housed : Housed first.tree) :
    ((∃ text, last.call id = .returned (.text text)) ∨
        FileChanged server first.tree last.tree →
      ∃ event, last.audit = first.audit ++ [event] ∧ RowOf server id last event ∧
        (event.action = "create" ↔ FileMade server first.tree last.tree)) ↔
      commits server faults id existed real = true ∨
        first.tree.find real = some (.file (left server faults id existed real)) := by
  obtain ⟨begun, examined, stores, committed⟩ := outcome
  obtain ⟨canonical, below⟩ := canonical_of_begin resolves begun (.inr rfl)
  have truthful := examined_iff examined canonical housed
  have made := fileMade_iff stores below
  by_cases commit : commits server faults id existed real = true
  · rw [if_pos commit] at committed
    obtain ⟨audit, returned⟩ := committed
    refine iff_of_true (fun _ => ⟨_, audit, rowOf_writeRow begun, ?_⟩) (.inl commit)
    rw [action_writeRow_iff, made]
    exact truthful
  · rw [if_neg commit] at committed
    obtain ⟨audit, error, raised⟩ := committed
    constructor
    · intro told
      by_contra neither
      obtain ⟨_, changed⟩ := not_or.mp neither
      obtain ⟨event, extended, _⟩ := told (.inr ⟨real, _, below, stores.find, changed⟩)
      rw [audit] at extended
      simp at extended
    · rintro (finishes | same) accessed
      · exact absurd finishes commit
      · rcases accessed with ⟨text, other⟩ | changed
        · rw [raised] at other
          cases other
        · exact absurd changed (not_fileChanged_of_stores stores same)

theorem recorded_iff {events : List Event} (resolves : Resolves server)
    (housed : Housed first.tree) (ready : first.call id = .ready)
    (run : Runs (Sole server faults id) first events last) (ended : Ended (last.call id)) :
    Recorded server id first last ↔ Sound server id faults first := by
  have limited := limited_of_run ready run ended
  constructor
  · intro recorded existed real opens
    have outcome := opens.outcome resolves ready run ended
    exact (told_iff_of_outcome outcome resolves housed).mp recorded.told
  · intro sound
    refine ⟨fun accessed => ?_, limited⟩
    rcases progress_of_run resolves ready run with progress | ⟨_, existed, real, opens⟩
    · exact told_of_progress progress ended accessed
    · have outcome := opens.outcome resolves ready run ended
      exact (told_iff_of_outcome outcome resolves housed).mpr (sound existed real opens) accessed

end

/-! ## Two writes -/

theorem linkedTree_housed : Housed linkedTree :=
  housed_of_entries (by decide)

/-- A write through a dangling link is recorded. -/
theorem linked_recorded : ∃ events last,
    Runs (Sole linkedServer calm 0) (initial linkedTree) events last ∧
      Recorded linkedServer 0 (initial linkedTree) last := by
  obtain ⟨events, last, run, ended⟩ := call_ends linkedServer calm 0 (initial linkedTree) rfl
  refine ⟨events, last, run, ?_⟩
  have resolves : Resolves linkedServer := fun _ _ _ => resolvePath_leads
  refine (recorded_iff resolves linkedTree_housed rfl run ended).mpr fun existed real _ => .inl ?_
  have taken : accepted (writeRow (linkedServer.calls 0) existed) = true := by
    cases existed
    · decide +kernel
    · decide +kernel
  rw [commits, taken]
  rfl

/-- Behind notes that begin with a NUL there is a file, and no row. -/
theorem nul_not_recorded : ∃ events last,
    Runs (Sole (notesServer "\x00") calm 0) (initial linkedTree) events last ∧
      Ended (last.call 0) ∧ last.tree.find notes = some (.file "\x00".toUTF8) ∧
      last.audit = [] ∧ ¬Recorded (notesServer "\x00") 0 (initial linkedTree) last := by
  obtain ⟨events, last, run, ended, _, _, stores, committed⟩ :=
    @notes_ends "\x00" (by decide +kernel)
  have found : last.tree.find notes = some (.file "\x00".toUTF8) := stores.find
  have refused : commits (notesServer "\x00") calm 0 false notes = false := by
    decide +kernel
  rw [refused] at committed
  obtain ⟨audit, _⟩ := committed
  refine ⟨events, last, run, ended, found, audit, fun recorded => ?_⟩
  have absent : (initial linkedTree).tree.find notes = none := by
    decide +kernel
  have changed : FileChanged (notesServer "\x00") (initial linkedTree).tree last.tree :=
    ⟨notes, _, ⟨["notes.txt"], rfl⟩, found, by rw [absent]; simp⟩
  obtain ⟨event, extended, _⟩ := recorded.told (.inr changed)
  rw [audit] at extended
  simp at extended

end AgenticEnterprise.Mcp.FileAudit
