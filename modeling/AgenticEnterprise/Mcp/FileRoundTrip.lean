import AgenticEnterprise.Mcp.FileCalls

/-! Writing a file and reading it back. `write_text_file` stores the bytes of the text,
and `read_text_file` opens the file in text mode. -/

set_option autoImplicit false

namespace AgenticEnterprise.Mcp.FileRoundTrip

open Core Library FileTree FileJail FileCalls

/-! ## Text mode -/

theorem not_mem_universalNewlines (text : List Char) : '\r' ∉ universalNewlines text := by
  fun_induction universalNewlines text with
  | case1 rest ih => simp [ih]
  | case2 rest _ ih => simp [ih]
  | case3 char rest _ other ih =>
      have apart : '\r' ≠ char := fun same => other same.symm
      simp [ih, apart]
  | case4 => simp

theorem universalNewlines_eq_self_iff {text : List Char} :
    universalNewlines text = text ↔ '\r' ∉ text := by
  constructor
  · intro same
    rw [← same]
    exact not_mem_universalNewlines text
  · intro absent
    fun_induction universalNewlines text with
    | case1 rest => exact absurd List.mem_cons_self absent
    | case2 rest => exact absurd List.mem_cons_self absent
    | case3 char rest _ _ ih => rw [ih fun member => absent (.tail _ member)]
    | case4 => rfl

/-- What text mode makes of a text. -/
def asRead (content : String) : String :=
  String.ofList (universalNewlines content.toList)

theorem asRead_eq_self_iff {content : String} :
    asRead content = content ↔ '\r' ∉ content.toList := by
  rw [← universalNewlines_eq_self_iff, asRead, ← String.toList_inj, String.toList_ofList]

theorem readText_toUTF8 (content : String) : readText content.toUTF8 = some (asRead content) := by
  rw [readText, String.toUTF8_eq_toByteArray, Text.fromUTF8?_toByteArray]
  rfl

/-! ## A write and a read -/

section

variable (server : Server)

/-- Only the links of a tree decide where `Path.resolve` leads. -/
def ResolvesByLinks : Prop :=
  ∀ tree next names, (∀ path, next.link? path = tree.link? path) →
    server.resolve next names = server.resolve tree names

/-- The file that a path resolves to has so many bytes. -/
def FileSize (tree : FileTree ByteArray) (path : String) (size : Nat) : Prop :=
  ∃ target bytes, resolveInRoot server tree path = .ok target ∧
    tree.nodeAt target = some (.file bytes) ∧ bytes.size = size

/-- The next read gives the text that was written, and both rows count the bytes of
the file. -/
def RoundTrips (reader : Nat) (first written : State) (path content : String) : Prop :=
  ∃ events last wrote read, Runs (Sole server calm reader) written events last ∧
    last.call reader = .returned (.text content) ∧
    last.audit = first.audit ++ [wrote, read] ∧ wrote.path = path ∧ read.path = path ∧
    FileSize server last.tree path wrote.byteCount ∧ read.byteCount = wrote.byteCount

end

section

variable {server : Server} {faults : Faults} {writer reader : Nat} {first written last : State}
  {path content line : String} {events : List Event} {existed : Bool} {real : Path}

/-- What a write that succeeds leaves. -/
structure Written (server : Server) (first written : State) (path content : String)
    (existed : Bool) (real : Path) : Prop where
  resolved : resolveInRoot server first.tree path = .ok real
  stores : Stores first.tree written.tree real content.toUTF8
  audit : written.audit = first.audit ++ [writeRow (.writeTextFile path content) existed]
  taken : accepted (writeRow (.writeTextFile path content) existed) = true

theorem written_of_run (resolves : Resolves server) (ready : first.call writer = .ready)
    (call : server.calls writer = .writeTextFile path content)
    (run : Runs (Sole server faults writer) first events written)
    (succeeded : written.call writer = .returned (.line line)) :
    ∃ existed real, Written server first written path content existed real := by
  have ended : Ended (written.call writer) := by
    rw [succeeded]
    trivial
  rcases progress_of_run resolves ready run with progress | ⟨_, existed, real, opens⟩
  · rw [succeeded] at progress
    rcases progress.2 with ⟨⟨_, other⟩, _⟩ | ⟨_, _, other, _⟩
    · cases other
    · cases other
  · obtain ⟨begun, _, stores, committed⟩ := opens.outcome resolves ready run ended
    by_cases commit : commits server faults writer existed real = true
    · rw [if_pos commit, call] at committed
      simp only [commits, call, Bool.and_eq_true, Bool.not_eq_true'] at commit
      obtain ⟨⟨unfailed, _⟩, taken⟩ := commit
      rw [call, begin] at begun
      split at begun
      · cases begun
      · obtain ⟨target, resolved, same⟩ := map_eq_ok_iff.mp begun
        cases same
        rw [left, unfailed, call] at stores
        exact ⟨existed, real, resolved, stores, committed.1, taken⟩
    · rw [if_neg commit] at committed
      obtain ⟨_, error, raised⟩ := committed
      rw [succeeded] at raised
      cases raised

theorem Written.resolves (write : Written server first written path content existed real)
    (links : ResolvesByLinks server) : resolveInRoot server written.tree path = .ok real := by
  have same : resolveInRoot server written.tree path = resolveInRoot server first.tree path := by
    rw [resolveInRoot, resolveInRoot,
      links first.tree written.tree _ fun place => write.stores.link?]
  rw [same, write.resolved]

theorem Written.read (write : Written server first written path content existed real)
    (links : ResolvesByLinks server) (waiting : written.call reader = .ready)
    (call : server.calls reader = .readTextFile path)
    (taken : accepted (auditEvent path "read" (asRead content)) = true) :
    ∃ events last, Runs (Sole server calm reader) written events last ∧
      last.call reader = .returned (.text (asRead content)) ∧ last.tree = written.tree ∧
      last.audit = written.audit ++ [auditEvent path "read" (asRead content)] := by
  have begun : begin server written.tree (server.calls reader) = .ok (.reading real) := by
    rw [call, begin, write.resolves links]
    rfl
  let result : Result := .text (asRead content)
  let event := auditEvent path "read" (asRead content)
  let reading := written.setPhase reader (.reading real)
  let auditing := (reading.record reader .read real).setPhase reader (.auditing event result)
  have opened : proceed server reading reader = some auditing := by
    have bytes : reading.tree.openRead real = .ok (content.toUTF8, real) := write.stores.opens
    rw [proceed, setPhase_call]
    simp only [State.readTarget, bytes, readText_toUTF8, call]
    rfl
  have committed : proceed server auditing reader =
      some ({ auditing with audit := auditing.audit ++ [event] }.setPhase reader
        (.returned result)) := by
    rw [proceed, setPhase_call]
  have kept : refused (.auditing event result) = false := by
    rw [refused, taken]
    rfl
  exact ⟨_, _, .cons (sole_of_begin waiting begun)
    (.cons (sole_of_proceed setPhase_call (by simp) rfl opened)
      (.single (sole_of_proceed setPhase_call (by simp) kept committed))),
    setPhase_call, rfl, rfl⟩

theorem Written.returned {text : String} (resolves : Resolves server)
    (write : Written server first written path content existed real)
    (links : ResolvesByLinks server) (waiting : written.call reader = .ready)
    (call : server.calls reader = .readTextFile path)
    (run : Runs (Sole server faults reader) written events last)
    (returned : last.call reader = .returned (.text text)) : text = asRead content := by
  have begun : begin server written.tree (server.calls reader) = .ok (.reading real) := by
    rw [call, begin, write.resolves links]
    rfl
  have ended : Ended (last.call reader) := by
    rw [returned]
    trivial
  rcases progress_of_run resolves waiting run with progress | ⟨_, _, _, opens⟩
  · rw [returned] at progress
    rcases progress.2 with ⟨⟨_, other⟩, _⟩ | ⟨_, reads, same, _⟩
    · cases other
    · obtain ⟨target, bytes, place, again, opened, read⟩ := reads
      cases same
      rw [begun] at again
      cases again
      rw [write.stores.opens] at opened
      cases opened
      rw [readText_toUTF8] at read
      exact (Option.some.inj read).symm
  · have other := (opens.outcome resolves waiting run ended).begun
    rw [begun] at other
    cases other

/-- A write that succeeds is read back as it is exactly if no carriage return is in it. -/
theorem roundTrips_iff (resolves : Resolves server) (links : ResolvesByLinks server)
    (ready : first.call writer = .ready)
    (call : server.calls writer = .writeTextFile path content)
    (run : Runs (Sole server faults writer) first events written)
    (succeeded : written.call writer = .returned (.line line))
    (waiting : written.call reader = .ready)
    (next : server.calls reader = .readTextFile path) :
    RoundTrips server reader first written path content ↔ '\r' ∉ content.toList := by
  obtain ⟨existed, real, write⟩ := written_of_run resolves ready call run succeeded
  rw [← asRead_eq_self_iff]
  constructor
  · intro trip
    obtain ⟨_, last, _, _, run, returned, _⟩ := trip
    exact (write.returned resolves links waiting next run returned).symm
  · intro same
    have short : Columns.varchar 32 "read" = true := by decide
    have taken : accepted (auditEvent path "read" (asRead content)) = true := by
      rw [same, accepted_auditEvent short]
      exact (accepted_auditEvent (writeRow_short existed)).mp write.taken
    obtain ⟨events, last, run, returned, tree, audit⟩ := write.read links waiting next taken
    rw [same] at returned audit
    rw [write.audit, List.append_assoc, List.singleton_append] at audit
    have size : FileSize server last.tree path content.utf8ByteSize :=
      ⟨real, content.toUTF8, by rw [tree]; exact write.resolves links,
        by rw [tree]; exact openRead_nodeAt write.stores.opens, rfl⟩
    exact ⟨events, last, _, _, run, returned, audit, rfl, rfl, size, rfl⟩

end

/-! ## Two texts -/

theorem notesServer_byLinks {content : String} : ResolvesByLinks (notesServer content) := by
  intro tree next names same
  show resolvePath next names = resolvePath tree names
  rw [resolvePath, resolvePath, walk_congr same]

theorem notes_written {content : String} (fits : content.utf8ByteSize ≤ 1048576)
    (taken : accepted (writeRow (.writeTextFile "notes.txt" content) false) = true) :
    ∃ events written, Runs (Sole (notesServer content) calm 0) (initial linkedTree) events written ∧
      written.call 0 = .returned (confirmation (.writeTextFile "notes.txt" content)) ∧
      written.call 1 = .ready := by
  obtain ⟨events, written, run, _, outcome⟩ := notes_ends fits
  have commit : commits (notesServer content) calm 0 false notes = true := taken
  have committed := outcome.committed
  rw [if_pos commit] at committed
  exact ⟨events, written, run, committed.2, other_of_run (by decide) run⟩

theorem lines_roundTrip : ∃ events written,
    Runs (Sole (notesServer "a\nb") calm 0) (initial linkedTree) events written ∧
      RoundTrips (notesServer "a\nb") 1 (initial linkedTree) written "notes.txt" "a\nb" := by
  obtain ⟨events, written, run, succeeded, waiting⟩ :=
    @notes_written "a\nb" (by decide +kernel) (by decide +kernel)
  exact ⟨events, written, run, (roundTrips_iff (fun _ _ _ => resolvePath_leads)
    notesServer_byLinks rfl rfl run succeeded waiting rfl).mpr (by decide)⟩

/-- A line that ends as on another system comes back shorter, and so is its count. -/
theorem crlf_not_roundTrip : ∃ events written,
    Runs (Sole (notesServer "a\r\nb") calm 0) (initial linkedTree) events written ∧
      (∃ line, written.call 0 = .returned (.line line)) ∧
      (∃ more last, Runs (Sole (notesServer "a\r\nb") calm 1) written more last ∧
        last.call 1 = .returned (.text "a\nb") ∧
        last.audit.map FileAuditEvent.byteCount = [4, 3]) ∧
      ¬RoundTrips (notesServer "a\r\nb") 1 (initial linkedTree) written "notes.txt" "a\r\nb" := by
  obtain ⟨events, written, run, succeeded, waiting⟩ :=
    @notes_written "a\r\nb" (by decide +kernel) (by decide +kernel)
  have resolves : Resolves (notesServer "a\r\nb") := fun _ _ _ => resolvePath_leads
  obtain ⟨existed, real, write⟩ := written_of_run resolves rfl rfl run succeeded
  have read : asRead "a\r\nb" = "a\nb" := by decide +kernel
  obtain ⟨more, last, reading, returned, _, audit⟩ :=
    write.read notesServer_byLinks waiting rfl (by decide +kernel)
  rw [write.audit, read] at audit
  rw [read] at returned
  refine ⟨events, written, run, ⟨_, succeeded⟩, ⟨more, last, reading, returned, ?_⟩, ?_⟩
  · rw [audit]
    rfl
  · intro trip
    obtain ⟨_, last, _, _, run, other, _⟩ := trip
    have same := write.returned resolves notesServer_byLinks waiting rfl run other
    rw [read] at same
    revert same
    decide

end AgenticEnterprise.Mcp.FileRoundTrip
