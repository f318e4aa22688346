import AgenticEnterprise.Mcp.FileRoundTrip
import Mathlib.Data.List.Induction

/-! The filesystem tools as a store of texts. Calls that follow one another, each with any
system call of its own failing, act as writes and reads of a map from places to bytes.
Where a path leads to does not change, since no tool makes a link. -/

set_option autoImplicit false

namespace AgenticEnterprise.Mcp.FileStore

open Core Library FileTree FileJail FileCalls FileRoundTrip

/-! ## Maps -/

section

variable {Key Value : Type} [DecidableEq Key]

/-- The map that a list of writes leads to. -/
def replay (first : Key → Option Value) (writes : List (Key × Value)) : Key → Option Value :=
  writes.foldl (fun map write => Function.update map write.1 (some write.2)) first

theorem replay_append {first : Key → Option Value} {writes more : List (Key × Value)} :
    replay first (writes ++ more) = replay (replay first writes) more :=
  List.foldl_append

/-- What the last of the writes to a key has written. -/
def lastWrite (writes : List (Key × Value)) (key : Key) : Option Value :=
  (writes.reverse.find? fun write => decide (write.1 = key)).map Prod.snd

theorem replay_apply {first : Key → Option Value} {writes : List (Key × Value)} {key : Key} :
    replay first writes key = (lastWrite writes key).or (first key) := by
  induction writes using List.reverseRecOn with
  | nil => rfl
  | append_singleton writes write ih =>
      rw [replay_append, lastWrite, List.reverse_append]
      by_cases same : key = write.1
      · subst same
        simp [replay]
      · have apart : write.1 ≠ key := fun equal => same equal.symm
        have earlier : replay first (writes ++ [write]) key = replay first writes key := by
          rw [replay_append]
          exact Function.update_of_ne same ..
        rw [← replay_append, earlier, ih, lastWrite]
        simp [apart]

end

/-! ## What a call does to the store -/

def filesOf (tree : FileTree ByteArray) (path : Path) : Option ByteArray :=
  match tree.find path with
  | some (.file content) => some content
  | _ => none

/-- One call after another: who goes on, what fails of it, and how it ends. -/
structure Turn where
  id : Nat
  faults : Faults
  ended : Phase

def Takes (server : Server) (state : State) (turn : Turn) (next : State) : Prop :=
  state.call turn.id = .ready ∧ Ended turn.ended ∧ next.call turn.id = turn.ended ∧
    ∃ events, Runs (Sole server turn.faults turn.id) state events next

/-- The ways a call ends, with the bytes it has stored and the row it has left. A write
that raises may have stored the first bytes of its text. -/
inductive Serves (place : String → Except Exn Path) (files : Path → Option ByteArray) :
    Call → Phase → Option (Path × ByteArray) → Option FileAuditEvent → Prop where
  | wrote {path content real existed} :
      place path = .ok real → (existed = true → (files real).isSome = true) →
      Serves place files (.writeTextFile path content)
        (.returned (confirmation (.writeTextFile path content)))
        (some (real, content.toUTF8))
        (some (writeRow (.writeTextFile path content) existed))
  | cut {path content real count error} :
      place path = .ok real →
      Serves place files (.writeTextFile path content) (.raised error)
        (some (real, content.toUTF8.extract 0 count)) none
  | read {path real bytes text} :
      place path = .ok real → files real = some bytes → readText bytes = some text →
      Serves place files (.readTextFile path) (.returned (.text text)) none
        (some (auditEvent path "read" text))
  | listed {path names} :
      Serves place files (.listDirectory path) (.returned (.names names)) none none
  | failed {call error} : Serves place files call (.raised error) none none

section

variable {server : Server} {first state next last : State} {turn : Turn}

theorem filesOf_addsDirs {tree after : FileTree ByteArray} (adds : AddsDirs tree after) :
    filesOf after = filesOf tree := by
  funext path
  unfold filesOf
  rcases adds path with same | ⟨missing, made⟩
  · rw [same]
  · rw [missing, made]

theorem filesOf_stores {tree after : FileTree ByteArray} {real : Path} {content : ByteArray}
    (stores : Stores tree after real content) :
    filesOf after = Function.update (filesOf tree) real (some content) := by
  funext path
  by_cases same : path = real
  · subst same
    simp [filesOf, stores.find]
  · rw [Function.update_of_ne same]
    unfold filesOf
    rcases stores.elsewhere path same with unchanged | ⟨missing, made⟩
    · rw [unchanged]
    · rw [missing, made]

/-- The phases that belong to the tool that is called. -/
def Fits : Call → Phase → Prop
  | .readTextFile _, .reading _ | .readTextFile _, .auditing _ (.text _)
  | .readTextFile _, .returned (.text _) => True
  | .writeTextFile _ _, .examining _ | .writeTextFile _ _, .making _ _ _
  | .writeTextFile _ _, .confirming _ _ _ _ _ | .writeTextFile _ _, .writing _ _
  | .writeTextFile _ _, .auditing _ (.line _) | .writeTextFile _ _, .returned (.line _) => True
  | .listDirectory _, .listing _ | .listDirectory _, .returned (.names _) => True
  | _, .ready | _, .raised _ => True
  | _, _ => False

theorem fits_raised {call : Call} {error : Exn} : Fits call (.raised error) := by
  cases call <;> trivial

theorem fits_begin {tree : FileTree ByteArray} {call : Call} :
    Fits call
      (match begin server tree call with
        | .ok phase => phase
        | .error error => .raised error) := by
  cases begun : begin server tree call with
  | error error => exact fits_raised
  | ok phase =>
      cases call with
      | readTextFile path | listDirectory path =>
          obtain ⟨target, _, rfl⟩ := map_eq_ok_iff.mp begun
          trivial
      | writeTextFile path content =>
          simp only [begin] at begun
          split at begun
          · cases begun
          · obtain ⟨target, _, rfl⟩ := map_eq_ok_iff.mp begun
            trivial

theorem fits_failed {call : Call} {before phase : Phase} (stops : failed before = some phase)
    (fits : Fits call before) : Fits call phase := by
  cases before with
  | making existed target dirs =>
      cases dirs <;> cases stops <;> cases call <;> trivial
  | ready | returned | raised => cases stops
  | _ =>
      cases stops
      exact fits_raised

theorem fits_proceed {id : Nat} (taken : proceed server state id = some next)
    (fits : Fits (server.calls id) (state.call id)) :
    Fits (server.calls id) (next.call id) := by
  revert fits
  generalize server.calls id = call
  cases phase : state.call id with
  | ready | returned | raised =>
      simp only [proceed, phase] at taken
      cases taken
  | reading target =>
      simp only [proceed, phase, Option.some.injEq, State.readTarget] at taken
      subst taken
      intro fits
      split
      · rw [setPhase_call]
        exact fits_raised
      · rw [setPhase_call]
        split
        · exact fits_raised
        · cases call <;> exact fits
  | examining target =>
      simp only [proceed, phase, Option.some.injEq] at taken
      subst taken
      intro fits
      rw [setPhase_call]
      cases call <;> exact fits
  | making existed target dirs =>
      intro fits
      cases dirs with
      | nil =>
          simp only [proceed, phase, Option.some.injEq, State.openTarget] at taken
          subst taken
          split
          · rw [setPhase_call]
            exact fits_raised
          · rw [setPhase_call]
            cases call <;> exact fits
      | cons entry dirs =>
          simp only [proceed, phase, Option.some.injEq, State.makeTarget] at taken
          subst taken
          split
          · rw [setPhase_call]
            cases call <;> exact fits
          · split
            · rw [setPhase_call]
              cases call <;> exact fits
            · rw [setPhase_call]
              exact fits_raised
          · rw [setPhase_call]
            cases call <;> exact fits
  | confirming existed target fault dir dirs =>
      simp only [proceed, phase, Option.some.injEq] at taken
      subst taken
      intro fits
      rw [setPhase_call]
      split
      · cases call <;> exact fits
      · exact fits_raised
  | writing existed real =>
      simp only [proceed, phase, Option.some.injEq, State.writeTarget] at taken
      subst taken
      intro fits
      rw [setPhase_call]
      cases call <;> exact fits
  | listing target =>
      simp only [proceed, phase, Option.some.injEq, State.listTarget] at taken
      subst taken
      intro fits
      split
      · rw [setPhase_call]
        exact fits_raised
      · rw [setPhase_call]
        cases call <;> exact fits
  | auditing event result =>
      simp only [proceed, phase, Option.some.injEq] at taken
      subst taken
      intro fits
      rw [setPhase_call]
      cases call <;> cases result <;> first | exact fits | exact fits.elim

theorem fits_of_run {faults : Faults} {id : Nat} {events : List Event}
    (ready : first.call id = .ready) (run : Runs (Sole server faults id) first events last) :
    Fits (server.calls id) (last.call id) := by
  refine @Runs.invariant _ _ _ (fun state => Fits (server.calls id) (state.call id))
    (fun {state event next} fits taken => ?_) _ _ _ run ?_
  · rcases sole_cases taken with ⟨_, rfl⟩ | ⟨_, phase, stops, rfl⟩ | ⟨_, taken⟩
    · rw [setPhase_call]
      exact fits_begin
    · rw [setPhase_call]
      exact fits_failed stops fits
    · exact fits_proceed taken fits
  · rw [ready]
    cases server.calls id <;> trivial

/-- What a call leaves behind, in terms of the store. -/
structure Left (server : Server) (state : State) (turn : Turn) (next : State)
    (write : Option (Path × ByteArray)) (row : Option FileAuditEvent) : Prop where
  serves : Serves (resolveInRoot server state.tree) (filesOf state.tree) (server.calls turn.id)
    turn.ended write row
  files : filesOf next.tree = replay (filesOf state.tree) write.toList
  audit : next.audit = state.audit ++ row.toList
  links : ∀ path, next.tree.link? path = state.tree.link? path

/-- A call that has opened no file for writing. -/
theorem left_of_progress (resolves : Resolves server)
    (fits : Fits (server.calls turn.id) turn.ended) (ended : Ended turn.ended)
    (progress : Progress server turn.id state next turn.ended) :
    ∃ row, Left server state turn next none row := by
  cases phase : turn.ended with
  | raised error =>
      rw [phase] at progress
      obtain ⟨adds, audit⟩ := progress
      refine ⟨none, ?_, filesOf_addsDirs adds, by simp [audit], fun path => adds.link?⟩
      rw [phase]
      exact .failed
  | returned result =>
      rw [phase] at progress fits
      obtain ⟨tree, ⟨⟨names, rfl⟩, audit⟩ | ⟨text, reads, rfl, audit⟩⟩ := progress
      · refine ⟨none, ?_, by rw [tree]; rfl, by simp [audit], fun path => by rw [tree]⟩
        rw [phase]
        cases call : server.calls turn.id with
        | listDirectory path => exact .listed
        | _ =>
            rw [call] at fits
            exact fits.elim
      · refine ⟨some _, ?_, by rw [tree]; rfl, audit, fun path => by rw [tree]⟩
        rw [phase]
        obtain ⟨target, content, real, begun, opened, decoded⟩ := reads
        obtain ⟨canonical, _⟩ := canonical_of_begin resolves begun (.inl rfl)
        obtain rfl := openRead_ok opened canonical
        cases call : server.calls turn.id with
        | readTextFile path =>
            rw [call] at begun
            obtain ⟨place, placed, same⟩ := map_eq_ok_iff.mp begun
            cases same
            refine .read placed ?_ decoded
            rw [filesOf, openRead_find opened]
        | _ =>
            rw [call] at fits
            exact fits.elim
  | _ =>
      rw [phase] at ended
      exact ended.elim

theorem filesOf_isSome {tree : FileTree ByteArray} {real : Path} (canonical : Canonical tree real)
    (before : tree.find real = none ∨ ∃ old, tree.find real = some (.file old))
    (present : (tree.nodeAt real).isSome = true) : (filesOf tree real).isSome = true := by
  unfold nodeAt at present
  split at present
  · rename_i place located
    rw [locate_eq located canonical] at present
    rcases before with missing | ⟨old, found⟩
    · rw [missing] at present
      cases present
    · rw [filesOf, found]
      rfl
  · cases present

/-- A call that has opened a file for writing. -/
theorem left_of_outcome {existed : Bool} {real : Path} (resolves : Resolves server)
    (outcome : Outcome server turn.faults turn.id state existed real next)
    (ended : next.call turn.id = turn.ended) :
    ∃ row, Left server state turn next
      (some (real, left server turn.faults turn.id existed real)) row := by
  obtain ⟨begun, examined, stores, committed⟩ := outcome
  obtain ⟨canonical, _⟩ := canonical_of_begin resolves begun (.inr rfl)
  have there : existed = true → (filesOf state.tree real).isSome = true := by
    intro seen
    rw [seen, Examined, eq_comm] at examined
    exact filesOf_isSome canonical stores.before examined
  obtain ⟨path, content, call, placed⟩ : ∃ path content,
      server.calls turn.id = .writeTextFile path content ∧
        resolveInRoot server state.tree path = .ok real := by
    cases call : server.calls turn.id with
    | writeTextFile path content =>
        simp only [call, begin] at begun
        split at begun
        · cases begun
        · obtain ⟨target, resolved, same⟩ := map_eq_ok_iff.mp begun
          cases same
          exact ⟨path, content, rfl, resolved⟩
    | readTextFile path | listDirectory path =>
        rw [call] at begun
        obtain ⟨target, _, same⟩ := map_eq_ok_iff.mp begun
        cases same
  rw [ended] at committed
  by_cases commit : commits server turn.faults turn.id existed real = true
  · rw [if_pos commit] at committed
    obtain ⟨audit, returned⟩ := committed
    simp only [commits, Bool.and_eq_true, Bool.not_eq_true'] at commit
    have whole : left server turn.faults turn.id existed real = content.toUTF8 := by
      simp [left, commit.1.1, call, Call.content]
    refine ⟨some _, ?_, filesOf_stores stores, audit, fun path => stores.link?⟩
    rw [returned, call, whole]
    exact .wrote placed there
  · rw [if_neg commit] at committed
    obtain ⟨audit, error, raised⟩ := committed
    refine ⟨none, ?_, filesOf_stores stores, by simp [audit], fun path => stores.link?⟩
    have cut : ∃ count, left server turn.faults turn.id existed real =
        content.toUTF8.extract 0 count := by
      simp only [left, call, Call.content]
      split
      · exact ⟨_, rfl⟩
      · exact ⟨content.toUTF8.size, ByteArray.extract_zero_size.symm⟩
    obtain ⟨count, same⟩ := cut
    rw [raised, call, same]
    exact .cut placed

theorem left_of_takes (resolves : Resolves server) (taken : Takes server state turn next) :
    ∃ write row, Left server state turn next write row := by
  obtain ⟨ready, ended, same, events, run⟩ := taken
  have fits := fits_of_run ready run
  have ends : Ended (next.call turn.id) := same ▸ ended
  rw [same] at fits
  rcases progress_of_run resolves ready run with progress | ⟨_, existed, real, opens⟩
  · rw [same] at progress
    exact ⟨none, left_of_progress resolves fits ended progress⟩
  · exact ⟨_, left_of_outcome resolves (opens.outcome resolves ready run ends) same⟩

end

/-! ## Sessions -/

/-- A turn with the bytes it has stored and the row it has left. -/
structure Entry where
  turn : Turn
  write : Option (Path × ByteArray)
  row : Option FileAuditEvent

/-- Every turn of a session is served on the files that the turns before it have left. -/
def Accounts (place : String → Except Exn Path) (calls : Nat → Call) :
    (Path → Option ByteArray) → List Entry → Prop
  | _, [] => True
  | files, entry :: rest =>
      Serves place files (calls entry.turn.id) entry.turn.ended entry.write entry.row ∧
        Accounts place calls (replay files entry.write.toList) rest

section

variable {server : Server} {first last : State} {turns : List Turn}

theorem place_congr {tree after : FileTree ByteArray} (links : ResolvesByLinks server)
    (same : ∀ path, after.link? path = tree.link? path) :
    resolveInRoot server after = resolveInRoot server tree := by
  funext path
  rw [resolveInRoot, resolveInRoot, links tree after _ same]

/-- A session is a list of writes and reads of the map of files. -/
theorem session_accounts (resolves : Resolves server) (links : ResolvesByLinks server)
    (session : Runs (Takes server) first turns last) :
    ∃ entries, entries.map Entry.turn = turns ∧
      Accounts (resolveInRoot server first.tree) server.calls (filesOf first.tree) entries ∧
      filesOf last.tree = replay (filesOf first.tree) (entries.filterMap Entry.write) ∧
      last.audit = first.audit ++ entries.filterMap Entry.row ∧
      ∀ path, last.tree.link? path = first.tree.link? path := by
  induction session with
  | refl => exact ⟨[], rfl, trivial, rfl, by simp, fun _ => rfl⟩
  | @cons first middle last turn turns taken _ ih =>
      obtain ⟨write, row, kept⟩ := left_of_takes resolves taken
      obtain ⟨entries, rfl, accounts, files, audit, linked⟩ := ih
      rw [place_congr links kept.links, kept.files] at accounts
      refine ⟨⟨turn, write, row⟩ :: entries, rfl, ⟨kept.serves, accounts⟩, ?_, ?_,
        fun path => (linked path).trans (kept.links path)⟩
      · rw [files, kept.files, ← replay_append]
        cases write <;> rfl
      · rw [audit, kept.audit]
        cases row <;> simp

end

/-- A text that is read is what the last write to its place has left, or what was there
at first; the rows in front of the reader's are those of the earlier calls. -/
theorem read_finds_last_write (server : Server) (first last : State) (turns : List Turn)
    (reading : Turn) (path text : String) (resolves : Resolves server)
    (links : ResolvesByLinks server)
    (session : Runs (Takes server) first (turns ++ [reading]) last)
    (call : server.calls reading.id = .readTextFile path)
    (returned : reading.ended = .returned (.text text)) :
    ∃ entries real bytes, entries.map Entry.turn = turns ∧
      Accounts (resolveInRoot server first.tree) server.calls (filesOf first.tree) entries ∧
      resolveInRoot server first.tree path = .ok real ∧
      (lastWrite (entries.filterMap Entry.write) real).or (filesOf first.tree real) =
        some bytes ∧
      readText bytes = some text ∧
      last.audit =
        first.audit ++ entries.filterMap Entry.row ++ [auditEvent path "read" text] := by
  obtain ⟨middle, before, final⟩ := session.split
  cases final with
  | cons taken rest =>
      cases rest
      obtain ⟨entries, same, accounts, files, audit, linked⟩ :=
        session_accounts resolves links before
      obtain ⟨write, row, kept⟩ := left_of_takes resolves taken
      obtain ⟨serves, _, logged, _⟩ := kept
      rw [call, returned] at serves
      cases serves with
      | read placed found decoded =>
          rw [place_congr links linked] at placed
          rw [files, replay_apply] at found
          exact ⟨entries, _, _, same, accounts, placed, found, decoded, by rw [logged, audit]; rfl⟩

theorem notes_found : ∃ (last : State), ∃ entries real bytes,
    entries.map Entry.turn =
      [⟨0, calm, .returned (confirmation (.writeTextFile "notes.txt" "a\r\nb"))⟩] ∧
      Accounts (resolveInRoot (notesServer "a\r\nb") linkedTree) (notesServer "a\r\nb").calls
        (filesOf linkedTree) entries ∧
      resolveInRoot (notesServer "a\r\nb") linkedTree "notes.txt" = .ok real ∧
      (lastWrite (entries.filterMap Entry.write) real).or (filesOf linkedTree real) = some bytes ∧
      readText bytes = some "a\nb" ∧
      last.audit = [] ++ entries.filterMap Entry.row ++ [auditEvent "notes.txt" "read" "a\nb"] := by
  have resolves : Resolves (notesServer "a\r\nb") := fun _ _ _ => resolvePath_leads
  have same : asRead "a\r\nb" = "a\nb" := by decide +kernel
  obtain ⟨events, written, run, succeeded, waiting⟩ :=
    @notes_written "a\r\nb" (by decide +kernel) (by decide +kernel)
  obtain ⟨existed, real, write⟩ := written_of_run resolves rfl rfl run succeeded
  obtain ⟨more, last, reading, returned, _, _⟩ :=
    write.read notesServer_byLinks waiting rfl (by decide +kernel)
  rw [same] at returned
  have session : Runs (Takes (notesServer "a\r\nb")) (initial linkedTree)
      ([⟨0, calm, .returned (confirmation (.writeTextFile "notes.txt" "a\r\nb"))⟩] ++
        [⟨1, calm, .returned (.text "a\nb")⟩]) last :=
    .cons ⟨rfl, trivial, succeeded, events, run⟩
      (.single ⟨waiting, trivial, returned, more, reading⟩)
  exact ⟨last, read_finds_last_write _ _ _ _ _ _ _ resolves notesServer_byLinks session rfl rfl⟩

end AgenticEnterprise.Mcp.FileStore
