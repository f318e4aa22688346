import AgenticEnterprise.Core.Exceptions
import AgenticEnterprise.Core.Text
import AgenticEnterprise.Library.FileTree
import AgenticEnterprise.Library.Runs
import Mathlib.Logic.Function.Basic

/-! The filesystem tools and their path jail: `app/mcp/fs_server.py` and
`app/mcp/paths.py`.

Tools run side by side. Between two system calls of one of them the others go on;
any system call may fail. -/

set_option autoImplicit false

namespace AgenticEnterprise.Mcp.FileJail

open Core Library FileTree

inductive Call where
  | readTextFile (path : String)
  | writeTextFile (path content : String)
  | listDirectory (path : String)
  deriving DecidableEq, Repr

def Call.path : Call → String
  | .readTextFile path | .writeTextFile path _ | .listDirectory path => path

def Call.content : Call → String
  | .writeTextFile _ content => content
  | .readTextFile _ | .listDirectory _ => ""

/-- `resolve` is `Path.resolve` and `calls` are the tool calls the server gets. -/
structure Server where
  resolve : FileTree ByteArray → List String → Except Exn Path
  root : Path
  maxWriteBytes : Nat
  calls : Nat → Call

structure FileAuditEvent where
  path : String
  action : String
  byteCount : Nat
  preview : String
  deriving DecidableEq, Repr

inductive Result where
  | text (content : String)
  | line (confirmation : String)
  | names (names : List String)
  deriving DecidableEq, Repr

/-- What a call does next. `making` has the directories that `mkdir` is still to be
called for, each with the `parents` of that call. -/
inductive Phase where
  | ready
  | reading (target : Path)
  | examining (target : Path)
  | making (existed : Bool) (target : Path) (dirs : List (Path × Bool))
  | confirming (existed : Bool) (target : Path) (fault : Fault) (dir : Path)
      (dirs : List (Path × Bool))
  | writing (existed : Bool) (real : Path)
  | listing (target : Path)
  | auditing (event : FileAuditEvent) (result : Result)
  | returned (result : Result)
  | raised (error : Exn)
  deriving DecidableEq, Repr

inductive AccessKind where
  | read
  | changed
  | created
  | listed
  deriving DecidableEq, Repr

/-- What a system call of a tool did, and where. -/
structure Access where
  id : Nat
  kind : AccessKind
  real : Path
  deriving DecidableEq, Repr

structure State where
  tree : FileTree ByteArray
  call : Nat → Phase := fun _ => .ready
  accesses : List Access := []
  audit : List FileAuditEvent := []

/-- `fail` is a system call that fails, or a call that is given up. A write that fails
has written so many bytes. -/
inductive Event where
  | start (id : Nat)
  | proceed (id : Nat)
  | fail (id written : Nat)
  deriving DecidableEq, Repr

def State.setPhase (state : State) (id : Nat) (phase : Phase) : State :=
  { state with call := Function.update state.call id phase }

def State.record (state : State) (id : Nat) (kind : AccessKind) (real : Path) : State :=
  { state with accesses := state.accesses ++ [⟨id, kind, real⟩] }

def faultExn : Fault → Exn
  | .notFound => .external "FileNotFoundError"
  | .exists => .external "FileExistsError"
  | .notDirectory => .external "NotADirectoryError"
  | .isDirectory => .external "IsADirectoryError"
  | .loop => .external "OSError"
  | .denied => .external "PermissionError"

/-- What text mode makes of the ends of lines. -/
def universalNewlines : List Char → List Char
  | '\r' :: '\n' :: rest => '\n' :: universalNewlines rest
  | '\r' :: rest => '\n' :: universalNewlines rest
  | char :: rest => char :: universalNewlines rest
  | [] => []

def readText (content : ByteArray) : Option String :=
  (String.fromUTF8? content).map fun text => String.ofList (universalNewlines text.toList)

/-- A file whose first bytes are overwritten. -/
def overwritten (data content : ByteArray) : ByteArray :=
  data ++ content.extract data.size content.size

def auditEvent (path action content : String) : FileAuditEvent where
  path := path
  action := action
  byteCount := content.utf8ByteSize
  preview := String.ofList (content.toList.take 200)

/-- `ROOT / relative_path`: an absolute path replaces `ROOT`. -/
def joined (root : Path) (relativePath : String) : List String :=
  if isAbsolute relativePath then pathNames relativePath else root ++ pathNames relativePath

variable (server : Server)

def resolveInRoot (tree : FileTree ByteArray) (relativePath : String) : Except Exn Path := do
  let candidate ← server.resolve tree (joined server.root relativePath)
  if server.root.isPrefixOf candidate then
    return candidate
  else
    throw (.valueError ("path escapes the agent files directory: " ++ Text.pyRepr relativePath))

/-- A tool up to its first access. -/
def begin (tree : FileTree ByteArray) (call : Call) : Except Exn Phase :=
  match call with
  | .readTextFile path => (resolveInRoot server tree path).map .reading
  | .writeTextFile path content =>
      if server.maxWriteBytes < content.utf8ByteSize then
        .error (.valueError ("write of " ++ toString content.utf8ByteSize ++
          " bytes exceeds the " ++ toString server.maxWriteBytes ++ "-byte limit"))
      else (resolveInRoot server tree path).map .examining
  | .listDirectory path => (resolveInRoot server tree path).map .listing

/-- `read_text` of the target. -/
def State.readTarget (state : State) (id : Nat) (target : Path) : State :=
  match state.tree.openRead target with
  | .error fault => state.setPhase id (.raised (faultExn fault))
  | .ok (content, real) =>
      (state.record id .read real).setPhase id <|
        match readText content with
        | none => .raised (.external "UnicodeDecodeError")
        | some text => .auditing (auditEvent (server.calls id).path "read" text) (.text text)

/-- One round of `Path.mkdir`. -/
def State.makeTarget (state : State) (id : Nat) (existed : Bool) (target dir : Path)
    (parents : Bool) (dirs : List (Path × Bool)) : State :=
  match state.tree.makeDir dir with
  | .ok (tree, real) =>
      ({ state with tree := tree }.record id .created real).setPhase id
        (.making existed target dirs)
  | .error .notFound =>
      if parents ∧ dir.dropLast ≠ dir then
        state.setPhase id (.making existed target ((dir.dropLast, true) :: (dir, false) :: dirs))
      else state.setPhase id (.raised (faultExn .notFound))
  | .error fault => state.setPhase id (.confirming existed target fault dir dirs)

/-- The opening of `write_bytes`. -/
def State.openTarget (state : State) (id : Nat) (existed : Bool) (target : Path) : State :=
  match state.tree.openWrite .empty target with
  | .error fault => state.setPhase id (.raised (faultExn fault))
  | .ok (tree, real) =>
      let kind := if (state.tree.find real).isSome then AccessKind.changed else .created
      ({ state with tree := tree }.record id kind real).setPhase id (.writing existed real)

def State.writeTarget (state : State) (id : Nat) (existed : Bool) (real : Path) : State :=
  let call := server.calls id
  let tree := state.tree.overwrite (overwritten call.content.toUTF8) real
  ({ state with tree := tree }.record id .changed real).setPhase id
    (.auditing (auditEvent call.path (if existed then "write" else "create") call.content)
      (.line ("wrote " ++ toString call.content.utf8ByteSize ++ " bytes to " ++ call.path)))

/-- What is in the file of a write that fails. -/
def State.cutTarget (state : State) (id written : Nat) : State :=
  match state.call id with
  | .writing _ real =>
      let data := (server.calls id).content.toUTF8.extract 0 written
      { state with tree := state.tree.overwrite (overwritten data) real }.record id .changed real
  | _ => state

def State.listTarget (state : State) (id : Nat) (target : Path) : State :=
  match state.tree.listDir target with
  | .error fault => state.setPhase id (.raised (faultExn fault))
  | .ok (names, real) =>
      (state.record id .listed real).setPhase id
        (.returned (.names (names.mergeSort fun first second => decide (first ≤ second))))

def proceed (state : State) (id : Nat) : Option State :=
  match state.call id with
  | .reading target => some (state.readTarget server id target)
  | .examining target =>
      some (state.setPhase id
        (.making (state.tree.nodeAt target).isSome target [(target.dropLast, true)]))
  | .making existed target ((dir, parents) :: dirs) =>
      some (state.makeTarget id existed target dir parents dirs)
  | .making existed target [] => some (state.openTarget id existed target)
  | .confirming existed target fault dir dirs =>
      some (state.setPhase id
        (if state.tree.isDir dir then .making existed target dirs
          else .raised (faultExn fault)))
  | .writing existed real => some (state.writeTarget server id existed real)
  | .listing target => some (state.listTarget id target)
  | .auditing event result =>
      some ({ state with audit := state.audit ++ [event] }.setPhase id (.returned result))
  | .ready | .returned _ | .raised _ => none

/-- What becomes of a call whose next system call fails. -/
def failed : Phase → Option Phase
  | .making existed target ((dir, _) :: dirs) => some (.confirming existed target .denied dir dirs)
  | .confirming _ _ fault _ _ => some (.raised (faultExn fault))
  -- `Path.exists` answers no only where there is nothing, and raises when `stat` fails.
  | .reading _ | .examining _ | .making _ _ [] | .writing _ _ | .listing _ | .auditing _ _ =>
      some (.raised (faultExn .denied))
  | .ready | .returned _ | .raised _ => none

def step (state : State) (event : Event) : Option State :=
  match event with
  | .start id =>
      match state.call id with
      | .ready =>
          some (state.setPhase id
            (match begin server state.tree (server.calls id) with
              | .ok phase => phase
              | .error error => .raised error))
      | _ => none
  | .proceed id => proceed server state id
  | .fail id written =>
      (failed (state.call id)).map ((state.cutTarget server id written).setPhase id)

def Step (state : State) (event : Event) (next : State) : Prop :=
  step server state event = some next

/-- The tree before the server starts. -/
def initial (tree : FileTree ByteArray) : State where
  tree := tree

/-! ## The jail -/

/-- `Path.resolve` gives the place its argument leads to, existing or not. -/
def Resolves : Prop :=
  ∀ tree names real, server.resolve tree names = .ok real → tree.Leads [] names real

/-- What was read, changed, created or listed is below `ROOT`, where no link leads
away, and everything else is as it was. A path that resolves to a place outside
makes its call raise, without an access. -/
structure Confined (first : FileTree ByteArray) (state : State) : Prop where
  accessed : ∀ access ∈ state.accesses,
    server.root <+: access.real ∧ Canonical state.tree access.real
  untouched : ∀ path, ¬server.root <+: path → state.tree.find path = first.find path
  refused : ∀ id real,
    server.resolve state.tree (joined server.root (server.calls id).path) = .ok real →
    ¬server.root <+: real →
    (state.call id = .ready ∨ ∃ error, state.call id = .raised error) ∧
      ∀ access ∈ state.accesses, access.id ≠ id

/-! ## The invariant -/

def Within (first : FileTree ByteArray) (target : Path) : Prop :=
  server.root <+: target ∧ Canonical first target

/-- A directory that `mkdir` may be called for: below `ROOT`, or on the way to it
and there already. -/
def Climbs (first : FileTree ByteArray) (dir : Path) : Prop :=
  Canonical first dir ∧ (server.root <+: dir ∨ dir <+: server.root)

def Inside (first : FileTree ByteArray) : Phase → Prop
  | .reading target | .examining target | .writing _ target | .listing target =>
      Within server first target
  | .making _ target dirs =>
      Within server first target ∧ ∀ entry ∈ dirs, Climbs server first entry.1
  | .confirming _ target _ dir dirs =>
      Within server first target ∧ ∀ entry ∈ (dir, true) :: dirs, Climbs server first entry.1
  | .ready | .auditing _ _ | .returned _ | .raised _ => True

/-- A call that the jail has not let in. -/
def Phase.Barred : Phase → Prop
  | .ready | .raised _ => True
  | _ => False

def Admitted (first : FileTree ByteArray) (id : Nat) : Prop :=
  ∃ real, first.Leads [] (joined server.root (server.calls id).path) real ∧ server.root <+: real

structure Coherent (first : FileTree ByteArray) (state : State) : Prop where
  links : ∀ path, state.tree.link? path = first.link? path
  outside : ∀ path, ¬server.root <+: path → state.tree.find path = first.find path
  rooted : ∀ path, path <+: server.root → state.tree.find path = some .dir
  inside : ∀ id, Inside server first (state.call id)
  admitted : ∀ id, ¬(state.call id).Barred → Admitted server first id
  accesses : ∀ access ∈ state.accesses,
    Within server first access.real ∧ Admitted server first access.id

variable {server} {first : FileTree ByteArray} {state next : State} {event : Event} {id : Nat}

section

variable {target dir : Path} {dirs : List (Path × Bool)} {existed : Bool}

theorem Within.parent (within : Within server first target) :
    Climbs server first target.dropLast := by
  obtain ⟨⟨below, rfl⟩, canonical⟩ := within
  refine ⟨canonical.of_prefix (List.dropLast_prefix _), ?_⟩
  cases below with
  | nil =>
      rw [List.append_nil]
      exact .inr (List.dropLast_prefix _)
  | cons name rest =>
      rw [List.dropLast_append_of_ne_nil (by simp)]
      exact .inl (List.prefix_append ..)

theorem Climbs.parent (climbs : Climbs server first dir) :
    Climbs server first dir.dropLast := by
  obtain ⟨canonical, below | above⟩ := climbs
  · exact Within.parent ⟨below, canonical⟩
  · exact ⟨canonical.of_prefix (List.dropLast_prefix _),
      .inr ((List.dropLast_prefix _).trans above)⟩

/-- A file opened, or a directory made, below `ROOT`. -/
theorem Coherent.change (coherent : Coherent server first state) {tree : FileTree ByteArray}
    (changes : Changes state.tree tree target) (below : server.root <+: target) :
    Coherent server first { state with tree := tree } where
  links path := (changes.links path).trans (coherent.links path)
  outside path apart := by
    have different : path ≠ target := by
      rintro rfl
      exact apart below
    exact (changes.elsewhere path different).trans (coherent.outside path apart)
  rooted path above := changes.dirs path (coherent.rooted path above)
  inside := coherent.inside
  admitted := coherent.admitted
  accesses := coherent.accesses

theorem Coherent.record (coherent : Coherent server first state) {kind : AccessKind}
    (within : Within server first target) (admitted : Admitted server first id) :
    Coherent server first (state.record id kind target) where
  links := coherent.links
  outside := coherent.outside
  rooted := coherent.rooted
  inside := coherent.inside
  admitted := coherent.admitted
  accesses access member := by
    rcases List.mem_append.mp member with old | new
    · exact coherent.accesses access old
    · obtain rfl := List.mem_singleton.mp new
      exact ⟨within, admitted⟩

theorem Coherent.setPhase (coherent : Coherent server first state) {phase : Phase}
    (inside : Inside server first phase)
    (admitted : ¬phase.Barred → Admitted server first id) :
    Coherent server first (state.setPhase id phase) where
  links := coherent.links
  outside := coherent.outside
  rooted := coherent.rooted
  inside := (Function.forall_update_iff _ fun _ => Inside server first).mpr
    ⟨inside, fun other _ => coherent.inside other⟩
  admitted := (Function.forall_update_iff _
      fun other (phase : Phase) => ¬phase.Barred → Admitted server first other).mpr
    ⟨admitted, fun other _ => coherent.admitted other⟩
  accesses := coherent.accesses

/-! ## One step of a call -/

/-- The jail lets in what leads to a place below `ROOT`. -/
theorem resolveInRoot_ok {tree : FileTree ByteArray} {path : String}
    (resolved : resolveInRoot server tree path = .ok target) :
    server.resolve tree (joined server.root path) = .ok target ∧ server.root <+: target := by
  obtain ⟨candidate, resolved, checked⟩ := bind_eq_ok_iff.mp resolved
  split at checked
  · rename_i isPrefix
    cases checked
    exact ⟨resolved, List.isPrefixOf_iff_prefix.mp isPrefix⟩
  · cases checked

theorem begin_ok {tree : FileTree ByteArray} {call : Call} {phase : Phase}
    (begun : begin server tree call = .ok phase) :
    ∃ target, resolveInRoot server tree call.path = .ok target ∧
      (phase = .reading target ∨ phase = .examining target ∨ phase = .listing target) := by
  cases call with
  | readTextFile path =>
      obtain ⟨target, resolved, rfl⟩ := map_eq_ok_iff.mp begun
      exact ⟨target, resolved, .inl rfl⟩
  | writeTextFile path content =>
      simp only [begin] at begun
      split at begun
      · cases begun
      · obtain ⟨target, resolved, rfl⟩ := map_eq_ok_iff.mp begun
        exact ⟨target, resolved, .inr (.inl rfl)⟩
  | listDirectory path =>
      obtain ⟨target, resolved, rfl⟩ := map_eq_ok_iff.mp begun
      exact ⟨target, resolved, .inr (.inr rfl)⟩

theorem Coherent.start (coherent : Coherent server first state) (resolves : Resolves server) :
    Coherent server first (state.setPhase id
      (match begin server state.tree (server.calls id) with
        | .ok phase => phase
        | .error error => .raised error)) := by
  cases begun : begin server state.tree (server.calls id) with
  | error error => exact coherent.setPhase trivial fun admitted => absurd trivial admitted
  | ok phase =>
      obtain ⟨target, resolved, started⟩ := begin_ok begun
      obtain ⟨resolved, below⟩ := resolveInRoot_ok resolved
      have leads := (resolves _ _ _ resolved).congr fun path => (coherent.links path).symm
      have within : Within server first target := ⟨below, leads.canonical canonical_nil⟩
      refine coherent.setPhase ?_ fun _ => ⟨target, leads, below⟩
      rcases started with rfl | rfl | rfl
      · exact within
      · exact within
      · exact within

theorem Coherent.canonical (coherent : Coherent server first state)
    (canonical : Canonical first dir) : Canonical state.tree dir :=
  canonical.congr coherent.links

theorem Coherent.readTarget (coherent : Coherent server first state)
    (within : Within server first target) (admitted : Admitted server first id) :
    Coherent server first (state.readTarget server id target) := by
  unfold State.readTarget
  split
  · exact coherent.setPhase trivial fun _ => admitted
  · rename_i content real opened
    obtain rfl := openRead_ok opened (coherent.canonical within.2)
    refine (coherent.record within admitted).setPhase ?_ fun _ => admitted
    split
    · trivial
    · trivial

theorem Coherent.makeTarget (coherent : Coherent server first state) {parents : Bool}
    (within : Within server first target)
    (climbs : ∀ entry ∈ (dir, parents) :: dirs, Climbs server first entry.1)
    (admitted : Admitted server first id) :
    Coherent server first (state.makeTarget id existed target dir parents dirs) := by
  obtain ⟨own, others⟩ := List.forall_mem_cons.mp climbs
  unfold State.makeTarget
  split
  · rename_i tree real made
    obtain ⟨rfl, missing, changes⟩ := makeDir_ok made (coherent.canonical own.1)
    -- a directory on the way to `ROOT` is there already
    have below : server.root <+: real := by
      rcases own.2 with below | above
      · exact below
      · rw [coherent.rooted real above] at missing
        cases missing
    refine ((coherent.change changes below).record ⟨below, own.1⟩ admitted).setPhase
      ⟨within, others⟩ fun _ => admitted
  · split
    · refine coherent.setPhase ⟨within, ?_⟩ fun _ => admitted
      exact List.forall_mem_cons.mpr ⟨own.parent, List.forall_mem_cons.mpr ⟨own, others⟩⟩
    · exact coherent.setPhase trivial fun _ => admitted
  · refine coherent.setPhase ⟨within, ?_⟩ fun _ => admitted
    exact List.forall_mem_cons.mpr ⟨own, others⟩

theorem Coherent.openTarget (coherent : Coherent server first state)
    (within : Within server first target) (admitted : Admitted server first id) :
    Coherent server first (state.openTarget id existed target) := by
  unfold State.openTarget
  split
  · exact coherent.setPhase trivial fun _ => admitted
  · rename_i tree real opened
    obtain ⟨rfl, changes⟩ := openWrite_ok opened (coherent.canonical within.2)
    exact ((coherent.change changes within.1).record within admitted).setPhase within
      fun _ => admitted

theorem Coherent.writeTarget (coherent : Coherent server first state)
    (within : Within server first target) (admitted : Admitted server first id) :
    Coherent server first (state.writeTarget server id existed target) :=
  ((coherent.change changes_overwrite within.1).record within admitted).setPhase trivial
    fun _ => admitted

theorem Coherent.listTarget (coherent : Coherent server first state)
    (within : Within server first target) (admitted : Admitted server first id) :
    Coherent server first (state.listTarget id target) := by
  unfold State.listTarget
  split
  · exact coherent.setPhase trivial fun _ => admitted
  · rename_i names real listed
    obtain rfl := listDir_ok listed (coherent.canonical within.2)
    exact (coherent.record within admitted).setPhase trivial fun _ => admitted

end

theorem Coherent.proceed (coherent : Coherent server first state)
    (taken : FileJail.proceed server state id = some next) : Coherent server first next := by
  have inside := coherent.inside id
  have admitted := coherent.admitted id
  unfold FileJail.proceed at taken
  cases phase : state.call id with
  | ready | returned | raised =>
      rw [phase] at taken
      cases taken
  | reading target =>
      rw [phase] at taken inside admitted
      cases taken
      exact coherent.readTarget inside (admitted fun barred => barred)
  | examining target =>
      rw [phase] at taken inside admitted
      cases taken
      refine coherent.setPhase ⟨inside, ?_⟩ fun _ => admitted fun barred => barred
      exact List.forall_mem_singleton.mpr inside.parent
  | making existed target dirs =>
      rw [phase] at taken inside admitted
      cases dirs with
      | nil =>
          cases taken
          exact coherent.openTarget inside.1 (admitted fun barred => barred)
      | cons entry dirs =>
          cases taken
          exact coherent.makeTarget inside.1 inside.2 (admitted fun barred => barred)
  | confirming existed target fault dir dirs =>
      rw [phase] at taken inside admitted
      cases taken
      refine coherent.setPhase ?_ fun _ => admitted fun barred => barred
      split
      · exact ⟨inside.1, (List.forall_mem_cons.mp inside.2).2⟩
      · trivial
  | writing existed real =>
      rw [phase] at taken inside admitted
      cases taken
      exact coherent.writeTarget inside (admitted fun barred => barred)
  | listing target =>
      rw [phase] at taken inside admitted
      cases taken
      exact coherent.listTarget inside (admitted fun barred => barred)
  | auditing event result =>
      rw [phase] at taken admitted
      cases taken
      have coherent : Coherent server first { state with audit := state.audit ++ [event] } :=
        { coherent with }
      exact coherent.setPhase trivial fun _ => admitted fun barred => barred

/-- A call that a failure takes somewhere was let in, and stays inside. -/
theorem Inside.failed {before after : Phase} (inside : Inside server first before)
    (fails : FileJail.failed before = some after) :
    Inside server first after ∧ ¬before.Barred := by
  refine ⟨?_, fun barred => ?_⟩
  · cases before with
    | making existed target dirs =>
        cases dirs with
        | nil =>
            cases fails
            trivial
        | cons entry dirs =>
            cases fails
            obtain ⟨own, others⟩ := List.forall_mem_cons.mp inside.2
            exact ⟨inside.1, List.forall_mem_cons.mpr ⟨own, others⟩⟩
    | ready | returned | raised => cases fails
    | reading | examining | confirming | writing | listing | auditing =>
        cases fails
        trivial
  · cases before with
    | ready | raised => cases fails
    | _ => exact barred

theorem Coherent.cutTarget (coherent : Coherent server first state) {written : Nat} :
    Coherent server first (state.cutTarget server id written) := by
  have inside := coherent.inside id
  have admitted := coherent.admitted id
  unfold State.cutTarget
  split
  · rename_i existed real called
    rw [called] at inside admitted
    exact (coherent.change changes_overwrite inside.1).record inside
      (admitted fun barred => barred)
  · exact coherent

theorem Coherent.fail (coherent : Coherent server first state) {phase : Phase} {written : Nat}
    (fails : failed (state.call id) = some phase) :
    Coherent server first ((state.cutTarget server id written).setPhase id phase) := by
  obtain ⟨inside, unbarred⟩ := (coherent.inside id).failed fails
  exact coherent.cutTarget.setPhase inside fun _ => coherent.admitted id unbarred

theorem Coherent.step (coherent : Coherent server first state) (resolves : Resolves server)
    (taken : Step server state event next) : Coherent server first next := by
  cases event with
  | start id =>
      simp only [Step, FileJail.step] at taken
      split at taken
      · cases taken
        exact coherent.start resolves
      · cases taken
  | proceed id => exact coherent.proceed taken
  | fail id written =>
      obtain ⟨phase, fails, rfl⟩ := Option.map_eq_some_iff.mp taken
      exact coherent.fail fails

theorem coherent_initial (rooted : ∀ path, path <+: server.root → first.find path = some .dir) :
    Coherent server first (initial first) where
  links _ := rfl
  outside _ _ := rfl
  rooted := rooted
  inside _ := trivial
  admitted _ unbarred := absurd trivial unbarred
  accesses _ member := by cases member

theorem Coherent.refused (coherent : Coherent server first state) (resolves : Resolves server)
    {real : Path}
    (resolved : server.resolve state.tree (joined server.root (server.calls id).path) = .ok real)
    (apart : ¬server.root <+: real) : ¬Admitted server first id := by
  rintro ⟨other, leads, below⟩
  have same := leads.unique ((resolves _ _ _ resolved).congr fun path => (coherent.links path).symm)
  subst same
  exact apart below

/-- Whatever is interleaved, the tools stay below `ROOT`. -/
theorem confined_of_run {events : List Event} {last : State} (resolves : Resolves server)
    (rooted : ∀ path, path <+: server.root → first.find path = some .dir)
    (run : Runs (Step server) (initial first) events last) : Confined server first last := by
  have coherent : Coherent server first last :=
    run.invariant (fun coherent taken => coherent.step resolves taken) (coherent_initial rooted)
  refine ⟨fun access member => ?_, coherent.outside, fun id real resolved apart => ?_⟩
  · obtain ⟨within, _⟩ := coherent.accesses access member
    exact ⟨within.1, coherent.canonical within.2⟩
  · have barred := coherent.refused resolves resolved apart
    refine ⟨?_, fun access member same => ?_⟩
    · have phase : (last.call id).Barred := by
        by_contra unbarred
        exact barred (coherent.admitted id unbarred)
      cases place : last.call id with
      | ready => exact .inl rfl
      | raised error => exact .inr ⟨error, rfl⟩
      | _ =>
          rw [place] at phase
          exact phase.elim
    · exact barred (same ▸ (coherent.accesses access member).2)

/-! ## Two links below `ROOT` -/

/-- `Path.resolve` for paths behind few links. -/
def resolvePath (tree : FileTree ByteArray) (names : List String) : Except Exn Path :=
  match tree.walk false maxLinks [] names with
  | .ok real => .ok real
  | .error fault => .error (faultExn fault)

theorem resolvePath_leads {tree : FileTree ByteArray} {names : List String} {real : Path}
    (resolved : resolvePath tree names = .ok real) : tree.Leads [] names real := by
  unfold resolvePath at resolved
  split at resolved
  · rename_i place walked
    cases resolved
    exact leads_of_walk walked
  · cases resolved

/-- One link dangles inside of `ROOT`, the other one leads out of it. -/
def linkedTree : FileTree ByteArray :=
  [(["srv"], .dir), (["srv", "files"], .dir), (["srv", "files", "docs"], .link "notes/old/.."),
    (["srv", "files", "out"], .link "/etc"), (["etc"], .dir)]

def linkedServer : Server where
  resolve := resolvePath
  root := ["srv", "files"]
  maxWriteBytes := 1048576
  calls
    | 0 => .writeTextFile "docs/today.txt" "done"
    | _ => .readTextFile "./out/passwd"

def interleaved : List Event :=
  [.start 0, .proceed 0, .start 1, .proceed 0, .proceed 0, .proceed 0, .proceed 0]

theorem linked_rooted (path : Path) (above : path <+: linkedServer.root) :
    linkedTree.find path = some .dir := by
  have checked : ∀ path ∈ linkedServer.root.inits, linkedTree.find path = some .dir := by decide
  exact checked path ((List.mem_inits ..).mpr above)

theorem linked_places :
    (runSteps (step linkedServer) (initial linkedTree) interleaved).map
        (fun last => last.accesses.map fun access => (access.kind, access.real)) =
      some [(.created, ["srv", "files", "notes"]),
        (.created, ["srv", "files", "notes", "today.txt"]),
        (.changed, ["srv", "files", "notes", "today.txt"])] := by
  decide +kernel

theorem links_confined : ∃ last,
    Runs (Step linkedServer) (initial linkedTree) interleaved last ∧
      last.accesses.map (fun access => (access.kind, access.real)) =
        [(.created, ["srv", "files", "notes"]),
          (.created, ["srv", "files", "notes", "today.txt"]),
          (.changed, ["srv", "files", "notes", "today.txt"])] ∧
      Confined linkedServer linkedTree last := by
  obtain ⟨last, ran, places⟩ := Option.map_eq_some_iff.mp linked_places
  have run : Runs (Step linkedServer) (initial linkedTree) interleaved last :=
    runSteps_eq_some_iff.mp ran
  exact ⟨last, run, places, confined_of_run (fun _ _ _ => resolvePath_leads) linked_rooted run⟩

end AgenticEnterprise.Mcp.FileJail
