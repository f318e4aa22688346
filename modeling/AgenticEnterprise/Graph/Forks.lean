import AgenticEnterprise.Graph.History
import AgenticEnterprise.Library.Runs

/-! A fork of a thread, interleaved with other runs on it.

The fork loads the checkpoint its identifier pins, saves its message and its
supersteps behind it, and then reads the latest checkpoint back in a step of its
own. Other runs and edits may save at any point in between. -/

set_option autoImplicit false

namespace AgenticEnterprise.Graph.Forks

open Core Library Engine Threads History

/-- Where the fork stands, with the last checkpoint of its own. -/
inductive Phase where
  | waiting
  | loaded (start : Start)
  | running (id : Nat) (step : Int) (checkpoint : Checkpoint)
  | responded (newCheckpointId : Option Nat)
  | failed
  deriving DecidableEq, Repr

/-- `added` are the checkpoints the fork has saved. -/
structure State where
  thread : Thread
  phase : Phase := .waiting
  added : List Nat := []

inductive Event where
  | load
  | saveInput
  | superstep (environment : Environment)
  | readState
  | fail
  | other (parent : Option Nat) (entry : Entry)

variable (checkpointId message : String)

def saveInput (start : Start) (state : State) : State :=
  let entry := withInput start [.human message]
  { thread := state.thread.put start.id entry
    phase := .running state.thread.nextId entry.step entry.checkpoint
    added := state.added ++ [state.thread.nextId] }

def saveSuperstep (id : Nat) (step : Int) (next : Checkpoint) (state : State) : State where
  thread := state.thread.put (some id) ⟨.loop, step + 1, next⟩
  phase := .running state.thread.nextId (step + 1) next
  added := state.added ++ [state.thread.nextId]

def step (state : State) (event : Event) : Option State :=
  match event, state.phase with
  | .load, .waiting =>
      some { state with
        phase := .loaded (Threads.load state.thread (checkpointConfig state.thread checkpointId)) }
  | .saveInput, .loaded start => some (saveInput message start state)
  | .superstep environment, .running id index ⟨values, some pending⟩ =>
      match (Threads.superstep environment values pending).outcome with
      | .error _ => some { state with phase := .failed }
      | .ok next => some (saveSuperstep id index next state)
  | .readState, .running _ _ ⟨_, none⟩ =>
      some { state with phase := .responded state.thread.latestId }
  | .fail, .responded _ => none
  | .fail, _ => some { state with phase := .failed }
  | .other parent entry, _ => some { state with thread := state.thread.put parent entry }
  | _, _ => none

def Step (state : State) (event : Event) (next : State) : Prop :=
  step checkpointId message state event = some next

def initial (thread : Thread) : State :=
  { thread := thread }

/-! ## What a fork is for -/

/-- Every added checkpoint is derived from the one the identifier names, and its
messages extend the messages of that one. -/
def OnBranch (thread : Thread) (added : List Nat) : Prop :=
  ∃ origin named, checkpointText origin = checkpointId ∧ thread.find? origin = some named ∧
    ∀ id ∈ added, thread.Descends origin id ∧
      ∃ saved, thread.find? id = some saved ∧
        named.state.checkpoint.values.messages <+: saved.state.checkpoint.values.messages

/-- The fork has added nothing, or it has added a branch of the named checkpoint;
it answers with a checkpoint of its own, and everything older is unchanged. -/
structure BranchesFrom (thread : Thread) (state : State) : Prop where
  unchanged : ∀ id saved, thread.find? id = some saved → state.thread.find? id = some saved
  branch : state.added = [] ∨ OnBranch checkpointId state.thread state.added
  response : ∀ newCheckpointId, state.phase = .responded newCheckpointId →
    ∃ id ∈ state.added, newCheckpointId = some id

/-! ## When it is met -/

/-- The identifier is the text of a checkpoint that exists. -/
def Names (thread : Thread) : Prop :=
  ∃ id saved, thread.find? id = some saved ∧ checkpointText id = checkpointId

/-- The identifier names a checkpoint when the fork loads it, and when the fork
reads the latest checkpoint back, that is one of its own. -/
def NamesAndReadsOwn (state : State) : Event → Prop
  | .load => Names checkpointId state.thread
  | .readState => ∃ id ∈ state.added, state.thread.latestId = some id
  | _ => True

def NamesAndReadsOwnStep (state : State) (event : Event) (next : State) : Prop :=
  NamesAndReadsOwn checkpointId state event ∧ Step checkpointId message state event next

/-! ## What a step can do -/

inductive Effect (state : State) : Event → State → Prop where
  | load :
      state.phase = .waiting →
      Effect state .load { state with
        phase := .loaded (Threads.load state.thread (checkpointConfig state.thread checkpointId)) }
  | saveInput {start} :
      state.phase = .loaded start → Effect state .saveInput (saveInput message start state)
  | superstep {environment id index values pending next} :
      state.phase = .running id index ⟨values, some pending⟩ →
      Advance environment values pending next →
      Effect state (.superstep environment) (saveSuperstep id index next state)
  | readState {id index values} :
      state.phase = .running id index ⟨values, none⟩ →
      Effect state .readState { state with phase := .responded state.thread.latestId }
  | fail {event} :
      (∀ newCheckpointId, state.phase ≠ .responded newCheckpointId) →
      event = .fail ∨ (∃ environment, event = .superstep environment) →
      Effect state event { state with phase := .failed }
  | other {parent entry} :
      Effect state (.other parent entry) { state with thread := state.thread.put parent entry }

variable {checkpointId message} {thread : Thread} {state next : State} {event : Event}

theorem effect_of_step (taken : Step checkpointId message state event next) :
    Effect checkpointId message state event next := by
  simp only [Step, step] at taken
  split at taken
  · rename_i waiting
    cases taken
    exact .load waiting
  · rename_i start loaded
    cases taken
    exact .saveInput loaded
  · rename_i environment id index values pending running
    split at taken
    · cases taken
      exact .fail (by simp [running]) (.inr ⟨environment, rfl⟩)
    · rename_i next succeeded
      cases taken
      exact .superstep running (advance_of_outcome succeeded)
  · rename_i id index values running
    cases taken
    exact .readState running
  · cases taken
  · rename_i unanswered
    cases taken
    exact .fail (fun newCheckpointId answered => unanswered newCheckpointId answered) (.inl rfl)
  · cases taken
    exact .other
  · cases taken

/-! ## Loading by an identifier -/

theorem checkpointText_ne_empty (id : Nat) : checkpointText id ≠ "" :=
  Nat.repr_ne_empty

/-- A named checkpoint is the one that is loaded. -/
theorem load_named (named : Names checkpointId thread) :
    ∃ id saved, thread.find? id = some saved ∧ checkpointText id = checkpointId ∧
      Threads.load thread (checkpointConfig thread checkpointId) =
        ⟨some id, saved.state.step, saved.state.checkpoint⟩ := by
  obtain ⟨wanted, _, stored, text⟩ := named
  have pinned : checkpointId ≠ "" := text ▸ checkpointText_ne_empty wanted
  cases search : (List.range thread.nextId).find? fun id =>
      decide (checkpointText id = checkpointId) with
  | none =>
      have missed := List.find?_eq_none.mp search wanted
        (List.mem_range.mpr (CheckpointStore.lt_nextId_of_find? stored))
      exact absurd text (by simpa using missed)
  | some id =>
      have same : checkpointText id = checkpointId := by
        simpa using List.find?_some search
      have bound : id < thread.nextId := List.mem_range.mp (List.mem_of_find?_eq_some search)
      have found : thread.find? id = some thread.entries[id] := List.getElem?_eq_getElem bound
      refine ⟨id, _, found, same, ?_⟩
      simp [checkpointConfig, pinned, search, Threads.load, found]

/-- A text that names nothing loads nothing. -/
theorem load_unnamed (unnamed : ¬Names checkpointId thread) (pinned : checkpointId ≠ "") :
    (Threads.load thread (checkpointConfig thread checkpointId)).id = none := by
  have search : ((List.range thread.nextId).find? fun id =>
      decide (checkpointText id = checkpointId)) = none := by
    refine List.find?_eq_none.mpr fun id member same => unnamed ?_
    exact ⟨id, _, List.getElem?_eq_getElem (List.mem_range.mp member), of_decide_eq_true same⟩
  have missing : thread.find? thread.nextId = none :=
    List.getElem?_eq_none (Nat.le_refl _)
  simp [checkpointConfig, pinned, search, Threads.load, missing]

/-! ## A fork of a checkpoint that reads its own back -/

section

variable {added : List Nat} {parent : Option Nat} {entry : Entry} {id : Nat} {saved : Saved Entry}

theorem OnBranch.put (branch : OnBranch checkpointId thread added) :
    OnBranch checkpointId (CheckpointStore.put thread parent entry) added := by
  obtain ⟨origin, named, text, found, derived⟩ := branch
  refine ⟨origin, named, text, CheckpointStore.find?_put_of_find? found, fun id member => ?_⟩
  obtain ⟨descends, saved, stored, extended⟩ := derived id member
  exact ⟨descends.put, saved, CheckpointStore.find?_put_of_find? stored, extended⟩

/-- The next checkpoint of the fork is on the branch its last one is on. -/
theorem OnBranch.extend (branch : OnBranch checkpointId thread added) (member : id ∈ added)
    (found : thread.find? id = some saved)
    (grown : saved.state.checkpoint.values.messages <+: entry.checkpoint.values.messages) :
    OnBranch checkpointId (CheckpointStore.put thread (some id) entry)
      (added ++ [thread.nextId]) := by
  obtain ⟨origin, named, text, stored, derived⟩ := branch
  obtain ⟨descends, other, again, extended⟩ := derived id member
  rw [found] at again
  cases again
  refine ⟨origin, named, text, CheckpointStore.find?_put_of_find? stored, fun new isNew => ?_⟩
  rcases List.mem_append.mp isNew with old | last
  · obtain ⟨earlier, before, kept, messages⟩ := derived new old
    exact ⟨earlier.put, before, CheckpointStore.find?_put_of_find? kept, messages⟩
  · obtain rfl := List.mem_singleton.mp last
    exact ⟨descends.of_put found, _, CheckpointStore.find?_put_nextId, extended.trans grown⟩

/-- The input of the fork is derived from the checkpoint it has loaded. -/
theorem onBranch_input (text : checkpointText id = checkpointId)
    (found : thread.find? id = some saved)
    (same : entry.checkpoint.values = saved.state.checkpoint.values) :
    OnBranch checkpointId (CheckpointStore.put thread (some id) entry) [thread.nextId] := by
  refine ⟨id, saved, text, CheckpointStore.find?_put_of_find? found, fun new isNew => ?_⟩
  obtain rfl := List.mem_singleton.mp isNew
  refine ⟨.child_of_put found, _, CheckpointStore.find?_put_nextId, ?_⟩
  rw [same]

end

/-- The invariant of a fork that has named a checkpoint and read its own back. -/
def Sound (checkpointId : String) (state : State) : Prop :=
  match state.phase with
  | .waiting => state.added = []
  | .loaded start => state.added = [] ∧
      ∃ id saved, state.thread.find? id = some saved ∧ checkpointText id = checkpointId ∧
        start = ⟨some id, saved.state.step, saved.state.checkpoint⟩
  | .running id _ checkpoint =>
      OnBranch checkpointId state.thread state.added ∧ id ∈ state.added ∧
        ∃ saved, state.thread.find? id = some saved ∧ saved.state.checkpoint = checkpoint
  | .responded newCheckpointId =>
      OnBranch checkpointId state.thread state.added ∧
        ∃ id ∈ state.added, newCheckpointId = some id
  | .failed => state.added = [] ∨ OnBranch checkpointId state.thread state.added

theorem Sound.branch (sound : Sound checkpointId state) :
    state.added = [] ∨ OnBranch checkpointId state.thread state.added := by
  unfold Sound at sound
  split at sound
  · exact .inl sound
  · exact .inl sound.1
  · exact .inr sound.1
  · exact .inr sound.1
  · exact sound

theorem Sound.put (sound : Sound checkpointId state) {parent : Option Nat} {entry : Entry} :
    Sound checkpointId
      { state with thread := CheckpointStore.put state.thread parent entry } := by
  obtain ⟨thread, phase, added⟩ := state
  cases phase with
  | waiting => exact sound
  | loaded =>
      obtain ⟨empty, id, saved, found, named⟩ := sound
      exact ⟨empty, id, saved, CheckpointStore.find?_put_of_find? found, named⟩
  | running =>
      obtain ⟨branch, member, saved, found, same⟩ := sound
      exact ⟨branch.put, member, saved, CheckpointStore.find?_put_of_find? found, same⟩
  | responded => exact ⟨sound.1.put, sound.2⟩
  | failed => exact sound.imp id OnBranch.put

theorem Sound.step (sound : Sound checkpointId state)
    (taken : NamesAndReadsOwnStep checkpointId message state event next) :
    Sound checkpointId next := by
  obtain ⟨own, taken⟩ := taken
  cases effect_of_step taken with
  | load waiting =>
      rw [Sound, waiting] at sound
      exact ⟨sound, load_named own⟩
  | @saveInput start loaded =>
      rw [Sound, loaded] at sound
      obtain ⟨empty, id, saved, found, text, rfl⟩ := sound
      refine ⟨?_, ?_, _, CheckpointStore.find?_put_nextId, rfl⟩
      · rw [show (saveInput message _ state).added = [state.thread.nextId] by
          simp [saveInput, empty]]
        exact onBranch_input text found rfl
      · simp [saveInput]
  | @superstep environment id index values pending next running advanced =>
      rw [Sound, running] at sound
      obtain ⟨branch, member, saved, found, same⟩ := sound
      obtain ⟨produced, grown, _⟩ := advanced.messages
      refine ⟨branch.extend member found ?_, by simp [saveSuperstep], _,
        CheckpointStore.find?_put_nextId, rfl⟩
      rw [same]
      exact ⟨produced, grown.symm⟩
  | readState running =>
      rw [Sound, running] at sound
      exact ⟨sound.1, own⟩
  | fail => exact sound.branch
  | other => exact sound.put

/-! ## What every fork has recorded -/

def Recorded (state : State) : Prop :=
  match state.phase with
  | .waiting | .loaded _ => state.added = []
  | .running _ _ _ | .responded _ => state.added ≠ []
  | .failed => True

/-- Checkpoints stay as they are, and the fork has its own exactly behind its input. -/
structure Tracked (thread : Thread) (events : List Event) (state : State) : Prop where
  unchanged : ∀ id saved, thread.find? id = some saved → state.thread.find? id = some saved
  saves : .saveInput ∈ events ↔ state.added ≠ []
  recorded : Recorded state

theorem Tracked.step {events : List Event} (tracked : Tracked thread events state)
    (taken : Step checkpointId message state event next) :
    Tracked thread (events ++ [event]) next := by
  obtain ⟨unchanged, saves, recorded⟩ := tracked
  have kept {parent : Option Nat} {entry : Entry} (id : Nat) (saved : Saved Entry)
      (found : thread.find? id = some saved) :
      (CheckpointStore.put state.thread parent entry).find? id = some saved :=
    CheckpointStore.find?_put_of_find? (unchanged id saved found)
  cases effect_of_step taken with
  | load waiting =>
      rw [Recorded, waiting] at recorded
      exact ⟨unchanged, by simpa using saves, recorded⟩
  | saveInput => exact ⟨kept, by simp [saveInput], by simp [Recorded, saveInput]⟩
  | superstep running =>
      rw [Recorded, running] at recorded
      exact ⟨kept, by simp [saves, recorded, saveSuperstep], by simp [Recorded, saveSuperstep]⟩
  | readState running =>
      rw [Recorded, running] at recorded
      exact ⟨unchanged, by simpa using saves, recorded⟩
  | fail _ failing =>
      refine ⟨unchanged, ?_, trivial⟩
      rcases failing with rfl | ⟨environment, rfl⟩ <;> simpa using saves
  | other =>
      refine ⟨kept, by simpa using saves, ?_⟩
      unfold Recorded at recorded ⊢
      exact recorded

/-! ## A fork that names none or reads back another one -/

/-- No checkpoint is named, or the fork has saved one without a parent. -/
def Unrooted (checkpointId : String) (thread : Thread) (added : List Nat) : Prop :=
  checkpointId = "" ∨ ∃ root ∈ added, ∃ saved, thread.find? root = some saved ∧
    saved.parent = none

theorem Unrooted.not_onBranch {added : List Nat} (unrooted : Unrooted checkpointId thread added) :
    ¬OnBranch checkpointId thread added := by
  rintro ⟨origin, named, text, _, derived⟩
  rcases unrooted with rfl | ⟨root, member, saved, found, parentless⟩
  · exact checkpointText_ne_empty origin text
  · exact CheckpointStore.not_descends_of_root found parentless (derived root member).1

theorem Unrooted.put {added more : List Nat} {parent : Option Nat} {entry : Entry}
    (unrooted : Unrooted checkpointId thread added) :
    Unrooted checkpointId (CheckpointStore.put thread parent entry) (added ++ more) := by
  refine unrooted.imp id fun ⟨root, member, saved, found, parentless⟩ => ?_
  exact ⟨root, List.mem_append_left _ member, saved, CheckpointStore.find?_put_of_find? found,
    parentless⟩

/-- The fork has failed before it saved anything, or it can no longer be a branch
of the named checkpoint, or it answers with a checkpoint that is not its own. -/
def Astray (checkpointId : String) (state : State) : Prop :=
  match state.phase with
  | .waiting => False
  | .loaded start => checkpointId = "" ∨ start.id = none
  | .running _ _ _ => Unrooted checkpointId state.thread state.added
  | .responded newCheckpointId =>
      Unrooted checkpointId state.thread state.added ∨
        ∀ id ∈ state.added, newCheckpointId ≠ some id
  | .failed => state.added = [] ∨ Unrooted checkpointId state.thread state.added

theorem Astray.step (astray : Astray checkpointId state) (recorded : Recorded state)
    (taken : Step checkpointId message state event next) : Astray checkpointId next := by
  cases effect_of_step taken with
  | load waiting =>
      rw [Astray, waiting] at astray
      exact astray.elim
  | @saveInput start loaded =>
      rw [Astray, loaded] at astray
      refine astray.imp id fun unpinned => ⟨state.thread.nextId, by simp [saveInput], _,
        CheckpointStore.find?_put_nextId, ?_⟩
      simp [unpinned]
  | superstep running =>
      rw [Astray, running] at astray
      exact astray.put
  | readState running =>
      rw [Astray, running] at astray
      exact .inl astray
  | fail unanswered =>
      unfold Astray at astray
      unfold Recorded at recorded
      split at astray
      · exact astray.elim
      · rename_i start loaded
        rw [loaded] at recorded
        exact .inl recorded
      · exact .inr astray
      · rename_i newCheckpointId answered
        exact absurd answered (unanswered newCheckpointId)
      · exact astray
  | @other parent entry =>
      have later {added : List Nat} (unrooted : Unrooted checkpointId state.thread added) :
          Unrooted checkpointId (state.thread.put parent entry) added := by
        simpa using @Unrooted.put _ _ _ [] _ _ unrooted
      obtain ⟨thread, phase, added⟩ := state
      cases phase with
      | waiting => exact astray
      | loaded => exact astray
      | running => exact later astray
      | responded => exact astray.imp later id
      | failed => exact astray.imp id later

/-- A step that names none or reads back another one leads the fork astray. -/
theorem astray_of_not_own (notOwn : ¬NamesAndReadsOwn checkpointId state event)
    (taken : Step checkpointId message state event next) : Astray checkpointId next := by
  cases effect_of_step taken with
  | load =>
      by_cases empty : checkpointId = ""
      · exact .inl empty
      · exact .inr (load_unnamed notOwn empty)
  | readState =>
      refine .inr fun id member same => notOwn ⟨id, member, same⟩
  | saveInput => exact absurd trivial notOwn
  | superstep => exact absurd trivial notOwn
  | fail _ failing =>
      rcases failing with rfl | ⟨environment, rfl⟩ <;> exact absurd trivial notOwn
  | other => exact absurd trivial notOwn

/-! ## Exactly when a fork branches -/

section

variable {first last : Thread} {events : List Event}

/-- Every step so far has named a checkpoint or read back an own one, or the fork is astray. -/
def History (checkpointId message : String) (first : Thread) (events : List Event)
    (state : State) : Prop :=
  Tracked first events state ∧
    (Runs (NamesAndReadsOwnStep checkpointId message) (initial first) events state ∨
      Astray checkpointId state)

theorem History.step (history : History checkpointId message first events state)
    (taken : Step checkpointId message state event next) :
    History checkpointId message first (events ++ [event]) next := by
  obtain ⟨tracked, ownSoFar | astray⟩ := history
  · refine ⟨tracked.step taken, ?_⟩
    by_cases own : NamesAndReadsOwn checkpointId state event
    · exact .inl (ownSoFar.append (.single ⟨own, taken⟩))
    · exact .inr (astray_of_not_own own taken)
  · exact ⟨tracked.step taken, .inr (astray.step tracked.recorded taken)⟩

theorem history_of_run (run : Runs (Step checkpointId message) (initial first) events state) :
    History checkpointId message first events state := by
  have start : Tracked first [] (initial first) :=
    ⟨fun _ _ found => found, by simp [initial], rfl⟩
  exact run.invariant_of_history (fun history taken => History.step history taken)
    ⟨start, .inl .refl⟩

theorem Astray.not_branchesFrom (astray : Astray checkpointId state) (recorded : Recorded state)
    (saves : state.added ≠ []) : ¬BranchesFrom checkpointId first state := by
  intro branches
  have onBranch := branches.branch.resolve_left saves
  unfold Astray at astray
  unfold Recorded at recorded
  split at astray
  · exact astray
  · rename_i start loaded
    rw [loaded] at recorded
    exact saves recorded
  · exact astray.not_onBranch onBranch
  · rename_i newCheckpointId answered
    obtain ⟨id, member, same⟩ := branches.response newCheckpointId answered
    rcases astray with unrooted | foreign
    · exact unrooted.not_onBranch onBranch
    · exact foreign id member same
  · rcases astray with empty | unrooted
    · exact saves empty
    · exact unrooted.not_onBranch onBranch

theorem Sound.response (sound : Sound checkpointId state) {newCheckpointId : Option Nat}
    (answered : state.phase = .responded newCheckpointId) :
    ∃ id ∈ state.added, newCheckpointId = some id := by
  rw [Sound, answered] at sound
  exact sound.2

/-- In any interleaving, a fork that saves anything branches from the checkpoint it
was given exactly when that exists as it is loaded and an own one is read back. -/
theorem branchesFrom_iff
    (run : Runs (Step checkpointId message) (initial first) events state) :
    BranchesFrom checkpointId first state ↔
      .saveInput ∉ events ∨
        Runs (NamesAndReadsOwnStep checkpointId message) (initial first) events state := by
  obtain ⟨tracked, path⟩ := history_of_run run
  constructor
  · intro branches
    by_cases saves : .saveInput ∈ events
    · refine .inr (path.resolve_right fun astray => ?_)
      exact astray.not_branchesFrom tracked.recorded (tracked.saves.mp saves) branches
    · exact .inl saves
  · rintro (unsaved | own)
    · have empty : state.added = [] := by
        by_contra some
        exact unsaved (tracked.saves.mpr some)
      refine ⟨tracked.unchanged, .inl empty, fun newCheckpointId answered => ?_⟩
      have recorded := tracked.recorded
      rw [Recorded, answered] at recorded
      exact absurd empty recorded
    · have sound : Sound checkpointId state :=
        own.invariant (fun sound taken => Sound.step sound taken) rfl
      exact ⟨tracked.unchanged, sound.branch, fun _ answered => sound.response answered⟩

end

/-! ## Without other runs -/

section

variable {limit : Nat} {environments : Nat → Environment} {id : Nat} {index : Int}
  {checkpoint : Checkpoint}

/-- The fork behind its input. -/
def begun (checkpointId message : String) (first : Thread) : State :=
  let start := load first (checkpointConfig first checkpointId)
  saveInput message start { initial first with phase := .loaded start }

theorem begin_run (first : Thread) :
    Runs (Step checkpointId message) (initial first) [.load, .saveInput]
      (begun checkpointId message first) :=
  .cons rfl (.single rfl)

/-- The fork's supersteps save what the supersteps of a run on the thread save. -/
theorem supersteps_run (running : state.phase = .running id index checkpoint) :
    ∃ events last, Runs (Step checkpointId message) state events last ∧
      last.thread = saveSteps (execute limit environments checkpoint).steps (some id) (index + 1)
        state.thread ∧
      ∀ final, (execute limit environments checkpoint).result = .ok final →
        ∃ own ownIndex, last.phase = .running own ownIndex ⟨final, none⟩ := by
  induction limit generalizing environments state id index checkpoint with
  | zero =>
      obtain ⟨values, pending⟩ := checkpoint
      cases pending with
      | none =>
          refine ⟨[], state, .refl, rfl, fun final done => ?_⟩
          cases done
          exact ⟨id, index, running⟩
      | some pending => exact ⟨[], state, .refl, rfl, fun final done => by cases done⟩
  | succ limit ih =>
      obtain ⟨values, pending⟩ := checkpoint
      cases pending with
      | none =>
          refine ⟨[], state, .refl, rfl, fun final done => ?_⟩
          cases done
          exact ⟨id, index, running⟩
      | some pending =>
          cases outcome : (superstep (environments 0) values pending).outcome with
          | error failure =>
              have taken : Step checkpointId message state (.superstep (environments 0))
                  { state with phase := .failed } := by
                simp [Step, step, running, outcome]
              refine ⟨_, _, .single taken, ?_, ?_⟩ <;> simp [execute, outcome, saveSteps]
          | ok next =>
              have taken : Step checkpointId message state (.superstep (environments 0))
                  (saveSuperstep id index next state) := by
                simp [Step, step, running, outcome]
              obtain ⟨events, last, run, saved, completes⟩ :=
                @ih _ (fun index => environments (index + 1)) state.thread.nextId (index + 1) next
                  (rfl : (saveSuperstep id index next state).phase = _)
              refine ⟨_, last, .cons taken run, ?_, ?_⟩
              · simp [execute, outcome, saveSteps, saved, saveSuperstep]
              · simpa [execute, outcome] using completes

/-- A fork that nobody interrupts leaves the thread as the invocation of the graph
does, and answers with its latest checkpoint. -/
theorem fork_alone (first : Thread) :
    ∃ events last, Runs (Step checkpointId message) (initial first) events last ∧
      last.thread = (ainvoke limit environments (some [.human message])
        (checkpointConfig first checkpointId) first).2 ∧
      ∀ final, (ainvoke limit environments (some [.human message])
          (checkpointConfig first checkpointId) first).1.result = .ok final →
        last.phase = .responded last.thread.latestId := by
  obtain ⟨events, reached, run, saved, completes⟩ := @supersteps_run checkpointId message _
    limit environments _ _ _ (rfl : (begun checkpointId message first).phase = .running _ _ _)
  have started := (begin_run first).append run
  cases result : (ainvoke limit environments (some [.human message])
      (checkpointConfig first checkpointId) first).1.result with
  | error failure => exact ⟨_, reached, started, saved, by simp⟩
  | ok final =>
      obtain ⟨own, ownIndex, running⟩ := completes final result
      have reading : Step checkpointId message reached .readState
          { reached with phase := .responded reached.thread.latestId } := by
        simp [Step, step, running]
      exact ⟨_, _, started.append (.single reading), saved, fun _ _ => rfl⟩

end

/-! ## Three identifiers -/

/-- A thread with one answered turn. -/
def oneTurn : Thread :=
  CheckpointStore.empty.put none ⟨.loop, 0, ⟨{ messages := [.human "hello", .ai "hi" []] }, none⟩⟩

theorem known_id_branches : BranchesFrom "0" oneTurn (begun "0" "and now" oneTurn) := by
  have named : Names "0" oneTurn := ⟨0, _, rfl, by decide⟩
  exact (branchesFrom_iff (begin_run oneTurn)).mpr
    (.inr (.cons ⟨named, rfl⟩ (.single ⟨trivial, rfl⟩)))

/-- An identifier that is unknown, and an empty one. -/
theorem other_ids_do_not_branch :
    (Runs (Step "no-such-id" "and now") (initial oneTurn) [.load, .saveInput]
        (begun "no-such-id" "and now" oneTurn) ∧
      ¬BranchesFrom "no-such-id" oneTurn (begun "no-such-id" "and now" oneTurn)) ∧
    Runs (Step "" "and now") (initial oneTurn) [.load, .saveInput] (begun "" "and now" oneTurn) ∧
      ¬BranchesFrom "" oneTurn (begun "" "and now" oneTurn) := by
  refine ⟨⟨begin_run oneTurn, fun branches => ?_⟩, begin_run oneTurn, fun branches => ?_⟩
  · have parentless : Unrooted "no-such-id" (begun "no-such-id" "and now" oneTurn).thread [1] :=
      .inr ⟨1, .head _, _, rfl, by decide⟩
    exact parentless.not_onBranch (branches.branch.resolve_left (by simp [begun, saveInput]))
  · have unpinned : Unrooted "" (begun "" "and now" oneTurn).thread [1] := .inl rfl
    exact unpinned.not_onBranch (branches.branch.resolve_left (by simp [begun, saveInput]))

end AgenticEnterprise.Graph.Forks
