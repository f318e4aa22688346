import AgenticEnterprise.Library.Runs
import AgenticEnterprise.Memory.Recall
import Mathlib.Data.List.Induction

/-! Concurrent calls of `remember` on a Qdrant without the collection.

`ensure_collection` lists the collections and creates the one it misses in two requests,
and another call may create it in between. -/

set_option autoImplicit false

namespace AgenticEnterprise.Memory.FirstMemories

open Core Library VectorStore Recall

/-! ## The calls -/

/-- What the calls are made with, and what the embedding model and `uuid4` return to
them: vectors of one size and different identifiers. -/
structure Calls where
  call : Nat → Call
  size : Nat
  sized : ∀ id, (call id).vector.length = size
  distinct : ∀ id other, (call id).id = (call other).id → id = other

/-- The request that a call waits for, or how it ended. -/
inductive Phase where
  | embedding
  | listing
  | creating
  | upserting
  | returned (pointId : Nat)
  | raised (failure : Exn)

structure State where
  store : Store Json := none
  phase : Nat → Phase := fun _ => .embedding

def initial : State := {}

def State.setPhase (state : State) (id : Nat) (phase : Phase) : State :=
  { state with phase := Function.update state.phase id phase }

/-- A collection that exists is not created again. -/
def createCollection (store : Store Json) (vectorSize : Nat) : Except Exn (Store Json) :=
  match store with
  | none => .ok (some ⟨vectorSize, []⟩)
  | some _ => .error (.external "qdrant")

def upsertInto (store : Store Json) (point : Point Json) : Except Exn (Store Json) :=
  match store with
  | none => .error (.external "qdrant")
  | some collection => (upsert collection point).map some

/-- What Qdrant answers to a request that writes. -/
def State.write (state : State) (id : Nat) (next : Phase) :
    Except Exn (Store Json) → State
  | .ok store => { state.setPhase id next with store := store }
  | .error failure => state.setPhase id (.raised failure)

section

variable (calls : Calls)

/-- The answer to the request of a call. -/
def step (state : State) (id : Nat) : Option State :=
  match state.phase id with
  | .embedding => some (state.setPhase id .listing)
  | .listing =>
      some (state.setPhase id (if state.store.isSome then .upserting else .creating))
  | .creating => some (state.write id .upserting (createCollection state.store calls.size))
  | .upserting =>
      some (state.write id (.returned (calls.call id).id)
        (upsertInto state.store (calls.call id).point))
  | .returned _ | .raised _ => none

def Step (state : State) (id : Nat) (next : State) : Prop :=
  step calls state id = some next

/-! ## What the calls owe -/

/-- The call has returned, and its text is stored under its thread. -/
structure Stored (state : State) (id pointId : Nat) : Prop where
  returned : state.phase id = .returned pointId
  stored : ∃ point ∈ state.store.points, point.id = pointId ∧
    point.payload.get "text" = some (.string (calls.call id).text) ∧
    point.payload.get "thread_id" = some (.string (calls.call id).threadId)

/-- Behind a run every call has stored its text, or is on the way: it has steps left
and the next one can be taken. The returned identifiers are different. -/
structure Kept (steps : List Nat) (state : State) : Prop where
  returns : ∀ id, (∃ pointId, Stored calls state id pointId) ∨
    (steps.count id < 4 ∧ ∃ next, Step calls state id next)
  distinct : ∀ id other pointId, state.phase id = .returned pointId →
    state.phase other = .returned pointId → id = other

/-- A call that creates the collection still misses it, and a call that writes does not
let its metadata replace its text or its thread. -/
structure MissingAndPlain (state : State) (id : Nat) : Prop where
  missing : state.phase id = .creating → state.store = none
  plain : state.phase id = .upserting → (calls.call id).Plain

/-- Whatever has been taken of the steps, the calls have what they are owed. -/
def KeptThroughout (steps : List Nat) : Prop :=
  ∀ front back state, steps = front ++ back → Runs (Step calls) initial front state →
    Kept calls front state

def MissingAndPlainThroughout (steps : List Nat) : Prop :=
  ∀ front id back state, steps = front ++ id :: back → Runs (Step calls) initial front state →
    MissingAndPlain calls state id

end

/-! ## What a step can do -/

/-- How many steps a call can have left. -/
def Phase.rank : Phase → Nat
  | .embedding => 4
  | .listing => 3
  | .creating => 2
  | .upserting => 1
  | .returned _ | .raised _ => 0

/-- What every run from the start keeps. -/
structure Coherent (calls : Calls) (steps : List Nat) (state : State) : Prop where
  sized : ∀ collection, state.store = some collection → collection.size = calls.size
  created : ∀ id, state.phase id = .upserting → ∃ collection, state.store = some collection
  written : ∀ point ∈ state.store.points, ∃ id, point = (calls.call id).point ∧
    state.phase id = .returned (calls.call id).id
  returned : ∀ id pointId, state.phase id = .returned pointId →
    pointId = (calls.call id).id ∧ (calls.call id).point ∈ state.store.points
  counted : ∀ id, steps.count id + (state.phase id).rank ≤ 4

inductive Move (calls : Calls) (state : State) (id : Nat) : State → Prop where
  | embed : state.phase id = .embedding → Move calls state id (state.setPhase id .listing)
  | skip {collection} : state.phase id = .listing → state.store = some collection →
      Move calls state id (state.setPhase id .upserting)
  | miss : state.phase id = .listing → state.store = none →
      Move calls state id (state.setPhase id .creating)
  | create : state.phase id = .creating → state.store = none →
      Move calls state id { state.setPhase id .upserting with store := some ⟨calls.size, []⟩ }
  | late {collection} : state.phase id = .creating → state.store = some collection →
      Move calls state id (state.setPhase id (.raised (.external "qdrant")))
  | upsert {collection} : state.phase id = .upserting → state.store = some collection →
      Move calls state id
        { state.setPhase id (.returned (calls.call id).id) with
          store := some { collection with
            points := collection.points ++ [(calls.call id).point] } }

section

variable {calls : Calls} {steps : List Nat} {state next : State} {id other : Nat} {phase : Phase}

theorem coherent_initial : Coherent calls [] initial where
  sized _ same := by cases same
  created _ same := by cases same
  written _ member := by cases member
  returned _ _ same := by cases same
  counted _ := by simp [initial, Phase.rank]

theorem upsertInto_fitting {collection : Collection Json} (sized : collection.size = calls.size) :
    upsertInto (some collection) (calls.call id).point =
      .ok (some { collection with points := collection.points ++ [(calls.call id).point] }) := by
  have fits : (calls.call id).point.vector.length = collection.size :=
    (calls.sized id).trans sized.symm
  simp [upsertInto, VectorStore.upsert, fits, Except.map]

theorem move_of_step (coherent : Coherent calls steps state) (taken : Step calls state id next) :
    Move calls state id next := by
  unfold Step step at taken
  split at taken
  · rename_i embedding
    cases taken
    exact .embed embedding
  · rename_i listing
    cases existing : state.store with
    | none =>
        simp only [existing, Option.isSome_none, Bool.false_eq_true, if_false] at taken
        cases taken
        exact .miss listing existing
    | some collection =>
        simp only [existing, Option.isSome_some, if_true] at taken
        cases taken
        exact .skip listing existing
  · rename_i creating
    cases existing : state.store with
    | none =>
        simp only [existing, createCollection, State.write] at taken
        cases taken
        exact .create creating existing
    | some collection =>
        simp only [existing, createCollection, State.write] at taken
        cases taken
        exact .late creating existing
  · rename_i upserting
    obtain ⟨collection, existing⟩ := coherent.created id upserting
    rw [existing, upsertInto_fitting (coherent.sized collection existing)] at taken
    cases taken
    exact .upsert upserting existing
  · cases taken
  · cases taken

theorem counted_step (counted : ∀ id, steps.count id + (state.phase id).rank ≤ 4)
    (paid : phase.rank + 1 ≤ (state.phase id).rank) (other : Nat) :
    (steps ++ [id]).count other + (Function.update state.phase id phase other).rank ≤ 4 := by
  have before := counted other
  rw [List.count_append]
  by_cases same : other = id
  · subst same
    rw [Function.update_self, List.count_singleton_self]
    omega
  · rw [Function.update_of_ne same, List.count_singleton, if_neg (by simpa using Ne.symm same)]
    exact before

theorem phase_setPhase_eq_iff {value : Phase} :
    (state.setPhase id phase).phase other = value ↔
      (other = id ∧ phase = value) ∨ (other ≠ id ∧ state.phase other = value) := by
  by_cases same : other = id
  · subst same
    simp [State.setPhase]
  · simp [State.setPhase, same]

/-- A step that leaves the store alone. -/
theorem Coherent.setPhase (coherent : Coherent calls steps state)
    (unreturned : ∀ pointId, state.phase id ≠ .returned pointId)
    (still : ∀ pointId, phase ≠ .returned pointId)
    (created : phase = .upserting → ∃ collection, state.store = some collection)
    (paid : phase.rank + 1 ≤ (state.phase id).rank) :
    Coherent calls (steps ++ [id]) (state.setPhase id phase) where
  sized := coherent.sized
  created other upserting := by
    rcases phase_setPhase_eq_iff.mp upserting with ⟨_, own⟩ | ⟨_, before⟩
    · exact created own
    · exact coherent.created other before
  written point member := by
    obtain ⟨other, written, returned⟩ := coherent.written point member
    have different : other ≠ id := fun same => unreturned _ (same ▸ returned)
    exact ⟨other, written, phase_setPhase_eq_iff.mpr (.inr ⟨different, returned⟩)⟩
  returned other pointId returned := by
    rcases phase_setPhase_eq_iff.mp returned with ⟨_, own⟩ | ⟨_, before⟩
    · exact absurd own (still pointId)
    · exact coherent.returned other pointId before
  counted := counted_step coherent.counted paid

theorem Coherent.create (coherent : Coherent calls steps state)
    (creating : state.phase id = .creating) (missing : state.store = none) :
    Coherent calls (steps ++ [id])
      { state.setPhase id .upserting with store := some ⟨calls.size, []⟩ } where
  sized collection same := by
    cases same
    rfl
  created _ _ := ⟨_, rfl⟩
  written point member := by cases member
  returned other pointId returned := by
    rcases phase_setPhase_eq_iff.mp returned with ⟨_, own⟩ | ⟨_, before⟩
    · cases own
    · have written := (coherent.returned other pointId before).2
      rw [missing] at written
      cases written
  counted := counted_step coherent.counted (by rw [creating]; exact Nat.le_refl 2)

theorem Coherent.upsert (coherent : Coherent calls steps state) {collection : Collection Json}
    (upserting : state.phase id = .upserting) (existing : state.store = some collection) :
    Coherent calls (steps ++ [id])
      { state.setPhase id (.returned (calls.call id).id) with
        store := some { collection with
          points := collection.points ++ [(calls.call id).point] } } where
  sized other same := by
    cases same
    exact coherent.sized collection existing
  created _ _ := ⟨_, rfl⟩
  written point member := by
    rcases List.mem_append.mp member with earlier | own
    · obtain ⟨other, written, returned⟩ :=
        coherent.written point (by rw [existing]; exact earlier)
      have different : other ≠ id := by
        rintro rfl
        rw [upserting] at returned
        cases returned
      exact ⟨other, written, phase_setPhase_eq_iff.mpr (.inr ⟨different, returned⟩)⟩
    · exact ⟨id, List.mem_singleton.mp own, phase_setPhase_eq_iff.mpr (.inl ⟨rfl, rfl⟩)⟩
  returned other pointId returned := by
    rcases phase_setPhase_eq_iff.mp returned with ⟨rfl, own⟩ | ⟨_, before⟩
    · cases own
      exact ⟨rfl, List.mem_append_right _ (.head _)⟩
    · obtain ⟨named, member⟩ := coherent.returned other pointId before
      rw [existing] at member
      exact ⟨named, List.mem_append_left _ member⟩
  counted := counted_step coherent.counted (by rw [upserting]; exact Nat.le_refl 1)

theorem Coherent.step (coherent : Coherent calls steps state)
    (taken : Step calls state id next) : Coherent calls (steps ++ [id]) next := by
  cases move_of_step coherent taken with
  | embed embedding =>
      refine coherent.setPhase ?_ ?_ ?_ ?_ <;> simp [embedding, Phase.rank]
  | skip listing existing =>
      refine coherent.setPhase ?_ ?_ (fun _ => ⟨_, existing⟩) ?_ <;> simp [listing, Phase.rank]
  | miss listing missing =>
      refine coherent.setPhase ?_ ?_ ?_ ?_ <;> simp [listing, Phase.rank]
  | create creating missing => exact coherent.create creating missing
  | late creating existing =>
      refine coherent.setPhase ?_ ?_ ?_ ?_ <;> simp [creating, Phase.rank]
  | upsert upserting existing => exact coherent.upsert upserting existing

theorem coherent_of_run (run : Runs (Step calls) initial steps state) :
    Coherent calls steps state :=
  run.invariant_of_history Coherent.step coherent_initial

/-! ## When the calls get what they are owed -/

/-- No call has failed, and none that returned has replaced its text or its thread. -/
structure Sound (calls : Calls) (state : State) : Prop where
  unraised : ∀ id failure, state.phase id ≠ .raised failure
  plain : ∀ id pointId, state.phase id = .returned pointId → (calls.call id).Plain

theorem sound_initial : Sound calls initial where
  unraised _ _ same := by cases same
  plain _ _ same := by cases same

theorem Sound.setPhase (sound : Sound calls state) (unraised : ∀ failure, phase ≠ .raised failure)
    (plain : ∀ pointId, phase = .returned pointId → (calls.call id).Plain) {store : Store Json} :
    Sound calls { state.setPhase id phase with store := store } where
  unraised other failure raised := by
    rcases phase_setPhase_eq_iff.mp raised with ⟨_, own⟩ | ⟨_, before⟩
    · exact unraised failure own
    · exact sound.unraised other failure before
  plain other pointId returned := by
    rcases phase_setPhase_eq_iff.mp returned with ⟨rfl, own⟩ | ⟨_, before⟩
    · exact plain pointId own
    · exact sound.plain other pointId before

/-- A step keeps what is owed exactly if it creates no collection twice and merges no other
text or thread. -/
theorem sound_step_iff (coherent : Coherent calls steps state) (sound : Sound calls state)
    (taken : Step calls state id next) : Sound calls next ↔ MissingAndPlain calls state id := by
  cases move_of_step coherent taken with
  | embed embedding =>
      exact ⟨fun _ => ⟨by simp [embedding], by simp [embedding]⟩,
        fun _ => sound.setPhase (by simp) (by simp)⟩
  | skip listing =>
      exact ⟨fun _ => ⟨by simp [listing], by simp [listing]⟩,
        fun _ => sound.setPhase (by simp) (by simp)⟩
  | miss listing =>
      exact ⟨fun _ => ⟨by simp [listing], by simp [listing]⟩,
        fun _ => sound.setPhase (by simp) (by simp)⟩
  | create creating missing =>
      exact ⟨fun _ => ⟨fun _ => missing, by simp [creating]⟩,
        fun _ => sound.setPhase (by simp) (by simp)⟩
  | late creating existing =>
      constructor
      · intro after
        exact absurd (by simp [State.setPhase]) (after.unraised id (.external "qdrant"))
      · intro condition
        rw [condition.missing creating] at existing
        cases existing
  | upsert upserting existing =>
      constructor
      · intro after
        exact ⟨by simp [upserting], fun _ =>
          after.plain id (calls.call id).id (by simp [State.setPhase])⟩
      · intro condition
        exact sound.setPhase (by simp) fun _ _ => condition.plain upserting

theorem exists_step (unraised : ∀ failure, state.phase id ≠ .raised failure)
    (unreturned : ∀ pointId, state.phase id ≠ .returned pointId) :
    ∃ next, Step calls state id next := by
  unfold Step step
  cases phase : state.phase id with
  | embedding | listing | creating | upserting => exact ⟨_, rfl⟩
  | returned pointId => exact absurd phase (unreturned pointId)
  | raised failure => exact absurd phase (unraised failure)

/-- The only point with the identifier of a call is the one that the call has written. -/
theorem Coherent.plain_of_stored (coherent : Coherent calls steps state) {pointId : Nat}
    (stored : Stored calls state id pointId) : (calls.call id).Plain := by
  obtain ⟨point, member, named, text, threadId⟩ := stored.stored
  obtain ⟨own, _⟩ := coherent.returned id pointId stored.returned
  obtain ⟨other, rfl, _⟩ := coherent.written point member
  obtain rfl := calls.distinct other id (named.trans own)
  exact Call.plain_iff.mpr ⟨text, threadId⟩

theorem kept_iff_sound (coherent : Coherent calls steps state) :
    Kept calls steps state ↔ Sound calls state := by
  constructor
  · intro kept
    refine ⟨fun id failure raised => ?_, fun id pointId returned => ?_⟩
    · rcases kept.returns id with ⟨pointId, stored⟩ | ⟨_, next, taken⟩
      · have returned := stored.returned
        rw [raised] at returned
        cases returned
      · simp [Step, step, raised] at taken
    · rcases kept.returns id with ⟨other, stored⟩ | ⟨_, next, taken⟩
      · exact coherent.plain_of_stored stored
      · simp [Step, step, returned] at taken
  · intro sound
    refine ⟨fun id => ?_, fun id other pointId returned also => ?_⟩
    · by_cases returned : ∃ pointId, state.phase id = .returned pointId
      · obtain ⟨pointId, returned⟩ := returned
        obtain ⟨named, member⟩ := coherent.returned id pointId returned
        obtain ⟨text, threadId⟩ := Call.plain_iff.mp (sound.plain id pointId returned)
        exact .inl ⟨pointId, returned, _, member, named.symm, text, threadId⟩
      · obtain ⟨next, taken⟩ := @exists_step calls state id (sound.unraised id)
          fun pointId same => returned ⟨pointId, same⟩
        -- the step that can be taken has not been counted yet
        have after := (coherent.step taken).counted id
        rw [List.count_append, List.count_singleton_self] at after
        exact .inr ⟨by omega, next, taken⟩
    · have own := (coherent.returned id pointId returned).1
      have others := (coherent.returned other pointId also).1
      exact calls.distinct id other (own.symm.trans others)

theorem missingAndPlain_of_ended (ended : ∀ next, ¬ Step calls state id next) :
    MissingAndPlain calls state id := by
  constructor
  · intro creating
    obtain ⟨next, taken⟩ := @exists_step calls state id (by simp [creating]) (by simp [creating])
    exact absurd taken (ended next)
  · intro upserting
    obtain ⟨next, taken⟩ := @exists_step calls state id (by simp [upserting]) (by simp [upserting])
    exact absurd taken (ended next)

theorem step_embedding (embedding : state.phase id = .embedding) :
    Step calls state id (state.setPhase id .listing) := by
  simp [Step, step, embedding]

theorem step_listing (listing : state.phase id = .listing) :
    Step calls state id
      (state.setPhase id (if state.store.isSome then .upserting else .creating)) := by
  simp [Step, step, listing]

theorem step_creating (creating : state.phase id = .creating) (missing : state.store = none) :
    Step calls state id
      { state.setPhase id .upserting with store := some ⟨calls.size, []⟩ } := by
  simp [Step, step, creating, missing, createCollection, State.write]

theorem step_upserting {collection : Collection Json} (upserting : state.phase id = .upserting)
    (existing : state.store = some collection) (sized : collection.size = calls.size) :
    Step calls state id
      { state.setPhase id (.returned (calls.call id).id) with
        store := some { collection with
          points := collection.points ++ [(calls.call id).point] } } := by
  simp [Step, step, upserting, existing, upsertInto_fitting sized, State.write]

theorem remember_eq {call : Call} {store : Store Json} :
    remember (fun _ => .ok call.vector) call.id store call.threadId call.text call.metadata =
      upsertInto (some (ensureCollection store call.vector.length)) call.point := rfl

/-- On its own a call does what `remember` does. -/
theorem alone_remembers (coherent : Coherent calls steps state)
    (fresh : state.phase id = .embedding) :
    ∃ count next, Runs (Step calls) state (List.replicate count id) next ∧
      next.phase id = .returned (calls.call id).id ∧
      remember (fun _ => .ok (calls.call id).vector) (calls.call id).id state.store
        (calls.call id).threadId (calls.call id).text (calls.call id).metadata =
          .ok next.store := by
  have embeds := @step_embedding calls state id fresh
  have lists := @step_listing calls (state.setPhase id .listing) id (by simp [State.setPhase])
  rw [remember_eq, calls.sized]
  cases existing : state.store with
  | some collection =>
      have sized := coherent.sized collection existing
      rw [show (state.setPhase id .listing).store = some collection from existing,
        Option.isSome_some, if_pos rfl] at lists
      have writes := @step_upserting calls ((state.setPhase id .listing).setPhase id .upserting) id
        collection (by simp [State.setPhase]) existing sized
      exact ⟨3, _, .cons embeds (.cons lists (.single writes)), by simp [State.setPhase],
        upsertInto_fitting sized⟩
  | none =>
      rw [show (state.setPhase id .listing).store = none from existing, Option.isSome_none,
        if_neg Bool.false_ne_true] at lists
      have creates := @step_creating calls ((state.setPhase id .listing).setPhase id .creating) id
        (by simp [State.setPhase]) existing
      have writes := @step_upserting calls
        { ((state.setPhase id .listing).setPhase id .creating).setPhase id .upserting with
          store := some ⟨calls.size, []⟩ } id ⟨calls.size, []⟩ (by simp [State.setPhase]) rfl rfl
      exact ⟨4, _, .cons embeds (.cons lists (.cons creates (.single writes))),
        by simp [State.setPhase], upsertInto_fitting rfl⟩

/-- In every run every call gets what it is owed exactly if every call that creates the
collection still misses it, and no metadata replaces a text or a thread. -/
theorem kept_iff_missing_plain (calls : Calls) (steps : List Nat) :
    KeptThroughout calls steps ↔ MissingAndPlainThroughout calls steps := by
  constructor
  · intro kept front id back state split reached
    have coherent := coherent_of_run reached
    have sound := (kept_iff_sound coherent).mp (kept front (id :: back) state split reached)
    by_cases moves : ∃ next, Step calls state id next
    · obtain ⟨next, taken⟩ := moves
      have after := kept (front ++ [id]) back next (by simp [split])
        (reached.append (.single taken))
      exact (sound_step_iff coherent sound taken).mp
        ((kept_iff_sound (coherent.step taken)).mp after)
    · exact missingAndPlain_of_ended fun next taken => moves ⟨next, taken⟩
  · intro condition front
    induction front using List.reverseRecOn with
    | nil =>
        intro back state _ reached
        cases reached
        exact (kept_iff_sound coherent_initial).mpr sound_initial
    | append_singleton front id ih =>
        intro back state split reached
        obtain ⟨before, earlier, rest⟩ := reached.split
        cases rest with
        | cons taken rest =>
            cases rest
            rw [List.append_assoc, List.singleton_append] at split
            have coherent := coherent_of_run earlier
            have sound := (kept_iff_sound coherent).mp (ih (id :: back) before split earlier)
            exact (kept_iff_sound (coherent.step taken)).mpr
              ((sound_step_iff coherent sound taken).mpr
                (condition front id back before split earlier))

end

/-! ## Two first calls -/

def firstCalls : Calls where
  call id := ⟨id, [1], "plans", "the key rotates", []⟩
  size := 1
  sized _ := rfl
  distinct _ _ same := same

/-- Both calls list the collections before either creates the one they miss. -/
theorem both_create_not_kept : ¬ KeptThroughout firstCalls [0, 1, 0, 1, 0, 1] := by
  intro kept
  have creating : ∃ state, Runs (Step firstCalls) initial [0, 1, 0, 1, 0] state ∧
      state.phase 1 = .creating ∧ state.store = some ⟨1, []⟩ :=
    ⟨_, runSteps_eq_some_iff.mp rfl, rfl, rfl⟩
  obtain ⟨state, reached, phase, existing⟩ := creating
  have raises : Step firstCalls state 1 (state.setPhase 1 (.raised (.external "qdrant"))) := by
    simp [Step, step, phase, existing, createCollection, State.write]
  have after := kept _ [] _ rfl (reached.append (.single raises))
  rcases after.returns 1 with ⟨pointId, stored⟩ | ⟨_, next, taken⟩
  · have returned := stored.returned
    simp [State.setPhase] at returned
  · simp [Step, step, State.setPhase] at taken

end AgenticEnterprise.Memory.FirstMemories
