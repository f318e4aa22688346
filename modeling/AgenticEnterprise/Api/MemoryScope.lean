import AgenticEnterprise.Api.Endpoints

/-! A caller other than the admin sees the facts remembered on the threads it
owns and nothing of the others, through the search route and through the
retrieval node of the graph. -/

set_option autoImplicit false

namespace AgenticEnterprise.Api.MemoryScope

open Core Library Memory Graph Engine Ownership

/-- Two states of the app that a user cannot tell apart by its ownership rows or
by the facts on its own threads. Everything else in the vector store is free. -/
structure SameFor (embedder : VectorStore.Embedder) (username : String)
    (first second : System) : Prop where
  rows : ∀ threadId, first.ownership.visible transaction threadId =
    second.ownership.visible transaction threadId
  remembered : VectorStore.Remembered embedder first.memory
  otherRemembered : VectorStore.Remembered embedder second.memory
  points :
    let owned := VectorStore.matchAny (ownedThreadIds transaction first.ownership username)
    (first.memory.points.filter owned).Perm (second.memory.points.filter owned)

section

variable {deployment : Deployment} {outside : Outside} {username query : String} {limit : Int}
  {first second : State}

theorem SameFor.owned (same : SameFor outside.embedder username first.system second.system)
    (threadId : String) :
    threadId ∈ ownedThreadIds transaction first.system.ownership username ↔
      threadId ∈ ownedThreadIds transaction second.system.ownership username := by
  rw [mem_ownedThreadIds, mem_ownedThreadIds, same.rows]

/-- Qdrant refuses a limit below one, where a missing collection answers without a hit. -/
def Answered (limit : Int) (first second : System) : Prop :=
  1 ≤ limit ∨ first.memory.isSome = second.memory.isSome

theorem SameFor.search (same : SameFor outside.embedder username first.system second.system)
    (answered : Answered limit first.system second.system) :
    VectorStore.search outside.embedder outside.ranking first.system.memory query limit
        (some (ownedThreadIds transaction first.system.ownership username)) =
      VectorStore.search outside.embedder outside.ranking second.system.memory query limit
        (some (ownedThreadIds transaction second.system.ownership username)) :=
  VectorStore.search_congr same.remembered.ids_nodup same.owned same.points answered

theorem searchMemory_congr (ordinary : isAdmin deployment.settings username = false)
    (same : SameFor outside.embedder username first.system second.system)
    (answered : Answered limit first.system second.system) :
    ((searchMemory deployment outside query limit username).exec first).1 =
      ((searchMemory deployment outside query limit username).exec second).1 := by
  unfold searchMemory searchedThreads
  rw [ordinary]
  cases database : outside.fault .ownership with
  | some failure => simp [call, database, Effect.exec_bind]
  | none =>
      cases qdrant : outside.fault .vectorStore with
      | some failure => simp [call, database, qdrant, Effect.exec_bind]
      | none =>
          simp only [call, database, qdrant, Effect.exec_bind, Effect.exec_ofExcept,
            Effect.exec_read, Effect.exec_pure, Bool.false_eq_true, ↓reduceIte,
            same.search answered]
          cases VectorStore.search outside.embedder outside.ranking second.system.memory query limit
            (some (ownedThreadIds transaction second.system.ownership username)) with
          | error failure => rfl
          | ok hits =>
              dsimp only
              cases hits.mapM memoryHit <;> rfl

/-- The retrieval node of a run that `caller` starts. -/
theorem retrieveSemanticMemories_congr {caller : Caller} {threadId : String} {index : Nat}
    {state : GraphState} (ordinary : isAdmin deployment.settings caller.username = false)
    (same : SameFor outside.embedder caller.username first.system second.system) :
    (retrieveSemanticMemories
        (environment deployment outside caller (first.runInputs threadId) index) state).update =
      (retrieveSemanticMemories
        (environment deployment outside caller (second.runInputs threadId) index)
          state).update := by
  have hits (text : String) :
      retrievedHits (environment deployment outside caller (first.runInputs threadId) index) text =
        retrievedHits (environment deployment outside caller (second.runInputs threadId) index)
          text := by
    simp only [retrievedHits, environment, State.runInputs, ordinary]
    cases caller.withDb with
    | false => rfl
    | true => exact same.search (.inl (by decide))
  simp only [retrieveSemanticMemories, hits]

end

/-- The search route, asked for one hit at least, and the retrieval node answer a user
the same in any two states that agree on its rows and on the facts of its own threads. -/
theorem memories_of_others_unseen {deployment : Deployment} {outside : Outside} {username : String}
    (ordinary : isAdmin deployment.settings username = false) {first second : State}
    (same : SameFor outside.embedder username first.system second.system) :
    (∀ (query : String) (limit : Int), Answered limit first.system second.system →
      ((searchMemory deployment outside query limit username).exec first).1 =
        ((searchMemory deployment outside query limit username).exec second).1) ∧
      ∀ (caller : Caller), caller.username = username →
        ∀ (threadId : String) (index : Nat) (state : GraphState),
          (retrieveSemanticMemories
              (environment deployment outside caller (first.runInputs threadId) index)
              state).update =
            (retrieveSemanticMemories
              (environment deployment outside caller (second.runInputs threadId) index)
              state).update := by
  refine ⟨fun query limit answered => searchMemory_congr ordinary same answered, ?_⟩
  intro caller named threadId index state
  subst named
  exact retrieveSemanticMemories_congr ordinary same

def silent : Outside :=
  undisturbed ⟨"", []⟩ ⟨"", []⟩

/-- Bob owns one thread and nothing has been remembered. -/
def bobsSystem : System where
  ownership := ⟨[⟨"bobs", "bob", none⟩], by decide⟩

/-- The same with one fact on a thread of somebody else. -/
def foreignFactSystem : System :=
  { bobsSystem with
    memory := some ⟨0, [⟨0, [], [("text", "secret"), ("thread_id", "alices")]⟩]⟩ }

theorem foreignFact_same : SameFor silent.embedder "bob" bobsSystem foreignFactSystem := by
  have written : VectorStore.remember silent.embedder 0 none "alices" "secret" [] =
      .ok foreignFactSystem.memory := rfl
  exact
    { rows := fun _ => rfl
      remembered := .none
      otherRemembered := .remember .none (by decide) written
      points := .of_eq (by decide) }

theorem foreign_fact_unseen :
    (∀ (query : String) (limit : Int), Answered limit bobsSystem foreignFactSystem →
      ((searchMemory {} silent query limit "bob").exec ⟨bobsSystem, [], []⟩).1 =
        ((searchMemory {} silent query limit "bob").exec ⟨foreignFactSystem, [], []⟩).1) ∧
      ∀ (caller : Caller), caller.username = "bob" →
        ∀ (threadId : String) (index : Nat) (state : GraphState),
          (retrieveSemanticMemories
              (environment {} silent caller ((⟨bobsSystem, [], []⟩ : State).runInputs threadId)
                index) state).update =
            (retrieveSemanticMemories
              (environment {} silent caller
                ((⟨foreignFactSystem, [], []⟩ : State).runInputs threadId) index)
                  state).update := by
  have ordinary : isAdmin ({} : Deployment).settings "bob" = false := by decide
  exact @memories_of_others_unseen {} silent "bob" ordinary ⟨bobsSystem, [], []⟩
    ⟨foreignFactSystem, [], []⟩ foreignFact_same

/-- With a limit of zero, Bob can tell whether anybody has remembered a fact. -/
theorem foreign_fact_seen :
    SameFor silent.embedder "bob" bobsSystem foreignFactSystem ∧
      ((searchMemory {} silent "" 0 "bob").exec ⟨bobsSystem, [], []⟩).1 =
        .ok { body := .hits "" [] } ∧
      ((searchMemory {} silent "" 0 "bob").exec ⟨foreignFactSystem, [], []⟩).1 =
        .error (.external "qdrant") :=
  ⟨foreignFact_same, rfl, rfl⟩

end AgenticEnterprise.Api.MemoryScope
