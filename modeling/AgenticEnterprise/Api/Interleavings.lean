import AgenticEnterprise.Api.Isolation
import AgenticEnterprise.Api.TrailLedger
import AgenticEnterprise.Library.Interleavings

/-! Requests on different threads in different orders. Their runs share the vector store
and the ownership table, which none of them writes as long as no fact is remembered and
the threads behind the check have their owners. -/

set_option autoImplicit false

namespace AgenticEnterprise.Api.Interleavings

open Core Library Graph Threads Ownership PartialEquivalence Isolation
open Library.Interleavings (Alike Separate answered behind answered_alike)

/-- The thread that a request works on, when its caller and its payload are accepted. -/
def worksOn (deployment : Deployment) (exchange : Exchange) : Option String :=
  (exchange.caller deployment).bind (threadOf · exchange.request.route)

def serving (deployment : Deployment) (exchange : Exchange) (system : System) :
    Response × System :=
  let served := exchange.serve deployment system
  (served.response, served.system)

/-- A request to a thread that stores no fact, and claims no thread. -/
structure Plain (table : ThreadOwnership) (exchange : Exchange) : Prop where
  listed : usesThreads exchange.request.route = true
  forgets : ∀ threadId text, exchange.request.route ≠ .remember threadId text
  owned : ∀ {threadId}, checkedThread exchange.request.route = some threadId →
    ∃ owner, table.committed threadId = some owner

/-! ## The part of the stores under a thread -/

/-- What all requests read, the thread if there is one, and the cache but for the answers
from other threads. -/
structure SameUnder (deployment : Deployment) (chosen : Option String) (left right : System) :
    Prop where
  ownership : left.ownership = right.ownership
  memory : left.memory = right.memory
  threads : ∀ threadId, chosen = some threadId → left.threads threadId = right.threads threadId
  research : ∀ threadId, chosen = some threadId →
    left.research threadId = right.research threadId
  cache : ∀ key, (∀ threadId, Tainted deployment threadId key → chosen = some threadId) →
    left.cache key = right.cache key

namespace SameUnder

variable {deployment : Deployment} {chosen : Option String} {first second third : System}

theorem refl : SameUnder deployment chosen first first where
  ownership := rfl
  memory := rfl
  threads _ _ := rfl
  research _ _ := rfl
  cache _ _ := rfl

theorem symm (same : SameUnder deployment chosen first second) :
    SameUnder deployment chosen second first where
  ownership := same.ownership.symm
  memory := same.memory.symm
  threads threadId here := (same.threads threadId here).symm
  research threadId here := (same.research threadId here).symm
  cache key clean := (same.cache key clean).symm

theorem trans (same : SameUnder deployment chosen first second)
    (next : SameUnder deployment chosen second third) :
    SameUnder deployment chosen first third where
  ownership := same.ownership.trans next.ownership
  memory := same.memory.trans next.memory
  threads threadId here := (same.threads threadId here).trans (next.threads threadId here)
  research threadId here := (same.research threadId here).trans (next.research threadId here)
  cache key clean := (same.cache key clean).trans (next.cache key clean)

end SameUnder

/-- The relation on the states of a session, whose table is one of `allowed`. -/
def under (deployment : Deployment) (chosen : Option String) (allowed : ThreadOwnership → Prop) :
    PartialEquivalence State where
  related left right :=
    allowed left.system.ownership ∧ SameUnder deployment chosen left.system right.system
  symm both := ⟨both.2.ownership ▸ both.1, both.2.symm⟩
  trans first second := ⟨first.1, first.2.trans second.2⟩

/-- Between requests no row of the table is pending, and no owner is lost. -/
structure Kept (table current : ThreadOwnership) : Prop where
  settled : current.Settled
  owned : ∀ {threadId owner}, table.committed threadId = some owner →
    current.committed threadId = some owner

def part (deployment : Deployment) (table : ThreadOwnership) (chosen : Option String) :
    PartialEquivalence System where
  related left right := Kept table left.ownership ∧ SameUnder deployment chosen left right
  symm both := ⟨both.2.ownership ▸ both.1, both.2.symm⟩
  trans first second := ⟨first.1, first.2.trans second.2⟩

section

variable {deployment : Deployment} {outside : Outside} {token : Option String} {route : Route}
  {allowed : ThreadOwnership → Prop} {chosen : Option String} {threadId username : String}

/-! ## A request on the thread -/

theorem fixesRuns (here : chosen = some threadId) :
    FixesRuns (under deployment chosen allowed) threadId where
  inputs both := by
    simp only [State.runInputs, both.2.threads threadId here, both.2.ownership, both.2.memory]
  record thread supersteps := .write fun both => by
    refine ⟨both.1, { both.2 with threads := fun other same => ?_ }⟩
    obtain rfl : threadId = other := Option.some.inj (here.symm.trans same)
    simp

theorem fixesResearch (here : chosen = some threadId) :
    FixesResearch (under deployment chosen allowed) threadId where
  thread both := both.2.research threadId here
  record thread := .write fun both => by
    refine ⟨both.1, { both.2 with research := fun other same => ?_ }⟩
    obtain rfl : threadId = other := Option.some.inj (here.symm.trans same)
    simp

theorem fixesCache {key : String}
    (clean : ∀ threadId, Tainted deployment threadId key → chosen = some threadId) :
    FixesCache (under deployment chosen allowed) key where
  entry both := both.2.cache key clean
  record outside response := .write fun both => by
    split
    · refine ⟨both.1, { both.2 with cache := fun other apart => ?_ }⟩
      by_cases same : other = key
      · subst same
        simp
      · simpa [same] using both.2.cache other apart
    · exact both

theorem claimOrCheck_determined :
    Determined (under deployment chosen fun _ => True)
      (claimOrCheck deployment outside threadId username) := by
  unfold claimOrCheck
  split
  · exact Agree.pure _
  · refine Agree.bind call_determined fun _ => ?_
    intro first second both
    rw [Effect.exec_bind, Effect.exec_bind, Effect.exec_read, Effect.exec_read,
      ← both.2.ownership]
    dsimp only
    split
    · exact ⟨rfl, both⟩
    · exact ⟨rfl, trivial, { both.2 with ownership := rfl }⟩

theorem commit_determined :
    Determined (under deployment chosen fun _ => True) (commitSession outside) := by
  refine Agree.write fun both => ⟨trivial, ?_⟩
  unfold State.commit
  cases outside.fault .commit with
  | some failure =>
      exact { both.2 with ownership := congrArg (·.rollback transaction) both.2.ownership }
  | none => exact { both.2 with ownership := congrArg (·.commit transaction) both.2.ownership }

/-- With separate keys, the cache holds an answer from at most one thread under a key. -/
theorem askCacheKey_clean {query other : String} (separate : KeysSeparate deployment)
    (current : currentUser deployment outside token = .ok username)
    (tainted : Tainted deployment other (askCacheKey username query)) :
    askThreadId username = other := by
  obtain ⟨user, otherQuery, known, thread, same⟩ := tainted
  by_cases self : username = user
  · subst self
    exact thread
  · exact absurd same (separate username user (currentUser_known current) known self _ _)

theorem fixes_of_worksOn (separate : KeysSeparate deployment)
    (here : ∀ {username}, currentUser deployment outside token = .ok username →
      threadOf username route = chosen) :
    Fixes (under deployment chosen fun _ => True) deployment outside token route where
  runs current works _ := by
    have same := (here current).symm.trans works
    exact ⟨fixesRuns same, fixesResearch same⟩
  cache := by
    intro username query current asks
    subst asks
    refine fixesCache fun other tainted => (here current).symm.trans ?_
    exact congrArg some (askCacheKey_clean separate current tainted)
  memory :=
    { store := fun both => both.2.memory
      record := fun _ => .write fun both => ⟨both.1, { both.2 with memory := rfl }⟩ }
  session _ := .write fun both => both
  claim _ _ := claimOrCheck_determined
  commit := commit_determined
  rollback := .write fun both =>
    ⟨trivial, { both.2 with
      ownership := congrArg (·.rollback transaction) both.2.ownership }⟩

/-! ## A request on another thread -/

theorem ignoresRuns (apart : chosen ≠ some threadId) :
    IgnoresRuns (under deployment chosen allowed) threadId :=
  fun _ _ => .write fun both => ⟨both.1, { both.2 with
    threads := fun _ here =>
      (Function.update_of_ne (fun same => apart (here.trans (congrArg some same))) _ _).symm }⟩

theorem ignoresResearch (apart : chosen ≠ some threadId) :
    IgnoresResearch (under deployment chosen allowed) threadId :=
  fun _ => .write fun both => ⟨both.1, { both.2 with
    research := fun _ here =>
      (Function.update_of_ne (fun same => apart (here.trans (congrArg some same))) _ _).symm }⟩

theorem ignoresCache {key : String} {response : AskResponse}
    (tainted : Tainted deployment threadId key) (apart : chosen ≠ some threadId) :
    (under deployment chosen allowed).Keeps (setCached outside key response) :=
  .write fun both => by
    split
    · refine ⟨both.1, { both.2 with cache := fun other clean => ?_ }⟩
      have different : other ≠ key := fun same => apart (clean threadId (same ▸ tainted))
      exact (Function.update_of_ne different _ _).symm
    · exact both

theorem claimOrCheck_keeps {table : ThreadOwnership} {owner : String}
    (owned : table.committed threadId = some owner) :
    (under deployment chosen (Kept table)).Keeps
      (claimOrCheck deployment outside threadId username) := by
  unfold claimOrCheck
  split
  · exact .pure _
  · refine .bind call_keeps fun _ => ?_
    intro state both
    rw [Effect.exec_bind, Effect.exec_read]
    dsimp only
    split
    · exact both
    · rename_i granted claimed executed
      obtain ⟨rfl, _⟩ := claimOrCheck_of_committed (both.1.owned owned) executed
      exact both

theorem commit_keeps {table : ThreadOwnership} :
    (under deployment chosen (Kept table)).Keeps (commitSession outside) :=
  .write fun both => by
    unfold State.commit
    split
    · exact ⟨both.1, { both.2 with
        ownership := (UniqueKeyTable.Settled.rollback_eq both.1.settled).symm }⟩
    · exact ⟨both.1, { both.2 with
        ownership := (UniqueKeyTable.Settled.commit_eq both.1.settled).symm }⟩

theorem ignores_of_apart {table : ThreadOwnership} {exchange : Exchange}
    (plain : Plain table exchange) (apart : worksOn deployment exchange ≠ chosen) :
    Ignores (under deployment chosen (Kept table)) deployment exchange.outside
      exchange.request.token exchange.request.route where
  runs := by
    intro username threadId current works _
    have elsewhere : chosen ≠ some threadId := by
      intro here
      refine apart ?_
      rw [worksOn, Exchange.caller_eq_some_iff.mpr current, here]
      exact works
    exact ⟨ignoresRuns elsewhere, ignoresResearch elsewhere⟩
  cache := by
    intro username query current asks response
    have works : threadOf username exchange.request.route = some (askThreadId username) := by
      rw [asks]
      rfl
    refine ignoresCache ⟨username, query, currentUser_known current, rfl, rfl⟩ fun here => ?_
    refine apart ?_
    rw [worksOn, Exchange.caller_eq_some_iff.mpr current, here]
    exact works
  memory remembers := absurd remembers (plain.forgets _ _)
  session _ := .write fun both => both
  claim checked := by
    obtain ⟨owner, owned⟩ := plain.owned checked
    exact claimOrCheck_keeps owned
  commit := commit_keeps
  rollback := .write fun both =>
    ⟨both.1, { both.2 with
      ownership := (UniqueKeyTable.Settled.rollback_eq both.1.settled).symm }⟩

end

/-! ## Histories -/

section

variable {deployment : Deployment} {table : ThreadOwnership} {exchange : Exchange}
  {system first : System} {history other : List Exchange}

theorem Kept.serve (kept : Kept table system.ownership) :
    Kept table (exchange.serve deployment system).system.ownership where
  settled := serve_between settledSession exchange kept.settled
  owned present := serve_between committedSession exchange (kept.owned present)

theorem serving_separate (separate : KeysSeparate deployment) (plain : Plain table exchange) :
    Separate (serving deployment) (worksOn deployment) (part deployment table) exchange where
  own := by
    intro left right related
    have here {username : String}
        (current : currentUser deployment exchange.outside exchange.request.token = .ok username) :
        threadOf username exchange.request.route = worksOn deployment exchange := by
      rw [worksOn, Exchange.caller_eq_some_iff.mpr current]
      rfl
    obtain ⟨result, _, same⟩ := (fixes_of_worksOn separate here).handle_determined plain.listed
      { system := left } { system := right } ⟨trivial, related.2⟩
    refine ⟨?_, related.1.serve, same⟩
    simp only [serving, Exchange.serve, Api.serve, result]
  foreign := by
    intro chosen state apart related
    exact (ignores_of_apart plain apart).handle_keeps plain.listed { system := state }
      ⟨related.1, SameUnder.refl⟩

theorem rowsTold_eq : TrailLedger.rowsTold deployment first history =
    (answered (serving deployment) first history).flatMap fun told =>
      if told.1.outside.fault .commit = none then TrailLedger.told told.1 told.2 else [] := by
  induction history generalizing first with
  | nil => rfl
  | cons exchange history ih =>
      simp only [TrailLedger.rowsTold, answered, List.flatMap_cons, ih]
      rfl

/-- A key of the cache is free of answers, or holds answers from one thread. -/
theorem clean_for_one (separate : KeysSeparate deployment) (key : String) :
    ∃ chosen : Option String,
      ∀ threadId, Tainted deployment threadId key → chosen = some threadId := by
  by_cases free : ∃ threadId, Tainted deployment threadId key
  · obtain ⟨threadId, username, query, known, thread, same⟩ := free
    refine ⟨some threadId, fun other tainted => ?_⟩
    obtain ⟨user, otherQuery, knownToo, otherThread, also⟩ := tainted
    by_cases self : username = user
    · rw [← thread, ← otherThread, self]
    · exact absurd (same.symm.trans also) (separate username user known knownToo self _ _)
  · exact ⟨none, fun threadId tainted => absurd ⟨threadId, tainted⟩ free⟩

end

end AgenticEnterprise.Api.Interleavings
