import AgenticEnterprise.Api.Agreement
import AgenticEnterprise.Api.SessionOwnership

/-! A thread with an owner and the responses of everybody else. Only the routes
under `/admin/threads` check the owner; the others take any thread key from
anybody who is logged in. -/

set_option autoImplicit false

namespace AgenticEnterprise.Api.Isolation

open Core Library Graph Threads Ownership PartialEquivalence

/-! ## The routes and their threads -/

/-- The thread a route works on without asking for its owner. -/
def uncheckedThread (username : String) (route : Route) : Option String :=
  match checkedThread route with
  | some _ => none
  | none => threadOf username route

/-- The routes that read or write threads for their callers. -/
def usesThreads : Route → Bool
  | .run _ | .runStream _ | .ask _ | .research _ | .conversation _ | .history _ _ | .resume _
  | .fork _ _ | .edit _ _ | .branches _ _ | .remember _ _ => true
  | _ => false

def KeysSeparate (deployment : Deployment) : Prop :=
  ∀ first second, (deployment.getUser first).isSome = true →
    (deployment.getUser second).isSome = true → first ≠ second →
    ∀ query other, askCacheKey first query ≠ askCacheKey second other

theorem askCacheKey_toList {username query : String} :
    (askCacheKey username query).toList =
      "agent-cache::ask:".toList ++ (username.toList ++ ':' :: query.toList) := by
  change ("agent-cache:" ++ "" ++ ":ask:" ++ username ++ ":" ++ query).toList = _
  simp

/-- Keys are separate when no username contains a colon. -/
theorem keysSeparate_of_plain {deployment : Deployment}
    (plain : ∀ username, (deployment.getUser username).isSome = true → ':' ∉ username.toList) :
    KeysSeparate deployment := by
  intro first second firstKnown secondKnown different query other same
  have lists := congrArg String.toList same
  rw [askCacheKey_toList, askCacheKey_toList, List.append_cancel_left_eq] at lists
  have equal : first.toList = second.toList :=
    Text.eq_of_append_mark (plain first firstKnown) (plain second secondKnown) lists
  exact different (String.toList_inj.mp equal)

/-- A cache key under which answers from the thread can be kept. -/
def Tainted (deployment : Deployment) (threadId key : String) : Prop :=
  ∃ username query, (deployment.getUser username).isSome = true ∧
    askThreadId username = threadId ∧ key = askCacheKey username query

/-- A call of `/ask`. -/
def Asks (deployment : Deployment) (exchange : Exchange) (username query : String) : Prop :=
  exchange.caller deployment = some username ∧ exchange.request.route = .ask (some query)

/-- Among these requests, no two users have calls with the same key. -/
def KeysApart (deployment : Deployment) (calls : List Exchange) : Prop :=
  ∀ call ∈ calls, ∀ other ∈ calls, ∀ username query user otherQuery,
    Asks deployment call username query → Asks deployment other user otherQuery →
    askCacheKey username query = askCacheKey user otherQuery → username = user

/-- The keys under which these requests keep answers from the thread. -/
def TaintedBy (deployment : Deployment) (calls : List Exchange) (threadId key : String) : Prop :=
  ∃ call ∈ calls, ∃ username query, Asks deployment call username query ∧
    askThreadId username = threadId ∧ key = askCacheKey username query

/-! ## States that agree off one thread -/

/-- The same but for what the thread holds, in either graph, what the cache keeps under
the tainted keys and what has been logged about executions. -/
structure SameOff (tainted : String → Prop) (threadId : String) (left right : System) : Prop where
  ownership : left.ownership = right.ownership
  memory : left.memory = right.memory
  threads : ∀ other, other ≠ threadId → left.threads other = right.threads other
  research : ∀ other, other ≠ threadId → left.research other = right.research other
  cache : ∀ key, ¬ tainted key → left.cache key = right.cache key

section

variable {tainted : String → Prop} {threadId : String} {first second third : System}

theorem SameOff.symm (same : SameOff tainted threadId first second) :
    SameOff tainted threadId second first where
  ownership := same.ownership.symm
  memory := same.memory.symm
  threads other different := (same.threads other different).symm
  research other different := (same.research other different).symm
  cache key clean := (same.cache key clean).symm

theorem SameOff.trans (same : SameOff tainted threadId first second)
    (next : SameOff tainted threadId second third) : SameOff tainted threadId first third where
  ownership := same.ownership.trans next.ownership
  memory := same.memory.trans next.memory
  threads other different := (same.threads other different).trans (next.threads other different)
  research other different := (same.research other different).trans (next.research other different)
  cache key clean := (same.cache key clean).trans (next.cache key clean)

end

/-- The relation on the states of a session, whose table is one of `allowed`. -/
def offThread (tainted : String → Prop) (threadId : String) (allowed : ThreadOwnership → Prop) :
    PartialEquivalence State where
  related left right :=
    allowed left.system.ownership ∧ SameOff tainted threadId left.system right.system
  symm both := ⟨both.2.ownership ▸ both.1, both.2.symm⟩
  trans first second := ⟨first.1, first.2.trans second.2⟩

section

variable {tainted : String → Prop} {outside : Outside} {threadId owner username : String}
  {allowed : ThreadOwnership → Prop}

/-! ## What the relation fixes and what it ignores -/

theorem fixesRuns {other : String} (different : other ≠ threadId) :
    FixesRuns (offThread tainted threadId allowed) other where
  inputs both := by
    simp only [State.runInputs, both.2.threads other different, both.2.ownership, both.2.memory]
  record thread supersteps := .write fun both => by
    refine ⟨both.1, { both.2 with threads := fun key apart => ?_ }⟩
    by_cases same : key = other
    · subst same
      simp
    · simpa [same] using both.2.threads key apart

theorem fixesResearch {other : String} (different : other ≠ threadId) :
    FixesResearch (offThread tainted threadId allowed) other where
  thread both := both.2.research other different
  record thread := .write fun both => by
    refine ⟨both.1, { both.2 with research := fun key apart => ?_ }⟩
    by_cases same : key = other
    · subst same
      simp
    · simpa [same] using both.2.research key apart

theorem fixesCache {key : String} (clean : ¬ tainted key) :
    FixesCache (offThread tainted threadId allowed) key where
  entry both := both.2.cache key clean
  record outside response := .write fun both => by
    split
    · refine ⟨both.1, { both.2 with cache := fun other apart => ?_ }⟩
      by_cases same : other = key
      · subst same
        simp
      · simpa [same] using both.2.cache other apart
    · exact both

theorem fixesMemory : FixesMemory (offThread tainted threadId allowed) where
  store both := both.2.memory
  record _ := .write fun both => ⟨both.1, { both.2 with memory := rfl }⟩

theorem fixesSession : FixesSession (offThread tainted threadId allowed) :=
  fun _ => .write fun both => both

theorem ignoresRuns : IgnoresRuns (offThread tainted threadId allowed) threadId :=
  fun _ _ => .write fun both =>
    ⟨both.1, { both.2 with
      threads := fun _ different => (Function.update_of_ne different _ _).symm }⟩

theorem ignoresResearch : IgnoresResearch (offThread tainted threadId allowed) threadId :=
  fun _ => .write fun both =>
    ⟨both.1, { both.2 with
      research := fun _ different => (Function.update_of_ne different _ _).symm }⟩

theorem ignoresSession : IgnoresSession (offThread tainted threadId allowed) :=
  fun _ => .write fun both => both

theorem ignoresCache {key : String} {response : AskResponse} (kept : tainted key) :
    (offThread tainted threadId allowed).Keeps (setCached outside key response) :=
  .write fun both => by
    split
    · refine ⟨both.1, { both.2 with cache := fun other clean => ?_ }⟩
      have different : other ≠ key := fun same => clean (same ▸ kept)
      exact (Function.update_of_ne different _ _).symm
    · exact both

end

/-! ## One request -/

section

variable {equivalence : PartialEquivalence State} {deployment : Deployment} {outside : Outside}
  {token : Option String} {route : Route} {threadId : String} {Payload Result : Type}

/-- The relation ignores all that a request writes, of a checked thread only
where the check can pass. -/
structure Ignores (equivalence : PartialEquivalence State) (deployment : Deployment)
    (outside : Outside) (token : Option String) (route : Route) : Prop where
  runs : ∀ {username threadId}, currentUser deployment outside token = .ok username →
    threadOf username route = some threadId →
    (checkedThread route = some threadId →
      equivalence.Yields (requireThreadOwner deployment outside threadId token) username) →
    IgnoresRuns equivalence threadId ∧ IgnoresResearch equivalence threadId
  cache : ∀ {username query}, currentUser deployment outside token = .ok username →
    route = .ask (some query) → ∀ response,
      equivalence.Keeps (setCached outside (askCacheKey username query) response)
  memory : ∀ {threadId text}, route = .remember threadId (some text) →
    ∀ store, equivalence.Keeps (setMemory store)
  session : IgnoresSession equivalence
  claim : ∀ {threadId username}, checkedThread route = some threadId →
    equivalence.Keeps (claimOrCheck deployment outside threadId username)
  commit : equivalence.Keeps (commitSession outside)
  rollback : equivalence.Keeps rollbackSession

namespace Ignores

variable (ignores : Ignores equivalence deployment outside token route)

include ignores

theorem rollbackOnFailure {body : Handler Result} (keeps : equivalence.Keeps body) :
    equivalence.Keeps (rollbackOnFailure body) :=
  .tryCatch keeps fun _ => .bind ignores.rollback fun _ => .throw _

theorem getDb {body : Handler Result} (keeps : equivalence.Keeps body) :
    equivalence.Keeps (getDb outside body) :=
  .bind (ignores.rollbackOnFailure keeps) fun _ => .bind ignores.commit fun _ => .pure _

theorem getDbStreaming {body : Handler (Result × Option Exn)} (keeps : equivalence.Keeps body) :
    equivalence.Keeps (getDbStreaming outside body) := by
  refine .bind (ignores.rollbackOnFailure keeps) fun result => ?_
  dsimp only
  split
  · exact .bind ignores.commit fun _ => .pure _
  · exact .bind ignores.rollback fun _ => .pure _

theorem withThreadOwner {payload : Option Payload} {handler : Payload → String → Handler Response}
    (checked : checkedThread route = some threadId)
    (keeps : ∀ args username, payload = some args →
      currentUser deployment outside token = .ok username →
      equivalence.Yields (requireThreadOwner deployment outside threadId token) username →
      equivalence.Keeps (handler args username)) :
    equivalence.Keeps (withThreadOwner deployment outside threadId token payload handler) := by
  refine ignores.getDb (.bind_yielded ?_ fun username yielded => ?_)
  · refine .bind (.ofExcept _) fun username => .bind (ignores.claim checked) fun granted => ?_
    split
    · exact .pure _
    · exact .throw _
  · obtain ⟨_, _, _, passed⟩ := id yielded
    have current := (requireThreadOwner_ok passed).1
    refine .bind_ofExcept fun args given => ?_
    cases payload with
    | none => cases given
    | some args =>
        cases given
        exact keeps args username rfl current yielded

theorem unchecked {username : String}
    (current : currentUser deployment outside token = .ok username)
    (works : threadOf username route = some threadId) (ungated : checkedThread route = none) :
    IgnoresRuns equivalence threadId ∧ IgnoresResearch equivalence threadId :=
  ignores.runs current works fun checked => by
    rw [ungated] at checked
    cases checked

/-- What a relation ignores of a request it keeps. -/
theorem handle_keeps (listed : usesThreads route = true) :
    equivalence.Keeps (handle deployment outside { token := token, route := route }) := by
  cases route with
  | run payload =>
      refine ignores.getDb (withUser_keeps fun args username given current => ?_)
      subst given
      exact limited_keeps (runAgent_keeps (ignores.unchecked current rfl rfl).1 ignores.session)
  | runStream payload =>
      refine ignores.getDbStreaming (.bind_ofExcept fun username current =>
        .bind_ofExcept fun args given => ?_)
      cases payload with
      | none => cases given
      | some payload =>
          cases given
          exact limited_keeps
            (runAgentStream_keeps (ignores.unchecked current rfl rfl).1 ignores.session)
  | ask query =>
      refine ignores.getDb (withUser_keeps fun args username given current => ?_)
      subst given
      exact limited_keeps
        (ask_keeps (ignores.unchecked current rfl rfl).1 (ignores.cache current rfl))
  | research payload =>
      refine withUser_keeps fun args username given current => ?_
      subst given
      exact runResearch_keeps (ignores.unchecked current rfl rfl).2
  | conversation threadId => exact withUser_keeps fun _ _ _ _ => getConversation_keeps
  | history threadId limit => exact ignores.withThreadOwner rfl fun _ _ _ _ _ => threadHistory_keeps
  | resume threadId =>
      exact ignores.withThreadOwner rfl fun _ _ _ current yielded =>
        resumeThread_keeps (ignores.runs current rfl fun _ => yielded).1
  | fork threadId query =>
      exact ignores.withThreadOwner rfl fun _ _ _ current yielded =>
        forkThread_keeps (ignores.runs current rfl fun _ => yielded).1
  | edit threadId query =>
      exact ignores.withThreadOwner rfl fun _ _ _ current yielded =>
        editThreadCheckpoint_keeps (ignores.runs current rfl fun _ => yielded).1
  | branches threadId limit =>
      exact ignores.withThreadOwner rfl fun _ _ _ _ _ => threadBranches_keeps
  | remember threadId text =>
      refine ignores.withThreadOwner rfl fun args username given _ _ => ?_
      subst given
      exact rememberThreadFact_keeps (ignores.memory rfl)
  | _ => cases listed

end Ignores

/-- The relation fixes all that a request reads, of a checked thread only where
the check can pass. -/
structure Fixes (equivalence : PartialEquivalence State) (deployment : Deployment)
    (outside : Outside) (token : Option String) (route : Route) : Prop where
  runs : ∀ {username threadId}, currentUser deployment outside token = .ok username →
    threadOf username route = some threadId →
    (checkedThread route = some threadId →
      equivalence.Yields (requireThreadOwner deployment outside threadId token) username) →
    FixesRuns equivalence threadId ∧ FixesResearch equivalence threadId
  cache : ∀ {username query}, currentUser deployment outside token = .ok username →
    route = .ask (some query) → FixesCache equivalence (askCacheKey username query)
  memory : FixesMemory equivalence
  session : FixesSession equivalence
  claim : ∀ threadId username,
    Determined equivalence (claimOrCheck deployment outside threadId username)
  commit : Determined equivalence (commitSession outside)
  rollback : Determined equivalence rollbackSession

namespace Fixes

variable (fixes : Fixes equivalence deployment outside token route)

include fixes

theorem rollbackOnFailure {body : Handler Result} (determined : Determined equivalence body) :
    Determined equivalence (rollbackOnFailure body) :=
  Agree.tryCatch determined fun _ => .bind fixes.rollback fun _ => .throw _

theorem getDb {body : Handler Result} (determined : Determined equivalence body) :
    Determined equivalence (getDb outside body) :=
  Agree.bind (fixes.rollbackOnFailure determined) fun _ => .bind fixes.commit fun _ => .pure _

theorem getDbStreaming {body : Handler (Result × Option Exn)}
    (determined : Determined equivalence body) :
    Determined equivalence (getDbStreaming outside body) := by
  refine Agree.bind (fixes.rollbackOnFailure determined) fun result => ?_
  dsimp only
  split
  · exact .bind fixes.commit fun _ => .pure _
  · exact .bind fixes.rollback fun _ => .pure _

omit fixes in
theorem withUser {payload : Option Payload} {handler : Payload → String → Handler Response}
    (determined : ∀ args username, payload = some args →
      currentUser deployment outside token = .ok username →
      Determined equivalence (handler args username)) :
    Determined equivalence (withUser deployment outside token payload handler) := by
  refine Agree.bind_ofExcept fun username current => .bind_ofExcept fun args given => ?_
  cases payload with
  | none => cases given
  | some args =>
      cases given
      exact determined args username rfl current

theorem withThreadOwner {payload : Option Payload} {handler : Payload → String → Handler Response}
    (determined : ∀ args username, payload = some args →
      currentUser deployment outside token = .ok username →
      equivalence.Yields (requireThreadOwner deployment outside threadId token) username →
      Determined equivalence (handler args username)) :
    Determined equivalence
      (withThreadOwner deployment outside threadId token payload handler) := by
  refine fixes.getDb (Agree.bind_yielded ?_ fun username yielded => ?_)
  · refine .bind (.ofExcept _) fun username => .bind (fixes.claim _ _) fun granted => ?_
    split
    · exact .pure _
    · exact .throw _
  · obtain ⟨_, _, _, passed⟩ := id yielded
    have current := (requireThreadOwner_ok passed).1
    refine .bind_ofExcept fun args given => ?_
    cases payload with
    | none => cases given
    | some args =>
        cases given
        exact determined args username rfl current yielded

theorem unchecked {username : String}
    (current : currentUser deployment outside token = .ok username)
    (works : threadOf username route = some threadId) (ungated : checkedThread route = none) :
    FixesRuns equivalence threadId ∧ FixesResearch equivalence threadId :=
  fixes.runs current works fun checked => by
    rw [ungated] at checked
    cases checked

/-- Two runs of a request that reads what a relation fixes end alike. -/
theorem handle_determined (listed : usesThreads route = true) :
    Determined equivalence
      (handle deployment outside { token := token, route := route }) := by
  cases route with
  | run payload =>
      refine fixes.getDb (withUser fun args username given current => ?_)
      subst given
      exact Agree.bind call_determined fun _ =>
        runAgent_determined (fixes.unchecked current rfl rfl).1 fixes.session
  | runStream payload =>
      refine fixes.getDbStreaming (Agree.bind_ofExcept fun username current =>
        .bind_ofExcept fun args given => ?_)
      cases payload with
      | none => cases given
      | some payload =>
          cases given
          exact Agree.bind call_determined fun _ =>
            runAgentStream_determined (fixes.unchecked current rfl rfl).1 fixes.session
  | ask query =>
      refine fixes.getDb (withUser fun args username given current => ?_)
      subst given
      exact Agree.bind call_determined fun _ =>
        ask_determined (fixes.unchecked current rfl rfl).1 (fixes.cache current rfl)
  | research payload =>
      refine withUser fun args username given current => ?_
      subst given
      exact runResearch_determined (fixes.unchecked current rfl rfl).2
  | conversation threadId =>
      exact withUser fun _ _ _ current =>
        getConversation_determined (fixes.unchecked current rfl rfl).1
  | history threadId limit =>
      exact fixes.withThreadOwner fun _ _ _ current yielded =>
        threadHistory_determined (fixes.runs current rfl fun _ => yielded).1
  | resume threadId =>
      exact fixes.withThreadOwner fun _ _ _ current yielded =>
        resumeThread_determined (fixes.runs current rfl fun _ => yielded).1
  | fork threadId query =>
      exact fixes.withThreadOwner fun _ _ _ current yielded =>
        forkThread_determined (fixes.runs current rfl fun _ => yielded).1
  | edit threadId query =>
      exact fixes.withThreadOwner fun _ _ _ current yielded =>
        editThreadCheckpoint_determined (fixes.runs current rfl fun _ => yielded).1
  | branches threadId limit =>
      exact fixes.withThreadOwner fun _ _ _ current yielded =>
        threadBranches_determined (fixes.runs current rfl fun _ => yielded).1
  | remember threadId text =>
      exact fixes.withThreadOwner fun _ _ _ _ _ => rememberThreadFact_determined fixes.memory
  | _ => cases listed

end Fixes

end

/-! ## One thread with an owner -/

section

variable {deployment : Deployment} {outside : Outside} {token : Option String} {route : Route}
  {tainted : String → Prop} {threadId owner : String}

def ownedBy (threadId owner : String) (table : ThreadOwnership) : Prop :=
  table.committed threadId = some owner

def settledOwnedBy (threadId owner : String) (table : ThreadOwnership) : Prop :=
  ownedBy threadId owner table ∧ table.Settled

/-- The request works on the thread in no other way than behind the check, and
its user is neither the owner nor the admin. -/
def KeptOut (deployment : Deployment) (outside : Outside) (token : Option String) (route : Route)
    (threadId owner : String) : Prop :=
  ∀ {username}, currentUser deployment outside token = .ok username →
    threadOf username route = some threadId →
    checkedThread route = some threadId ∧ username ≠ owner ∧
      isAdmin deployment.settings username = false

theorem currentUser_known {username : String}
    (current : currentUser deployment outside token = .ok username) :
    (deployment.getUser username).isSome = true := by
  unfold currentUser at current
  split at current
  · cases current
  · split at current
    · cases current
    · split at current
      · rename_i known
        cases current
        exact known
      · cases current

/-- The check lets nobody through to a thread that somebody else owns. -/
theorem refused {equivalence : PartialEquivalence State} {username : String}
    (owned : ∀ {state}, equivalence.related state state →
      ownedBy threadId owner state.system.ownership)
    (different : username ≠ owner) (ordinary : isAdmin deployment.settings username = false)
    (yielded : equivalence.Yields (requireThreadOwner deployment outside threadId token) username) :
    False := by
  obtain ⟨state, _, related, passed⟩ := yielded
  obtain ⟨_, claimed, executed, _⟩ := requireThreadOwner_ok passed
  have verdict := (claimOrCheck_of_committed (owned related) executed).2
  simp [ordinary, Ne.symm different] at verdict

theorem claimOrCheck_determined {other username : String} :
    Determined (offThread tainted threadId (ownedBy threadId owner))
      (claimOrCheck deployment outside other username) := by
  unfold claimOrCheck
  split
  · exact Agree.pure _
  · refine Agree.bind call_determined fun _ => ?_
    intro first second both
    rw [Effect.exec_bind, Effect.exec_bind, Effect.exec_read, Effect.exec_read,
      ← both.2.ownership]
    dsimp only
    split
    · exact ⟨rfl, both⟩
    · rename_i granted claimed executed
      exact ⟨rfl, committed_claimOrCheck both.1 executed, { both.2 with ownership := rfl }⟩

theorem rollback_determined :
    Determined (offThread tainted threadId (ownedBy threadId owner)) rollbackSession :=
  Agree.write fun both =>
    ⟨UniqueKeyTable.committed_rollback.trans both.1,
      { both.2 with ownership := congrArg (·.rollback transaction) both.2.ownership }⟩

theorem commit_determined :
    Determined (offThread tainted threadId (ownedBy threadId owner))
      (commitSession outside) := by
  refine Agree.write fun both => ?_
  unfold State.commit
  cases outside.fault .commit with
  | some failure =>
      exact ⟨UniqueKeyTable.committed_rollback.trans both.1,
        { both.2 with ownership := congrArg (·.rollback transaction) both.2.ownership }⟩
  | none =>
      exact ⟨UniqueKeyTable.committed_commit both.1,
        { both.2 with ownership := congrArg (·.commit transaction) both.2.ownership }⟩

theorem fixes_of_keptOut (keptOut : KeptOut deployment outside token route threadId owner)
    (clean : ∀ {username query}, currentUser deployment outside token = .ok username →
      route = .ask (some query) → ¬tainted (askCacheKey username query)) :
    Fixes (offThread tainted threadId (ownedBy threadId owner)) deployment outside token
      route where
  runs := by
    intro username other current works passes
    by_cases same : other = threadId
    · subst same
      obtain ⟨checked, different, ordinary⟩ := keptOut current works
      have owned {state : State} (both : (offThread tainted other (ownedBy other owner)).related
          state state) : ownedBy other owner state.system.ownership := both.1
      exact (refused owned different ordinary (passes checked)).elim
    · exact ⟨fixesRuns same, fixesResearch same⟩
  cache := by
    intro username query current asks
    exact fixesCache (clean current asks)
  memory := fixesMemory
  session := fixesSession
  claim _ _ := claimOrCheck_determined
  commit := commit_determined
  rollback := rollback_determined

/-- The states in which the thread has its owner and its checkpoints. -/
def sameThread (threadId owner : String) : PartialEquivalence State where
  related left right :=
    ownedBy threadId owner left.system.ownership ∧ ownedBy threadId owner right.system.ownership ∧
      left.system.threads threadId = right.system.threads threadId ∧
      left.system.research threadId = right.system.research threadId
  symm both := ⟨both.2.1, both.1, both.2.2.1.symm, both.2.2.2.symm⟩
  trans first second :=
    ⟨first.1, second.2.1, first.2.2.1.trans second.2.2.1, first.2.2.2.trans second.2.2.2⟩

theorem sameThread_ignores (keptOut : KeptOut deployment outside token route threadId owner) :
    Ignores (sameThread threadId owner) deployment outside token route where
  runs := by
    intro username other current works passes
    by_cases same : other = threadId
    · subst same
      obtain ⟨checked, different, ordinary⟩ := keptOut current works
      have owned {state : State} (both : (sameThread other owner).related state state) :
          ownedBy other owner state.system.ownership := both.1
      exact (refused owned different ordinary (passes checked)).elim
    · have apart : threadId ≠ other := Ne.symm same
      exact ⟨fun _ _ => .write fun both =>
          ⟨both.1, both.1, (Function.update_of_ne apart _ _).symm, rfl⟩,
        fun _ => .write fun both =>
          ⟨both.1, both.1, rfl, (Function.update_of_ne apart _ _).symm⟩⟩
  cache _ _ response := .write fun both => by
    split
    · exact both
    · exact both
  memory _ _ := .write fun both => both
  session _ := .write fun both => both
  claim := by
    intro other username _
    unfold claimOrCheck
    split
    · exact .pure _
    · refine .bind call_keeps fun _ => ?_
      intro state both
      rw [Effect.exec_bind, Effect.exec_read]
      dsimp only
      split
      · exact both
      · rename_i granted claimed executed
        exact ⟨both.1, committed_claimOrCheck both.1 executed, rfl, rfl⟩
  commit := .write fun both => by
    unfold State.commit
    split
    · exact ⟨both.1, UniqueKeyTable.committed_rollback.trans both.1, rfl, rfl⟩
    · exact ⟨both.1, UniqueKeyTable.committed_commit both.1, rfl, rfl⟩
  rollback := .write fun both =>
    ⟨both.1, UniqueKeyTable.committed_rollback.trans both.1, rfl, rfl⟩

theorem threadOf_checked {username other : String} (checked : checkedThread route = some other)
    (works : threadOf username route = some threadId) : other = threadId := by
  cases route with
  | history | resume | fork | edit | branches =>
      cases checked
      cases works
      rfl
  | remember => cases works
  | _ => cases checked

/-- Whatever a request on the thread does, off the thread nothing changes. -/
theorem offThread_ignores {username : String}
    (current : currentUser deployment outside token = .ok username)
    (works : threadOf username route = some threadId)
    (taints : ∀ {query}, route = .ask (some query) → tainted (askCacheKey username query)) :
    Ignores (offThread tainted threadId (settledOwnedBy threadId owner)) deployment outside token
      route where
  runs := by
    intro other thread accepted elsewhere _
    rw [current] at accepted
    cases accepted
    rw [works] at elsewhere
    cases elsewhere
    exact ⟨ignoresRuns, ignoresResearch⟩
  cache := by
    intro other query accepted asks response
    rw [current] at accepted
    cases accepted
    exact ignoresCache (taints asks)
  memory := by
    intro other text asks
    subst asks
    cases works
  session := ignoresSession
  claim := by
    intro other caller checked
    obtain rfl := threadOf_checked checked works
    unfold claimOrCheck
    split
    · exact .pure _
    · refine .bind call_keeps fun _ => ?_
      intro state both
      rw [Effect.exec_bind, Effect.exec_read]
      dsimp only
      split
      · exact both
      · rename_i granted claimed executed
        obtain ⟨rfl, _⟩ := claimOrCheck_of_committed both.1.1 executed
        exact both
  commit := .write fun both => by
    unfold State.commit
    split
    · exact ⟨both.1, { both.2 with
        ownership := (UniqueKeyTable.Settled.rollback_eq both.1.2).symm }⟩
    · exact ⟨both.1, { both.2 with
        ownership := (UniqueKeyTable.Settled.commit_eq both.1.2).symm }⟩
  rollback := .write fun both =>
    ⟨both.1, { both.2 with ownership := (UniqueKeyTable.Settled.rollback_eq both.1.2).symm }⟩

end

/-! ## Histories -/

section

variable {deployment : Deployment} {exchange : Exchange} {calls : List Exchange}
  {threadId owner user : String} {first second : System}

/-- Two states between requests in which the thread has its owner. -/
structure Apart (tainted : String → Prop) (threadId owner : String) (first second : System) :
    Prop where
  settled : first.ownership.Settled
  owned : first.ownership.committed threadId = some owner
  same : SameOff tainted threadId first second

/-- A call that is kept out of the thread has none of the thread's keys. -/
theorem KeysApart.clean (separate : KeysApart deployment calls) (member : exchange ∈ calls)
    (keptOut : KeptOut deployment exchange.outside exchange.request.token exchange.request.route
      threadId owner) {username query : String}
    (current : currentUser deployment exchange.outside exchange.request.token = .ok username)
    (asks : exchange.request.route = .ask (some query)) :
    ¬TaintedBy deployment calls threadId (askCacheKey username query) := by
  rintro ⟨call, included, other, otherQuery, asked, thread, same⟩
  have called := Exchange.caller_eq_some_iff.mpr current
  obtain rfl := separate exchange member call included _ _ _ _ ⟨called, asks⟩ asked same
  have checked := (keptOut current (by rw [asks, threadOf, thread])).1
  rw [asks] at checked
  cases checked

theorem serve_apart (separate : KeysApart deployment calls) (member : exchange ∈ calls)
    (listed : usesThreads exchange.request.route = true)
    (apart : Apart (TaintedBy deployment calls threadId) threadId owner first second) :
    Apart (TaintedBy deployment calls threadId) threadId owner
      (exchange.serve deployment first).system (exchange.serve deployment second).system where
  settled := serve_between settledSession exchange apart.settled
  owned := serve_between committedSession exchange apart.owned
  same := by
    have start : (offThread (TaintedBy deployment calls threadId) threadId
        (settledOwnedBy threadId owner)).related { system := first } { system := second } :=
      ⟨⟨apart.owned, apart.settled⟩, apart.same⟩
    by_cases here : ∃ username,
        currentUser deployment exchange.outside exchange.request.token = .ok username ∧
          threadOf username exchange.request.route = some threadId
    · obtain ⟨username, current, works⟩ := here
      have called := Exchange.caller_eq_some_iff.mpr current
      have taints {query : String} (asks : exchange.request.route = .ask (some query)) :
          TaintedBy deployment calls threadId (askCacheKey username query) := by
        rw [asks] at works
        exact ⟨exchange, member, username, query, ⟨called, asks⟩, Option.some.inj works, rfl⟩
      have keeps := (@offThread_ignores _ _ _ _ _ threadId owner username current works
        taints).handle_keeps listed
      exact (keeps.both keeps start).2
    · have keptOut : KeptOut deployment exchange.outside exchange.request.token
          exchange.request.route threadId owner :=
        fun current works => absurd ⟨_, current, works⟩ here
      exact ((fixes_of_keptOut keptOut (separate.clean member keptOut)).handle_determined listed
        { system := first } { system := second } ⟨apart.owned, apart.same⟩).2.2

/-- A user who is not let through to the thread gets the same response whatever
the thread holds, and leaves it as it was. -/
theorem serve_keptOut (separate : KeysApart deployment calls) (member : exchange ∈ calls)
    (listed : usesThreads exchange.request.route = true)
    (different : user ≠ owner) (ordinary : isAdmin deployment.settings user = false)
    (called : exchange.caller deployment = some user)
    (checked : uncheckedThread user exchange.request.route ≠ some threadId)
    (apart : Apart (TaintedBy deployment calls threadId) threadId owner first second) :
    (exchange.serve deployment first).response = (exchange.serve deployment second).response ∧
      (exchange.serve deployment first).system.threads threadId = first.threads threadId ∧
      (exchange.serve deployment first).system.research threadId = first.research threadId := by
  have current := Exchange.caller_eq_some_iff.mp called
  have keptOut : KeptOut deployment exchange.outside exchange.request.token
      exchange.request.route threadId owner := by
    intro username accepted works
    rw [current] at accepted
    cases accepted
    refine ⟨?_, different, ordinary⟩
    cases gated : checkedThread exchange.request.route with
    | none => exact absurd (by simp [uncheckedThread, gated, works]) checked
    | some other => rw [threadOf_checked gated works]
  obtain ⟨result, _⟩ := (fixes_of_keptOut keptOut
      (separate.clean member keptOut)).handle_determined listed
    { system := first } { system := second } ⟨apart.owned, apart.same⟩
  have kept := (sameThread_ignores keptOut).handle_keeps listed { system := first }
    ⟨apart.owned, apart.owned, rfl, rfl⟩
  refine ⟨?_, kept.2.2.1.symm, kept.2.2.2.symm⟩
  simp only [Exchange.serve, serve, result]

end

/-- What a history means for a thread and a user who is kept out of it. -/
def Isolated (deployment : Deployment) (threadId user : String) (first second : System)
    (history : List Exchange) : Prop :=
  responsesTo deployment user first history = responsesTo deployment user second history ∧
    ∀ earlier exchange later, history = earlier ++ exchange :: later →
      exchange.caller deployment = some user →
      (reached deployment first (earlier ++ [exchange])).threads threadId =
          (reached deployment first earlier).threads threadId ∧
        (reached deployment first (earlier ++ [exchange])).research threadId =
          (reached deployment first earlier).research threadId

/-- As long as a user names an owned thread only to routes that check its owner, and no
two users share a cache key, the user learns nothing of the thread and adds nothing to
it. `earlier` are the requests whose answers the cache may hold. -/
theorem isolated_behind_check {deployment : Deployment} {threadId owner user : String}
    {earlier history : List Exchange} (separate : KeysApart deployment (earlier ++ history))
    (listed : ∀ exchange ∈ history, usesThreads exchange.request.route = true)
    (different : user ≠ owner) (ordinary : isAdmin deployment.settings user = false)
    (checked : ∀ exchange ∈ history, exchange.caller deployment = some user →
      uncheckedThread user exchange.request.route ≠ some threadId)
    {first second : System}
    (apart : Apart (TaintedBy deployment (earlier ++ history) threadId) threadId owner first
      second) :
    Isolated deployment threadId user first second history := by
  have inside : ∀ exchange ∈ history, exchange ∈ earlier ++ history :=
    fun exchange member => List.mem_append_right earlier member
  generalize earlier ++ history = calls at separate apart inside
  induction history generalizing first second with
  | nil => exact ⟨rfl, fun earlier exchange later split => by simp at split⟩
  | cons exchange history ih =>
      have next := serve_apart separate (inside exchange (.head _)) (listed exchange (.head _))
        apart
      obtain ⟨responses, unchanged⟩ := ih
        (fun other member => listed other (.tail _ member))
        (fun other member => checked other (.tail _ member)) next
        (fun other member => inside other (.tail _ member))
      have keptOut (called : exchange.caller deployment = some user) :=
        serve_keptOut separate (inside exchange (.head _)) (listed exchange (.head _)) different
          ordinary called (checked exchange (.head _) called) apart
      constructor
      · simp only [responsesTo, responses]
        split
        · rename_i called
          rw [(keptOut called).1]
        · rfl
      · intro earlier other later split called
        cases earlier with
        | nil =>
            cases split
            exact (keptOut called).2
        | cons head earlier =>
            cases split
            exact unchanged earlier other later rfl called

/-! ## A thread of somebody else -/

/-- A thread of the owner with the given message, and nothing else. -/
def holding (threadId owner content : String) : System where
  ownership := ⟨[⟨threadId, owner, none⟩], List.nodup_singleton _⟩
  threads := Function.update (fun _ => .empty) threadId
    (CheckpointStore.empty.put none ⟨.input, -1, ⟨{ messages := [.human content] }, none⟩⟩)

theorem holding_apart {tainted : String → Prop} {threadId owner content other : String} :
    Apart tainted threadId owner (holding threadId owner content)
      (holding threadId owner other) where
  settled entry member := by
    obtain rfl := List.mem_singleton.mp member
    rfl
  owned := by simp [holding, UniqueKeyTable.committed, UniqueKeyTable.find?]
  same :=
    { ownership := rfl
      memory := rfl
      threads := fun key different => by simp [holding, different]
      research := fun _ _ => rfl
      cache := fun _ _ => rfl }

/-- The model repeats the first message it is handed. -/
def echo : Engine.ChatModel := fun messages =>
  .ok ⟨(messages.head?.map Message.content).getD "", []⟩

def echoing : Outside :=
  let still := undisturbed ⟨"", []⟩ ⟨"", []⟩
  { still with llm := fun index => { still.llm index with ainvoke := echo } }

def exchangeAs (username : String) (route : Route) : Exchange where
  request := { token := some username, route := route }
  outside := echoing

theorem twoUsers_separate : KeysSeparate twoUsers := by
  refine keysSeparate_of_plain fun username known => ?_
  obtain ⟨user, found⟩ := Option.isSome_iff_exists.mp known
  have named : user.username = username := by simpa using List.find?_some found
  have listed : user ∈ [⟨"bob", "second"⟩, ⟨"admin", "first"⟩] := List.mem_of_find?_eq_some found
  subst named
  rcases List.mem_pair.mp listed with rfl | rfl <;> decide

/-- One name is another one with a colon behind it. -/
def colonUsers : Deployment where
  users := [⟨"x", "first"⟩, ⟨"x:y", "second"⟩]

/-- The owner asks, and the other user asks something else. -/
def askedApart : List Exchange :=
  [exchangeAs "x" (.ask (some "invoice")), exchangeAs "x:y" (.ask (some "report")),
    exchangeAs "x:y" (.history "ask:x" (some 50))]

theorem askedApart_keys : KeysApart colonUsers askedApart := by
  intro call member other included username query user otherQuery asks asked same
  obtain ⟨caller, route⟩ := asks
  obtain ⟨otherCaller, otherRoute⟩ := asked
  simp only [askedApart, List.mem_cons, List.not_mem_nil, or_false] at member included
  rcases member with rfl | rfl | rfl <;> rcases included with rfl | rfl | rfl <;>
    cases route <;> cases otherRoute
  · exact Option.some.inj (caller.symm.trans otherCaller)
  · obtain rfl : "x" = username := Option.some.inj caller
    obtain rfl : "x:y" = user := Option.some.inj otherCaller
    exact absurd same (by decide)
  · obtain rfl : "x:y" = username := Option.some.inj caller
    obtain rfl : "x" = user := Option.some.inj otherCaller
    exact absurd same (by decide)
  · exact Option.some.inj (caller.symm.trans otherCaller)

theorem colon_user_kept_out :
    Isolated colonUsers "ask:x" "x:y" (holding "ask:x" "x" "secret")
      (holding "ask:x" "x" "other") askedApart := by
  refine @isolated_behind_check colonUsers "ask:x" "x" "x:y" [] askedApart askedApart_keys
    (by decide) (by decide) (by decide) ?_ _ _ holding_apart
  decide

/-! ## Three leaks -/

/-- A history that meets the conditions but the first and the last, from states that
agree on the whole cache, and is not isolated. -/
structure Leaks (deployment : Deployment) (threadId owner user : String) (first second : System)
    (history : List Exchange) : Prop where
  listed : ∀ exchange ∈ history, usesThreads exchange.request.route = true
  different : user ≠ owner
  ordinary : isAdmin deployment.settings user = false
  apart : Apart (fun _ => False) threadId owner first second
  leak : ¬ Isolated deployment threadId user first second history

def runOnPlans : AgentRequest where
  requestId := ⟨0⟩
  conversationId := some "plans"
  taskDescription := "an invoice"
  agentId := "agent"
  taskDescription_min := by decide
  taskDescription_max := by decide
  agentId_nonempty := by decide
  agentId_slug := by decide

/-- The conversation route shows a thread of somebody else, the run route writes
to it, and the cache hands out an answer from it. -/
theorem unchecked_routes_leak :
    Leaks twoUsers "plans" "alice" "bob" (holding "plans" "alice" "secret")
        (holding "plans" "alice" "other") [exchangeAs "bob" (.conversation "plans")] ∧
      Leaks twoUsers "plans" "alice" "bob" (holding "plans" "alice" "secret")
        (holding "plans" "alice" "secret") [exchangeAs "bob" (.run (some runOnPlans))] ∧
      Leaks colonUsers "ask:x" "x" "x:y" (holding "ask:x" "x" "secret")
        (holding "ask:x" "x" "other")
        [exchangeAs "x" (.ask (some "y:invoice")), exchangeAs "x:y" (.ask (some "invoice"))] := by
  refine ⟨⟨by decide, by decide, by decide, holding_apart, ?_⟩,
    ⟨by decide, by decide, by decide, holding_apart, ?_⟩,
    ⟨by decide, by decide, by decide, holding_apart, ?_⟩⟩
  · intro isolated
    exact absurd isolated.1 (by decide)
  · intro isolated
    have unchanged := (isolated.2 [] _ [] rfl (by decide)).1
    exact absurd (congrArg CheckpointStore.nextId unchanged) (by decide)
  · intro isolated
    exact absurd isolated.1 (by decide)

end AgenticEnterprise.Api.Isolation
