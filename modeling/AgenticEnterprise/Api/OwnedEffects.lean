import AgenticEnterprise.Api.SessionOwnership

/-! Effects on a thread and the claim that should come with them. The claim
lives in the session of the request; the checkpoints and the facts a handler
writes are kept at once. -/

set_option autoImplicit false

namespace AgenticEnterprise.Api.OwnedEffects

open Core Library Memory Graph Engine Threads Ownership PartialEquivalence

/-! ## Histories -/

def factsOn (threadId : String) (system : System) : List VectorStore.Point :=
  system.memory.points.filter (VectorStore.matchAny [threadId])

/-- A checkpoint was written to the thread, or a fact under its identifier. -/
def LeftEffect (threadId : String) (before after : System) : Prop :=
  after.threads threadId ≠ before.threads threadId ∨
    factsOn threadId after ≠ factsOn threadId before

def granted (deployment : Deployment) (system : System) (exchange : Exchange)
    (threadId : String) : Bool :=
  ((requireThreadOwner deployment exchange.outside threadId exchange.request.token).exec
    { system := system }).1.isOk

/-- After a user's effect on a thread without an owner, nobody else but the
admin is let through to it. -/
def EffectsOwned (deployment : Deployment) (first : System) (history : List Exchange) : Prop :=
  ∀ earlier exchange between last later,
    history = earlier ++ exchange :: (between ++ last :: later) →
    ∀ threadId username other,
      checkedThread exchange.request.route = some threadId →
      exchange.caller deployment = some username →
      (reached deployment first earlier).ownership.committed threadId = none →
      granted deployment (reached deployment first earlier) exchange threadId = true →
      LeftEffect threadId (reached deployment first earlier)
        (reached deployment first (earlier ++ [exchange])) →
      checkedThread last.request.route = some threadId →
      last.caller deployment = some other →
      isAdmin deployment.settings other = false → other ≠ username →
      granted deployment (reached deployment first (earlier ++ exchange :: between)) last threadId =
        false

/-! ## When a claim is kept -/

section

variable (deployment : Deployment) (outside : Outside) (system : System) (username : String)

/-- What a run reads once the ownership check has passed. -/
def claimedInputs (threadId : String) : RunInputs where
  thread := system.threads threadId
  ownership :=
    match Ownership.claimOrCheck deployment.settings transaction system.ownership threadId
      username with
    | some (_, claimed) => claimed
    | none => system.ownership
  memory := system.memory

/-- The run of the handler ends, with a last message. -/
def RunCompletes (threadId : String) (input : Option (List Message)) (checkpointId : String) :
    Prop :=
  ∃ final message,
    outside.ending outside.recursionLimit
      (runOn deployment outside { username := username } input checkpointId
        (claimedInputs deployment system username threadId)).1.result = .ok final ∧
      lastMessage final = .ok message

/-- Nothing raises behind the effect of the handler. -/
def HandlerReturns : Route → Prop
  | .resume threadId =>
      RunCompletes deployment outside system username threadId none "" ∧ isUuid username = true
  | .fork threadId (some (checkpointId, message)) =>
      RunCompletes deployment outside system username threadId (some [.human message])
        checkpointId ∧ outside.fault .getState = none
  | .edit _ _ => outside.fault .updateStateReply = none
  | .remember _ _ => outside.fault .vectorStoreReply = none
  | _ => True

end

/-- The caller is not the admin, whose check claims nothing, and neither the
handler nor the commit makes the session roll back. -/
structure ClaimKept (deployment : Deployment) (system : System) (exchange : Exchange)
    (username : String) : Prop where
  ordinary : isAdmin deployment.settings username = false
  returns : HandlerReturns deployment exchange.outside system username exchange.request.route
  commits : exchange.outside.fault .commit = none

/-! ## Committed rows -/

section

variable {deployment : Deployment} {outside : Outside} {threadId username : String}
  {system : System} {exchange : Exchange}

/-- Only the owner of a committed row and the admin are let through. -/
theorem granted_of_committed {owner : String}
    (present : system.ownership.committed threadId = some owner)
    (called : exchange.caller deployment = some username)
    (ordinary : isAdmin deployment.settings username = false) (different : username ≠ owner) :
    granted deployment system exchange threadId = false := by
  have current := Exchange.caller_eq_some_iff.mp called
  cases decided : granted deployment system exchange threadId with
  | false => rfl
  | true =>
      obtain ⟨accepted, passed⟩ : ∃ accepted, ((requireThreadOwner deployment exchange.outside
          threadId exchange.request.token).exec { system := system }).1 = .ok accepted := by
        unfold granted at decided
        cases checked : ((requireThreadOwner deployment exchange.outside threadId
            exchange.request.token).exec { system := system }).1 with
        | error failure => simp [checked, Except.isOk, Except.toBool] at decided
        | ok accepted => exact ⟨accepted, rfl⟩
      obtain ⟨accepted_current, claimed, executed, _⟩ := requireThreadOwner_ok (Prod.ext passed rfl)
      rw [current] at accepted_current
      cases accepted_current
      have verdict := (claimOrCheck_of_committed present executed).2
      simp [ordinary, Ne.symm different] at verdict

end

/-! ## Where an effect comes from -/

section

variable {deployment : Deployment} {outside : Outside} {threadId username : String}
  {token : Option String} {state : State}

/-! ## Handlers that return -/

/-- The handler returns, or it has left no effect. -/
def Settles (handler : Handler Response) (state : State) : Prop :=
  (handler.exec state).1.isOk = true ∨ sameStores.related state (handler.exec state).2

theorem Settles.of_keeps {handler : Handler Response} (keeps : sameStores.Keeps handler) :
    Settles handler state :=
  .inr (keeps state rfl)

/-- A step that leaves no effect may fail. -/
theorem Settles.bind {Result : Type} {action : Handler Result}
    {next : Result → Handler Response} (keeps : sameStores.Keeps action)
    (later : ∀ {result after}, action.exec state = (.ok result, after) →
      Settles (next result) after) :
    Settles (action >>= next) state := by
  have unmoved := keeps state rfl
  unfold Settles
  rw [Effect.exec_bind]
  rcases ran : action.exec state with ⟨failure | result, after⟩ <;> rw [ran] at unmoved
  · exact .inr unmoved
  · exact (later ran).imp id (sameStores.trans unmoved)

theorem call_ok {place : Call} {done : Unit} {after : State}
    (ran : (call outside place).exec state = (.ok done, after)) : after = state :=
  (congrArg Prod.snd ran).symm

theorem ainvoke_exec {caller : Caller} {input : Option (List Message)} {checkpointId : String} :
    (ainvoke deployment outside caller threadId input checkpointId).exec state =
      (outside.ending outside.recursionLimit
          (runOn deployment outside caller input checkpointId (state.runInputs threadId)).1.result,
        ((recordRun threadId
          (runOn deployment outside caller input checkpointId (state.runInputs threadId)).2
          (runOn deployment outside caller input checkpointId
            (state.runInputs threadId)).1.steps).exec state).2) := rfl

variable {claimed : ThreadOwnership}

theorem runInputs_claimed
    (executed : Ownership.claimOrCheck deployment.settings transaction state.system.ownership
      threadId username = some (true, claimed)) :
    (state.withOwnership claimed).runInputs threadId =
      claimedInputs deployment state.system username threadId := by
  simp [State.runInputs, State.withOwnership, claimedInputs, executed]

theorem forkThread_settles {checkpointId message : String}
    (executed : Ownership.claimOrCheck deployment.settings transaction state.system.ownership
      threadId username = some (true, claimed))
    (completes : RunCompletes deployment outside state.system username threadId
      (some [.human message]) checkpointId)
    (answers : outside.fault .getState = none) :
    Settles (forkThread deployment outside threadId checkpointId message username)
      (state.withOwnership claimed) := by
  refine .bind call_keeps fun ran => call_ok ran ▸ .bind call_keeps fun ran => call_ok ran ▸ ?_
  obtain ⟨final, last, ended, found⟩ := completes
  rw [← runInputs_claimed executed] at ended
  refine .inl ?_
  simp only [Effect.exec_bind, ainvoke_exec, ended, call, answers, Effect.exec_ofExcept,
    currentThread, Effect.exec_read, found]
  rfl

theorem resumeThread_settles
    (executed : Ownership.claimOrCheck deployment.settings transaction state.system.ownership
      threadId username = some (true, claimed))
    (completes : RunCompletes deployment outside state.system username threadId none "")
    (uuid : isUuid username = true) :
    Settles (resumeThread deployment outside threadId username) (state.withOwnership claimed) := by
  refine .bind call_keeps fun ran => call_ok ran ▸ .bind call_keeps fun ran => call_ok ran ▸ ?_
  refine .bind (.read _) fun ran => ?_
  cases ran
  split
  · refine .bind call_keeps fun ran => call_ok ran ▸ ?_
    obtain ⟨final, last, ended, found⟩ := completes
    rw [← runInputs_claimed executed] at ended
    refine .inl ?_
    simp only [Effect.exec_bind, ainvoke_exec, ended, Effect.exec_ofExcept, found, resumeResponse,
      parseUuid, uuid, if_true]
    rfl
  · exact .of_keeps (.throw _)

theorem editThreadCheckpoint_settles {query : EditQuery}
    (answers : outside.fault .updateStateReply = none) :
    Settles (editThreadCheckpoint outside threadId query) state := by
  unfold editThreadCheckpoint
  split
  · exact .of_keeps (.throw _)
  · refine .bind call_keeps fun _ => .bind call_keeps fun _ => .bind (.read _) fun _ =>
      .bind (.ofExcept _) fun _ => .inl ?_
    simp only [Effect.exec_bind, recordEdit, recordRun, Effect.exec_write, call, answers,
      Effect.exec_ofExcept]
    rfl

theorem rememberThreadFact_settles {text : String}
    (answers : outside.fault .vectorStoreReply = none) :
    Settles (rememberThreadFact outside threadId text) state := by
  refine .bind call_keeps fun _ => .bind (.read _) fun _ => .bind (.ofExcept _) fun _ =>
    .inl ?_
  simp only [Effect.exec_bind, setMemory, Effect.exec_write, call, answers, Effect.exec_ofExcept]
  rfl

/-! ## The claim behind an effect -/

/-- The first claim on a thread is the caller's own, and the commit keeps it. -/
theorem committed_of_claim (settled : state.system.ownership.Settled)
    (unowned : state.system.ownership.committed threadId = none)
    (ordinary : isAdmin deployment.settings username = false)
    (executed : Ownership.claimOrCheck deployment.settings transaction state.system.ownership
      threadId username = some (true, claimed)) :
    (claimed.commit transaction).committed threadId = some username := by
  have missing := settled.find?_eq_none unowned
  rcases claimOrCheck_cases executed with
    ⟨admin, _⟩ | ⟨_, _, owner, seen, _⟩ | ⟨_, _, _, added, _⟩
  · rw [ordinary] at admin
    cases admin
  · simp [UniqueKeyTable.visible, missing] at seen
  · exact UniqueKeyTable.committed_commit_of_visible
      (UniqueKeyTable.visible_eq_some_iff.mpr (.inr added))

theorem withThreadOwner_committed {Payload : Type} {payload : Option Payload}
    {handler : Payload → String → Handler Response}
    (settled : state.system.ownership.Settled)
    (unowned : state.system.ownership.committed threadId = none)
    (current : currentUser deployment outside token = .ok username)
    (ordinary : isAdmin deployment.settings username = false)
    (commits : outside.fault .commit = none)
    (keeps : ∀ args username, sameOwnership.Keeps (handler args username))
    (settles : ∀ args claimed, payload = some args →
      Ownership.claimOrCheck deployment.settings transaction state.system.ownership threadId
        username = some (true, claimed) →
      Settles (handler args username) (state.withOwnership claimed))
    (effect : ¬ sameStores.related state
      ((withThreadOwner deployment outside threadId token payload handler).exec state).2) :
    ((withThreadOwner deployment outside threadId token payload handler).exec
      state).2.system.ownership.committed threadId = some username := by
  rcases withThreadOwner_cases with
    unmoved | ⟨caller, args, claimed, accepted, given, executed, ended⟩
  · exact absurd unmoved effect
  · rw [current] at accepted
    cases accepted
    have table := keeps args username (state.withOwnership claimed) rfl
    have settling := settles args claimed given executed
    unfold Settles at settling
    rw [ended] at effect ⊢
    rcases ran : (handler args username).exec (state.withOwnership claimed) with
      ⟨failure | response, after⟩ <;> rw [ran] at table settling effect
    · rcases settling with returned | unmoved
      · cases returned
      · exact absurd unmoved effect
    · have kept : claimed = after.system.ownership := table
      have committed : (after.commit outside).system.ownership =
          after.system.ownership.commit transaction := by
        simp [State.commit, commits]
      rw [committed, ← kept]
      exact committed_of_claim settled unowned ordinary executed

theorem LeftEffect.moved {before : System} {after : State}
    (effect : LeftEffect threadId before after.system) :
    ¬ sameStores.related { system := before } after := by
  intro unmoved
  have threads : before.threads = after.system.threads := congrArg Prod.fst unmoved
  have memory : before.memory = after.system.memory :=
    congrArg (fun stores => stores.2.2) unmoved
  rcases effect with written | remembered
  · exact written (by rw [threads])
  · exact remembered (by rw [factsOn, factsOn, memory])

end

/-- A claim that is kept is committed with the effect. -/
theorem effect_committed {deployment : Deployment} {system : System} {exchange : Exchange}
    {threadId username : String} (settled : system.ownership.Settled)
    (unowned : system.ownership.committed threadId = none)
    (checked : checkedThread exchange.request.route = some threadId)
    (called : exchange.caller deployment = some username)
    (effect : LeftEffect threadId system (exchange.serve deployment system).system)
    (kept : ClaimKept deployment system exchange username) :
    (exchange.serve deployment system).system.ownership.committed threadId = some username := by
  obtain ⟨⟨token, route⟩, outside⟩ := exchange
  have current := Exchange.caller_eq_some_iff.mp called
  have committed {Payload : Type} {payload : Option Payload}
      {handler : Payload → String → Handler Response}
      (keeps : ∀ args username, sameOwnership.Keeps (handler args username)) :=
    @withThreadOwner_committed deployment outside threadId username token ⟨system, [], []⟩
      Payload payload handler settled unowned current kept.ordinary kept.commits keeps
  have moved := effect.moved
  cases route with
  | history key limit =>
      cases checked
      exact committed (fun _ _ => threadHistory_keeps)
        (fun _ _ _ _ => .of_keeps threadHistory_keeps) moved
  | branches key limit =>
      cases checked
      exact committed (fun _ _ => threadBranches_keeps)
        (fun _ _ _ _ => .of_keeps threadBranches_keeps) moved
  | resume key =>
      cases checked
      obtain ⟨completes, uuid⟩ := kept.returns
      exact committed (fun _ _ => resumeThread_keeps runs_keep_ownership)
        (fun _ _ _ executed => resumeThread_settles executed completes uuid) moved
  | fork key query =>
      cases checked
      refine committed (fun _ _ => forkThread_keeps runs_keep_ownership)
        (fun args _ given executed => ?_) moved
      cases given
      obtain ⟨completes, answers⟩ := kept.returns
      exact forkThread_settles executed completes answers
  | edit key query =>
      cases checked
      exact committed (fun _ _ => editThreadCheckpoint_keeps runs_keep_ownership)
        (fun _ _ _ _ => editThreadCheckpoint_settles kept.returns) moved
  | remember key text =>
      cases checked
      exact committed (fun _ _ => rememberThreadFact_keeps fun _ _ _ => rfl)
        (fun _ _ _ _ => rememberThreadFact_settles kept.returns) moved
  | _ => cases checked

/-- When the claim of every effect on a thread without an owner is kept, nobody
but its caller and the admin gets at the thread afterwards. -/
theorem effects_owned_when_kept {deployment : Deployment} {first : System}
    {history : List Exchange} (settled : first.ownership.Settled)
    (kept : ∀ earlier exchange later, history = earlier ++ exchange :: later →
      ∀ threadId username,
        checkedThread exchange.request.route = some threadId →
        exchange.caller deployment = some username →
        (reached deployment first earlier).ownership.committed threadId = none →
        LeftEffect threadId (reached deployment first earlier)
          (reached deployment first (earlier ++ [exchange])) →
        ClaimKept deployment (reached deployment first earlier) exchange username) :
    EffectsOwned deployment first history := by
  intro earlier exchange between last later split threadId username other checked called unowned _
    effect _ lastCalled ordinary different
  have claim := kept earlier exchange _ split threadId username checked called unowned effect
  rw [reached_append] at effect ⊢
  have committed :=
    effect_committed (reached_between settledSession earlier settled) unowned checked called
      effect claim
  have lasting : (reached deployment (reached deployment first earlier)
      (exchange :: between)).ownership.committed threadId = some username :=
    reached_between committedSession between committed
  exact granted_of_committed lasting lastCalled ordinary different

/-! ## Two users and one thread -/

def steady : Outside :=
  undisturbed ⟨"", []⟩ ⟨"", []⟩

def rememberAs (username : String) : Exchange where
  request := { token := some username, route := .remember "notes" (some "a fact") }
  outside := steady

def readAs (username : String) : Exchange where
  request := { token := some username, route := .history "notes" (some 50) }
  outside := steady

/-- The admin is the first to touch the thread, and it becomes somebody else's. -/
theorem admin_effect_unowned : ¬ EffectsOwned twoUsers {} [rememberAs "admin", readAs "bob"] := by
  intro owned
  have effect : LeftEffect "notes" (reached twoUsers {} [])
      (reached twoUsers {} [rememberAs "admin"]) := .inr (by decide)
  have refused := owned [] (rememberAs "admin") [] (readAs "bob") [] rfl "notes" "admin" "bob" rfl
    rfl rfl rfl effect rfl rfl rfl (by decide)
  exact absurd refused (by decide)

def threeUsers : Deployment :=
  { twoUsers with users := twoUsers.users ++ [⟨"carol", "third"⟩] }

theorem bobs_effect_owned : EffectsOwned threeUsers {} [rememberAs "bob", readAs "carol"] := by
  refine effects_owned_when_kept (fun _ member => by cases member) ?_
  intro earlier exchange later split threadId username checked called unowned effect
  rcases earlier with _ | ⟨head, _ | ⟨second, rest⟩⟩
  · cases split
    cases called
    exact ⟨by decide, rfl, rfl⟩
  · cases split
    cases checked
    have owned : (reached threeUsers {} [rememberAs "bob"]).ownership.committed "notes" =
        some "bob" := rfl
    rw [owned] at unowned
    cases unowned
  · simp at split

end AgenticEnterprise.Api.OwnedEffects
