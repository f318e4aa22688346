import AgenticEnterprise.Core.Json
import AgenticEnterprise.Library.Effects
import AgenticEnterprise.Mcp.BalanceCalls

/-! The token cache against any token endpoint: `app/mcp/oauth.py`.

The endpoint may fail or answer with any JSON value, so the cache holds any
value as its token. `_fetch` assigns the token before it reads the lifetime. -/

set_option autoImplicit false

namespace AgenticEnterprise.Mcp.TokenFetch

open Core Library InternalApi.FinanceApi TokenCache
open BalanceCalls (isSuccess)

/-- What the POST comes to: the client raises, or there is a response. `content`
is its body if that is JSON, and `text` describes an error status. -/
inductive Answer where
  | failed (failure : Raised)
  | response (statusCode : Nat) (text : String) (content : Option Json)

/-- The body behind `raise_for_status` and `resp.json()`. -/
def Answer.body : Answer → Except Raised Json
  | .failed failure => .error failure
  | .response statusCode text content =>
      if isSuccess statusCode then
        match content with
        | some json => .ok json
        | none => .error .jsonDecodeError
      else .error (.httpError text)

/-- `lock` is the coroutine that holds the lock. -/
structure ClientCredentialsToken where
  accessToken : Json := .null
  expiresAt : Double := .finite 0
  lock : Option Nat := none

inductive Outcome where
  | returned (token : Json)
  | awaitsLock
  | awaitsFetch

namespace ClientCredentialsToken

variable (client : ClientCredentialsToken) (now : Rat)

def isStale : Bool :=
  client.accessToken.isNone || (client.expiresAt.add (-refreshMarginS)).reachedBy now

/-- `value` up to the lock. -/
def value : Outcome :=
  if client.isStale now then .awaitsLock else .returned client.accessToken

/-- `value` from the lock on, once the coroutine gets it. -/
def valueLocked (id : Nat) : Option (Outcome × ClientCredentialsToken) :=
  match client.lock with
  | some _ => none
  | none =>
      if client.isStale now then some (.awaitsFetch, { client with lock := some id })
      else some (.returned client.accessToken, client)

def forceRefresh : ClientCredentialsToken :=
  { client with accessToken := .null }

def unlocked : ClientCredentialsToken :=
  { client with lock := none }

end ClientCredentialsToken

/-- `_fetch` behind its last await. -/
def fetch (floatText : String → Option Double) (now : Rat) (answer : Answer) :
    Effect ClientCredentialsToken Raised Unit := do
  let body ← Effect.ofExcept answer.body
  let accessToken ← Effect.ofExcept (body.item "access_token")
  Effect.write fun client => { client with accessToken := accessToken }
  let expiresIn ← Effect.ofExcept (body.item "expires_in")
  let lifetime ← Effect.ofExcept (expiresIn.toFloat floatText)
  Effect.write fun client => { client with expiresAt := lifetime.add now }

/-! ## One fetch -/

section

variable (floatText : String → Option Double)

def granted (now : Rat) (answer : Answer) : Except Raised (Json × Double) := do
  let body ← answer.body
  let accessToken ← body.item "access_token"
  let expiresIn ← body.item "expires_in"
  let lifetime ← expiresIn.toFloat floatText
  return (accessToken, lifetime.add now)

/-- A fetch that raises changes nothing, and one that returns takes both fields
from its response. -/
def Whole (client : ClientCredentialsToken) (now : Rat) (answer : Answer) : Prop :=
  match (fetch floatText now answer).exec client with
  | (.error _, after) => after = client
  | (.ok _, after) => ∃ token expiry, granted floatText now answer = .ok (token, expiry) ∧
      after = { client with accessToken := token, expiresAt := expiry }

def lifetimeOf (body : Json) : Except Raised Double := do
  let expiresIn ← body.item "expires_in"
  expiresIn.toFloat floatText

/-- The response names a token other than the one in the cache, and no lifetime
that can be read. -/
def NamesTokenOnly (client : ClientCredentialsToken) (answer : Answer) : Prop :=
  ∃ body token, answer.body = .ok body ∧ body.item "access_token" = .ok token ∧
    token ≠ client.accessToken ∧ ∀ lifetime, lifetimeOf floatText body ≠ .ok lifetime

end

section

variable {floatText : String → Option Double} {client : ClientCredentialsToken} {now : Rat}
  {answer : Answer} {body token : Json} {lifetime : Double} {failure : Raised}

theorem fetch_exec_of_body (unread : answer.body = .error failure) :
    (fetch floatText now answer).exec client = (.error failure, client) := by
  simp [fetch, Effect.exec_bind, unread]

theorem fetch_exec_of_token (read : answer.body = .ok body)
    (unnamed : body.item "access_token" = .error failure) :
    (fetch floatText now answer).exec client = (.error failure, client) := by
  simp [fetch, Effect.exec_bind, read, unnamed]

/-- Behind the token, an exception comes too late to leave the cache as it was. -/
theorem fetch_exec_of_lifetime (read : answer.body = .ok body)
    (named : body.item "access_token" = .ok token)
    (unread : lifetimeOf floatText body = .error failure) :
    (fetch floatText now answer).exec client =
      (.error failure, { client with accessToken := token }) := by
  simp only [fetch, Effect.exec_bind, Effect.exec_ofExcept, read, named, Effect.exec_write]
  unfold lifetimeOf at unread
  rcases item : body.item "expires_in" with missing | expiresIn
  · rw [item] at unread
    cases unread
    rfl
  · rw [item] at unread
    have conversion : expiresIn.toFloat floatText = .error failure := unread
    simp only [conversion]

theorem fetch_exec_ok (read : answer.body = .ok body)
    (named : body.item "access_token" = .ok token)
    (known : lifetimeOf floatText body = .ok lifetime) :
    (fetch floatText now answer).exec client =
      (.ok (), { client with accessToken := token, expiresAt := lifetime.add now }) := by
  obtain ⟨expiresIn, item, conversion⟩ := bind_eq_ok_iff.mp known
  simp [fetch, Effect.exec_bind, read, named, item, conversion]

theorem granted_eq (read : answer.body = .ok body) (named : body.item "access_token" = .ok token)
    (known : lifetimeOf floatText body = .ok lifetime) :
    granted floatText now answer = .ok (token, lifetime.add now) := by
  obtain ⟨expiresIn, item, conversion⟩ := bind_eq_ok_iff.mp known
  refine bind_eq_ok_iff.mpr ⟨_, read, bind_eq_ok_iff.mpr ⟨_, named, ?_⟩⟩
  refine bind_eq_ok_iff.mpr ⟨_, item, ?_⟩
  exact bind_eq_ok_iff.mpr ⟨_, conversion, rfl⟩

theorem whole_iff :
    Whole floatText client now answer ↔ ¬NamesTokenOnly floatText client answer := by
  unfold Whole NamesTokenOnly
  rcases read : answer.body with failure | body
  · simp [fetch_exec_of_body read]
  rcases named : body.item "access_token" with failure | token
  · simp [fetch_exec_of_token read named, named]
  rcases known : lifetimeOf floatText body with failure | lifetime
  · rw [fetch_exec_of_lifetime read named known]
    constructor
    · intro unchanged tokenOnly
      obtain ⟨_, other, ⟨⟩, same, new, _⟩ := tokenOnly
      rw [named, Except.ok.injEq] at same
      subst same
      exact new (congrArg ClientCredentialsToken.accessToken unchanged)
    · intro known
      have same : token = client.accessToken := by
        by_contra new
        exact known ⟨body, token, rfl, named, new, by simp [*]⟩
      rw [same]
  · rw [fetch_exec_ok read named known]
    refine ⟨fun _ tokenOnly => ?_, fun _ => ⟨token, _, granted_eq read named known, rfl⟩⟩
    obtain ⟨_, _, ⟨⟩, _, _, unread⟩ := tokenOnly
    exact unread lifetime known

end

/-! ## The finance API's own tokens -/

def ofToken : Option String → Json
  | none => .null
  | some token => .string token

/-- The cache of the finance API's tokens as one that holds any value. `TokenCache` is this
client where the token endpoint answers with grants only. -/
def ofCache (client : TokenCache.ClientCredentialsToken) : ClientCredentialsToken where
  accessToken := ofToken client.accessToken
  expiresAt := .finite client.expiresAt
  lock := client.lock

def ofOutcome : TokenCache.Outcome → Outcome
  | .returned token => .returned (ofToken token)
  | .awaitsLock => .awaitsLock
  | .awaitsFetch => .awaitsFetch

def grantBody (grant : TokenGrant) : Json :=
  .object
    [("access_token", .string grant.accessToken), ("token_type", .string grant.tokenType),
      ("expires_in", .float (.finite grant.expiresIn)), ("scope", .string grant.scope)]

section

variable {client : TokenCache.ClientCredentialsToken} {now : Rat} {id : Nat}

theorem ofCache_isStale : (ofCache client).isStale now = client.isStale now := by
  rcases client with ⟨_, _, _, accessToken, expiresAt, _⟩
  cases accessToken with
  | none =>
      simp [ofCache, ofToken, ClientCredentialsToken.isStale,
        TokenCache.ClientCredentialsToken.isStale, Json.isNone]
  | some token =>
      simp [ofCache, ofToken, ClientCredentialsToken.isStale,
        TokenCache.ClientCredentialsToken.isStale, Json.isNone, Double.add, Double.reachedBy,
        sub_eq_add_neg]

theorem ofCache_value : (ofCache client).value now = ofOutcome (client.value now) := by
  unfold ClientCredentialsToken.value TokenCache.ClientCredentialsToken.value
  rw [ofCache_isStale]
  cases client.isStale now <;> rfl

theorem ofCache_valueLocked :
    (ofCache client).valueLocked now id =
      (client.valueLocked now id).map fun ended => (ofOutcome ended.1, ofCache ended.2) := by
  unfold ClientCredentialsToken.valueLocked TokenCache.ClientCredentialsToken.valueLocked
  rw [ofCache_isStale]
  change (match client.lock with | some _ => none | none => _) = _
  cases client.lock with
  | some holder => rfl
  | none => cases client.isStale now <;> rfl

theorem ofCache_fetched {floatText : String → Option Double} {grant : TokenGrant} :
    (fetch floatText now (.response 200 "" (some (grantBody grant)))).exec (ofCache client) =
      (.ok (), { ofCache (client.fetched now grant).2 with lock := client.lock }) := by
  have known : lifetimeOf floatText (grantBody grant) = .ok (.finite grant.expiresIn) := rfl
  rw [fetch_exec_ok rfl rfl known]
  simp [ofCache, ofToken, TokenCache.ClientCredentialsToken.fetched, Double.add, add_comm]

/-- The two clients agree piece by piece: up to the lock, from the lock to the POST, behind a
grant, behind an exception and at `force_refresh`. -/
theorem ofCache_pieces (floatText : String → Option Double) (grant : TokenGrant) :
    (ofCache client).value now = ofOutcome (client.value now) ∧
    ((ofCache client).valueLocked now id =
      (client.valueLocked now id).map fun ended => (ofOutcome ended.1, ofCache ended.2)) ∧
    (∃ fetched,
      (fetch floatText now (.response 200 "" (some (grantBody grant)))).exec (ofCache client) =
        (.ok (), fetched) ∧
      Outcome.returned fetched.accessToken = ofOutcome (client.fetched now grant).1 ∧
      fetched.unlocked = ofCache (client.fetched now grant).2) ∧
    (ofCache client).unlocked = ofCache client.fetchFailed ∧
    (ofCache client).forceRefresh = ofCache client.forceRefresh := by
  refine ⟨ofCache_value, ofCache_valueLocked, ?_, rfl, rfl⟩
  exact ⟨_, ofCache_fetched, rfl, rfl⟩

end

/-! ## Coroutines -/

/-- Where a coroutine is: outside `value`, before the lock, or in `_fetch`. -/
inductive Phase where
  | idle
  | locking
  | posting
  deriving DecidableEq, Repr

/-- `answers` are those `_fetch` got, with their times, and `returns` what `value`
returned to whom. -/
structure State where
  now : Rat
  client : ClientCredentialsToken := {}
  coroutine : Nat → Phase := fun _ => .idle
  answers : List (Rat × Answer) := []
  returns : List (Nat × Json) := []

inductive Event where
  | wait (elapsed : Rat)
  | call (id : Nat)
  | acquire (id : Nat)
  | respond (id : Nat) (answer : Answer)
  | cancel (id : Nat)
  | forceRefresh

def State.setPhase (state : State) (id : Nat) (phase : Phase) : State :=
  { state with coroutine := Function.update state.coroutine id phase }

def State.settle (state : State) (id : Nat) : Outcome → State
  | .returned token =>
      { state.setPhase id .idle with returns := state.returns ++ [(id, token)] }
  | .awaitsLock => state.setPhase id .locking
  | .awaitsFetch => state.setPhase id .posting

section

variable (floatText : String → Option Double)

def State.answered (state : State) (id : Nat) (answer : Answer) : State :=
  let ended := (fetch floatText state.now answer).exec state.client
  let recorded := { state with
    client := ended.2.unlocked
    answers := state.answers ++ [(state.now, answer)] }
  match ended.1 with
  | .ok _ => recorded.settle id (.returned recorded.client.accessToken)
  | .error _ => recorded.setPhase id .idle

def step (state : State) (event : Event) : Option State :=
  match event with
  | .wait elapsed => if 0 ≤ elapsed then some { state with now := state.now + elapsed } else none
  | .call id =>
      match state.coroutine id with
      | .idle => some (state.settle id (state.client.value state.now))
      | _ => none
  | .acquire id =>
      match state.coroutine id with
      | .locking =>
          (state.client.valueLocked state.now id).map fun ended =>
            { state with client := ended.2 }.settle id ended.1
      | _ => none
  | .respond id answer =>
      match state.coroutine id with
      | .posting => some (state.answered floatText id answer)
      | _ => none
  | .cancel id =>
      match state.coroutine id with
      | .locking => some (state.setPhase id .idle)
      | _ => none
  | .forceRefresh => some { state with client := state.client.forceRefresh }

def Step (state : State) (event : Event) (next : State) : Prop :=
  step floatText state event = some next

def initial (now : Rat) : State where
  now := now

end

/-! ## What a step can do -/

inductive Move (floatText : String → Option Double) (state : State) : Event → State → Prop where
  | wait {elapsed} :
      0 ≤ elapsed → Move floatText state (.wait elapsed) { state with now := state.now + elapsed }
  | suspend {id} :
      state.coroutine id = .idle → state.client.isStale state.now = true →
      Move floatText state (.call id) (state.setPhase id .locking)
  | cached {id event} :
      (event = .call id ∧ state.coroutine id = .idle ∨
        event = .acquire id ∧ state.coroutine id = .locking ∧ state.client.lock = none) →
      state.client.isStale state.now = false →
      Move floatText state event (state.settle id (.returned state.client.accessToken))
  | post {id} :
      state.coroutine id = .locking → state.client.lock = none →
      state.client.isStale state.now = true →
      Move floatText state (.acquire id)
        { state.setPhase id .posting with client := { state.client with lock := some id } }
  | respond {id answer} :
      state.coroutine id = .posting →
      Move floatText state (.respond id answer) (state.answered floatText id answer)
  | cancel {id} :
      state.coroutine id = .locking → Move floatText state (.cancel id) (state.setPhase id .idle)
  | forceRefresh :
      Move floatText state .forceRefresh { state with client := state.client.forceRefresh }

section

variable {floatText : String → Option Double} {state next : State} {event : Event}

theorem move_of_step (taken : Step floatText state event next) :
    Move floatText state event next := by
  cases event with
  | wait elapsed =>
      simp only [Step, step, Option.ite_none_right_eq_some, Option.some.injEq] at taken
      obtain ⟨forward, rfl⟩ := taken
      exact .wait forward
  | call id =>
      simp only [Step, step] at taken
      split at taken
      · rename_i idle
        cases taken
        unfold ClientCredentialsToken.value
        cases stale : state.client.isStale state.now with
        | true => exact .suspend idle stale
        | false => exact .cached (.inl ⟨rfl, idle⟩) stale
      · cases taken
  | acquire id =>
      simp only [Step, step] at taken
      split at taken
      · rename_i locking
        obtain ⟨ended, locked, rfl⟩ := Option.map_eq_some_iff.mp taken
        unfold ClientCredentialsToken.valueLocked at locked
        split at locked
        · cases locked
        · rename_i free
          cases stale : state.client.isStale state.now with
          | true =>
              simp only [stale, if_true, Option.some.injEq] at locked
              subst locked
              exact .post locking free stale
          | false =>
              simp only [stale, Bool.false_eq_true, if_false, Option.some.injEq] at locked
              subst locked
              exact .cached (.inr ⟨rfl, locking, free⟩) stale
      · cases taken
  | respond id answer =>
      simp only [Step, step] at taken
      split at taken
      · rename_i posting
        cases taken
        exact .respond posting
      · cases taken
  | cancel id =>
      simp only [Step, step] at taken
      split at taken
      · rename_i locking
        cases taken
        exact .cancel locking
      · cases taken
  | forceRefresh =>
      cases taken
      exact .forceRefresh

end

/-! ## Tokens and their expiries -/

section

variable (floatText : String → Option Double)

/-- A token in the cache has the expiry that one response gave it. -/
def Paired (state : State) : Prop :=
  state.client.accessToken = .null ∨
    ∃ time answer, (time, answer) ∈ state.answers ∧
      granted floatText time answer = .ok (state.client.accessToken, state.client.expiresAt)

/-- A step that is no fetch which learns a new token without its lifetime. -/
def WholeStep (state : State) (event : Event) (next : State) : Prop :=
  Step floatText state event next ∧
    ∀ id answer, event = .respond id answer → ¬NamesTokenOnly floatText state.client answer

end

section

variable {floatText : String → Option Double} {state next : State} {event : Event}

theorem answered_client (state : State) (id : Nat) (answer : Answer) :
    (state.answered floatText id answer).client =
      ((fetch floatText state.now answer).exec state.client).2.unlocked := by
  unfold State.answered
  dsimp only
  split <;> rfl

theorem answered_answers (state : State) (id : Nat) (answer : Answer) :
    (state.answered floatText id answer).answers = state.answers ++ [(state.now, answer)] := by
  unfold State.answered
  dsimp only
  split <;> rfl

theorem paired_answered {id : Nat} {answer : Answer} (paired : Paired floatText state)
    (whole : Whole floatText state.client state.now answer) :
    Paired floatText (state.answered floatText id answer) := by
  unfold Paired
  rw [answered_client, answered_answers]
  unfold Whole at whole
  split at whole
  · rename_i failure after ran
    rw [ran, whole]
    refine paired.imp_right fun known => ?_
    obtain ⟨time, given, member, grants⟩ := known
    exact ⟨time, given, List.mem_append_left _ member, grants⟩
  · rename_i after ran
    obtain ⟨token, expiry, grants, taken⟩ := whole
    rw [ran, taken]
    exact .inr ⟨state.now, answer, by simp, grants⟩

theorem paired_step (paired : Paired floatText state)
    (taken : WholeStep floatText state event next) : Paired floatText next := by
  obtain ⟨taken, whole⟩ := taken
  cases move_of_step taken with
  | wait => exact paired
  | suspend => exact paired
  | cached => exact paired
  | post => exact paired
  | respond => exact paired_answered paired (whole_iff.mpr (whole _ _ rfl))
  | cancel => exact paired
  | forceRefresh => exact .inl rfl

/-- A fetch is whole unless it learns a new token without its lifetime, and as long
as no fetch does, no token is paired with another one's expiry. -/
theorem fetch_whole_iff :
    (∀ client now answer,
      Whole floatText client now answer ↔ ¬NamesTokenOnly floatText client answer) ∧
    ∀ now labels last, Runs (WholeStep floatText) (initial now) labels last →
      Paired floatText last :=
  ⟨fun _ _ _ => whole_iff, fun _ _ _ run =>
    run.invariant (fun paired taken => paired_step paired taken) (.inl rfl)⟩

end

/-! ## A response without a lifetime -/

def granting (token : String) : Answer :=
  .response 200 "" <| some <|
    .object [("access_token", .string token), ("expires_in", .float (.finite 3600))]

def naming (token : String) : Answer :=
  .response 200 "" (some (.object [("access_token", .string token)]))

/-- A second fetch, behind a `force_refresh`, names a token only. -/
def halfFetched : List Event :=
  [.call 0, .acquire 0, .respond 0 (granting "t1"), .forceRefresh, .call 0, .acquire 0,
    .respond 0 (naming "t2")]

/-- The second token stays in the cache, with the expiry of the first one. -/
theorem halfFetched_unpaired :
    ¬Whole (fun _ => none) {} 0 (naming "t2") ∧
      ∃ last, Runs (Step fun _ => none) (initial 0) halfFetched last ∧
        last.client.accessToken = .string "t2" ∧ last.client.expiresAt = .finite 3600 ∧
        ¬Paired (fun _ => none) last := by
  constructor
  · rw [whole_iff, not_not]
    exact ⟨_, .string "t2", rfl, rfl, by simp, fun _ known => by cases known⟩
  · refine ⟨_, runSteps_eq_some_iff.mp rfl, rfl, congrArg Double.finite (add_zero _), ?_⟩
    intro paired
    rcases paired with none | ⟨time, answer, member, grants⟩
    · cases none
    · rcases List.mem_cons.mp member with first | later
      · cases first
        have token : Json.string "t1" = .string "t2" := congrArg Prod.fst (Except.ok.inj grants)
        simp at token
      · cases List.mem_singleton.mp later
        cases grants

end AgenticEnterprise.Mcp.TokenFetch
