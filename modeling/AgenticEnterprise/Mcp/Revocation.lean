import AgenticEnterprise.Mcp.TokenFetch
import Mathlib.Algebra.Order.Group.Multiset

/-! Concurrent balance lookups whose tokens are rejected: `_call_api` of
`app/mcp/finance_server.py`.

The finance API may answer anything, and so may the token endpoint. A rejection is
learnt a round trip after the token was presented. -/

set_option autoImplicit false

namespace AgenticEnterprise.Mcp.Revocation

open Core Library TokenFetch
open BalanceCalls (Attempt)

/-- Where a lookup is: before the lock or the token response of its attempt, or
before the answer to its GET. -/
inductive Phase where
  | ready
  | locking (attempt : Attempt)
  | posting (attempt : Attempt)
  | getting (attempt : Attempt) (token : Json)
  | ended

/-- `emptied` is the token whose rejection emptied the cache, until the cache is filled,
and `posted` whether a POST has begun since. `extra` has the token once for every POST
that began while the cache was so emptied, and `grants` are the tokens that responses
named. -/
structure State where
  now : Rat
  client : ClientCredentialsToken := {}
  call : Nat → Phase := fun _ => .ready
  emptied : Option Json := none
  posted : Bool := false
  extra : Multiset Json := 0
  grants : Multiset Json := 0

inductive Event where
  | wait (elapsed : Rat)
  | start (id : Nat)
  | acquire (id : Nat)
  | respond (id : Nat) (answer : Answer)
  | receive (id : Nat) (statusCode : Nat)
  | fail (id : Nat)

def State.setPhase (state : State) (id : Nat) (phase : Phase) : State :=
  { state with call := Function.update state.call id phase }

/-- The lookup behind a piece of `value`: with a token it sends its GET. -/
def State.settle (state : State) (id : Nat) (attempt : Attempt) : Outcome → State
  | .returned token => state.setPhase id (.getting attempt token)
  | .awaitsLock => state.setPhase id (.locking attempt)
  | .awaitsFetch => state.setPhase id (.posting attempt)

def charged : Option Json → Multiset Json
  | none => 0
  | some token => {token}

def State.post (state : State) (id : Nat) (attempt : Attempt) : State :=
  { state.setPhase id (.posting attempt) with
    client := { state.client with lock := some id }
    posted := true
    extra := state.extra + charged state.emptied }

def named (answer : Answer) : Option Json :=
  (answer.body.bind (Json.item "access_token")).toOption

section

variable (floatText : String → Option Double)

def State.recorded (state : State) (answer : Answer) (client : ClientCredentialsToken) : State :=
  { state with
    client := client.unlocked
    emptied := if client.accessToken.isNone then state.emptied else none
    grants := state.grants + charged (named answer) }

def State.answered (state : State) (id : Nat) (attempt : Attempt) (answer : Answer) : State :=
  match (fetch floatText state.now answer).exec state.client with
  | (.ok _, after) =>
      (state.recorded answer after).settle id attempt (.returned after.accessToken)
  | (.error _, after) => (state.recorded answer after).setPhase id .ended

def State.rejected (state : State) (id : Nat) (token : Json) : State :=
  let refreshed := { state with
    client := state.client.forceRefresh
    emptied := if state.client.accessToken.isNone then state.emptied else some token
    posted := state.client.accessToken.isNone && state.posted }
  refreshed.settle id .second (refreshed.client.value refreshed.now)

def step (state : State) (event : Event) : Option State :=
  match event with
  | .wait elapsed => if 0 ≤ elapsed then some { state with now := state.now + elapsed } else none
  | .start id =>
      match state.call id with
      | .ready => some (state.settle id .first (state.client.value state.now))
      | _ => none
  | .acquire id =>
      match state.call id with
      | .locking attempt =>
          (state.client.valueLocked state.now id).map fun ended =>
            match ended.1 with
            | .awaitsFetch => state.post id attempt
            | outcome => state.settle id attempt outcome
      | _ => none
  | .respond id answer =>
      match state.call id with
      | .posting attempt => some (state.answered floatText id attempt answer)
      | _ => none
  | .receive id statusCode =>
      match state.call id with
      | .getting attempt token =>
          if statusCode = 401 ∧ attempt = .first then some (state.rejected id token)
          else some (state.setPhase id .ended)
      | _ => none
  | .fail id =>
      match state.call id with
      | .locking _ | .getting _ _ => some (state.setPhase id .ended)
      | _ => none

def Step (state : State) (event : Event) (next : State) : Prop :=
  step floatText state event = some next

end

def initial (now : Rat) : State where
  now := now

/-! ## What a rejection may discard -/

/-- The lookup whose first attempt is rejected, and the token it presented. -/
def Rejects (state : State) (event : Event) (token : Json) : Prop :=
  ∃ id, event = .receive id 401 ∧ state.call id = .getting .first token

/-- A rejection leaves every token but the rejected one in the cache. -/
def KeepsOthers (state : State) (event : Event) (next : State) : Prop :=
  ∀ token, Rejects state event token → state.client.accessToken ≠ token →
    next.client.accessToken = state.client.accessToken

/-- A rejected token is the one in the cache, or there is none. -/
def RejectsCached (state : State) (event : Event) : Prop :=
  ∀ token, Rejects state event token →
    state.client.accessToken = token ∨ state.client.accessToken = .null

/-! ## What a step can do -/

inductive Move (floatText : String → Option Double) (state : State) : Event → State → Prop where
  | wait {elapsed} : Move floatText state (.wait elapsed) { state with now := state.now + elapsed }
  | phase {id event phase} :
      (∀ token, ¬Rejects state event token) → Move floatText state event (state.setPhase id phase)
  | post {id attempt} :
      state.client.lock = none → Move floatText state (.acquire id) (state.post id attempt)
  | respond {id attempt answer} :
      Move floatText state (.respond id answer) (state.answered floatText id attempt answer)
  | reject {id token} :
      state.call id = .getting .first token →
      Move floatText state (.receive id 401) (state.rejected id token)

section

variable {floatText : String → Option Double} {state next : State} {event : Event}

theorem not_rejects_of_ne {token : Json} (other : ∀ id, event ≠ .receive id 401) :
    ¬Rejects state event token := by
  intro rejects
  obtain ⟨id, same, _⟩ := rejects
  exact other id same

theorem move_of_step (taken : Step floatText state event next) :
    Move floatText state event next := by
  cases event with
  | wait elapsed =>
      simp only [Step, step, Option.ite_none_right_eq_some, Option.some.injEq] at taken
      obtain ⟨_, rfl⟩ := taken
      exact .wait
  | start id =>
      simp only [Step, step] at taken
      split at taken
      · cases taken
        unfold ClientCredentialsToken.value
        split <;> exact .phase fun _ => not_rejects_of_ne (by simp)
      · cases taken
  | acquire id =>
      simp only [Step, step] at taken
      split at taken
      · obtain ⟨ended, locked, rfl⟩ := Option.map_eq_some_iff.mp taken
        unfold ClientCredentialsToken.valueLocked at locked
        split at locked
        · cases locked
        · rename_i free
          split at locked <;> cases locked
          · exact .post free
          · exact .phase fun _ => not_rejects_of_ne (by simp)
      · cases taken
  | respond id answer =>
      simp only [Step, step] at taken
      split at taken
      · cases taken
        exact .respond
      · cases taken
  | receive id statusCode =>
      simp only [Step, step] at taken
      split at taken
      · rename_i attempt token getting
        split at taken
        · rename_i refused
          obtain ⟨rfl, rfl⟩ := refused
          cases taken
          exact .reject getting
        · rename_i other
          cases taken
          refine .phase fun token rejects => ?_
          obtain ⟨_, same, first⟩ := rejects
          cases same
          rw [getting] at first
          cases first
          exact other ⟨rfl, rfl⟩
      · cases taken
  | fail id =>
      simp only [Step, step] at taken
      split at taken
      · cases taken
        exact .phase fun _ => not_rejects_of_ne (by simp)
      · cases taken
        exact .phase fun _ => not_rejects_of_ne (by simp)
      · cases taken

theorem rejected_client (state : State) (id : Nat) (token : Json) :
    (state.rejected id token).client = state.client.forceRefresh := by
  unfold State.rejected ClientCredentialsToken.value
  dsimp only
  split <;> rfl

theorem keepsOthers_iff (taken : Step floatText state event next) :
    KeepsOthers state event next ↔ RejectsCached state event := by
  constructor
  · intro keeps token rejects
    by_contra other
    obtain ⟨different, cached⟩ := not_or.mp other
    have kept := keeps token rejects different
    obtain ⟨id, rfl, getting⟩ := rejects
    cases move_of_step taken with
    | phase noOne => exact noOne token ⟨id, rfl, getting⟩
    | reject =>
        rw [rejected_client] at kept
        exact cached kept.symm
  · intro condition token rejects different
    have empty := (condition token rejects).resolve_left different
    obtain ⟨id, rfl, _⟩ := rejects
    cases move_of_step taken with
    | phase => rfl
    | reject =>
        rw [rejected_client, empty]
        rfl

end

/-! ## The POSTs of a rejection -/

/-- An answer of which a token can be cached, for as long as it says. -/
def Granting (floatText : String → Option Double) (answer : Answer) : Prop :=
  ∃ body token lifetime, answer.body = .ok body ∧ body.item "access_token" = .ok token ∧
    token.isNone = false ∧ lifetimeOf floatText body = .ok lifetime

/-- A POST that a rejection made necessary is answered with a token. -/
def PostsAnswered (floatText : String → Option Double) (state : State) (event : Event) : Prop :=
  ∀ id answer, event = .respond id answer → state.posted = true → state.emptied ≠ none →
    Granting floatText answer

/-- A step at which no rejection meets another token in the cache, and no POST for a
rejected one fails. -/
def CachedStep (floatText : String → Option Double) (state : State) (event : Event)
    (next : State) : Prop :=
  Step floatText state event next ∧ RejectsCached state event ∧
    PostsAnswered floatText state event

def held (client : ClientCredentialsToken) : Multiset Json :=
  if client.accessToken.isNone then 0 else {client.accessToken}

/-- The token that the next POST is charged to. -/
def State.due (state : State) : Multiset Json :=
  if state.posted then 0 else charged state.emptied

/-- Every token that a POST is charged to, or may still be, was granted for it, and
so was the one in the cache. A POST for a rejected token ends with another one cached. -/
structure Charged (state : State) : Prop where
  covered : state.extra + state.due + held state.client ≤ state.grants
  fetching : state.posted = true → state.emptied ≠ none → state.client.lock ≠ none

section

variable {floatText : String → Option Double} {state next : State} {event : Event}

theorem fetch_named (client : ClientCredentialsToken) (now : Rat) (answer : Answer) :
    named answer = none ∧ ((fetch floatText now answer).exec client).2 = client ∨
      ∃ token, named answer = some token ∧
        ((fetch floatText now answer).exec client).2.accessToken = token := by
  rcases read : answer.body with failure | body
  · rw [fetch_exec_of_body read]
    exact .inl ⟨by simp [named, read, Except.bind, Except.toOption], rfl⟩
  rcases given : body.item "access_token" with failure | token
  · rw [fetch_exec_of_token read given]
    exact .inl ⟨by simp [named, read, given, Except.bind, Except.toOption], rfl⟩
  · refine .inr ⟨token, by simp [named, read, given, Except.bind, Except.toOption], ?_⟩
    rcases known : lifetimeOf floatText body with failure | lifetime
    · rw [fetch_exec_of_lifetime read given known]
    · rw [fetch_exec_ok read given known]

theorem charged_settle {id : Nat} {attempt : Attempt} {outcome : Outcome}
    (holds : Charged state) : Charged (state.settle id attempt outcome) := by
  cases outcome <;> exact ⟨holds.covered, holds.fetching⟩

theorem extra_due_le (holds : Charged state) : state.extra + state.due ≤ state.grants :=
  (Multiset.le_add_right _ _).trans holds.covered

theorem extra_le (holds : Charged state) : state.extra ≤ state.grants :=
  (Multiset.le_add_right _ _).trans (extra_due_le holds)

/-- What a response caches it has named, or the cache is as it was. -/
theorem held_fetch {answer : Answer} :
    held ((fetch floatText state.now answer).exec state.client).2 ≤
      held state.client + charged (named answer) := by
  rcases @fetch_named floatText state.client state.now answer with
    ⟨_, unchanged⟩ | ⟨token, given, filled⟩
  · rw [unchanged]
    exact Multiset.le_add_right _ _
  · have own : held ((fetch floatText state.now answer).exec state.client).2 ≤ {token} := by
      rw [held, filled]
      split
      · exact Multiset.zero_le _
      · exact le_rfl
    rw [given]
    exact own.trans (Multiset.le_add_left _ _)

theorem filled_of_granting {answer : Answer} (granting : Granting floatText answer) :
    ((fetch floatText state.now answer).exec state.client).2.accessToken.isNone = false := by
  obtain ⟨body, token, lifetime, read, given, present, known⟩ := granting
  rw [fetch_exec_ok read given known]
  exact present

theorem charged_recorded {answer : Answer} (holds : Charged state)
    (answered : state.posted = true → state.emptied ≠ none → Granting floatText answer) :
    Charged (state.recorded answer ((fetch floatText state.now answer).exec state.client).2) := by
  have grown := @held_fetch floatText state answer
  have filled := @filled_of_granting floatText state answer
  generalize ((fetch floatText state.now answer).exec state.client).2 = after at grown filled
  have due : (state.recorded answer after).due ≤ state.due := by
    unfold State.recorded State.due
    dsimp only
    split
    · exact le_rfl
    · split
      · exact le_rfl
      · exact Multiset.zero_le _
  refine ⟨?_, fun posted emptied => ?_⟩
  · calc state.extra + (state.recorded answer after).due + held after
        ≤ state.extra + state.due + (held state.client + charged (named answer)) :=
          add_le_add (add_le_add_right due _) grown
      _ = state.extra + state.due + held state.client + charged (named answer) :=
          (add_assoc _ _ _).symm
      _ ≤ state.grants + charged (named answer) := add_le_add_left holds.covered _
  · have empty : after.accessToken.isNone = true := by
      by_contra filled
      exact emptied (if_neg filled)
    have before : state.emptied ≠ none := fun none => emptied ((if_pos empty).trans none)
    rw [filled (answered posted before)] at empty
    cases empty

theorem charged_answered {id : Nat} {attempt : Attempt} {answer : Answer} (holds : Charged state)
    (answered : state.posted = true → state.emptied ≠ none → Granting floatText answer) :
    Charged (state.answered floatText id attempt answer) := by
  have recorded := charged_recorded holds answered
  unfold State.answered
  split <;> rename_i after ran <;> rw [ran] at recorded
  · exact charged_settle recorded
  · exact ⟨recorded.covered, recorded.fetching⟩

theorem charged_rejected {id : Nat} {token : Json} (holds : Charged state)
    (condition : state.client.accessToken = token ∨ state.client.accessToken = .null) :
    Charged (state.rejected id token) := by
  unfold State.rejected
  refine charged_settle ?_
  cases cached : state.client.accessToken.isNone with
  | true =>
      refine ⟨?_, holds.fetching⟩
      show state.extra + state.due + 0 ≤ state.grants
      rw [add_zero]
      exact extra_due_le holds
  | false =>
      have same : state.client.accessToken = token := condition.resolve_right fun null => by
        rw [null] at cached
        cases cached
      have own : held state.client = {token} := by
        rw [held, cached, same]
        rfl
      refine ⟨?_, nofun⟩
      show state.extra + {token} + 0 ≤ state.grants
      rw [add_zero, ← own]
      exact (add_le_add_left (Multiset.le_add_right _ _) _).trans holds.covered

theorem charged_post {id : Nat} {attempt : Attempt} (holds : Charged state)
    (free : state.client.lock = none) : Charged (state.post id attempt) := by
  have due : state.due = charged state.emptied := by
    unfold State.due
    split
    · rename_i posted
      have filled : state.emptied = none := by
        by_contra emptied
        exact holds.fetching posted emptied free
      rw [filled, charged]
    · rfl
  refine ⟨?_, fun _ _ => Option.some_ne_none id⟩
  show state.extra + charged state.emptied + 0 + held state.client ≤ state.grants
  rw [add_zero, ← due]
  exact holds.covered

theorem charged_step (holds : Charged state) (taken : CachedStep floatText state event next) :
    Charged next := by
  obtain ⟨taken, condition, answered⟩ := taken
  cases move_of_step taken with
  | wait => exact ⟨holds.covered, holds.fetching⟩
  | phase => exact ⟨holds.covered, holds.fetching⟩
  | post free => exact charged_post holds free
  | @respond id attempt answer => exact charged_answered holds (answered id answer rfl)
  | @reject id token getting => exact charged_rejected holds (condition token ⟨id, rfl, getting⟩)

/-- As long as no rejection meets another token in the cache and no POST for a rejected
one fails, the token of every such POST was granted for it. -/
theorem extra_le_grants {now : Rat} {labels : List Event} {last : State}
    (run : Runs (CachedStep floatText) (initial now) labels last) : last.extra ≤ last.grants := by
  have initially : Charged (initial now) :=
    ⟨by simp [initial, State.due, charged, held, Json.isNone], nofun⟩
  have holds := @Runs.invariant _ _ _ Charged charged_step _ _ _ run initially
  exact extra_le holds

/-- A rejection discards no other token exactly if there is none in the cache. In a run
of such rejections whose POSTs are answered, every token is charged with a POST at most
once for each time it was granted. -/
theorem keepsOthers_iff_cached :
    (∀ state event next, Step floatText state event next →
      (KeepsOthers state event next ↔ RejectsCached state event)) ∧
    ∀ now labels last, Runs (CachedStep floatText) (initial now) labels last →
      last.extra ≤ last.grants :=
  ⟨fun _ _ _ => keepsOthers_iff, fun _ _ _ => extra_le_grants⟩

end

/-! ## Two lookups with one token -/

def isText (text : String) : Json → Bool
  | .string other => decide (other = text)
  | _ => false

theorem isText_iff {text : String} {value : Json} :
    isText text value = true ↔ value = .string text := by
  cases value <;> simp [isText]

def presents (text : String) : Phase → Bool
  | .getting .first token => isText text token
  | _ => false

theorem presents_iff {text : String} {phase : Phase} :
    presents text phase = true ↔ phase = .getting .first (.string text) := by
  rcases phase with _ | _ | _ | ⟨_ | _, token⟩ | _ <;> simp [presents, isText_iff]

def chargedWith (text : String) (tokens : Multiset Json) : Nat :=
  tokens.countP fun token => isText text token = true

/-- Both lookups present the token, and the first one has replaced it. -/
def replaced : List Event :=
  [.start 0, .acquire 0, .respond 0 (granting "t1"), .start 1, .receive 0 401, .acquire 0,
    .respond 0 (granting "t2")]

/-- The second rejection discards the new token, and the old one is charged with
two POSTs. -/
theorem second_rejection :
    ∃ state next last, Runs (Step fun _ => none) (initial 0) replaced state ∧
      Step (fun _ => none) state (.receive 1 401) next ∧
      ¬KeepsOthers state (.receive 1 401) next ∧
      Step (fun _ => none) next (.acquire 1) last ∧ ¬last.extra ≤ last.grants := by
  have ran : ((runSteps (step fun _ => none) (initial 0) replaced).bind fun state =>
      (step (fun _ => none) state (.receive 1 401)).bind fun next =>
        (step (fun _ => none) next (.acquire 1)).map fun last =>
          (isText "t2" state.client.accessToken, presents "t1" (state.call 1),
            chargedWith "t1" last.extra, chargedWith "t1" last.grants)) =
      some (true, true, 2, 1) := by
    decide +kernel
  obtain ⟨state, before, ran⟩ := Option.bind_eq_some_iff.mp ran
  obtain ⟨next, rejects, ran⟩ := Option.bind_eq_some_iff.mp ran
  obtain ⟨last, posts, seen⟩ := Option.map_eq_some_iff.mp ran
  simp only [Prod.mk.injEq, isText_iff, presents_iff] at seen
  obtain ⟨cached, presented, extra, grants⟩ := seen
  refine ⟨state, next, last, runSteps_eq_some_iff.mp before, rejects, ?_, posts, ?_⟩
  · rw [keepsOthers_iff rejects]
    intro condition
    rcases condition _ ⟨1, rfl, presented⟩ with same | null
    · simp [cached] at same
    · simp [cached] at null
  · intro bound
    have fewer : chargedWith "t1" last.extra ≤ chargedWith "t1" last.grants :=
      Multiset.countP_le_of_le _ bound
    omega

end AgenticEnterprise.Mcp.Revocation
