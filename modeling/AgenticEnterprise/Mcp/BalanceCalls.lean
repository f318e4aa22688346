import AgenticEnterprise.Library.Runs
import AgenticEnterprise.Mcp.TokenCache
import Mathlib.Algebra.BigOperators.Group.Finset.Basic
import Mathlib.Algebra.Order.BigOperators.Group.Finset
import Mathlib.Data.Fintype.EquivFin
import Mathlib.Tactic.NormNum

/-! Concurrent balance lookups while one token is revoked: `_call_api` of
`app/mcp/finance_server.py`.

All lookups share the token cache. The finance API answers 401 to the revoked token
and to no other one, and every token request is granted a new token. -/

set_option autoImplicit false

namespace AgenticEnterprise.Mcp.BalanceCalls

open Library InternalApi.FinanceApi TokenCache

/-- `attempt` of the loop. -/
inductive Attempt where
  | first
  | second
  deriving DecidableEq, Repr

/-- Where a lookup is: before the lock or the token response of its attempt, or
before the answer to its GET, which the API may have given already. -/
inductive Phase where
  | ready
  | locking (attempt : Attempt)
  | posting (attempt : Attempt)
  | getting (attempt : Attempt) (token : Option String)
  | answered (attempt : Attempt) (token : Option String) (statusCode : Nat)
  | returned (result : Option String)
  | raised
  deriving DecidableEq, Repr

/-- `handed` are the tokens granted so far and `presented` those each lookup sent
with a GET. -/
structure State where
  now : Rat
  client : ClientCredentialsToken
  revoked : Bool := false
  call : Nat → Phase := fun _ => .ready
  handed : List String := []
  presented : Nat → List (Option String) := fun _ => []

inductive Event where
  | wait (elapsed : Rat)
  | revoke
  | start (id : Nat)
  | acquire (id : Nat)
  | grant (id : Nat) (grant : TokenGrant)
  | serve (id : Nat) (statusCode : Nat)
  | receive (id : Nat)
  deriving DecidableEq, Repr

def State.setPhase (state : State) (id : Nat) (phase : Phase) : State :=
  { state with call := Function.update state.call id phase }

/-- The lookup behind a piece of `value`: with a token it sends its GET. -/
def State.settle (state : State) (id : Nat) (attempt : Attempt) : Outcome → State
  | .returned token =>
      { state.setPhase id (.getting attempt token) with
        presented := Function.update state.presented id (state.presented id ++ [token]) }
  | .awaitsLock => state.setPhase id (.locking attempt)
  | .awaitsFetch => state.setPhase id (.posting attempt)

def isSuccess (statusCode : Nat) : Bool :=
  decide (200 ≤ statusCode ∧ statusCode ≤ 299)

/-- The lookup behind the answer to its GET. The second attempt is the last one. -/
def State.answer (state : State) (id : Nat) (json : String) (attempt : Attempt)
    (statusCode : Nat) : State :=
  if statusCode = 401 ∧ attempt = .first then
    let refreshed := { state with client := state.client.forceRefresh }
    refreshed.settle id .second (refreshed.client.value refreshed.now)
  else if isSuccess statusCode then state.setPhase id (.returned (some json))
  else state.setPhase id .raised

/-- The lookups, the token that is revoked and the API's answer to each lookup. -/
structure Setting where
  count : Nat
  token : String
  json : Nat → String

variable (setting : Setting)

/-- The API answers 401 to the token once it is revoked, and otherwise a success status. -/
def answers (revoked : Bool) (token : Option String) (statusCode : Nat) : Bool :=
  if revoked = true ∧ token = some setting.token then decide (statusCode = 401)
  else isSuccess statusCode

/-- The lookup that an event belongs to. -/
def Event.lookup : Event → Option Nat
  | .wait _ | .revoke => none
  | .start id | .acquire id | .grant id _ | .serve id _ | .receive id => some id

/-- The next state of a lookup, if it is one of those there are. -/
def oneOf (id : Nat) (next : Option State) : Option State :=
  if id < setting.count then next else none

def step (state : State) (event : Event) : Option State :=
  match event with
  | .wait elapsed => if 0 ≤ elapsed then some { state with now := state.now + elapsed } else none
  | .revoke => some { state with revoked := true }
  | .start id =>
      oneOf setting id <|
        match state.call id with
        | .ready => some (state.settle id .first (state.client.value state.now))
        | _ => none
  | .acquire id =>
      oneOf setting id <|
        match state.call id with
        | .locking attempt =>
            (state.client.valueLocked state.now id).map fun ended =>
              { state with client := ended.2 }.settle id attempt ended.1
        | _ => none
  | .grant id grant =>
      oneOf setting id <|
        match state.call id with
        | .posting attempt =>
            if grant.accessToken ∉ state.handed ∧ refreshMarginS < grant.expiresIn then
              let ended := state.client.fetched state.now grant
              some ({ state with
                client := ended.2
                handed := state.handed ++ [grant.accessToken] }.settle id attempt ended.1)
            else none
        | _ => none
  | .serve id statusCode =>
      oneOf setting id <|
        match state.call id with
        | .getting attempt token =>
            if answers setting state.revoked token statusCode then
              some (state.setPhase id (.answered attempt token statusCode))
            else none
        | _ => none
  | .receive id =>
      oneOf setting id <|
        match state.call id with
        | .answered attempt _ statusCode =>
            some (state.answer id (setting.json id) attempt statusCode)
        | _ => none

def Step (state : State) (event : Event) (next : State) : Prop :=
  step setting state event = some next

def initial (now : Rat) (clientId clientSecret scope : String) : State where
  now := now
  client := { clientId := clientId, clientSecret := clientSecret, scope := scope }

/-! ## What callers see -/

/-- A lookup sends at most two GETs, a second one only behind the revoked token and
with another one, and it ends with the API's answer or not at all. -/
structure Invisible (state : State) : Prop where
  atMostTwo : ∀ id, (state.presented id).length ≤ 2
  second : ∀ id first second, state.presented id = [first, second] →
    first = some setting.token ∧ second ≠ some setting.token ∧ second ≠ none
  unraised : ∀ id, state.call id ≠ .raised
  result : ∀ id result, state.call id = .returned result → result = some (setting.json id)

/-! ## What a step can do -/

inductive Effect (state : State) : Event → State → Prop where
  | wait {elapsed} : Effect state (.wait elapsed) { state with now := state.now + elapsed }
  | revoke : Effect state .revoke { state with revoked := true }
  | suspend {id} :
      id < setting.count → state.call id = .ready →
      Effect state (.start id) (state.setPhase id (.locking .first))
  | cached {id attempt event token} :
      id < setting.count → event.lookup = some id →
      (state.call id = .ready ∧ attempt = .first ∨ state.call id = .locking attempt) →
      state.client.accessToken = some token →
      Effect state event (state.settle id attempt (.returned (some token)))
  | fetch {id attempt} :
      id < setting.count → state.call id = .locking attempt → state.client.lock = none →
      Effect state (.acquire id)
        { state.setPhase id (.posting attempt) with
          client := { state.client with lock := some id } }
  | grant {id attempt grant} :
      id < setting.count → state.call id = .posting attempt →
      grant.accessToken ∉ state.handed →
      Effect state (.grant id grant)
        ({ state with
          client := (state.client.fetched state.now grant).2
          handed := state.handed ++ [grant.accessToken] }.settle id attempt
            (.returned (some grant.accessToken)))
  | serve {id attempt token statusCode} :
      id < setting.count → state.call id = .getting attempt token →
      answers setting state.revoked token statusCode = true →
      Effect state (.serve id statusCode) (state.setPhase id (.answered attempt token statusCode))
  | retry {id token} :
      id < setting.count → state.call id = .answered .first token 401 →
      Effect state (.receive id)
        { state.setPhase id (.locking .second) with client := state.client.forceRefresh }
  | answer {id attempt token statusCode} :
      id < setting.count → state.call id = .answered attempt token statusCode →
      isSuccess statusCode = true →
      Effect state (.receive id) (state.setPhase id (.returned (some (setting.json id))))
  | raise {id attempt token statusCode} :
      id < setting.count → state.call id = .answered attempt token statusCode →
      isSuccess statusCode = false → (statusCode = 401 → attempt = .second) →
      Effect state (.receive id) (state.setPhase id .raised)

variable {setting} {state next : State} {event : Event}

theorem oneOf_eq_some_iff {id : Nat} {state : Option State} :
    oneOf setting id state = some next ↔ id < setting.count ∧ state = some next := by
  simp [oneOf]

theorem effect_of_receive {id : Nat} {attempt : Attempt} {token : Option String}
    {statusCode : Nat} (bound : id < setting.count)
    (answered : state.call id = .answered attempt token statusCode) :
    Effect setting state (.receive id)
      (state.answer id (setting.json id) attempt statusCode) := by
  unfold State.answer
  split
  · rename_i refused
    obtain ⟨rfl, rfl⟩ := refused
    have waits : state.client.forceRefresh.value state.now = .awaitsLock := by
      rcases @value_cases state.client.forceRefresh state.now with waits | ⟨_, _, cached, _⟩
      · exact waits
      · cases cached
    simp only [waits]
    exact .retry bound answered
  · rename_i goesOn
    split
    · rename_i success
      exact .answer bound answered success
    · rename_i failure
      refine .raise bound answered (by simpa using failure) fun refused => ?_
      cases attempt with
      | first => exact absurd ⟨refused, rfl⟩ goesOn
      | second => rfl

theorem effect_of_step (taken : Step setting state event next) :
    Effect setting state event next := by
  cases event with
  | wait elapsed =>
      simp only [Step, step, Option.ite_none_right_eq_some, Option.some.injEq] at taken
      obtain ⟨_, rfl⟩ := taken
      exact .wait
  | revoke =>
      cases taken
      exact .revoke
  | start id =>
      obtain ⟨bound, taken⟩ := oneOf_eq_some_iff.mp taken
      split at taken
      · rename_i ready
        cases taken
        rcases @value_cases state.client state.now with waits | ⟨token, returns, cached, _⟩
        · rw [waits]
          exact .suspend bound ready
        · rw [returns]
          exact .cached bound rfl (.inl ⟨ready, rfl⟩) cached
      · cases taken
  | acquire id =>
      obtain ⟨bound, taken⟩ := oneOf_eq_some_iff.mp taken
      split at taken
      · rename_i attempt locking
        obtain ⟨⟨outcome, client⟩, locked, rfl⟩ := Option.map_eq_some_iff.mp taken
        rcases valueLocked_cases locked with ⟨free, ⟨rfl, rfl⟩ | ⟨token, rfl, rfl, cached, _⟩⟩
        · exact .fetch bound locking free
        · exact .cached bound rfl (.inr locking) cached
      · cases taken
  | grant id grant =>
      obtain ⟨bound, taken⟩ := oneOf_eq_some_iff.mp taken
      split at taken
      · rename_i attempt posting
        simp only [Option.ite_none_right_eq_some, Option.some.injEq] at taken
        obtain ⟨⟨new, _⟩, rfl⟩ := taken
        exact .grant bound posting new
      · cases taken
  | serve id statusCode =>
      obtain ⟨bound, taken⟩ := oneOf_eq_some_iff.mp taken
      split at taken
      · rename_i attempt token getting
        simp only [Option.ite_none_right_eq_some, Option.some.injEq] at taken
        obtain ⟨given, rfl⟩ := taken
        exact .serve bound getting given
      · cases taken
  | receive id =>
      obtain ⟨bound, taken⟩ := oneOf_eq_some_iff.mp taken
      split at taken
      · rename_i attempt token statusCode answered
        cases taken
        exact effect_of_receive bound answered
      · cases taken

/-! ## The invariant -/

/-- A lookup about to present a token in an attempt: behind a 401 the revoked token
is not in the cache any more. -/
def About (token : String) (handed : List String) (cached : Option String)
    (presented : List (Option String)) : Attempt → Prop
  | .first => presented = []
  | .second => presented = [some token] ∧ token ∈ handed ∧ cached ≠ some token

/-- A lookup that has presented a token in an attempt. -/
def Presenting (token : String) (presented : List (Option String)) (own : Option String) :
    Attempt → Prop
  | .first => presented = [own]
  | .second => presented = [some token, own] ∧ own ≠ some token

def PhasePresented (setting : Setting) (id : Nat) (handed : List String) (cached : Option String)
    (presented : List (Option String)) : Phase → Prop
  | .ready => presented = []
  | .locking attempt | .posting attempt => About setting.token handed cached presented attempt
  | .getting attempt own =>
      Presenting setting.token presented own attempt ∧ ∃ other ∈ handed, own = some other
  | .answered attempt own statusCode =>
      Presenting setting.token presented own attempt ∧ (∃ other ∈ handed, own = some other) ∧
        (isSuccess statusCode = true ∨ statusCode = 401 ∧ own = some setting.token)
  | .returned result =>
      result = some (setting.json id) ∧ ∃ attempt own,
        Presenting setting.token presented own attempt ∧ own ≠ none
  | .raised => False

structure Coherent (setting : Setting) (state : State) : Prop where
  phases : ∀ id, PhasePresented setting id state.handed state.client.accessToken
    (state.presented id) (state.call id)
  lock : ∀ id, (∃ attempt, state.call id = .posting attempt) ↔ state.client.lock = some id
  cached : ∀ token, state.client.accessToken = some token → token ∈ state.handed
  bound : ∀ id, state.call id ≠ .ready → id < setting.count

section

variable {id : Nat} {handed more : List String} {cached other : Option String}
  {presented : List (Option String)} {phase : Phase} {attempt : Attempt} {own : Option String}
  {token : String}

/-- What other lookups do to the cache does not bring the revoked token back. -/
theorem About.mono (about : About token handed cached presented attempt)
    (subset : handed ⊆ more)
    (stays : token ∈ handed → cached ≠ some token → other ≠ some token) :
    About token more other presented attempt := by
  cases attempt with
  | first => exact about
  | second =>
      obtain ⟨sent, known, absent⟩ := about
      exact ⟨sent, subset known, stays known absent⟩

theorem PhasePresented.mono (presents : PhasePresented setting id handed cached presented phase)
    (subset : handed ⊆ more)
    (stays : setting.token ∈ handed → cached ≠ some setting.token →
      other ≠ some setting.token) :
    PhasePresented setting id more other presented phase := by
  cases phase with
  | ready => exact presents
  | locking => exact About.mono presents subset stays
  | posting => exact About.mono presents subset stays
  | getting =>
      obtain ⟨presenting, own, known, same⟩ := presents
      exact ⟨presenting, own, subset known, same⟩
  | answered =>
      obtain ⟨presenting, ⟨own, known, same⟩, status⟩ := presents
      exact ⟨presenting, ⟨own, subset known, same⟩, status⟩
  | returned => exact presents
  | raised => exact presents

theorem PhasePresented.sent (presents : PhasePresented setting id handed cached presented phase) :
    presented = [] ∨
      ∃ attempt own, Presenting setting.token presented own attempt ∧ own ≠ none := by
  have of_about {attempt : Attempt} (about : About setting.token handed cached presented attempt) :
      presented = [] ∨
        ∃ attempt own, Presenting setting.token presented own attempt ∧ own ≠ none := by
    cases attempt with
    | first => exact .inl about
    | second => exact .inr ⟨.first, some setting.token, about.1, by simp⟩
  cases phase with
  | ready => exact .inl presents
  | locking => exact of_about presents
  | posting => exact of_about presents
  | getting attempt =>
      obtain ⟨presenting, own, _, rfl⟩ := presents
      exact .inr ⟨attempt, _, presenting, by simp⟩
  | answered attempt =>
      obtain ⟨presenting, ⟨own, _, rfl⟩, _⟩ := presents
      exact .inr ⟨attempt, _, presenting, by simp⟩
  | returned => exact .inr presents.2
  | raised => exact presents.elim

/-- A token of the cache is presented. -/
theorem About.present (about : About setting.token handed cached presented attempt)
    (known : token ∈ handed)
    (different : attempt = .second → token ≠ setting.token) :
    PhasePresented setting id handed other (presented ++ [some token])
      (.getting attempt (some token)) := by
  refine ⟨?_, token, known, rfl⟩
  cases attempt with
  | first =>
      obtain rfl : presented = [] := about
      rfl
  | second =>
      obtain ⟨rfl, _, _⟩ := about
      exact ⟨rfl, fun same => different rfl (Option.some.inj same)⟩

theorem phasePresented_update {call : Nat → Phase} {presented : Nat → List (Option String)}
    {sent : List (Option String)} (own : PhasePresented setting id handed cached sent phase)
    (others : ∀ other, other ≠ id →
      PhasePresented setting other handed cached (presented other) (call other)) :
    ∀ other, PhasePresented setting other handed cached (Function.update presented id sent other)
      (Function.update call id phase other) := by
  intro other
  by_cases same : other = id
  · subst same
    simpa using own
  · simpa [same] using others other same

theorem phasePresented_setPhase {call : Nat → Phase} {presented : Nat → List (Option String)}
    (own : PhasePresented setting id handed cached (presented id) phase)
    (others : ∀ other, other ≠ id →
      PhasePresented setting other handed cached (presented other) (call other)) :
    ∀ other, PhasePresented setting other handed cached (presented other)
      (Function.update call id phase other) := by
  have updated := phasePresented_update own others
  rwa [Function.update_eq_self] at updated

/-- A lookup that does not go to its POST leaves the lock with the one that is there. -/
theorem lock_update {call : Nat → Phase} {lock : Option Nat}
    (held : ∀ other, (∃ attempt, call other = .posting attempt) ↔ lock = some other)
    (before : lock ≠ some id) (after : ∀ attempt, phase ≠ .posting attempt) :
    ∀ other, (∃ attempt, Function.update call id phase other = .posting attempt) ↔
      lock = some other := by
  intro other
  by_cases same : other = id
  · subst same
    simp [before, after]
  · simpa [same] using held other

theorem bound_update {call : Nat → Phase} {count : Nat}
    (bound : ∀ other, call other ≠ .ready → other < count) (own : id < count) :
    ∀ other, Function.update call id phase other ≠ .ready → other < count := by
  intro other
  by_cases same : other = id
  · subst same
    exact fun _ => own
  · simpa [same] using bound other

end

theorem Coherent.unlocked (coherent : Coherent setting state) {id : Nat}
    (elsewhere : ∀ attempt, state.call id ≠ .posting attempt) : state.client.lock ≠ some id :=
  fun locked =>
    let ⟨attempt, posting⟩ := (coherent.lock id).mpr locked
    elsewhere attempt posting

/-- A 401 comes behind the revoked token only, so it is not the second answer. -/
theorem Coherent.unraised (coherent : Coherent setting state) {id statusCode : Nat}
    {attempt : Attempt} {token : Option String}
    (answered : state.call id = .answered attempt token statusCode)
    (failure : isSuccess statusCode = false) : statusCode = 401 ∧ attempt = .first := by
  have presents := coherent.phases id
  rw [answered] at presents
  obtain ⟨presenting, _, success | ⟨refused, own⟩⟩ := presents
  · rw [failure] at success
    cases success
  · refine ⟨refused, ?_⟩
    cases attempt with
    | first => rfl
    | second => exact absurd own presenting.2

theorem Coherent.step (coherent : Coherent setting state)
    (taken : Step setting state event next) : Coherent setting next := by
  obtain ⟨presents, lock, cached, bound⟩ := id coherent
  cases effect_of_step taken with
  | wait => exact ⟨presents, lock, cached, bound⟩
  | revoke => exact ⟨presents, lock, cached, bound⟩
  | @suspend id below ready =>
      have own := presents id
      rw [ready] at own
      refine ⟨phasePresented_setPhase own fun other _ => presents other, ?_, cached,
        bound_update bound below⟩
      exact lock_update lock (coherent.unlocked (by simp [ready])) (by simp)
  | @cached id attempt _ token below _ place present =>
      have about : About setting.token state.handed state.client.accessToken
          (state.presented id) attempt := by
        have own := presents id
        rcases place with ⟨ready, rfl⟩ | locking
        · rwa [ready] at own
        · rwa [locking] at own
      have elsewhere : ∀ attempt, state.call id ≠ .posting attempt := by
        rcases place with ⟨ready, _⟩ | locking
        · simp [ready]
        · simp [locking]
      refine ⟨?_, lock_update lock (coherent.unlocked elsewhere) (by simp), cached,
        bound_update bound below⟩
      refine phasePresented_update (about.present (cached token present) ?_)
        fun other _ => presents other
      rintro rfl same
      exact about.2.2 (by rw [present, same])
  | @fetch id attempt below locking free =>
      have own := presents id
      rw [locking] at own
      refine ⟨phasePresented_setPhase own fun other _ => presents other, fun other => ?_, cached,
        bound_update bound below⟩
      by_cases same : other = id
      · subst same
        simp [State.setPhase]
      · have unlocked : ¬∃ attempt, state.call other = .posting attempt := by
          rw [lock other, free]
          simp
        simpa [State.setPhase, same, Ne.symm same] using unlocked
  | @grant id attempt grant below posting new =>
      have locked : state.client.lock = some id := (lock id).mp ⟨attempt, posting⟩
      have own := presents id
      rw [posting] at own
      have subset : state.handed ⊆ state.handed ++ [grant.accessToken] :=
        List.subset_append_left ..
      have granted : grant.accessToken ∈ state.handed ++ [grant.accessToken] := by simp
      have different (revoked : setting.token ∈ state.handed) :
          grant.accessToken ≠ setting.token := by
        rintro same
        exact new (same ▸ revoked)
      have stays (revoked : setting.token ∈ state.handed) :
          some grant.accessToken ≠ some setting.token := fun same =>
        different revoked (Option.some.inj same)
      refine ⟨?_, fun other => ?_, ?_, bound_update bound below⟩
      · have about : About setting.token (state.handed ++ [grant.accessToken])
            (some grant.accessToken) (state.presented id) attempt :=
          About.mono own subset fun revoked _ => stays revoked
        refine phasePresented_update (about.present granted ?_) fun other _ =>
          (presents other).mono subset fun revoked _ => stays revoked
        rintro rfl
        exact different own.2.1
      · by_cases same : other = id
        · subst same
          simp [State.settle, State.setPhase, ClientCredentialsToken.fetched]
        · have elsewhere : ¬∃ attempt, state.call other = .posting attempt := by
            rw [lock other, locked]
            exact fun again => same (Option.some.inj again).symm
          simpa [State.settle, State.setPhase, ClientCredentialsToken.fetched, same]
            using elsewhere
      · rintro token recorded
        cases recorded
        exact granted
  | @serve id attempt token statusCode below getting given =>
      have own := presents id
      rw [getting] at own
      refine ⟨phasePresented_setPhase ⟨own.1, own.2, ?_⟩ fun other _ => presents other, ?_, cached,
        bound_update bound below⟩
      · unfold answers at given
        split at given
        · rename_i refused
          exact .inr ⟨by simpa using given, refused.2⟩
        · exact .inl given
      · exact lock_update lock (coherent.unlocked (by simp [getting])) (by simp)
  | @retry id token below answered =>
      have own := presents id
      rw [answered] at own
      obtain ⟨presenting, ⟨other, known, rfl⟩, status⟩ := own
      have same : other = setting.token := by
        rcases status with success | ⟨_, same⟩
        · cases success
        · exact Option.some.inj same
      subst same
      refine ⟨?_, ?_, (by rintro _ ⟨⟩), bound_update bound below⟩
      · exact phasePresented_setPhase
          ⟨presenting, known, by simp [ClientCredentialsToken.forceRefresh]⟩
          fun other _ => (presents other).mono (List.Subset.refl _) fun _ _ => by
            simp [ClientCredentialsToken.forceRefresh]
      · exact lock_update lock (coherent.unlocked (by simp [answered])) (by simp)
  | @answer id attempt token statusCode below answered success =>
      have own := presents id
      rw [answered] at own
      obtain ⟨presenting, ⟨other, _, rfl⟩, _⟩ := own
      refine ⟨phasePresented_setPhase ⟨rfl, attempt, some other, presenting, by simp⟩
        fun other _ => presents other, ?_, cached, bound_update bound below⟩
      exact lock_update lock (coherent.unlocked (by simp [answered])) (by simp)
  | raise below answered failure last =>
      obtain ⟨refused, rfl⟩ := coherent.unraised answered failure
      cases last refused

theorem Coherent.invisible (coherent : Coherent setting state) : Invisible setting state := by
  refine ⟨fun id => ?_, fun id first second sent => ?_, fun id raised => ?_,
    fun id result returned => ?_⟩
  · rcases (coherent.phases id).sent with empty | ⟨attempt, own, presenting, _⟩
    · simp [empty]
    · cases attempt with
      | first => simp [show state.presented id = [own] from presenting]
      | second => simp [presenting.1]
  · rcases (coherent.phases id).sent with empty | ⟨attempt, own, presenting, known⟩
    · rw [empty] at sent
      cases sent
    · cases attempt with
      | first =>
          rw [show state.presented id = [own] from presenting] at sent
          cases sent
      | second =>
          rw [presenting.1] at sent
          cases sent
          exact ⟨rfl, presenting.2, known⟩
  · have presents := coherent.phases id
    rw [raised] at presents
    exact presents
  · have presents := coherent.phases id
    rw [returned] at presents
    exact presents.1

/-! ## Every lookup gets there -/

/-- The steps a lookup may still take. -/
def Phase.rank : Phase → Nat
  | .ready => 9
  | .locking .first => 8
  | .posting .first => 7
  | .getting .first _ => 6
  | .answered .first _ _ => 5
  | .locking .second => 4
  | .posting .second => 3
  | .getting .second _ => 2
  | .answered .second _ _ => 1
  | .returned _ | .raised => 0

def State.rank (setting : Setting) (state : State) : Nat :=
  ∑ id ∈ Finset.range setting.count, (state.call id).rank

/-- A step belongs to no lookup, or takes one lookup further. -/
theorem Effect.call (effect : Effect setting state event next) :
    (event.lookup = none ∧ next.call = state.call) ∨
      ∃ id phase, id < setting.count ∧ next.call = Function.update state.call id phase ∧
        phase.rank < (state.call id).rank := by
  cases effect with
  | wait => exact .inl ⟨rfl, rfl⟩
  | revoke => exact .inl ⟨rfl, rfl⟩
  | suspend below ready => exact .inr ⟨_, _, below, rfl, by simp [ready, Phase.rank]⟩
  | @cached id attempt _ token below _ place =>
      refine .inr ⟨_, _, below, rfl, ?_⟩
      rcases place with ⟨ready, rfl⟩ | locking
      · simp [ready, Phase.rank]
      · cases attempt <;> simp [locking, Phase.rank]
  | @fetch id attempt below locking =>
      exact .inr ⟨_, _, below, rfl, by cases attempt <;> simp [locking, Phase.rank]⟩
  | @grant id attempt _ below posting =>
      exact .inr ⟨_, _, below, rfl, by cases attempt <;> simp [posting, Phase.rank]⟩
  | @serve id attempt _ _ below getting =>
      exact .inr ⟨_, _, below, rfl, by cases attempt <;> simp [getting, Phase.rank]⟩
  | retry below answered => exact .inr ⟨_, _, below, rfl, by simp [answered, Phase.rank]⟩
  | @answer id attempt _ _ below answered =>
      exact .inr ⟨_, _, below, rfl, by cases attempt <;> simp [answered, Phase.rank]⟩
  | @raise id attempt _ _ below answered =>
      exact .inr ⟨_, _, below, rfl, by cases attempt <;> simp [answered, Phase.rank]⟩

theorem rank_of_step (taken : Step setting state event next) :
    next.rank setting + (if event.lookup.isSome then 1 else 0) ≤ state.rank setting := by
  rcases (effect_of_step taken).call with ⟨none, same⟩ | ⟨id, phase, below, moved, less⟩
  · simp [State.rank, none, same]
  · have decreases : next.rank setting < state.rank setting := by
      refine Finset.sum_lt_sum (fun other _ => ?_) ⟨id, Finset.mem_range.mpr below, ?_⟩
      · by_cases same : other = id
        · subst same
          simpa [moved] using less.le
        · simp [moved, same]
      · simpa [moved] using less
    split <;> omega

/-- The API can answer with a 401 to the revoked token and with a success otherwise. -/
theorem exists_answers (setting : Setting) (revoked : Bool) (token : Option String) :
    ∃ statusCode, answers setting revoked token statusCode = true := by
  by_cases refused : revoked = true ∧ token = some setting.token
  · exact ⟨401, by simp [answers, refused]⟩
  · exact ⟨200, by rw [answers, if_neg refused]; rfl⟩

theorem step_grant {id : Nat} {attempt : Attempt} {grant : TokenGrant}
    (below : id < setting.count) (posting : state.call id = .posting attempt)
    (new : grant.accessToken ∉ state.handed) (lasts : refreshMarginS < grant.expiresIn) :
    Step setting state (.grant id grant)
      ({ state with
        client := (state.client.fetched state.now grant).2
        handed := state.handed ++ [grant.accessToken] }.settle id attempt
          (.returned (some grant.accessToken))) := by
  simp [Step, step, oneOf, below, posting, new, lasts, ClientCredentialsToken.fetched]

theorem grant_enabled {id : Nat} {attempt : Attempt} (below : id < setting.count)
    (posting : state.call id = .posting attempt) :
    ∃ event : Event, event.lookup.isSome = true ∧ (step setting state event).isSome = true := by
  obtain ⟨token, new⟩ := Infinite.exists_notMem_finset state.handed.toFinset
  rw [List.mem_toFinset] at new
  let grant : TokenGrant := { accessToken := token, expiresIn := refreshMarginS + 1 }
  have taken : Step setting state (.grant id grant) _ := step_grant below posting new (lt_add_one _)
  exact ⟨.grant id grant, rfl, Option.isSome_iff_exists.mpr ⟨_, taken⟩⟩

/-- As long as a lookup has not returned, some lookup goes on. -/
theorem progress (coherent : Coherent setting state) {id : Nat}
    (below : id < setting.count) (unfinished : ∀ result, state.call id ≠ .returned result) :
    ∃ event : Event, event.lookup.isSome = true ∧ (step setting state event).isSome = true := by
  cases phase : state.call id with
  | ready => exact ⟨.start id, rfl, by simp [step, oneOf, below, phase]⟩
  | locking attempt =>
      cases lock : state.client.lock with
      | none =>
          have acquired : ∃ ended, state.client.valueLocked state.now id = some ended := by
            simp only [ClientCredentialsToken.valueLocked, lock]
            split
            · exact ⟨_, rfl⟩
            · exact ⟨_, rfl⟩
          obtain ⟨ended, acquired⟩ := acquired
          exact ⟨.acquire id, rfl, by simp [step, oneOf, below, phase, acquired]⟩
      | some holder =>
          obtain ⟨attempt, posting⟩ := (coherent.lock holder).mpr lock
          exact grant_enabled (coherent.bound holder (by simp [posting])) posting
  | posting attempt => exact grant_enabled below phase
  | getting attempt token =>
      obtain ⟨statusCode, given⟩ := exists_answers setting state.revoked token
      exact ⟨.serve id statusCode, rfl, by simp [step, oneOf, below, phase, given]⟩
  | answered attempt token statusCode =>
      exact ⟨.receive id, rfl, by simp [step, oneOf, below, phase]⟩
  | returned result => exact absurd phase (unfinished result)
  | raised => exact absurd phase (coherent.invisible.unraised id)

section

variable {events : List Event} {last : State} {start : Rat} {clientId clientSecret scope : String}

theorem coherent_initial : Coherent setting (initial start clientId clientSecret scope) where
  phases _ := rfl
  lock _ := by simp [initial]
  cached _ present := by cases present
  bound _ begun := absurd rfl begun

/-- Whatever is interleaved, no lookup shows the revocation, and the lookups take nine
steps each at most and end with the API's answers. -/
theorem answered_of_run
    (run : Runs (Step setting) (initial start clientId clientSecret scope) events last) :
    Invisible setting last ∧
      (events.filter fun event => event.lookup.isSome).length ≤ 9 * setting.count ∧
      ((∀ id, id < setting.count → last.call id = .returned (some (setting.json id))) ∨
        ∃ event next, event.lookup.isSome = true ∧ Step setting last event next) := by
  have coherent : Coherent setting last :=
    run.invariant (fun coherent taken => coherent.step taken) coherent_initial
  refine ⟨coherent.invisible, ?_, ?_⟩
  · have paid := run.length_filter_le (fun event => event.lookup.isSome) (State.rank setting)
      rank_of_step
    have ranked : (initial start clientId clientSecret scope).rank setting = 9 * setting.count := by
      simp [State.rank, initial, Phase.rank, Nat.mul_comm]
    omega
  · by_cases ended : ∀ id, id < setting.count → ∃ result, last.call id = .returned result
    · refine .inl fun id below => ?_
      obtain ⟨result, returned⟩ := ended id below
      rw [returned, coherent.invisible.result id result returned]
    · push Not at ended
      obtain ⟨id, below, unfinished⟩ := ended
      obtain ⟨event, own, enabled⟩ := progress coherent below unfinished
      obtain ⟨next, taken⟩ := Option.isSome_iff_exists.mp enabled
      exact .inr ⟨event, next, own, taken⟩

end

/-! ## A lookup behind a revoked token -/

def oneLookup : Setting where
  count := 1
  token := "early"
  json _ := "balance"

def refusedOnce : List Event :=
  [.start 0, .acquire 0, .grant 0 { accessToken := "early", expiresIn := 3600 }, .revoke,
    .serve 0 401, .receive 0, .acquire 0, .grant 0 { accessToken := "late", expiresIn := 3600 },
    .serve 0 200, .receive 0]

theorem refused_once : ∃ last,
    Runs (Step oneLookup) (initial 0 "agent" "secret" "") refusedOnce last ∧
      last.presented 0 = [some "early", some "late"] := by
  have lasts : refreshMarginS < (3600 : Rat) := by norm_num [refreshMarginS]
  refine ⟨_, .cons rfl (.cons rfl (.cons (step_grant (by decide) rfl (by decide) lasts)
    (.cons rfl (.cons rfl (.cons rfl (.cons rfl (.cons (step_grant (by decide) rfl ?_ lasts)
      (.cons rfl (.single rfl))))))))), rfl⟩
  decide

theorem refused_once_answered : ∃ last,
    Runs (Step oneLookup) (initial 0 "agent" "secret" "") refusedOnce last ∧
      last.presented 0 = [some "early", some "late"] ∧ Invisible oneLookup last := by
  obtain ⟨last, run, sent⟩ := refused_once
  exact ⟨last, run, sent, (answered_of_run run).1⟩

end AgenticEnterprise.Mcp.BalanceCalls
