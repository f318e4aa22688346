import AgenticEnterprise.Library.Runs
import AgenticEnterprise.Mcp.TokenCache
import Mathlib.Tactic.Linarith

/-! The token cache against the finance API, on one clock.

Coroutines call `value` and `force_refresh` in any order; the API issues tokens
and checks them, and forgets a token when a check finds it past its expiry. -/

set_option autoImplicit false

namespace AgenticEnterprise.Mcp.TokenValidity

open Core Library InternalApi.FinanceApi TokenCache

/-- Where a coroutine is: outside `value`, before the lock, or in `_fetch`, with or
without an answer of the API under way. -/
inductive Phase where
  | idle
  | locking
  | posting
  | answered (grant : TokenGrant)
  deriving DecidableEq, Repr

structure Return where
  token : Option String
  time : Rat
  deriving DecidableEq, Repr

/-- `issuedAt`, `recordedAt` and `returns` record when tokens were issued, recorded
by the client and returned by `value`. -/
structure State where
  now : Rat
  client : ClientCredentialsToken
  issued : Issued := fun _ => none
  coroutine : Nat → Phase := fun _ => .idle
  issuedAt : String → Option Rat := fun _ => none
  recordedAt : String → Option Rat := fun _ => none
  returns : List Return := []

/-- `issueUnseen` is an answer that reaches no coroutine any more. -/
inductive Event where
  | wait (elapsed : Rat)
  | call (id : Nat)
  | acquire (id : Nat)
  | issue (id : Nat) (token : String)
  | issueUnseen (form : TokenForm) (token : String)
  | record (id : Nat)
  | fail (id : Nat)
  | forceRefresh
  | check (authorization : Option String)
  deriving DecidableEq, Repr

def State.setPhase (state : State) (id : Nat) (phase : Phase) : State :=
  { state with coroutine := Function.update state.coroutine id phase }

def State.settle (state : State) (id : Nat) : Outcome → State
  | .returned token =>
      { state.setPhase id .idle with returns := state.returns ++ [⟨token, state.now⟩] }
  | .awaitsLock => state.setPhase id .locking
  | .awaitsFetch => state.setPhase id .posting

def State.abandon (state : State) (id : Nat) : State :=
  { state.setPhase id .idle with client := state.client.fetchFailed }

variable (clients : String → Option String)

def step (state : State) (event : Event) : Option State :=
  match event with
  | .wait elapsed => if 0 ≤ elapsed then some { state with now := state.now + elapsed } else none
  | .call id =>
      match state.coroutine id with
      | .idle => some (state.settle id (state.client.value state.now))
      | _ => none
  | .acquire id =>
      match state.coroutine id with
      | .locking =>
          (state.client.valueLocked state.now id).map fun ended =>
            { state with client := ended.2 }.settle id ended.1
      | _ => none
  | .issue id token =>
      match state.coroutine id, state.issuedAt token with
      | .posting, none =>
          match issueToken clients state.issued state.client.tokenForm token state.now with
          | (.error _, _) => some (state.abandon id)
          | (.ok grant, issued) =>
              some { state.setPhase id (.answered grant) with
                issued := issued
                issuedAt := Function.update state.issuedAt token (some state.now) }
      | _, _ => none
  | .issueUnseen form token =>
      match state.issuedAt token with
      | none =>
          match issueToken clients state.issued form token state.now with
          | (.error _, _) => some state
          | (.ok _, issued) =>
              some { state with
                issued := issued
                issuedAt := Function.update state.issuedAt token (some state.now) }
      | some _ => none
  | .record id =>
      match state.coroutine id with
      | .answered grant =>
          let ended := state.client.fetched state.now grant
          some ({ state with
            client := ended.2
            recordedAt := Function.update state.recordedAt grant.accessToken
              (some state.now) }.settle id ended.1)
      | _ => none
  | .fail id =>
      match state.coroutine id with
      | .posting | .answered _ => some (state.abandon id)
      | _ => none
  | .forceRefresh => some { state with client := state.client.forceRefresh }
  | .check authorization =>
      some { state with issued := (requireToken state.issued authorization state.now).2 }

def Step (state : State) (event : Event) (next : State) : Prop :=
  step clients state event = some next

def initial (now : Rat) (clientId clientSecret scope : String) : State where
  now := now
  client := { clientId := clientId, clientSecret := clientSecret, scope := scope }

/-! ## What the cache promises -/

def Phase.Fetching : Phase → Prop
  | .posting | .answered _ => True
  | _ => False

/-- `value` has returned tokens only, no two fetches are under way, and a token
passes a check now if it spent no longer than the margin on its two ways. -/
structure Usable (state : State) : Prop where
  someToken : ∀ ret ∈ state.returns, ret.token ≠ none
  oneFetch : ∀ id other, (state.coroutine id).Fetching → (state.coroutine other).Fetching →
    id = other
  valid : ∀ ret ∈ state.returns, ∀ token, ret.token = some token →
    ∃ issue record, state.issuedAt token = some issue ∧ state.recordedAt token = some record ∧
      ((record - issue) + (state.now - ret.time) ≤ refreshMarginS →
        (requireToken state.issued (some ("Bearer " ++ token)) state.now).1 = .ok ())

/-! ## What a step can do -/

inductive Effect (state : State) : State → Prop where
  | wait {elapsed} : 0 ≤ elapsed → Effect state { state with now := state.now + elapsed }
  | suspend {id} :
      state.coroutine id = .idle → Effect state (state.setPhase id .locking)
  | cached {id token} :
      ¬(state.coroutine id).Fetching → state.client.accessToken = some token →
      state.now < state.client.expiresAt - refreshMarginS →
      Effect state (state.settle id (.returned (some token)))
  | fetch {id} :
      ¬(state.coroutine id).Fetching → state.client.lock = none →
      Effect state
        { state.setPhase id .posting with client := { state.client with lock := some id } }
  | issue {id token scope} :
      (state.coroutine id).Fetching → state.issuedAt token = none →
      Effect state
        { state.setPhase id
            (.answered { accessToken := token, expiresIn := tokenTtlS, scope := scope }) with
          issued := Function.update state.issued token (some (state.now + tokenTtlS))
          issuedAt := Function.update state.issuedAt token (some state.now) }
  | issueUnseen {token} :
      state.issuedAt token = none →
      Effect state { state with
        issued := Function.update state.issued token (some (state.now + tokenTtlS))
        issuedAt := Function.update state.issuedAt token (some state.now) }
  | record {id grant} :
      state.coroutine id = .answered grant →
      Effect state
        ({ state with
          client := (state.client.fetched state.now grant).2
          recordedAt := Function.update state.recordedAt grant.accessToken
            (some state.now) }.settle id (.returned (some grant.accessToken)))
  | abandon {id} : (state.coroutine id).Fetching → Effect state (state.abandon id)
  | forceRefresh : Effect state { state with client := state.client.forceRefresh }
  | check {authorization} :
      Effect state
        { state with issued := (requireToken state.issued authorization state.now).2 }
  | refuse : Effect state state

variable {clients} {state next : State} {event : Event}

theorem effect_of_step (taken : Step clients state event next) : Effect state next := by
  cases event with
  | wait elapsed =>
      simp only [Step, step, Option.ite_none_right_eq_some, Option.some.injEq] at taken
      obtain ⟨forward, rfl⟩ := taken
      exact .wait forward
  | call id =>
      simp only [Step, step] at taken
      split at taken
      · rename_i idle
        cases taken
        rcases @value_cases state.client state.now with waits | ⟨token, returns, cached, fresh⟩
        · rw [waits]
          exact .suspend idle
        · rw [returns]
          exact .cached (by simp [idle, Phase.Fetching]) cached fresh
      · cases taken
  | acquire id =>
      simp only [Step, step] at taken
      split at taken
      · rename_i locking
        have outside : ¬(state.coroutine id).Fetching := by simp [locking, Phase.Fetching]
        obtain ⟨⟨outcome, client⟩, locked, rfl⟩ := Option.map_eq_some_iff.mp taken
        rcases valueLocked_cases locked with ⟨free, ⟨rfl, rfl⟩ | ⟨token, rfl, rfl, cached, fresh⟩⟩
        · exact .fetch outside free
        · exact .cached outside cached fresh
      · cases taken
  | issue id token =>
      simp only [Step, step] at taken
      split at taken
      · rename_i posting fresh
        have fetching : (state.coroutine id).Fetching := by simp [posting, Phase.Fetching]
        rcases @issueToken_cases state.issued token state.now clients state.client.tokenForm with
          ⟨failure, refused⟩ | granted
        · rw [refused] at taken
          cases taken
          exact .abandon fetching
        · rw [granted] at taken
          cases taken
          exact .issue fetching fresh
      · cases taken
  | issueUnseen form token =>
      simp only [Step, step] at taken
      split at taken
      · rename_i fresh
        rcases @issueToken_cases state.issued token state.now clients form with
          ⟨failure, refused⟩ | granted
        · rw [refused] at taken
          cases taken
          exact .refuse
        · rw [granted] at taken
          cases taken
          exact .issueUnseen fresh
      · cases taken
  | record id =>
      simp only [Step, step] at taken
      split at taken
      · rename_i grant answered
        cases taken
        exact .record answered
      · cases taken
  | fail id =>
      simp only [Step, step] at taken
      split at taken
      · rename_i posting
        cases taken
        exact .abandon (by simp [posting, Phase.Fetching])
      · rename_i grant answered
        cases taken
        exact .abandon (by simp [answered, Phase.Fetching])
      · cases taken
  | forceRefresh =>
      cases taken
      exact .forceRefresh
  | check authorization =>
      cases taken
      exact .check

/-! ## The invariant -/

/-- Every token the API ever issued is in its table until a check found it past
its expiry. -/
def Tabled (now : Rat) (issued : Issued) (issuedAt : String → Option Rat) : Prop :=
  ∀ token issue, issuedAt token = some issue →
    issued token = some (issue + tokenTtlS) ∨ issued token = none ∧ issue + tokenTtlS < now

/-- What a coroutine in `_fetch` holds: the lock, and a token nobody has recorded. -/
def Holds (client : ClientCredentialsToken) (issuedAt recordedAt : String → Option Rat) (id : Nat)
    (phase : Phase) : Prop :=
  (phase.Fetching ↔ client.lock = some id) ∧
    ∀ grant, phase = .answered grant →
      issuedAt grant.accessToken ≠ none ∧ recordedAt grant.accessToken = none ∧
        grant.expiresIn = tokenTtlS

/-- A token handed out was recorded, and is at least the margin away from the end
of its lifetime as the client counts it. -/
def Sound (recordedAt : String → Option Rat) (ret : Return) : Prop :=
  ∃ token record, ret.token = some token ∧ recordedAt token = some record ∧
    ret.time ≤ record + tokenTtlS - refreshMarginS

structure Coherent (state : State) : Prop where
  tabled : Tabled state.now state.issued state.issuedAt
  traced : ∀ token, state.recordedAt token ≠ none → state.issuedAt token ≠ none
  holds : ∀ id, Holds state.client state.issuedAt state.recordedAt id (state.coroutine id)
  cached : ∀ token, state.client.accessToken = some token →
    ∃ record, state.recordedAt token = some record ∧ state.client.expiresAt = record + tokenTtlS
  sound : ∀ ret ∈ state.returns, Sound state.recordedAt ret

section

variable {now later : Rat} {issued : Issued} {issuedAt recordedAt : String → Option Rat}
  {client : ClientCredentialsToken} {id other : Nat} {phase : Phase} {token : String}

theorem Tabled.wait (tabled : Tabled now issued issuedAt) (passed : now ≤ later) :
    Tabled later issued issuedAt := by
  intro token issue traced
  exact (tabled token issue traced).imp id fun dropped =>
    ⟨dropped.1, lt_of_lt_of_le dropped.2 passed⟩

theorem Tabled.issue (tabled : Tabled now issued issuedAt) :
    Tabled now (Function.update issued token (some (now + tokenTtlS)))
      (Function.update issuedAt token (some now)) := by
  intro other issue traced
  by_cases same : other = token
  · subst same
    rw [Function.update_self, Option.some.injEq] at traced
    subst traced
    exact .inl (Function.update_self ..)
  · rw [Function.update_of_ne same] at traced ⊢
    exact tabled other issue traced

theorem Tabled.check (tabled : Tabled now issued issuedAt) {authorization : Option String} :
    Tabled now (requireToken issued authorization now).2 issuedAt := by
  intro token issue traced
  rcases @requireToken_issued issued token now authorization with kept | ⟨gone, expiry, known, past⟩
  · rw [kept]
    exact tabled token issue traced
  · rcases tabled token issue traced with present | ⟨absent, _⟩
    · rw [present, Option.some.injEq] at known
      subst known
      exact .inr ⟨gone, past⟩
    · rw [absent] at known
      cases known

/-- Nothing in `_fetch` changes for a coroutine if the lock and the tokens under way
stay as they are. -/
theorem Holds.issue (holds : Holds client issuedAt recordedAt id phase) :
    Holds client (Function.update issuedAt token (some now)) recordedAt id phase := by
  refine ⟨holds.1, fun grant answered => ?_⟩
  obtain ⟨traced, rest⟩ := holds.2 grant answered
  refine ⟨?_, rest⟩
  by_cases same : grant.accessToken = token
  · simp [same]
  · simpa [same] using traced

/-- Outside `_fetch` a coroutine holds nothing. -/
theorem holds_outside (outside : ¬phase.Fetching) (unlocked : client.lock ≠ some id) :
    Holds client issuedAt recordedAt id phase := by
  refine ⟨⟨fun fetching => absurd fetching outside, fun locked => absurd locked unlocked⟩, ?_⟩
  rintro grant rfl
  exact absurd trivial outside

/-- One coroutine goes to another place, the others keep what they hold. -/
theorem holds_update {coroutine : Nat → Phase}
    (own : Holds client issuedAt recordedAt id phase)
    (others : ∀ other, other ≠ id → Holds client issuedAt recordedAt other (coroutine other)) :
    ∀ other, Holds client issuedAt recordedAt other (Function.update coroutine id phase other) :=
  (Function.forall_update_iff _ fun other => Holds client issuedAt recordedAt other).mpr
    ⟨own, others⟩

theorem update_ne_none {table : String → Option Rat} (present : table token ≠ none)
    {added : String} : Function.update table added (some now) token ≠ none := by
  by_cases same : token = added
  · simp [same]
  · simpa [same] using present

end

theorem Coherent.unlocked (coherent : Coherent state) {id other : Nat}
    (fetching : (state.coroutine id).Fetching) (different : other ≠ id) :
    ¬(state.coroutine other).Fetching := by
  intro again
  have locked := (coherent.holds id).1.mp fetching
  rw [(coherent.holds other).1.mp again] at locked
  exact different (Option.some.inj locked)

theorem Coherent.step (coherent : Coherent state) (taken : Step clients state event next) :
    Coherent next := by
  obtain ⟨tabled, traced, holds, cached, sound⟩ := id coherent
  cases effect_of_step taken with
  | wait forward =>
      exact ⟨tabled.wait (le_add_of_nonneg_right forward), traced, holds, cached, sound⟩
  | @suspend id idle =>
      have outside : ¬(state.coroutine id).Fetching := by simp [idle, Phase.Fetching]
      refine ⟨tabled, traced, ?_, cached, sound⟩
      exact holds_update
        (holds_outside (fun fetching => fetching) fun locked => outside ((holds id).1.mpr locked))
        fun other _ => holds other
  | @cached id token outside present fresh =>
      refine ⟨tabled, traced, ?_, cached, ?_⟩
      · exact holds_update
          (holds_outside (fun fetching => fetching) fun locked => outside ((holds id).1.mpr locked))
          fun other _ => holds other
      · intro ret member
        rcases List.mem_append.mp member with old | new
        · exact sound ret old
        · obtain rfl := List.mem_singleton.mp new
          obtain ⟨record, recorded, expires⟩ := cached token present
          exact ⟨token, record, rfl, recorded, expires ▸ fresh.le⟩
  | @fetch id outside free =>
      refine ⟨tabled, traced, ?_, cached, sound⟩
      refine holds_update ⟨by simp [Phase.Fetching], by simp⟩ fun other different => ?_
      have idle : ¬(state.coroutine other).Fetching := fun fetching => by
        have locked := (holds other).1.mp fetching
        rw [free] at locked
        cases locked
      exact holds_outside idle fun locked => different (Option.some.inj locked).symm
  | @issue id token scope fetching fresh =>
      refine ⟨tabled.issue, fun other recorded => update_ne_none (traced other recorded), ?_,
        cached, sound⟩
      have unrecorded : state.recordedAt token = none := by
        by_contra recorded
        exact traced token recorded fresh
      refine holds_update ⟨?_, ?_⟩ fun other _ => (holds other).issue
      · exact ⟨fun _ => (holds id).1.mp fetching, fun _ => trivial⟩
      · rintro _ ⟨⟩
        exact ⟨by simp, unrecorded, rfl⟩
  | @issueUnseen token fresh =>
      exact ⟨tabled.issue, fun other recorded => update_ne_none (traced other recorded),
        fun other => (holds other).issue, cached, sound⟩
  | @record id grant answered =>
      have fetching : (state.coroutine id).Fetching := by simp [answered, Phase.Fetching]
      obtain ⟨issued, unrecorded, lifetime⟩ := (holds id).2 grant answered
      have kept {token : String} {record : Rat} (recorded : state.recordedAt token = some record) :
          Function.update state.recordedAt grant.accessToken (some state.now) token =
            some record := by
        have different : token ≠ grant.accessToken := by
          rintro rfl
          rw [unrecorded] at recorded
          cases recorded
        rw [Function.update_of_ne different, recorded]
      refine ⟨tabled, fun token recorded => ?_, ?_, ?_, ?_⟩
      · by_cases same : token = grant.accessToken
        · exact same ▸ issued
        · exact traced token (by simpa [State.settle, State.setPhase, same] using recorded)
      · refine holds_update (holds_outside (fun fetching => fetching) fun locked => by cases locked)
          fun other different => ?_
        exact holds_outside (coherent.unlocked fetching different) fun locked => by cases locked
      · intro token present
        obtain rfl := Option.some.inj present
        exact ⟨state.now, Function.update_self .., by
          simp [State.settle, State.setPhase, ClientCredentialsToken.fetched, lifetime]⟩
      · intro ret member
        rcases List.mem_append.mp member with old | new
        · obtain ⟨token, record, returned, recorded, early⟩ := sound ret old
          exact ⟨token, record, returned, kept recorded, early⟩
        · obtain rfl := List.mem_singleton.mp new
          refine ⟨grant.accessToken, state.now, rfl, Function.update_self .., ?_⟩
          show state.now ≤ state.now + tokenTtlS - refreshMarginS
          have short : refreshMarginS ≤ tokenTtlS := by norm_num [tokenTtlS, refreshMarginS]
          linarith
  | @abandon id fetching =>
      refine ⟨tabled, traced, ?_, cached, sound⟩
      refine holds_update (holds_outside (fun fetching => fetching) fun locked => by cases locked)
        fun other different => ?_
      exact holds_outside (coherent.unlocked fetching different) fun locked => by cases locked
  | forceRefresh =>
      exact ⟨tabled, traced, holds, fun _ present => (by cases present), sound⟩
  | check => exact ⟨tabled.check, traced, holds, cached, sound⟩
  | refuse => exact coherent

/-! ## Every interleaving -/

section

variable {start : Rat} {clientId clientSecret scope : String} {events : List Event} {last : State}

theorem coherent_initial : Coherent (initial start clientId clientSecret scope) where
  tabled _ _ traced := by cases traced
  traced _ recorded := absurd rfl recorded
  holds _ := holds_outside (fun fetching => fetching) fun locked => by cases locked
  cached _ present := by cases present
  sound _ member := by cases member

theorem Coherent.oneFetch (coherent : Coherent state) {id other : Nat}
    (fetching : (state.coroutine id).Fetching) (again : (state.coroutine other).Fetching) :
    id = other := by
  by_contra different
  exact coherent.unlocked again different fetching

/-- A token on time passes the check. -/
theorem Coherent.valid (coherent : Coherent state) {ret : Return} (member : ret ∈ state.returns)
    {token : String} (returned : ret.token = some token) :
    ∃ issue record, state.issuedAt token = some issue ∧ state.recordedAt token = some record ∧
      ((record - issue) + (state.now - ret.time) ≤ refreshMarginS →
        (requireToken state.issued (some ("Bearer " ++ token)) state.now).1 = .ok ()) := by
  obtain ⟨other, record, same, recorded, early⟩ := coherent.sound ret member
  rw [returned, Option.some.injEq] at same
  subst same
  have issued : state.issuedAt token ≠ none := coherent.traced token (by simp [recorded])
  obtain ⟨issue, traced⟩ := Option.ne_none_iff_exists'.mp issued
  refine ⟨issue, record, traced, recorded, fun onTime => ?_⟩
  have inTime : state.now ≤ issue + tokenTtlS := by linarith
  rcases coherent.tabled token issue traced with known | ⟨_, expired⟩
  · rw [requireToken_ok known inTime]
  · exact absurd expired (not_lt.mpr inTime)

/-- Whatever is interleaved at the awaits and whichever fetches fail, the cache hands
out usable tokens. -/
theorem usable_of_run
    (run : Runs (Step clients) (initial start clientId clientSecret scope) events last) :
    Usable last := by
  have coherent : Coherent last :=
    run.invariant (fun coherent taken => coherent.step taken) coherent_initial
  refine ⟨fun ret member none => ?_, fun id other => coherent.oneFetch,
    fun ret member token => coherent.valid member⟩
  obtain ⟨token, record, some, _⟩ := coherent.sound ret member
  rw [none] at some
  cases some

end

/-! ## Two callers of a cold cache -/

def known (clientId : String) : Option String :=
  if clientId = "agent" then some "secret" else none

/-- Both wait for the lock, and one of them fetches. -/
def coldStart : List Event :=
  [.call 0, .call 1, .acquire 0, .issue 0 "token", .record 0]

theorem warmed : ∃ state, Runs (Step known) (initial 0 "agent" "secret" "") coldStart state ∧
    state.coroutine 1 = .locking ∧ state.client.lock = none ∧
      state.client.accessToken = some "token" ∧ state.client.expiresAt = 0 + tokenTtlS ∧
        state.now = 0 :=
  ⟨_, .cons rfl (.cons rfl (.cons rfl (.cons rfl (.single rfl)))), rfl, rfl, rfl, rfl, rfl⟩

/-- The other one returns what was fetched. -/
theorem cold_start_usable : ∃ last,
    Runs (Step known) (initial 0 "agent" "secret" "") (coldStart ++ [.acquire 1]) last ∧
      last.returns.getLast? = some ⟨some "token", 0⟩ ∧ Usable last := by
  obtain ⟨state, run, locking, free, cached, expires, now⟩ := warmed
  have fresh : state.client.isStale state.now = false := by
    rw [isStale_eq_false_iff, expires, now]
    exact ⟨_, cached, by norm_num [tokenTtlS, refreshMarginS]⟩
  have acquiring : Step known state (.acquire 1) (state.settle 1 (.returned (some "token"))) := by
    simp [Step, step, locking, ClientCredentialsToken.valueLocked, free, fresh, cached]
  have whole := run.append (.single acquiring)
  exact ⟨_, whole, by simp [State.settle, now], usable_of_run whole⟩

end AgenticEnterprise.Mcp.TokenValidity
