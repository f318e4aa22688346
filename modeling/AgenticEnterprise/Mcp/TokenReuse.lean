import AgenticEnterprise.Mcp.TokenFetch
import Mathlib.Tactic.NormNum

/-! Coroutines that wait for the lock while another one fetches.

A waiter tests the cache again once it has the lock, against the lifetime that
the endpoint gave and the refresh margin. -/

set_option autoImplicit false

namespace AgenticEnterprise.Mcp.TokenReuse

open Core Library TokenFetch
open TokenCache (refreshMarginS)

/-- A coroutine starts to wait while a fetch is under way that then succeeds, and
gets the lock behind it, with no `force_refresh` in between. -/
structure Wait (floatText : String → Option Double) where
  id : Nat
  fetcher : Nat
  start : Rat
  before : List Event
  calling : State
  reached : Runs (Step floatText) (initial start) before calling
  fetching : calling.coroutine fetcher = .posting
  waiting : State
  calls : Step floatText calling (.call id) waiting
  waits : waiting.coroutine id = .locking
  flight : List Event
  responding : State
  flies : Runs (Step floatText) waiting flight responding
  sameFetch : ∀ answer, .respond fetcher answer ∉ flight
  answer : Answer
  token : Json
  lifetime : Double
  succeeds : granted floatText responding.now answer = .ok (token, lifetime.add responding.now)
  positive : lifetime.Positive
  responded : State
  responds : Step floatText responding (.respond fetcher answer) responded
  queue : List Event
  locking : State
  queues : Runs (Step floatText) responded queue locking
  sameWait : .acquire id ∉ flight ++ queue ∧ .cancel id ∉ flight ++ queue
  unforced : .forceRefresh ∉ flight ++ queue
  locked : State
  acquires : Step floatText locking (.acquire id) locked

/-- A token that a fetch would still not be due for. -/
def Fresh (token : Json) (expiresAt : Double) (now : Rat) : Prop :=
  token ≠ .null ∧ (expiresAt.add (-refreshMarginS)).reachedBy now = false

namespace Wait

variable {floatText : String → Option Double} (wait : Wait floatText)

def expiresAt : Double :=
  wait.lifetime.add wait.responding.now

/-- The waiter returns the token of the fetch it waited for, and posts nothing. -/
def Reuses : Prop :=
  wait.locked.coroutine wait.id = .idle ∧
    wait.locked.returns = wait.locking.returns ++ [(wait.id, wait.token)]

/-- A later response has brought the same token once more, and this one lasts. -/
def Reissued : Prop :=
  wait.locking.answers ≠ wait.responded.answers ∧
    wait.locking.client.accessToken = wait.token ∧
    Fresh wait.token wait.locking.client.expiresAt wait.locking.now

end Wait

/-! ## The lock -/

/-- Who is in `_fetch` holds the lock. -/
def Locked (state : State) : Prop :=
  ∀ id, state.coroutine id = .posting → state.client.lock = some id

section

variable {floatText : String → Option Double} {state next : State} {event : Event}
  {client : ClientCredentialsToken} {now later : Rat} {token : Json} {expiresAt : Double}

theorem fresh_iff :
    Fresh client.accessToken client.expiresAt now ↔ client.isStale now = false := by
  unfold Fresh ClientCredentialsToken.isStale
  cases client.accessToken <;> simp [Json.isNone]

theorem Fresh.earlier (fresh : Fresh token expiresAt later) (passed : now ≤ later) :
    Fresh token expiresAt now := by
  refine ⟨fresh.1, ?_⟩
  by_contra reached
  have past := Double.reachedBy_mono (by simpa using reached) passed
  rw [fresh.2] at past
  cases past

theorem answered_frame (state : State) (id : Nat) (answer : Answer) :
    (state.answered floatText id answer).coroutine =
        Function.update state.coroutine id .idle ∧
      (state.answered floatText id answer).now = state.now ∧
      (state.answered floatText id answer).client.lock = none := by
  unfold State.answered
  dsimp only
  split <;> exact ⟨rfl, rfl, rfl⟩

theorem not_posting_of_update {coroutine : Nat → Phase} {id other : Nat} {phase : Phase}
    (elsewhere : phase ≠ .posting)
    (posting : Function.update coroutine id phase other = .posting) :
    other ≠ id ∧ coroutine other = .posting := by
  by_cases same : other = id
  · subst same
    rw [Function.update_self] at posting
    exact absurd posting elsewhere
  · rw [Function.update_of_ne same] at posting
    exact ⟨same, posting⟩

theorem locked_step (locked : Locked state) (taken : Step floatText state event next) :
    Locked next := by
  intro other posting
  cases move_of_step taken with
  | wait => exact locked other posting
  | suspend => exact locked other (not_posting_of_update (by simp) posting).2
  | cached => exact locked other (not_posting_of_update (by simp) posting).2
  | cancel => exact locked other (not_posting_of_update (by simp) posting).2
  | forceRefresh => exact locked other posting
  | @post id _ free =>
      by_cases same : other = id
      · exact congrArg some same.symm
      · have held := locked other (by simpa [State.setPhase, same] using posting)
        rw [free] at held
        cases held
  | @respond id answer holds =>
      rw [(answered_frame state id answer).1] at posting
      obtain ⟨different, posting⟩ := not_posting_of_update (by simp) posting
      have own := locked id holds
      rw [locked other posting, Option.some.injEq] at own
      exact absurd own different

end

/-! ## Behind a fetch -/

/-- Since a fetch recorded its token nobody got an answer, and the cache has that
token and the lock is free, unless the token is about to expire. -/
structure Behind (answers : List (Rat × Answer)) (token : Json) (expiresAt : Double)
    (state : State) : Prop where
  locked : Locked state
  grown : answers.length ≤ state.answers.length
  cached : state.answers = answers →
    state.client.accessToken = token ∧ state.client.expiresAt = expiresAt
  fresh : Fresh token expiresAt state.now → state.answers = answers ∧ state.client.lock = none

section

variable {floatText : String → Option Double} {state next : State} {event : Event}
  {answers : List (Rat × Answer)} {token : Json} {expiresAt : Double}

theorem behind_step (behind : Behind answers token expiresAt state)
    (unforced : event ≠ .forceRefresh) (taken : Step floatText state event next) :
    Behind answers token expiresAt next := by
  have locked := locked_step behind.locked taken
  cases move_of_step taken with
  | wait forward =>
      exact ⟨locked, behind.grown, behind.cached, fun fresh =>
        behind.fresh (fresh.earlier (le_add_of_nonneg_right forward))⟩
  | suspend => exact ⟨locked, behind.grown, behind.cached, behind.fresh⟩
  | cached => exact ⟨locked, behind.grown, behind.cached, behind.fresh⟩
  | cancel => exact ⟨locked, behind.grown, behind.cached, behind.fresh⟩
  | forceRefresh => exact absurd rfl unforced
  | post _ _ stale =>
      refine ⟨locked, behind.grown, behind.cached, fun fresh => ?_⟩
      -- who posts found the cache stale, so its token is not fresh any more
      obtain ⟨same, expiry⟩ := behind.cached (behind.fresh fresh).1
      rw [← same, ← expiry] at fresh
      have valid : state.client.isStale state.now = false := fresh_iff.mp fresh
      rw [stale] at valid
      cases valid
  | @respond id answer posting =>
      obtain ⟨_, now, _⟩ := @answered_frame floatText state id answer
      have longer := @answered_answers floatText state id answer
      refine ⟨locked, ?_, fun same => ?_, fun fresh => ?_⟩
      · rw [longer, List.length_append]
        exact behind.grown.trans (Nat.le_add_right _ _)
      · have length := congrArg List.length same
        rw [longer, List.length_append, List.length_singleton] at length
        have grown := behind.grown
        omega
      · rw [now] at fresh
        have free := (behind.fresh fresh).2
        rw [behind.locked id posting] at free
        cases free

end

section

variable {floatText : String → Option Double} {state next : State} {id : Nat} {answer : Answer}
  {token : Json} {expiresAt : Double}

theorem acquire_cases (taken : Step floatText state (.acquire id) next) :
    state.client.isStale state.now = false ∧
        next = state.settle id (.returned state.client.accessToken) ∨
      state.client.isStale state.now = true ∧ next.coroutine id = .posting := by
  cases move_of_step taken with
  | cached way valid =>
      obtain ⟨same, _⟩ | ⟨same, _⟩ := way
      · cases same
      · cases same
        exact .inl ⟨valid, rfl⟩
  | post _ _ stale => exact .inr ⟨stale, Function.update_self ..⟩

theorem answered_of_granted (grants : granted floatText state.now answer = .ok (token, expiresAt)) :
    (state.answered floatText id answer).client.accessToken = token ∧
      (state.answered floatText id answer).client.expiresAt = expiresAt := by
  obtain ⟨body, read, rest⟩ := bind_eq_ok_iff.mp grants
  obtain ⟨_, named, rest⟩ := bind_eq_ok_iff.mp rest
  obtain ⟨expiresIn, item, rest⟩ := bind_eq_ok_iff.mp rest
  obtain ⟨lifetime, conversion, rest⟩ := bind_eq_ok_iff.mp rest
  cases rest
  have known : lifetimeOf floatText body = .ok lifetime := bind_eq_ok_iff.mpr ⟨_, item, conversion⟩
  rw [answered_client, fetch_exec_ok read named known]
  exact ⟨rfl, rfl⟩

theorem respond_eq (taken : Step floatText state (.respond id answer) next) :
    next = state.answered floatText id answer := by
  cases move_of_step taken with
  | cached way => simp at way
  | respond => rfl

end

namespace Wait

section

variable {floatText : String → Option Double} (wait : Wait floatText)

theorem behind_responded :
    Behind wait.responded.answers wait.token wait.expiresAt wait.responded := by
  have noOne : Locked (initial wait.start) := fun _ posting => by cases posting
  have calling := @Runs.invariant _ _ _ Locked locked_step _ _ _ wait.reached noOne
  have responding :=
    @Runs.invariant _ _ _ Locked locked_step _ _ _ wait.flies (locked_step calling wait.calls)
  have cached := @answered_of_granted floatText _ wait.fetcher _ _ _ wait.succeeds
  have free := (@answered_frame floatText wait.responding wait.fetcher wait.answer).2.2
  rw [← respond_eq wait.responds] at cached free
  exact ⟨locked_step responding wait.responds, le_rfl, fun _ => cached, fun _ => ⟨rfl, free⟩⟩

theorem behind_locking :
    Behind wait.responded.answers wait.token wait.expiresAt wait.locking := by
  have unforced : ∀ event ∈ wait.queue, event ≠ .forceRefresh := by
    intro event member same
    subst same
    exact wait.unforced (List.mem_append_right _ member)
  exact @Runs.invariant_of_labels _ _ _ (Behind _ _ _) (· ≠ .forceRefresh) behind_step _ _ _
    wait.queues unforced wait.behind_responded

/-- A waiter reuses the token of the fetch it waited for exactly if that token is
still fresh when it gets the lock, or has been issued once more. -/
theorem reuses_iff :
    wait.Reuses ↔ Fresh wait.token wait.expiresAt wait.locking.now ∨ wait.Reissued := by
  have behind := wait.behind_locking
  constructor
  · intro reuses
    obtain ⟨idle, returned⟩ := reuses
    rcases acquire_cases wait.acquires with ⟨valid, settled⟩ | ⟨_, posting⟩
    · have token : wait.locking.client.accessToken = wait.token := by
        rw [settled] at returned
        simpa [State.settle, State.setPhase] using returned
      have fresh := fresh_iff.mpr valid
      rw [token] at fresh
      by_cases same : wait.locking.answers = wait.responded.answers
      · rw [(behind.cached same).2] at fresh
        exact .inl fresh
      · exact .inr ⟨same, token, fresh⟩
    · rw [posting] at idle
      cases idle
  · intro condition
    have cached : wait.locking.client.accessToken = wait.token ∧
        wait.locking.client.isStale wait.locking.now = false := by
      rcases condition with fresh | ⟨_, token, fresh⟩
      · obtain ⟨token, expiry⟩ := behind.cached (behind.fresh fresh).1
        rw [← token, ← expiry] at fresh
        exact ⟨token, fresh_iff.mp fresh⟩
      · rw [← token] at fresh
        exact ⟨token, fresh_iff.mp fresh⟩
    rcases acquire_cases wait.acquires with ⟨_, settled⟩ | ⟨stale, _⟩
    · unfold Reuses
      rw [settled, cached.1]
      exact ⟨Function.update_self .., rfl⟩
    · rw [cached.2] at stale
      cases stale

end

end Wait

/-! ## A lifetime within the margin, and one beyond it -/

/-- The token endpoint grants a token for so many seconds. -/
def grantFor (seconds : Rat) : Answer :=
  .response 200 "" <| some <|
    .object [("access_token", .string "t1"), ("expires_in", .float (.finite seconds))]

def posting : State :=
  { ((initial 0).setPhase 0 .locking).setPhase 0 .posting with client := { lock := some 0 } }

def queued (seconds : Rat) : State :=
  (posting.setPhase 1 .locking).answered (fun _ => none) 0 (grantFor seconds)

theorem queued_isStale {seconds : Rat} :
    (queued seconds).client.isStale (queued seconds).now = decide (seconds - 60 ≤ 0) := by
  have expiry : (queued seconds).client.expiresAt = .finite seconds :=
    congrArg Double.finite (add_zero _)
  have now : (queued seconds).now = 0 := rfl
  have named : (queued seconds).client.accessToken.isNone = false := rfl
  rw [ClientCredentialsToken.isStale, expiry, now, named]
  simp [Double.add, Double.reachedBy, refreshMarginS, sub_eq_add_neg]

/-- Two coroutines at the start of the server, and no time passes. -/
def waitFor (seconds : Rat) (positive : 0 < seconds) (locked : State)
    (acquires : Step (fun _ => none) (queued seconds) (.acquire 1) locked) :
    Wait fun _ => none where
  id := 1
  fetcher := 0
  start := 0
  before := [.call 0, .acquire 0]
  calling := posting
  reached := runSteps_eq_some_iff.mp rfl
  fetching := rfl
  waiting := posting.setPhase 1 .locking
  calls := rfl
  waits := rfl
  flight := []
  responding := posting.setPhase 1 .locking
  flies := .refl
  sameFetch := by simp
  answer := grantFor seconds
  token := .string "t1"
  lifetime := .finite seconds
  succeeds := rfl
  positive := positive
  responded := queued seconds
  responds := rfl
  queue := []
  locking := queued seconds
  queues := .refl
  sameWait := by simp
  unforced := by simp
  locked := locked
  acquires := acquires

def brief : Wait fun _ => none :=
  waitFor 30 (by norm_num)
    { (queued 30).setPhase 1 .posting with client := { (queued 30).client with lock := some 1 } }
    (by
      have free : (queued 30).client.lock = none := rfl
      have waits : (queued 30).coroutine 1 = .locking := rfl
      have stale : (queued 30).client.isStale (queued 30).now = true := by
        rw [queued_isStale]
        norm_num
      simp only [Step, step, waits, ClientCredentialsToken.valueLocked, free, stale, if_true,
        Option.map_some, State.settle]
      rfl)

def lasting : Wait fun _ => none :=
  waitFor 3600 (by norm_num) ((queued 3600).settle 1 (.returned (.string "t1")))
    (by
      have free : (queued 3600).client.lock = none := rfl
      have waits : (queued 3600).coroutine 1 = .locking := rfl
      have valid : (queued 3600).client.isStale (queued 3600).now = false := by
        rw [queued_isStale]
        norm_num
      simp only [Step, step, waits, ClientCredentialsToken.valueLocked, free, valid,
        Bool.false_eq_true, if_false, Option.map_some]
      rfl)

/-- The second coroutine posts for itself as soon as the first one's fetch succeeds. -/
theorem brief_not_reuses : ¬brief.Reuses ∧ brief.locked.coroutine 1 = .posting := by
  have posting : brief.locked.coroutine 1 = .posting := rfl
  refine ⟨fun reuses => ?_, posting⟩
  have idle : brief.locked.coroutine 1 = .idle := reuses.1
  rw [posting] at idle
  cases idle

/-- A token of an hour is reused. -/
theorem lasting_reuses : lasting.Reuses := by
  have fresh : Fresh (.string "t1") (.finite 3600) 0 := by
    refine ⟨by simp, ?_⟩
    norm_num [Double.add, Double.reachedBy, refreshMarginS]
  refine (Wait.reuses_iff lasting).mpr (.inl ?_)
  have expiry : lasting.expiresAt = .finite 3600 := congrArg Double.finite (add_zero _)
  rw [expiry]
  exact fresh

end AgenticEnterprise.Mcp.TokenReuse
