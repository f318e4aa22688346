import AgenticEnterprise.InternalApi.FinanceApi

/-! The OAuth2 client-credentials token cache: `app/mcp/oauth.py`.

A coroutine runs without interruption between two awaits, so `value` is given as
the pieces between them: up to the lock, from the lock to the POST, and from the
response to the return. -/

set_option autoImplicit false

namespace AgenticEnterprise.Mcp.TokenCache

open InternalApi.FinanceApi

def refreshMarginS : Rat := 60

/-- `lock` is the coroutine that holds the lock. -/
structure ClientCredentialsToken where
  clientId : String
  clientSecret : String
  scope : String
  accessToken : Option String := none
  expiresAt : Rat := 0
  lock : Option Nat := none
  deriving DecidableEq, Repr

/-- Where a piece of `value` ends. -/
inductive Outcome where
  | returned (token : Option String)
  | awaitsLock
  | awaitsFetch
  deriving DecidableEq, Repr

namespace ClientCredentialsToken

variable (client : ClientCredentialsToken) (now : Rat)

def isStale : Bool :=
  decide (client.accessToken = none ∨ client.expiresAt - refreshMarginS ≤ now)

/-- `value` up to the lock. -/
def value : Outcome :=
  if client.isStale now then .awaitsLock else .returned client.accessToken

/-- `value` from the lock on, once the coroutine gets it. -/
def valueLocked (id : Nat) : Option (Outcome × ClientCredentialsToken) :=
  match client.lock with
  | some _ => none
  | none =>
      if client.isStale now then some (.awaitsFetch, { client with lock := some id })
      else some (.returned client.accessToken, client)

/-- What `_fetch` posts. -/
def tokenForm : TokenForm where
  grantType := "client_credentials"
  clientId := client.clientId
  clientSecret := client.clientSecret
  scope := client.scope

/-- `_fetch` behind its last await, and the return that gives the lock back. -/
def fetched (grant : TokenGrant) : Outcome × ClientCredentialsToken :=
  let recorded : ClientCredentialsToken :=
    { client with
      accessToken := some grant.accessToken
      expiresAt := now + grant.expiresIn }
  (.returned recorded.accessToken, { recorded with lock := none })

/-- An exception of `_fetch` gives the lock back as well. -/
def fetchFailed : ClientCredentialsToken :=
  { client with lock := none }

def forceRefresh : ClientCredentialsToken :=
  { client with accessToken := none }

end ClientCredentialsToken

/-! ## What the pieces hand out -/

section

variable {client after : ClientCredentialsToken} {now : Rat} {id : Nat} {outcome : Outcome}

theorem isStale_eq_false_iff :
    client.isStale now = false ↔
      ∃ token, client.accessToken = some token ∧ now < client.expiresAt - refreshMarginS := by
  cases cached : client.accessToken with
  | none => simp [ClientCredentialsToken.isStale, cached]
  | some token => simp [ClientCredentialsToken.isStale, cached, lt_sub_iff_add_lt]

/-- Up to the lock, `value` returns a token that is not about to expire, or waits. -/
theorem value_cases :
    (client.value now = .awaitsLock) ∨
      ∃ token, client.value now = .returned (some token) ∧ client.accessToken = some token ∧
        now < client.expiresAt - refreshMarginS := by
  unfold ClientCredentialsToken.value
  cases stale : client.isStale now with
  | true => exact .inl rfl
  | false =>
      obtain ⟨token, cached, fresh⟩ := isStale_eq_false_iff.mp stale
      exact .inr ⟨token, by simp [cached], cached, fresh⟩

/-- With the lock, it fetches and keeps the lock, or returns what another one fetched. -/
theorem valueLocked_cases (locked : client.valueLocked now id = some (outcome, after)) :
    client.lock = none ∧
      ((outcome = .awaitsFetch ∧ after = { client with lock := some id }) ∨
        ∃ token, outcome = .returned (some token) ∧ after = client ∧
          client.accessToken = some token ∧ now < client.expiresAt - refreshMarginS) := by
  unfold ClientCredentialsToken.valueLocked at locked
  split at locked
  · cases locked
  · rename_i free
    refine ⟨free, ?_⟩
    cases stale : client.isStale now with
    | true =>
        simp only [stale, ↓reduceIte, Option.some.injEq, Prod.mk.injEq] at locked
        exact .inl ⟨locked.1.symm, locked.2.symm⟩
    | false =>
        obtain ⟨token, cached, fresh⟩ := isStale_eq_false_iff.mp stale
        simp only [stale, Bool.false_eq_true, ↓reduceIte, Option.some.injEq,
          Prod.mk.injEq] at locked
        exact .inr ⟨token, by rw [← locked.1, cached], locked.2.symm, cached, fresh⟩

end

end AgenticEnterprise.Mcp.TokenCache
