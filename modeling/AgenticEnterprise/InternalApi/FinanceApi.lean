import AgenticEnterprise.Core.Exceptions
import Mathlib.Algebra.Order.Ring.Rat
import Mathlib.Logic.Function.Basic

/-! The token endpoint of the mock finance API: `internal_api/finance_api.py`. -/

set_option autoImplicit false

namespace AgenticEnterprise.InternalApi.FinanceApi

open Core

def tokenTtlS : Rat := 3600

/-- `_ISSUED`: the expiry of every token that has not been dropped. -/
abbrev Issued := String → Option Rat

/-- The form of a token request. -/
structure TokenForm where
  grantType : String
  clientId : String
  clientSecret : String
  scope : String := ""
  deriving DecidableEq, Repr

structure TokenGrant where
  accessToken : String
  tokenType : String := "Bearer"
  expiresIn : Rat
  scope : String := ""
  deriving DecidableEq, Repr

/-- `issue_token`, with the table afterwards. `clients` are the known clients with
their secrets, `token` is the fresh one of the call. -/
def issueToken (clients : String → Option String) (issued : Issued) (form : TokenForm)
    (token : String) (now : Rat) : Except Exn TokenGrant × Issued :=
  if form.grantType ≠ "client_credentials" then
    (.error (.httpException 400 "unsupported_grant_type"), issued)
  else if clients form.clientId ≠ some form.clientSecret then
    (.error (.httpException 401 "invalid_client"), issued)
  else
    (.ok { accessToken := token, expiresIn := tokenTtlS, scope := form.scope },
      Function.update issued token (some (now + tokenTtlS)))

/-- The token of an `Authorization` header. -/
def bearerToken (authorization : String) : Option String :=
  if "Bearer ".toList.isPrefixOf authorization.toList then
    some (String.ofList (authorization.toList.drop "Bearer ".toList.length))
  else none

/-- `_require_token`, with the table afterwards. -/
def requireToken (issued : Issued) (authorization : Option String) (now : Rat) :
    Except Exn Unit × Issued :=
  match authorization.bind bearerToken with
  | none => (.error (.httpException 401 "missing bearer token"), issued)
  | some token =>
      match issued token with
      | none => (.error (.httpException 401 "unknown token"), issued)
      | some expiry =>
          if expiry < now then
            (.error (.httpException 401 "token expired"), Function.update issued token none)
          else (.ok (), issued)

section

variable {issued : Issued} {token : String} {now expiry : Rat}

/-- A request is refused without a trace, or granted the fresh token. -/
theorem issueToken_cases {clients : String → Option String} {form : TokenForm} :
    (∃ failure, issueToken clients issued form token now = (.error failure, issued)) ∨
      issueToken clients issued form token now =
        (.ok { accessToken := token, expiresIn := tokenTtlS, scope := form.scope },
          Function.update issued token (some (now + tokenTtlS))) := by
  unfold issueToken
  split
  · exact .inl ⟨_, rfl⟩
  · split
    · exact .inl ⟨_, rfl⟩
    · exact .inr rfl

@[simp] theorem bearerToken_bearer : bearerToken ("Bearer " ++ token) = some token := by
  simp [bearerToken]

theorem requireToken_ok (known : issued token = some expiry) (valid : now ≤ expiry) :
    requireToken issued (some ("Bearer " ++ token)) now = (.ok (), issued) := by
  simp [requireToken, known, not_lt.mpr valid]

/-- A check drops at most a token past its expiry. -/
theorem requireToken_issued {authorization : Option String} :
    (requireToken issued authorization now).2 token = issued token ∨
      (requireToken issued authorization now).2 token = none ∧
        ∃ expiry, issued token = some expiry ∧ expiry < now := by
  unfold requireToken
  split
  · exact .inl rfl
  · rename_i presented _
    split
    · exact .inl rfl
    · rename_i expiry known
      split
      · rename_i expired
        by_cases same : token = presented
        · subst same
          exact .inr ⟨by simp, expiry, known, expired⟩
        · exact .inl (by simp [same])
      · exact .inl rfl

end

end AgenticEnterprise.InternalApi.FinanceApi
