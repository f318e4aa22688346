import AgenticEnterprise.Core.Columns
import AgenticEnterprise.Mcp.TokenFetch

/-! One balance lookup and its row: `get_account_balance` of
`app/mcp/finance_server.py`.

A lookup may end in any exception of the token fetch, the HTTP client or the JSON
decoder, of which the tool catches one class. -/

set_option autoImplicit false

namespace AgenticEnterprise.Mcp.BalanceAudit

open Core Library TokenFetch
open BalanceCalls (Attempt)

/-! ## The lookup -/

/-- What a lookup meets: what `value()` comes to in each attempt, and a GET with a
URL and a token. -/
structure Outside where
  value : Attempt → Except Raised Json
  get : Attempt → String → Json → Answer

def url (financeApiUrl accountId : String) : String :=
  financeApiUrl ++ "/accounts/" ++ accountId ++ "/balance"

def Answer.statusCode : Answer → Option Nat
  | .failed _ => none
  | .response statusCode _ _ => some statusCode

section

variable (outside : Outside) (financeApiUrl accountId : String)

def request (attempt : Attempt) : Except Raised Answer := do
  let token ← outside.value attempt
  return outside.get attempt (url financeApiUrl accountId) token

/-- The first attempt goes on to the second one behind a 401, and only then. -/
def callApi : Except Raised Json := do
  let first ← request outside financeApiUrl accountId .first
  if Answer.statusCode first = some 401 then do
    let second ← request outside financeApiUrl accountId .second
    second.body
  else first.body

end

/-! ## The row -/

structure BalanceQueryEvent where
  accountId : String
  threadId : Option String
  username : Option String
  outcome : String
  detail : Option String
  deriving DecidableEq, Repr

/-- Postgres takes the row. -/
def BalanceQueryEvent.accepted (event : BalanceQueryEvent) : Bool :=
  Columns.varchar 64 event.accountId &&
    Columns.nullable (Columns.varchar 128) event.threadId &&
    Columns.nullable (Columns.varchar 128) event.username &&
    Columns.varchar 16 event.outcome &&
    Columns.nullable (Columns.varchar 256) event.detail

abbrev Table := List BalanceQueryEvent

def audit (accountId : String) (threadId username : Option String) (outcome : String)
    (detail : Option String) : Effect Table Raised Unit := fun table =>
  let event : BalanceQueryEvent := ⟨accountId, threadId, username, outcome, detail⟩
  if event.accepted then (.ok (), table ++ [event]) else (.error (.external "DBAPIError"), table)

section

variable (outside : Outside) (financeApiUrl accountId : String) (clientId : Option String)

/-- `clientId` is the one of the tool call's context. -/
def getAccountBalance : Effect Table Raised Json := do
  let threadId := clientId
  let result ← tryCatch (Effect.ofExcept (callApi outside financeApiUrl accountId)) fun failure =>
    match failure with
    | .httpError text => do
        audit accountId threadId none "error" (some (Columns.head 256 text))
        throw (.httpError text)
    | other => throw other
  audit accountId threadId none "ok" none
  return result

def isBalance (body : Json) : Bool :=
  match body.item "account_id", body.item "balance", body.item "currency" with
  | .ok (.string _), .ok (.int _), .ok (.string _) => true
  | .ok (.string _), .ok (.float _), .ok (.string _) => true
  | _, _, _ => false

/-- The call commits one row, which says whether the tool returned a balance. -/
def Audited (table : Table) : Prop :=
  ∃ event, ((getAccountBalance outside financeApiUrl accountId clientId).exec table).2 =
      table ++ [event] ∧ event.accountId = accountId ∧
    (event.outcome = "ok" ↔
      ∃ balance, ((getAccountBalance outside financeApiUrl accountId clientId).exec table).1 =
        .ok balance ∧ isBalance balance = true)

end

/-- What the columns take of the arguments. -/
def Fitting (accountId : String) (clientId : Option String) : Prop :=
  (accountId.length ≤ 64 ∧ '\x00' ∉ accountId.toList) ∧
    ∀ threadId, clientId = some threadId → threadId.length ≤ 128 ∧ '\x00' ∉ threadId.toList

/-- The ways a lookup ends that the tool writes a true row for. -/
def Told : Except Raised Json → Prop
  | .ok body => isBalance body = true
  | .error (.httpError text) => '\x00' ∉ (Columns.head 256 text).toList
  | .error _ => False

section

variable {outside : Outside} {financeApiUrl accountId : String} {clientId : Option String}
  {table : Table}

theorem audit_exec {threadId username detail : Option String} {outcome : String} :
    (audit accountId threadId username outcome detail).exec table =
      let event : BalanceQueryEvent := ⟨accountId, threadId, username, outcome, detail⟩
      if event.accepted then (.ok (), table ++ [event])
      else (.error (.external "DBAPIError"), table) := rfl

theorem fitting_iff :
    (Columns.varchar 64 accountId && Columns.nullable (Columns.varchar 128) clientId) = true ↔
      Fitting accountId clientId := by
  rw [Bool.and_eq_true, Columns.varchar_iff, Columns.nullable_varchar_iff, Fitting]

theorem accepted_iff {outcome : String} {detail : Option String}
    (short : Columns.varchar 16 outcome = true) :
    (⟨accountId, clientId, none, outcome, detail⟩ : BalanceQueryEvent).accepted = true ↔
      Fitting accountId clientId ∧ Columns.nullable (Columns.varchar 256) detail = true := by
  rw [← fitting_iff]
  simp [BalanceQueryEvent.accepted, short, Columns.nullable]

theorem accepted_ok_iff :
    (⟨accountId, clientId, none, "ok", none⟩ : BalanceQueryEvent).accepted = true ↔
      Fitting accountId clientId := by
  rw [accepted_iff (by decide)]
  simp [Columns.nullable]

theorem accepted_error_iff {text : String} :
    (⟨accountId, clientId, none, "error", some (Columns.head 256 text)⟩ :
        BalanceQueryEvent).accepted = true ↔
      Fitting accountId clientId ∧ '\x00' ∉ (Columns.head 256 text).toList := by
  rw [accepted_iff (by decide), Columns.nullable, Columns.varchar_iff]
  simp [Columns.head_length_le]

def okEvent (accountId : String) (clientId : Option String) : BalanceQueryEvent :=
  ⟨accountId, clientId, none, "ok", none⟩

def errorEvent (accountId : String) (clientId : Option String) (text : String) :
    BalanceQueryEvent :=
  ⟨accountId, clientId, none, "error", some (Columns.head 256 text)⟩

/-- A row that is refused takes the place of the result. -/
theorem getAccountBalance_exec :
    (getAccountBalance outside financeApiUrl accountId clientId).exec table =
      match callApi outside financeApiUrl accountId with
      | .ok body =>
          if (okEvent accountId clientId).accepted then
            (.ok body, table ++ [okEvent accountId clientId])
          else (.error (.external "DBAPIError"), table)
      | .error (.httpError text) =>
          if (errorEvent accountId clientId text).accepted then
            (.error (.httpError text), table ++ [errorEvent accountId clientId text])
          else (.error (.external "DBAPIError"), table)
      | .error failure => (.error failure, table) := by
  unfold getAccountBalance okEvent errorEvent
  simp only [Effect.exec_bind, Effect.exec_tryCatch, Effect.exec_ofExcept]
  rcases callApi outside financeApiUrl accountId with failure | body
  · cases failure with
    | httpError text =>
        simp only [Effect.exec_bind, audit_exec]
        by_cases accepted : (errorEvent accountId clientId text).accepted = true <;>
          rw [errorEvent] at accepted <;> simp [accepted]
    | _ => rfl
  · simp only [audit_exec]
    by_cases accepted : (okEvent accountId clientId).accepted = true <;>
      rw [okEvent] at accepted <;> simp [accepted]

/-- A call commits its row exactly if the columns take it and the lookup ends in a
balance or an exception of the HTTP client. -/
theorem audited_iff :
    Audited outside financeApiUrl accountId clientId table ↔
      Fitting accountId clientId ∧ Told (callApi outside financeApiUrl accountId) := by
  unfold Audited
  rw [getAccountBalance_exec]
  rcases callApi outside financeApiUrl accountId with failure | body
  · cases failure with
    | httpError text =>
        rw [Told, ← accepted_error_iff, ← errorEvent]
        by_cases accepted : (errorEvent accountId clientId text).accepted = true
        · simp only [accepted, if_true, iff_true]
          exact ⟨errorEvent accountId clientId text, rfl, rfl, by simp [errorEvent]⟩
        · simp [accepted]
    | _ => simp [Told]
  · rw [Told, ← accepted_ok_iff, ← okEvent]
    by_cases accepted : (okEvent accountId clientId).accepted = true
    · simp only [accepted, if_true, true_and]
      constructor
      · intro audited
        obtain ⟨event, committed, _, told⟩ := audited
        obtain rfl : okEvent accountId clientId = event := by simpa using committed
        obtain ⟨balance, same, shaped⟩ := told.mp rfl
        cases same
        exact shaped
      · intro shaped
        exact ⟨okEvent accountId clientId, rfl, rfl, fun _ => ⟨body, rfl, shaped⟩, fun _ => rfl⟩
    · simp [accepted]

end

/-! ## A lookup without a row -/

/-- `value()` behind an empty cache, for an answer of the token endpoint. -/
def valueOf (answer : Answer) : Except Raised Json :=
  match (fetch (fun _ => none) 0 answer).exec {} with
  | (.ok _, after) => .ok after.accessToken
  | (.error failure, _) => .error failure

/-- The body of the token endpoint has no lifetime. -/
def unlimited : Outside where
  value _ := valueOf (naming "t1")
  get _ _ _ := .failed .invalidUrl

/-- A lookup that cannot read its token's lifetime leaves no row. -/
theorem unlimited_not_audited :
    (getAccountBalance unlimited "http://127.0.0.1:8102" "ACC-1001" none).exec [] =
        (.error (.keyError "expires_in"), []) ∧
      ¬Audited unlimited "http://127.0.0.1:8102" "ACC-1001" none [] := by
  have lost : (getAccountBalance unlimited "http://127.0.0.1:8102" "ACC-1001" none).exec [] =
      (.error (.keyError "expires_in"), []) := rfl
  refine ⟨lost, fun audited => ?_⟩
  obtain ⟨event, committed, _⟩ := audited
  rw [lost] at committed
  cases committed

end AgenticEnterprise.Mcp.BalanceAudit
