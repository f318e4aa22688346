/-! The exceptions the modelled code raises, and `app/core/exceptions.py`. -/

set_option autoImplicit false

namespace AgenticEnterprise.Core

/-- `external` stands for what a service outside the program raises: the model
server, the databases, the cache, a cancelled or timed out task. -/
inductive Exn where
  | graphRecursionError
  | agenticException (errorCode : String) (statusCode : Nat) (message : String)
  | httpException (statusCode : Nat) (detail : String)
  | keyError (key : String)
  | indexError
  | typeError
  | attributeError
  | valueError (message : String)
  | validationError
  | requestValidationError
  | rateLimitExceeded (limit : String)
  | timeoutError
  | invalidUpdateError (message : String)
  | external (name : String)
  deriving DecidableEq, Repr

/-- What the libraries of the tool servers raise. `httpError` are the exceptions
under `httpx.HTTPError`, with their text. -/
inductive Raised where
  | httpError (text : String)
  | invalidUrl
  | jsonDecodeError
  | keyError (key : String)
  | typeError
  | valueError
  | overflowError
  | external (name : String)
  deriving DecidableEq, Repr

def maxRecursionError : Exn :=
  .agenticException "MAX_RECURSION_REACHED" 422
    "Agent entered a loop or exceeded its reasoning-step budget."

/-! ## Peeling fallible steps apart -/

section

variable {Failure First Second : Type} {action : Except Failure First}

theorem bind_eq_ok_iff {next : First → Except Failure Second} {result : Second} :
    (action >>= next) = .ok result ↔ ∃ first, action = .ok first ∧ next first = .ok result := by
  cases action <;> simp [bind, Except.bind]

theorem map_eq_ok_iff {convert : First → Second} {result : Second} :
    action.map convert = .ok result ↔ ∃ first, action = .ok first ∧ convert first = result := by
  cases action <;> simp [Except.map]

end

end AgenticEnterprise.Core
