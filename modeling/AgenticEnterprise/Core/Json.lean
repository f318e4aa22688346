import AgenticEnterprise.Core.Exceptions
import Mathlib.Algebra.Order.Ring.Rat

/-! JSON values as the source reads them. -/

set_option autoImplicit false

namespace AgenticEnterprise.Core

/-- A float, its rounding left out. -/
inductive Double where
  | finite (value : Rat)
  | infinite
  | negInfinite
  | nan
  deriving DecidableEq, Repr

namespace Double

def add : Double → Rat → Double
  | .finite value, other => .finite (value + other)
  | special, _ => special

/-- `limit <= now`. -/
def reachedBy (now : Rat) : Double → Bool
  | .finite limit => decide (limit ≤ now)
  | .negInfinite => true
  | .infinite | .nan => false

def Positive : Double → Prop
  | .finite value => 0 < value
  | .infinite => True
  | .negInfinite | .nan => False

theorem reachedBy_mono {limit : Double} {now later : Rat} (reached : limit.reachedBy now = true)
    (passed : now ≤ later) : limit.reachedBy later = true := by
  cases limit with
  | finite limit =>
      simp only [reachedBy, decide_eq_true_eq] at reached ⊢
      exact reached.trans passed
  | negInfinite => rfl
  | infinite => cases reached
  | nan => cases reached

end Double

/-- The fields of an object have different keys. -/
inductive Json where
  | null
  | bool (value : Bool)
  | int (value : Int)
  | float (value : Double)
  | string (text : String)
  | array (items : List Json)
  | object (fields : List (String × Json))

namespace Json

/-- `is None`. -/
def isNone : Json → Bool
  | .null => true
  | _ => false

/-- `body[key]`. Only an object is indexed by a text. -/
def item (key : String) : Json → Except Raised Json
  | .object fields =>
      match fields.lookup key with
      | some value => .ok value
      | none => .error (.keyError key)
  | _ => .error .typeError

/-- The integers from this one on do not fit a float. -/
def floatLimit : Int :=
  2 ^ 1024 - 2 ^ 970

/-- `float(value)`. `floatText` reads the texts that are numbers. -/
def toFloat (floatText : String → Option Double) : Json → Except Raised Double
  | .bool value => .ok (.finite (if value then 1 else 0))
  | .int value => if value.natAbs < floatLimit then .ok (.finite value) else .error .overflowError
  | .float value => .ok value
  | .string text =>
      match floatText text with
      | some value => .ok value
      | none => .error .valueError
  | .null | .array _ | .object _ => .error .typeError

end Json

end AgenticEnterprise.Core
