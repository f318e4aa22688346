/-! The columns of the audit tables, and the slices that are written to them.

Postgres refuses a text that is longer than its column or contains a NUL, and an
integer that does not fit. -/

set_option autoImplicit false

namespace AgenticEnterprise.Core.Columns

/-- `text[:count]` -/
def head (count : Nat) (text : String) : String :=
  String.ofList (text.toList.take count)

/-- `text[-count:]` -/
def tail (count : Nat) (text : String) : String :=
  String.ofList (text.toList.drop (text.length - count))

/-- `Text` -/
def text (value : String) : Bool :=
  !value.toList.contains '\x00'

/-- `String(limit)` -/
def varchar (limit : Nat) (value : String) : Bool :=
  decide (value.length ≤ limit) && text value

/-- `Integer` -/
def integer (value : Nat) : Bool :=
  decide (value < 2147483648)

def nullable {Value : Type} (accepts : Value → Bool) : Option Value → Bool
  | none => true
  | some value => accepts value

theorem text_iff {value : String} : text value = true ↔ '\x00' ∉ value.toList := by
  simp [text]

theorem varchar_iff {limit : Nat} {value : String} :
    varchar limit value = true ↔ value.length ≤ limit ∧ '\x00' ∉ value.toList := by
  rw [varchar, Bool.and_eq_true, decide_eq_true_eq, text_iff]

theorem nullable_varchar_iff {limit : Nat} {value : Option String} :
    nullable (varchar limit) value = true ↔
      ∀ text, value = some text → text.length ≤ limit ∧ '\x00' ∉ text.toList := by
  cases value with
  | none => simp [nullable]
  | some text => simp [nullable, varchar_iff]

theorem head_length_le (count : Nat) (value : String) : (head count value).length ≤ count := by
  rw [head, String.length_ofList, List.length_take]
  exact Nat.min_le_left ..

theorem head_ne_tail {front : List Char} {last : Char} (nonempty : front ≠ [])
    (fresh : last ∉ front) :
    head front.length (String.ofList (front ++ [last])) ≠
      tail front.length (String.ofList (front ++ [last])) := by
  intro same
  have cut := congrArg String.toList same
  have start : (front ++ [last]).length - front.length = 1 := by
    rw [List.length_append, Nat.add_sub_cancel_left]
    rfl
  rw [head, tail, String.length_ofList, start, String.toList_ofList, String.toList_ofList,
    String.toList_ofList, List.take_left] at cut
  cases front with
  | nil => exact nonempty rfl
  | cons first rest =>
      rw [List.cons_append, List.drop_succ_cons, List.drop_zero] at cut
      exact fresh (cut ▸ List.mem_append_right rest (.head _))

end AgenticEnterprise.Core.Columns
