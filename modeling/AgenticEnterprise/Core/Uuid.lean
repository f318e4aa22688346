import AgenticEnterprise.Library.Uri

/-! UUIDs: the texts a request may write one in, and the one text `str` gives. -/

set_option autoImplicit false

namespace AgenticEnterprise.Core

open Library Uri

def isHex (char : Char) : Bool :=
  char.isDigit || ('a' ≤ char && char ≤ 'f') || ('A' ≤ char && char ≤ 'F')

/-- Groups of hexadecimal digits with a hyphen between them. -/
def isHyphenated : List Nat → List Char → Bool
  | [], _ => false
  | [digits], text => decide (text.length = digits) && text.all isHex
  | digits :: groups, text =>
      (text.take digits).all isHex &&
        match text.drop digits with
        | '-' :: rest => isHyphenated groups rest
        | _ => false

def uuidGroups : List Nat := [8, 4, 4, 4, 12]

/-- The texts that validate as a UUID. -/
def isUuid (text : String) : Bool :=
  let chars := text.toList
  (decide (chars.length = 32) && chars.all isHex) ||
    isHyphenated uuidGroups chars ||
    match chars with
    | '\x7b' :: rest => rest.getLast? = some '\x7d' && isHyphenated uuidGroups rest.dropLast
    | _ => "urn:uuid:".toList.isPrefixOf chars && isHyphenated uuidGroups (chars.drop 9)

/-- A UUID is a number, however it was spelled. -/
structure UUID where
  int : BitVec 128
  deriving DecidableEq, Repr

/-- The digits of a text in any of the forms. -/
def uuidDigits (text : String) : List Char :=
  let chars := text.toList
  (if "urn:uuid:".toList.isPrefixOf chars then chars.drop 9 else chars).filter isHex

def hexValue (digits : List Char) : Nat :=
  digits.foldl (fun value digit => value * 16 + (hexDigit digit).getD 0) 0

def parseUuid (text : String) : Option UUID :=
  if isUuid text then some ⟨BitVec.ofNat 128 (hexValue (uuidDigits text))⟩ else none

def hexDigits : Nat → Nat → List Char
  | 0, _ => []
  | count + 1, value => hexDigits count (value / 16) ++ [Nat.digitChar (value % 16)]

def hyphenate : List Nat → List Char → List Char
  | [], text => text
  | [_], text => text
  | digits :: groups, text => text.take digits ++ '-' :: hyphenate groups (text.drop digits)

/-- Lower-case digits, in hyphenated groups. -/
def UUID.str (uuid : UUID) : String :=
  String.ofList (hyphenate uuidGroups (hexDigits 32 uuid.int.toNat))

section

variable {count value : Nat} {groups : List Nat} {text : List Char} {char : Char}

theorem length_hexDigits : (hexDigits count value).length = count := by
  induction count generalizing value with
  | zero => rfl
  | succ count ih => rw [hexDigits, List.length_append, ih, List.length_singleton]

theorem isHex_digitChar : ∀ digit : Fin 16, isHex (Nat.digitChar digit) = true := by
  decide

theorem all_hexDigits : (hexDigits count value).all isHex = true := by
  induction count generalizing value with
  | zero => rfl
  | succ count ih =>
      have digit := isHex_digitChar ⟨value % 16, Nat.mod_lt _ (by decide)⟩
      rw [hexDigits, List.all_append, ih, List.all_cons, digit, List.all_nil]
      rfl

theorem hexValue_hexDigits (fits : value < 16 ^ count) :
    hexValue (hexDigits count value) = value := by
  induction count generalizing value with
  | zero =>
      rw [pow_zero] at fits
      obtain rfl : value = 0 := by omega
      rfl
  | succ count ih =>
      have rest : value / 16 < 16 ^ count := by
        rw [pow_succ] at fits
        omega
      have digit := hexDigit_digitChar ⟨value % 16, Nat.mod_lt _ (by decide)⟩
      have front := ih rest
      rw [hexValue] at front ⊢
      rw [hexDigits, List.foldl_append, front, List.foldl_cons, List.foldl_nil, digit,
        Option.getD_some]
      dsimp only
      omega

theorem hyphenate_cons {digits next : Nat} :
    hyphenate (digits :: next :: groups) text =
      text.take digits ++ '-' :: hyphenate (next :: groups) (text.drop digits) := rfl

/-- Hyphens are all that is added. -/
theorem filter_hyphenate (hexadecimal : text.all isHex = true) :
    (hyphenate groups text).filter isHex = text := by
  induction groups generalizing text with
  | nil => exact List.filter_eq_self.mpr (List.all_eq_true.mp hexadecimal)
  | cons digits groups ih =>
      cases groups with
      | nil => exact List.filter_eq_self.mpr (List.all_eq_true.mp hexadecimal)
      | cons next groups =>
          rw [← List.take_append_drop digits text, List.all_append, Bool.and_eq_true]
            at hexadecimal
          have hyphen : isHex '-' = false := by decide
          rw [hyphenate_cons, List.filter_append, List.filter_cons_of_neg (by simp [hyphen]),
            ih hexadecimal.2, List.filter_eq_self.mpr (List.all_eq_true.mp hexadecimal.1),
            List.take_append_drop]

theorem isHyphenated_hyphenate {digits : Nat} (hexadecimal : text.all isHex = true)
    (length : text.length = (digits :: groups).foldr (· + ·) 0) :
    isHyphenated (digits :: groups) (hyphenate (digits :: groups) text) = true := by
  induction groups generalizing text digits with
  | nil =>
      rw [List.foldr_cons, List.foldr_nil, Nat.add_zero] at length
      rw [isHyphenated, hyphenate, decide_eq_true length, hexadecimal, Bool.and_self]
  | cons next groups ih =>
      rw [List.foldr_cons] at length
      have front : (text.take digits).length = digits := by
        rw [List.length_take]
        omega
      rw [← List.take_append_drop digits text, List.all_append, Bool.and_eq_true] at hexadecimal
      have rest : (text.drop digits).length = (next :: groups).foldr (· + ·) 0 := by
        rw [List.length_drop]
        omega
      rw [hyphenate_cons, isHyphenated, List.take_left' front, List.drop_left' front,
        hexadecimal.1, Bool.true_and]
      · exact ih hexadecimal.2 rest
      · intro same
        cases same

/-- What `str` gives is read as the same UUID. -/
theorem parseUuid_str (uuid : UUID) : parseUuid uuid.str = some uuid := by
  have length : (hexDigits 32 uuid.int.toNat).length = 32 := length_hexDigits
  have hyphenated : isHyphenated uuidGroups uuid.str.toList = true := by
    rw [UUID.str, String.toList_ofList]
    exact isHyphenated_hyphenate all_hexDigits length
  have valid : isUuid uuid.str = true := by
    simp [isUuid, hyphenated]
  have plain : "urn:uuid:".toList.isPrefixOf uuid.str.toList = false := by
    rw [UUID.str, String.toList_ofList]
    cases digits : hexDigits 32 uuid.int.toNat with
    | nil => simp [digits] at length
    | cons first rest =>
        have member : first ∈ hexDigits 32 uuid.int.toNat := by simp [digits]
        have hexadecimal := List.all_eq_true.mp all_hexDigits first member
        have differs : 'u' ≠ first := by
          rintro rfl
          revert hexadecimal
          decide
        simp [uuidGroups, hyphenate, List.isPrefixOf, differs]
  have digits : uuidDigits uuid.str = hexDigits 32 uuid.int.toNat := by
    simp only [uuidDigits, plain, Bool.false_eq_true, if_false]
    rw [UUID.str, String.toList_ofList, filter_hyphenate all_hexDigits]
  rw [parseUuid, if_pos valid, digits, hexValue_hexDigits uuid.int.isLt, BitVec.ofNat_toNat,
    BitVec.setWidth_eq]

end

end AgenticEnterprise.Core
