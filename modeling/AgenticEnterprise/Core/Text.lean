import Mathlib.Data.List.Infix

/-! The string operations of the source: `str.lower`, `in`, `repr`, `str.join` and
`str.strip`, over Lean strings read as sequences of code points. -/

set_option autoImplicit false

namespace AgenticEnterprise.Core.Text

/-- `str.lower` of one code point. U+212A and U+0130 are the only non-ASCII code
points whose lower case contains an ASCII letter; the lower case of every other
non-ASCII code point is non-ASCII, so no ASCII keyword can tell it from the
code point itself. -/
def lowerChar (char : Char) : List Char :=
  if char = '\u212A' then ['k']
  else if char = '\u0130' then ['i', '\u0307']
  else [char.toLower]

def lower (text : String) : String :=
  String.ofList (text.toList.flatMap lowerChar)

def contains (text word : String) : Bool :=
  text.toList.tails.any fun rest => word.toList.isPrefixOf rest

theorem contains_iff_infix {text word : String} :
    contains text word = true ↔ word.toList <:+: text.toList := by
  simp only [contains, List.any_eq_true, List.mem_tails, List.isPrefixOf_iff_prefix]
  constructor
  · intro found
    obtain ⟨rest, suffix, isPrefix⟩ := found
    exact isPrefix.isInfix.trans suffix.isInfix
  · intro inside
    obtain ⟨rest, isPrefix, suffix⟩ := List.infix_iff_prefix_suffix.mp inside
    exact ⟨rest, suffix, isPrefix⟩

def containsAny (text : String) (words : List String) : Bool :=
  words.any (contains text)

def join (separator : String) (parts : List String) : String :=
  separator.intercalate parts

def reprChar (quote char : Char) : List Char :=
  if char = quote ∨ char = '\\' then ['\\', char]
  else if char = '\n' then ['\\', 'n']
  else if char = '\r' then ['\\', 'r']
  else if char = '\t' then ['\\', 't']
  else if char.toNat < 0x20 ∨ char.toNat = 0x7F then
    ['\\', 'x', Nat.digitChar (char.toNat / 16), Nat.digitChar (char.toNat % 16)]
  else [char]

/-- `repr(text)`: double quotes are used only around a text that contains single
quotes and no double quote. -/
def pyRepr (text : String) : String :=
  let quote := if text.toList.contains '\'' && !text.toList.contains '"' then '"' else '\''
  String.ofList (quote :: text.toList.flatMap (reprChar quote) ++ [quote])

/-- `str.isspace` of one code point. -/
def isSpace (char : Char) : Bool :=
  let code := char.toNat
  decide (0x09 ≤ code ∧ code ≤ 0x0D ∨ 0x1C ≤ code ∧ code ≤ 0x20 ∨ code = 0x85 ∨ code = 0xA0 ∨
    code = 0x1680 ∨ 0x2000 ≤ code ∧ code ≤ 0x200A ∨ code = 0x2028 ∨ code = 0x2029 ∨
    code = 0x202F ∨ code = 0x205F ∨ code = 0x3000)

/-- `text.strip()` -/
def strip (text : String) : String :=
  String.ofList
    ((text.toList.dropWhile isSpace).reverse.dropWhile isSpace).reverse

theorem strip_split (text : String) :
    ∃ before after, text = before ++ strip text ++ after := by
  let rest := text.toList.dropWhile isSpace
  refine ⟨String.ofList (text.toList.takeWhile isSpace),
    String.ofList (rest.reverse.takeWhile isSpace).reverse, ?_⟩
  have kept : rest = (rest.reverse.dropWhile isSpace).reverse ++
      (rest.reverse.takeWhile isSpace).reverse := by
    rw [← List.reverse_append, List.takeWhile_append_dropWhile, List.reverse_reverse]
  apply String.toList_injective
  simp only [String.toList_append, String.toList_ofList, strip]
  rw [List.append_assoc, ← kept, List.takeWhile_append_dropWhile]

theorem fromUTF8?_toByteArray (text : String) : String.fromUTF8? text.toByteArray = some text := by
  rw [String.fromUTF8?, dif_pos text.isValidUTF8]
  rfl

/-! ## Texts in front of a mark -/

section

variable {Element : Type} {mark : Element} {left right rest other : List Element}

/-- Of two texts in front of a mark, one is the other with a mark behind it. -/
theorem extension_of_append_mark (same : left ++ mark :: rest = right ++ mark :: other) :
    left = right ∨ (∃ more, right = left ++ mark :: more) ∨
      ∃ more, left = right ++ mark :: more := by
  rcases List.append_eq_append_iff.mp same with ⟨gap, whole, rest⟩ | ⟨gap, whole, rest⟩
  · cases gap with
    | nil => exact .inl (by simpa using whole.symm)
    | cons first gap =>
        obtain ⟨rfl, _⟩ := List.cons.inj rest
        exact .inr (.inl ⟨gap, whole⟩)
  · cases gap with
    | nil => exact .inl (by simpa using whole)
    | cons first gap =>
        obtain ⟨rfl, _⟩ := List.cons.inj rest
        exact .inr (.inr ⟨gap, whole⟩)

/-- What stands in front of the first occurrence of a mark. -/
theorem eq_of_append_mark (leftFree : mark ∉ left) (rightFree : mark ∉ right)
    (same : left ++ mark :: rest = right ++ mark :: other) : left = right := by
  rcases extension_of_append_mark same with equal | ⟨more, rfl⟩ | ⟨more, rfl⟩
  · exact equal
  · exact absurd (by simp) rightFree
  · exact absurd (by simp) leftFree

end

end AgenticEnterprise.Core.Text
