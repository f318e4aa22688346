import Mathlib.Algebra.BigOperators.Group.List.Basic
import Mathlib.Data.List.TakeWhile

/-! The paths and queries of URLs as a client sends them.

A path is cut at its slashes, loses its dot segments, and is percent-encoded
where it has to be; an escape that is there already stays one. What a segment
names is the octets it stands for. -/

set_option autoImplicit false

namespace AgenticEnterprise.Library.Uri

/-! ## Escapes -/

def hexDigit (char : Char) : Option Nat :=
  if '0' ≤ char ∧ char ≤ '9' then some (char.toNat - 48)
  else if 'A' ≤ char ∧ char ≤ 'F' then some (char.toNat - 55)
  else if 'a' ≤ char ∧ char ≤ 'f' then some (char.toNat - 87)
  else none

def octet (high low : Char) : Option UInt8 :=
  match hexDigit high, hexDigit low with
  | some high, some low => some (UInt8.ofNat (high * 16 + low))
  | _, _ => none

def utf8 (text : List Char) : List UInt8 :=
  text.flatMap String.utf8EncodeChar

/-- The octets a text stands for. -/
def octets : List Char → List UInt8
  | '%' :: high :: low :: rest =>
      match octet high low with
      | some byte => byte :: octets rest
      | none => String.utf8EncodeChar '%' ++ octets (high :: low :: rest)
  | char :: rest => String.utf8EncodeChar char ++ octets rest
  | [] => []

def hasEscape : List Char → Bool
  | '%' :: high :: low :: rest => (octet high low).isSome || hasEscape (high :: low :: rest)
  | _ :: rest => hasEscape rest
  | [] => false

def escape (byte : UInt8) : List Char :=
  ['%', Nat.digitChar (byte.toNat / 16), Nat.digitChar (byte.toNat % 16)]

section

variable (safe : Char → Bool)

def quoteChar (char : Char) : List Char :=
  if safe char then [char] else (String.utf8EncodeChar char).flatMap escape

/-- Percent-encodes what is not safe, escapes apart. -/
def quote : List Char → List Char
  | '%' :: high :: low :: rest =>
      if (octet high low).isSome then '%' :: high :: low :: quote rest
      else quoteChar safe '%' ++ quote (high :: low :: rest)
  | char :: rest => quoteChar safe char ++ quote rest
  | [] => []

end

/-- The octet behind a percent sign, if it begins an escape. -/
def hexPair : List Char → Option UInt8
  | high :: low :: _ => octet high low
  | _ => none

section

variable {safe : Char → Bool} {char : Char} {text rest : List Char} {byte : UInt8}

theorem hexDigit_digitChar : ∀ digit : Fin 16, hexDigit (Nat.digitChar digit) = some digit.val := by
  decide

theorem octet_escape (byte : UInt8) :
    octet (Nat.digitChar (byte.toNat / 16)) (Nat.digitChar (byte.toNat % 16)) = some byte := by
  have bound : byte.toNat < 256 := byte.toNat_lt
  have high := hexDigit_digitChar ⟨byte.toNat / 16, by omega⟩
  have low := hexDigit_digitChar ⟨byte.toNat % 16, by omega⟩
  dsimp only at high low
  rw [octet, high, low]
  dsimp only
  rw [Nat.div_add_mod', UInt8.ofNat_toNat]

theorem octets_escape : octets (escape byte ++ rest) = byte :: octets rest := by
  rw [escape, List.cons_append, List.cons_append, List.cons_append, List.nil_append, octets,
    octet_escape]

theorem octets_escapes (bytes : List UInt8) :
    octets (bytes.flatMap escape ++ rest) = bytes ++ octets rest := by
  induction bytes with
  | nil => rfl
  | cons byte bytes ih => rw [List.flatMap_cons, List.append_assoc, octets_escape, ih]; rfl

theorem octets_cons (plain : char = '%' → hexPair rest = none) :
    octets (char :: rest) = String.utf8EncodeChar char ++ octets rest := by
  by_cases percent : char = '%'
  · subst percent
    have none := plain rfl
    match rest with
    | [] => rfl
    | [_] => rfl
    | high :: low :: rest =>
        rw [hexPair] at none
        rw [octets, none]
  · rw [octets]
    intro _ _ _ same
    exact absurd same percent

theorem quote_cons (plain : char = '%' → hexPair rest = none) :
    quote safe (char :: rest) = quoteChar safe char ++ quote safe rest := by
  by_cases percent : char = '%'
  · subst percent
    have none := plain rfl
    match rest with
    | [] => rfl
    | [_] => rfl
    | high :: low :: rest =>
        rw [hexPair] at none
        rw [quote, none]
        rfl
  · rw [quote]
    intro _ _ _ same
    exact absurd same percent

theorem hexPair_percent (rest : List Char) : hexPair ('%' :: rest) = none := by
  cases rest <;> rfl

theorem octet_percent (high : Char) : octet high '%' = none := by
  unfold octet
  cases hexDigit high <;> rfl

theorem quote_cons_cases :
    (∃ out, quote safe (char :: rest) = '%' :: out) ∨
      quote safe (char :: rest) = char :: quote safe rest := by
  by_cases plain : char = '%' → hexPair rest = none
  · rw [quote_cons plain, quoteChar]
    split
    · exact .inr rfl
    · obtain ⟨byte, bytes, first⟩ := List.exists_cons_of_ne_nil (@String.utf8EncodeChar_ne_nil char)
      rw [first]
      exact .inl ⟨_, rfl⟩
  · obtain ⟨rfl, escapes⟩ := Classical.not_imp.mp plain
    match rest with
    | [] => exact absurd rfl escapes
    | [_] => exact absurd rfl escapes
    | high :: low :: rest =>
        have begins : (octet high low).isSome = true := Option.ne_none_iff_isSome.mp escapes
        exact .inl ⟨high :: low :: quote safe rest, by rw [quote, if_pos begins]⟩

theorem hexPair_quote (plain : hexPair rest = none) : hexPair (quote safe rest) = none := by
  match rest with
  | [] => rfl
  | [char] =>
      rcases @quote_cons_cases safe char [] with ⟨out, quoted⟩ | kept
      · rw [quoted, hexPair_percent]
      · rw [kept]
        rfl
  | char :: next :: rest =>
      rcases @quote_cons_cases safe char (next :: rest) with ⟨out, quoted⟩ | kept
      · rw [quoted, hexPair_percent]
      · rcases @quote_cons_cases safe next rest with ⟨out, quoted⟩ | nextKept
        · rw [kept, quoted, hexPair, octet_percent]
        · rw [kept, nextKept]
          exact plain

theorem octets_quoteChar (plain : char = '%' → hexPair rest = none) :
    octets (quoteChar safe char ++ rest) = String.utf8EncodeChar char ++ octets rest := by
  rw [quoteChar]
  split
  · exact octets_cons plain
  · exact octets_escapes _

theorem hexPair_of_other
    (other : ∀ high low after, char = '%' → rest = high :: low :: after → False)
    (percent : char = '%') : hexPair rest = none := by
  match rest with
  | [] => rfl
  | [_] => rfl
  | high :: low :: after => exact (other high low after percent rfl).elim

/-- Quoting changes the letters of a text and not what it stands for. -/
theorem octets_quote (text : List Char) : octets (quote safe text) = octets text := by
  fun_induction quote safe text with
  | case1 high low rest escapes ih =>
      obtain ⟨byte, known⟩ := Option.isSome_iff_exists.mp escapes
      rw [octets, octets, known]
      exact congrArg (byte :: ·) ih
  | case2 high low rest plain ih =>
      have none : hexPair (high :: low :: rest) = none := by simpa [hexPair] using plain
      rw [octets_quoteChar fun _ => hexPair_quote none, octets_cons fun _ => none, ih]
  | case3 char rest other ih =>
      have plain := hexPair_of_other other
      rw [octets_quoteChar fun percent => hexPair_quote (plain percent), octets_cons plain, ih]
  | case4 => rfl

/-! ## What escapes do to a text -/

theorem utf8_cons : utf8 (char :: rest) = String.utf8EncodeChar char ++ utf8 rest :=
  List.flatMap_cons ..

theorem utf8_append (text rest : List Char) : utf8 (text ++ rest) = utf8 text ++ utf8 rest :=
  List.flatMap_append ..

theorem utf8_length_cons : (utf8 (char :: rest)).length = char.utf8Size + (utf8 rest).length := by
  rw [utf8_cons, List.length_append, String.length_utf8EncodeChar]

theorem octets_length_le (text : List Char) : (octets text).length ≤ (utf8 text).length := by
  fun_induction octets text with
  | case1 high low rest byte known ih =>
      have percent : '%'.utf8Size = 1 := rfl
      simp only [utf8_length_cons, List.length_cons]
      omega
  | case2 high low rest none ih =>
      rw [utf8_length_cons, List.length_append, String.length_utf8EncodeChar]
      omega
  | case3 char rest other ih =>
      rw [utf8_length_cons, List.length_append, String.length_utf8EncodeChar]
      omega
  | case4 => exact Nat.zero_le _

theorem octets_eq_utf8 (plain : hasEscape text = false) : octets text = utf8 text := by
  fun_induction hasEscape text with
  | case1 high low rest ih =>
      obtain ⟨none, plain⟩ := Bool.or_eq_false_iff.mp plain
      rw [octets_cons fun _ => by simpa [hexPair] using none, ih plain, @utf8_cons '%']
  | case2 char rest other ih =>
      rw [octets_cons (hexPair_of_other other), ih plain, utf8_cons]
  | case3 => rfl

theorem octets_length_lt (escapes : hasEscape text = true) :
    (octets text).length < (utf8 text).length := by
  fun_induction hasEscape text with
  | case1 high low rest ih =>
      have percent : '%'.utf8Size = 1 := rfl
      cases known : octet high low with
      | none =>
          rw [octets_cons fun _ => by rw [hexPair, known], @utf8_cons '%', List.length_append,
            List.length_append]
          have shorter := ih (by simpa [known] using escapes)
          omega
      | some byte =>
          have shorter := octets_length_le rest
          have highSize := high.utf8Size_pos
          rw [octets, known]
          simp only [utf8_length_cons, List.length_cons]
          omega
  | case2 char rest other ih =>
      rw [octets_cons (hexPair_of_other other), utf8_cons, List.length_append, List.length_append]
      have shorter := ih escapes
      omega
  | case3 => cases escapes

end

/-! ## Segments -/

def segments (text : List Char) : List (List Char) :=
  text.splitOn '/'

def isDot (segment : List Char) : Bool :=
  decide (segment = ['.'] ∨ segment = ['.', '.'])

/-- A segment behind those that are kept so far. -/
def keep (kept : List (List Char)) (segment : List Char) : List (List Char) :=
  if segment = ['.'] then kept
  else if segment = ['.', '.'] then
    if kept = [] ∨ kept = [[]] then kept else kept.dropLast
  else kept ++ [segment]

def removeDotSegments (segments : List (List Char)) : List (List Char) :=
  segments.foldl keep []

/-- The length of segments with their slashes. -/
def size : List (List UInt8) → Nat
  | [] => 0
  | segment :: rest => segment.length + 1 + size rest

section

variable {text rest : List Char} {kept parts : List (List Char)}

theorem size_cons {part : List UInt8} {parts : List (List UInt8)} :
    size (part :: parts) = part.length + 1 + size parts := rfl

theorem size_append (left right : List (List UInt8)) :
    size (left ++ right) = size left + size right := by
  induction left with
  | nil => exact (Nat.zero_add _).symm
  | cons part parts ih =>
      rw [List.cons_append, size_cons, size_cons, ih]
      exact (Nat.add_assoc ..).symm

theorem foldl_keep_of_plain (plain : ∀ part ∈ parts, isDot part = false) :
    parts.foldl keep kept = kept ++ parts := by
  induction parts generalizing kept with
  | nil => simp
  | cons part parts ih =>
      have notDot := plain part List.mem_cons_self
      simp only [isDot, decide_eq_false_iff_not, not_or] at notDot
      rw [List.foldl_cons, keep, if_neg notDot.1, if_neg notDot.2,
        ih fun part later => plain part (List.mem_cons_of_mem _ later), List.append_assoc]
      rfl

theorem removeDotSegments_of_plain (plain : ∀ part ∈ parts, isDot part = false) :
    removeDotSegments parts = parts :=
  foldl_keep_of_plain plain

theorem size_dropLast_le (parts : List (List UInt8)) : size parts.dropLast ≤ size parts := by
  rcases parts.eq_nil_or_concat with rfl | ⟨front, last, rfl⟩
  · exact Nat.le_refl _
  · rw [List.concat_eq_append, List.dropLast_concat, size_append]
    exact Nat.le_add_right ..

theorem size_keep (kept : List (List Char)) (part : List Char) :
    size ((keep kept part).map utf8) + (if isDot part then 1 else 0) ≤
      size (kept.map utf8) + ((utf8 part).length + 1) := by
  have front := size_dropLast_le (kept.map utf8)
  unfold keep
  split
  · split <;> omega
  · split
    · split
      · split <;> omega
      · rw [List.map_dropLast]
        split <;> omega
    · rename_i notDot notDots
      have own : size ([part].map utf8) = (utf8 part).length + 1 := by simp [size]
      rw [List.map_append, size_append, if_neg (by simp [isDot, notDot, notDots]), own]
      exact Nat.le_refl _

theorem size_foldl_keep (kept parts : List (List Char)) :
    size ((parts.foldl keep kept).map utf8) + parts.countP isDot ≤
      size (kept.map utf8) + size (parts.map utf8) := by
  induction parts generalizing kept with
  | nil => simp [size]
  | cons part parts ih =>
      have step := size_keep kept part
      have rest := ih (keep kept part)
      rw [List.foldl_cons, List.countP_cons, List.map_cons, size_cons]
      omega

theorem size_octets_le (parts : List (List Char)) :
    size (parts.map octets) ≤ size (parts.map utf8) := by
  induction parts with
  | nil => exact Nat.le_refl _
  | cons part parts ih =>
      have shorter := octets_length_le part
      rw [List.map_cons, List.map_cons, size_cons, size_cons]
      omega

theorem plain_of_size_octets (same : size (parts.map utf8) ≤ size (parts.map octets)) :
    ∀ part ∈ parts, hasEscape part = false := by
  induction parts with
  | nil => simp
  | cons part parts ih =>
      have shorter := octets_length_le part
      have rest := size_octets_le parts
      rw [List.map_cons, List.map_cons, size_cons, size_cons] at same
      intro other member
      rcases List.mem_cons.mp member with rfl | later
      · by_contra escapes
        have strictly := octets_length_lt (by simpa using escapes)
        omega
      · exact ih (by omega) other later

theorem size_of_ne_nil (some : parts ≠ []) :
    size (parts.map utf8) = (utf8 (['/'].intercalate parts)).length + 1 := by
  induction parts with
  | nil => exact absurd rfl some
  | cons part parts ih =>
      by_cases none : parts = []
      · subst none
        simp [size]
      · rw [List.intercalate_cons_of_ne_nil none, List.map_cons, size_cons, ih none, utf8_append,
          utf8_append, List.length_append, List.length_append]
        have slash : (utf8 ['/']).length = 1 := rfl
        omega

theorem size_segments (text : List Char) :
    size ((segments text).map utf8) = (utf8 text).length + 1 := by
  rw [segments, size_of_ne_nil (List.splitOn_ne_nil _ _), List.intercalate_splitOn]

theorem segments_of_notMem (noSlash : '/' ∉ text) : segments text = [text] :=
  List.splitOn_eq_singleton noSlash

theorem segments_append_slash (text rest : List Char) :
    segments (text ++ '/' :: rest) = segments text ++ segments rest :=
  List.splitOn_append_cons_self ..

theorem notMem_of_segments (one : (segments text).length = 1) : '/' ∉ text := by
  intro slash
  obtain ⟨front, back, rfl⟩ := List.append_of_mem slash
  rw [segments_append_slash, List.length_append] at one
  have frontSome := List.length_pos_iff.mpr (@List.splitOn_ne_nil _ _ '/' front)
  have backSome := List.length_pos_iff.mpr (@List.splitOn_ne_nil _ _ '/' back)
  rw [segments, segments] at one
  omega

end

/-! ## References -/

/-- What a client asks for behind the authority of a URL. -/
structure Request where
  segments : List (List Char)
  query : Option (List Char)
  deriving DecidableEq, Repr

/-- A fragment stays with the client. -/
def beforeFragment (reference : List Char) : List Char :=
  reference.takeWhile (· != '#')

def path (reference : List Char) : List Char :=
  (beforeFragment reference).takeWhile (· != '?')

def query (reference : List Char) : Option (List Char) :=
  match (beforeFragment reference).dropWhile (· != '?') with
  | [] => none
  | _ :: query => some query

/-- The request for a reference that begins with a slash. -/
def request (safe safeQuery : Char → Bool) (reference : List Char) : Request where
  segments := (removeDotSegments (segments (path reference))).map (quote safe)
  query := (query reference).map (quote safeQuery)

/-- A reference that is all path, without dot segments and escapes. -/
structure Plain (reference : List Char) : Prop where
  noFragment : '#' ∉ reference
  noQuery : '?' ∉ reference
  noDots : ∀ part ∈ segments reference, isDot part = false
  noEscapes : ∀ part ∈ segments reference, hasEscape part = false

section

variable {safe safeQuery : Char → Bool} {reference : List Char}

theorem takeWhile_of_notMem {char : Char} {text : List Char} (absent : char ∉ text) :
    text.takeWhile (· != char) = text := by
  rw [List.takeWhile_eq_self_iff]
  intro other member
  simp only [bne_iff_ne, ne_eq]
  rintro rfl
  exact absent member

theorem Plain.path_eq (plain : Plain reference) : path reference = reference := by
  rw [path, beforeFragment, takeWhile_of_notMem plain.noFragment,
    takeWhile_of_notMem plain.noQuery]

theorem Plain.query_eq (plain : Plain reference) : query reference = none := by
  have nothing : reference.dropWhile (· != '?') = [] := by
    rw [List.dropWhile_eq_nil_iff]
    intro char member
    simp only [bne_iff_ne, ne_eq]
    rintro rfl
    exact plain.noQuery member
  rw [query, beforeFragment, takeWhile_of_notMem plain.noFragment, nothing]

theorem Plain.request_eq (plain : Plain reference) :
    request safe safeQuery reference = ⟨(segments reference).map (quote safe), none⟩ := by
  rw [request, plain.path_eq, plain.query_eq, removeDotSegments_of_plain plain.noDots]
  rfl

theorem Plain.octets_eq (plain : Plain reference) :
    (request safe safeQuery reference).segments.map octets = (segments reference).map utf8 := by
  rw [plain.request_eq, List.map_map]
  refine List.map_congr_left fun part member => ?_
  exact (octets_quote part).trans (octets_eq_utf8 (plain.noEscapes part member))

theorem path_prefix (reference : List Char) : path reference <+: reference :=
  (List.takeWhile_prefix _).trans (List.takeWhile_prefix _)

theorem notMem_of_path_eq (all : path reference = reference) :
    '#' ∉ reference ∧ '?' ∉ reference := by
  have inPath {char : Char} (member : char ∈ reference) : char ≠ '#' ∧ char ≠ '?' := by
    rw [← all] at member
    have noQuery := List.mem_takeWhile_imp member
    have noFragment := List.mem_takeWhile_imp ((List.takeWhile_prefix _).subset member)
    exact ⟨by simpa using noFragment, by simpa using noQuery⟩
  exact ⟨fun member => (inPath member).1 rfl, fun member => (inPath member).2 rfl⟩

theorem utf8_eq_nil {text : List Char} (short : (utf8 text).length = 0) : text = [] := by
  cases text with
  | nil => rfl
  | cons char rest =>
      rw [utf8_length_cons] at short
      have some := char.utf8Size_pos
      omega

/-! ## Paths on the wire -/

/-- The path of a request, its segments put together again. -/
def Request.path (request : Request) : List Char :=
  ['/'].intercalate request.segments

theorem octet_slash (high : Char) : octet high '/' = none := by
  unfold octet
  cases hexDigit high <;> rfl

theorem hexPair_append_slash {text rest : List Char} (plain : hexPair text = none) :
    hexPair (text ++ '/' :: rest) = none := by
  match text with
  | [] => cases rest <;> rfl
  | [char] => exact octet_slash char
  | high :: low :: _ => exact plain

theorem octets_append_slash (text rest : List Char) :
    octets (text ++ '/' :: rest) = octets text ++ 47 :: octets rest := by
  have slash : octets ('/' :: rest) = 47 :: octets rest :=
    octets_cons fun percent => by simp at percent
  fun_induction octets text with
  | case1 high low more byte known ih =>
      rw [List.cons_append, List.cons_append, List.cons_append, octets, known]
      exact congrArg (byte :: ·) ih
  | case2 high low more none ih =>
      have plain := @hexPair_append_slash (high :: low :: more) rest none
      rw [List.cons_append, octets_cons fun _ => plain, ih, List.append_assoc]
  | case3 char more other ih =>
      rw [List.cons_append,
        octets_cons fun percent => hexPair_append_slash (hexPair_of_other other percent), ih,
        List.append_assoc]
  | case4 => exact slash

theorem octets_intercalate (parts : List (List Char)) :
    octets (['/'].intercalate parts) = [47].intercalate (parts.map octets) := by
  induction parts with
  | nil => rfl
  | cons part parts ih =>
      by_cases none : parts = []
      · subst none
        simp
      · rw [List.intercalate_cons_of_ne_nil none, List.append_assoc, List.singleton_append,
          octets_append_slash, ih, List.map_cons,
          List.intercalate_cons_of_ne_nil (List.map_eq_nil_iff.not.mpr none), List.append_assoc]
        rfl

theorem utf8_intercalate (parts : List (List Char)) :
    utf8 (['/'].intercalate parts) = [47].intercalate (parts.map utf8) := by
  induction parts with
  | nil => rfl
  | cons part parts ih =>
      by_cases none : parts = []
      · subst none
        simp
      · rw [List.intercalate_cons_of_ne_nil none, utf8_append, utf8_append, ih, List.map_cons,
          List.intercalate_cons_of_ne_nil (List.map_eq_nil_iff.not.mpr none)]
        rfl

theorem Plain.octets_path (plain : Plain reference) :
    octets (request safe safeQuery reference).path = utf8 reference := by
  rw [Request.path, octets_intercalate, plain.octets_eq, ← utf8_intercalate, segments,
    List.intercalate_splitOn]

/-- Only a plain reference is asked for in its whole length. -/
theorem plain_of_size
    (whole : (utf8 reference).length + 1 ≤
      size ((request safe safeQuery reference).segments.map octets)) :
    Plain reference := by
  have quoted : (request safe safeQuery reference).segments.map octets =
      (removeDotSegments (segments (path reference))).map octets := by
    rw [request, List.map_map]
    exact List.map_congr_left fun part _ => octets_quote part
  rw [quoted] at whole
  have escaped := size_octets_le (removeDotSegments (segments (path reference)))
  have undotted : _ ≤ size ([].map utf8) + _ := size_foldl_keep [] (segments (path reference))
  have empty : size (([] : List (List Char)).map utf8) = 0 := rfl
  rw [size_segments, empty, ← removeDotSegments] at undotted
  obtain ⟨rest, behind⟩ := path_prefix reference
  have length := congrArg (fun text => (utf8 text).length) behind
  simp only [utf8_append, List.length_append] at length
  obtain rfl := utf8_eq_nil (show (utf8 rest).length = 0 by omega)
  have all : path reference = reference := by simpa using behind
  have noDots : ∀ part ∈ segments reference, isDot part = false := by
    have none : (segments (path reference)).countP isDot = 0 := by omega
    rw [all, List.countP_eq_zero] at none
    exact fun part member => by simpa using none part member
  rw [all, removeDotSegments_of_plain noDots] at whole
  rw [← size_segments] at whole
  obtain ⟨noFragment, noQuery⟩ := notMem_of_path_eq all
  exact ⟨noFragment, noQuery, noDots, plain_of_size_octets whole⟩

end

/-! ## URLs -/

/-- Where requests go, with the characters that would end it ruled out. -/
structure Origin where
  scheme : List Char
  authority : List Char
  scheme_colon : ':' ∉ scheme
  authority_slash : '/' ∉ authority
  authority_query : '?' ∉ authority
  authority_fragment : '#' ∉ authority

def Origin.text (origin : Origin) : List Char :=
  origin.scheme ++ "://".toList ++ origin.authority

/-- What is behind the authority of a URL. -/
def reference (url : List Char) : List Char :=
  match url.dropWhile (· != ':') with
  | ':' :: '/' :: '/' :: rest =>
      rest.dropWhile fun char => char != '/' && char != '?' && char != '#'
  | _ => url

theorem reference_origin (origin : Origin) (rest : List Char) :
    reference (origin.text ++ '/' :: rest) = '/' :: rest := by
  have scheme : ∀ char ∈ origin.scheme, (char != ':') = true := by
    intro char member
    simp only [bne_iff_ne, ne_eq]
    rintro rfl
    exact origin.scheme_colon member
  have authority : ∀ char ∈ origin.authority,
      (char != '/' && char != '?' && char != '#') = true := by
    intro char member
    simp only [Bool.and_eq_true, bne_iff_ne, ne_eq]
    refine ⟨⟨?_, ?_⟩, ?_⟩ <;> rintro rfl
    · exact origin.authority_slash member
    · exact origin.authority_query member
    · exact origin.authority_fragment member
  have text : origin.text ++ '/' :: rest =
      origin.scheme ++ ':' :: '/' :: '/' :: (origin.authority ++ '/' :: rest) := by
    simp [Origin.text]
  rw [reference, text, List.dropWhile_append_of_pos scheme]
  show (origin.authority ++ '/' :: rest).dropWhile _ = '/' :: rest
  rw [List.dropWhile_append_of_pos authority]
  rfl

end AgenticEnterprise.Library.Uri
