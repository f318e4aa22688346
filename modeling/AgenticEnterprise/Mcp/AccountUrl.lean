import AgenticEnterprise.Core.Text
import AgenticEnterprise.Library.Uri
import AgenticEnterprise.Mcp.BalanceAudit

/-! The account that a balance lookup addresses: the URL of `_call_api` in
`app/mcp/finance_server.py` and the route of `internal_api/finance_api.py`.

The identifier is put into the URL as it is. -/

set_option autoImplicit false

namespace AgenticEnterprise.Mcp.AccountUrl

open Core Library BalanceAudit

/-- What the client sends for a URL, unless it refuses it. -/
abbrev Client := String → Option Uri.Request

/-- The client sends what the URL says, and leaves the safe characters as they are. -/
def FollowsUri (safe safeQuery : Char → Bool) (client : Client) : Prop :=
  ∀ url request, client url = some request →
    request = Uri.request safe safeQuery (Uri.reference url.toList)

/-- What the server makes of octets, which is their text if they are one. -/
def DecodesUtf8 (decode : List UInt8 → String) : Prop :=
  ∀ text : String, decode (Uri.utf8 text.toList) = text

section

variable (decode : List UInt8 → String) (balances : String → Option (List (String × Json)))

/-- The `account_id` of `/accounts/{account_id}/balance`. -/
def routed (request : Uri.Request) : Option String :=
  match Uri.segments (decode (Uri.octets request.path)).toList with
  | [root, accounts, accountId, balance] =>
      if root = [] ∧ accounts = "accounts".toList ∧ accountId ≠ [] ∧ balance = "balance".toList then
        some (String.ofList accountId)
      else none
  | _ => none

/-- The body of `get_balance`, for a token that is accepted. -/
def getBalance (accountId : String) : Option Json :=
  (balances accountId).map fun record => .object (("account_id", .string accountId) :: record)

def accountSegments (accountId : String) : List (List Char) :=
  [[], "accounts".toList, accountId.toList, "balance".toList]

/-- No other path, query or resource than the account's is asked for, and the
balance that comes back names the account. -/
def Addressed (client : Client) (origin : Uri.Origin) (accountId : String) : Prop :=
  ∀ request, client (url (String.ofList origin.text) accountId) = some request →
    request.query = none ∧
      request.segments.map Uri.octets = (accountSegments accountId).map Uri.utf8 ∧
      ∀ body, (routed decode request).bind (getBalance balances) = some body →
        body.item "account_id" = .ok (.string (okEvent accountId none).accountId)

end

/-- One path segment that names itself. -/
structure OneSegment (accountId : String) : Prop where
  noSlash : '/' ∉ accountId.toList
  noQuery : '?' ∉ accountId.toList
  noFragment : '#' ∉ accountId.toList
  noDots : accountId ≠ "." ∧ accountId ≠ ".."
  noEscape : Uri.hasEscape accountId.toList = false

/-- What the URL has behind its origin. -/
def accountReference (accountId : String) : List Char :=
  '/' :: ("accounts".toList ++ '/' :: (accountId.toList ++ '/' :: "balance".toList))

section

variable {accountId : String} {origin : Uri.Origin}

theorem accounts_toList : "/accounts/".toList = '/' :: ("accounts".toList ++ ['/']) := by
  decide

theorem balance_toList : "/balance".toList = '/' :: "balance".toList := by
  decide

theorem reference_url :
    Uri.reference (url (String.ofList origin.text) accountId).toList =
      accountReference accountId := by
  have text : (url (String.ofList origin.text) accountId).toList =
      origin.text ++ accountReference accountId := by
    rw [url, String.toList_append, String.toList_append, String.toList_append,
      String.toList_ofList, accounts_toList, balance_toList, accountReference]
    simp only [List.append_assoc, List.cons_append, List.nil_append]
  rw [text]
  exact Uri.reference_origin origin _

theorem segments_accountReference :
    Uri.segments (accountReference accountId) =
      [] :: "accounts".toList :: (Uri.segments accountId.toList ++ ["balance".toList]) := by
  have accounts : '/' ∉ "accounts".toList := by decide
  have balance : '/' ∉ "balance".toList := by decide
  have root := Uri.segments_append_slash [] ("accounts".toList ++ '/' ::
    (accountId.toList ++ '/' :: "balance".toList))
  rw [List.nil_append, ← accountReference] at root
  rw [root, Uri.segments_append_slash, Uri.segments_append_slash,
    Uri.segments_of_notMem accounts, Uri.segments_of_notMem balance]
  rfl

theorem size_accountSegments :
    Uri.size ((accountSegments accountId).map Uri.utf8) =
      (Uri.utf8 (accountReference accountId)).length + 1 := by
  have together : ['/'].intercalate (accountSegments accountId) = accountReference accountId := by
    simp only [accountSegments, accountReference, List.intercalate_cons_cons,
      List.intercalate_singleton, List.nil_append, List.singleton_append, List.append_assoc]
  have some : accountSegments accountId ≠ [] := List.cons_ne_nil _ _
  rw [Uri.size_of_ne_nil some, together]

theorem OneSegment.segments (one : OneSegment accountId) :
    Uri.segments (accountReference accountId) = accountSegments accountId := by
  rw [segments_accountReference, Uri.segments_of_notMem one.noSlash]
  rfl

theorem mem_accountReference {char : Char} (member : char ∈ accountId.toList) :
    char ∈ accountReference accountId := by
  simp [accountReference, member]

theorem oneSegment_of_plain (plain : Uri.Plain (accountReference accountId))
    (four : (Uri.segments (accountReference accountId)).length = 4) : OneSegment accountId := by
  have noSlash : '/' ∉ accountId.toList := by
    refine Uri.notMem_of_segments ?_
    simpa [segments_accountReference] using four
  have own : accountId.toList ∈ Uri.segments (accountReference accountId) := by
    rw [segments_accountReference, Uri.segments_of_notMem noSlash]
    simp
  have notDot := plain.noDots _ own
  refine ⟨noSlash, fun member => plain.noQuery (mem_accountReference member),
    fun member => plain.noFragment (mem_accountReference member), ⟨?_, ?_⟩, plain.noEscapes _ own⟩
  · rintro rfl
    revert notDot
    decide
  · rintro rfl
    revert notDot
    decide

theorem OneSegment.plain (one : OneSegment accountId) :
    Uri.Plain (accountReference accountId) := by
  have parts {holds : List Char → Prop} (root : holds []) (accounts : holds "accounts".toList)
      (own : holds accountId.toList) (balance : holds "balance".toList) :
      ∀ part ∈ Uri.segments (accountReference accountId), holds part := by
    rw [one.segments, accountSegments]
    simpa using ⟨root, accounts, own, balance⟩
  have ownDot : Uri.isDot accountId.toList = false := by
    have dot : ".".toList = ['.'] := by decide
    have dots : "..".toList = ['.', '.'] := by decide
    simp only [Uri.isDot, decide_eq_false_iff_not, not_or]
    rw [← dots, ← dot, String.toList_inj, String.toList_inj]
    exact one.noDots
  have elsewhere {char : Char} (accounts : char ∉ "accounts".toList)
      (balance : char ∉ "balance".toList) (slash : char ≠ '/') (own : char ∉ accountId.toList) :
      char ∉ accountReference accountId := by
    simp only [accountReference, List.mem_cons, List.mem_append, not_or]
    exact ⟨slash, accounts, slash, own, slash, balance⟩
  exact ⟨elsewhere (by decide) (by decide) (by decide) one.noFragment,
    elsewhere (by decide) (by decide) (by decide) one.noQuery,
    parts (by decide) (by decide) ownDot (by decide),
    parts (by decide) (by decide) one.noEscape (by decide)⟩

end

section

variable {safe safeQuery : Char → Bool} {client : Client} {decode : List UInt8 → String}
  {balances : String → Option (List (String × Json))} {origin : Uri.Origin} {accountId : String}

theorem routed_of_oneSegment (one : OneSegment accountId) (decodes : DecodesUtf8 decode)
    {found : String}
    (routes : routed decode (Uri.request safe safeQuery (accountReference accountId)) =
      some found) : found = accountId := by
  have text : (decode (Uri.octets
      (Uri.request safe safeQuery (accountReference accountId)).path)).toList =
        accountReference accountId := by
    have decoded := decodes (String.ofList (accountReference accountId))
    rw [String.toList_ofList] at decoded
    rw [one.plain.octets_path, decoded, String.toList_ofList]
  rw [routed, text, one.segments, accountSegments] at routes
  dsimp only at routes
  split at routes
  · rw [String.ofList_toList, Option.some.injEq] at routes
    exact routes.symm
  · cases routes

/-- A lookup addresses the account it is for exactly if the client refuses its URL or
the identifier is one segment that names itself. -/
theorem addressed_iff (follows : FollowsUri safe safeQuery client)
    (decodes : DecodesUtf8 decode) :
    Addressed decode balances client origin accountId ↔
      client (url (String.ofList origin.text) accountId) = none ∨ OneSegment accountId := by
  constructor
  · intro addressed
    cases sent : client (url (String.ofList origin.text) accountId) with
    | none => exact .inl rfl
    | some request =>
        obtain ⟨_, named, _⟩ := addressed request sent
        have built := follows _ _ sent
        rw [reference_url] at built
        subst built
        have whole := @size_accountSegments accountId
        rw [← named] at whole
        have plain := Uri.plain_of_size (Nat.le_of_eq whole.symm)
        rw [plain.octets_eq] at named
        have four := congrArg List.length named
        rw [List.length_map, List.length_map] at four
        exact .inr (oneSegment_of_plain plain four)
  · intro condition request sent
    have one := condition.resolve_left (by simp [sent])
    have built := follows _ _ sent
    rw [reference_url] at built
    subst built
    refine ⟨by rw [one.plain.request_eq], by rw [one.plain.octets_eq, one.segments], ?_⟩
    intro body answered
    obtain ⟨found, routes, balance⟩ := Option.bind_eq_some_iff.mp answered
    rw [routed_of_oneSegment one decodes routes] at balance
    obtain ⟨record, _, rfl⟩ := Option.map_eq_some_iff.mp balance
    rfl

end

/-! ## Two identifiers -/

def financeApi : Uri.Origin where
  scheme := "http".toList
  authority := "127.0.0.1:8102".toList
  scheme_colon := by decide
  authority_slash := by decide
  authority_query := by decide
  authority_fragment := by decide

def willing : Client := fun url =>
  some (Uri.request (· != ' ') (· != ' ') (Uri.reference url.toList))

theorem willing_follows : FollowsUri (· != ' ') (· != ' ') willing := by
  intro url request sent
  cases sent
  rfl

def decodeText (octets : List UInt8) : String :=
  (String.fromUTF8? octets.toByteArray).getD "\uFFFD"

theorem decodeText_decodes : DecodesUtf8 decodeText := by
  intro text
  have bytes : (Uri.utf8 text.toList).toByteArray = text.toByteArray := by
    rw [← String.utf8Encode_toList]
    rfl
  rw [decodeText, bytes, Text.fromUTF8?_toByteArray, Option.getD_some]

def ledger (accountId : String) : Option (List (String × Json)) :=
  if accountId = "ACC-1001" ∨ accountId = "ACC-2002" then
    some [("balance", .int 100), ("currency", .string "USD")]
  else none

/-- An identifier as the tool describes them is addressed. -/
theorem plain_addressed : Addressed decodeText ledger willing financeApi "ACC-1001" :=
  (addressed_iff willing_follows decodeText_decodes).mpr <| .inr
    { noSlash := by decide, noQuery := by decide, noFragment := by decide, noDots := by decide
      noEscape := by decide }

/-- One with dot segments leads to another account. -/
theorem dotted_not_addressed :
    (∃ request, willing (url (String.ofList financeApi.text) "ACC-1001/../ACC-2002") =
        some request ∧ routed decodeText request = some "ACC-2002") ∧
      ¬Addressed decodeText ledger willing financeApi "ACC-1001/../ACC-2002" := by
  have sent : willing (url (String.ofList financeApi.text) "ACC-1001/../ACC-2002") =
      some ⟨accountSegments "ACC-2002", none⟩ := by
    rw [willing, reference_url]
    decide
  have path : (⟨accountSegments "ACC-2002", none⟩ : Uri.Request).path =
      "/accounts/ACC-2002/balance".toList := by
    decide
  have octets : Uri.octets "/accounts/ACC-2002/balance".toList =
      Uri.utf8 "/accounts/ACC-2002/balance".toList :=
    Uri.octets_eq_utf8 (by decide)
  have routes : routed decodeText ⟨accountSegments "ACC-2002", none⟩ = some "ACC-2002" := by
    rw [routed, path, octets, decodeText_decodes]
    decide
  refine ⟨⟨_, sent, routes⟩, fun addressed => ?_⟩
  obtain ⟨_, named, _⟩ := addressed _ sent
  revert named
  decide

end AgenticEnterprise.Mcp.AccountUrl
