import AgenticEnterprise.Api.Dependencies
import AgenticEnterprise.Core.Text

/-! Which bucket of the rate limiter a request counts against: `user_key` beside
`get_current_user` in `app/api/v1/auth.py`, and `decode_subject` in
`app/core/security.py`. -/

set_option autoImplicit false

namespace AgenticEnterprise.Api.RateBuckets

open Core

/-- `jwt.decode` at the time of a request, with the `sub` of the tokens it accepts.
A token with something added in front of it or behind it is rejected. -/
structure TokenVerifier where
  decode : String → Option (Option String)
  empty : decode "" = none
  lengthened : ∀ token subject before after, decode token = some subject →
    before ++ after ≠ "" → decode (before ++ token ++ after) = none

/-- `none` is `jwt.InvalidTokenError`. -/
def decodeSubject (jwt : TokenVerifier) (token : String) : Option String :=
  match jwt.decode token with
  | some (some subject) => if subject = "" then none else some subject
  | some none | none => none

structure Request where
  authorization : Option String := none
  client : Option String := none
  jwt : TokenVerifier

/-- `text.partition(" ")`, without the separator. -/
def partition (text : String) : String × String :=
  (String.ofList (text.toList.takeWhile (· ≠ ' ')),
    String.ofList ((text.toList.dropWhile (· ≠ ' ')).drop 1))

/-- `OAuth2PasswordBearer`: the credential that the handlers get. -/
def oauth2Scheme (authorization : Option String) : Option String :=
  match authorization with
  | none => none
  | some header =>
      if header = "" ∨ Text.lower (partition header).1 ≠ "bearer" then none
      else some (Text.strip (partition header).2)

/-- The address of the client, if there is one. -/
def Request.address (request : Request) : String :=
  request.client.getD "anonymous"

def userKey (request : Request) : String :=
  let credentials := partition (request.authorization.getD "")
  if Text.lower credentials.1 = "bearer" ∧ credentials.2 ≠ "" then
    (decodeSubject request.jwt credentials.2).getD request.address
  else request.address

section

variable (deployment : Deployment) (outside : Outside)

/-- Who `get_current_user` takes the request for. -/
def caller (request : Request) : Except Exn String :=
  currentUser deployment { outside with decodeSubject := decodeSubject request.jwt }
    (oauth2Scheme request.authorization)

/-- The buckets that the calls of a limited route count against, in their order. A
request that is not accepted does not get to the limiter. -/
def charges (requests : List Request) : List String :=
  (requests.filter fun request => (caller deployment outside request).toBool).map userKey

/-- Every accepted call of a user counts against the bucket of the user. -/
structure OneBucket (requests : List Request) (username : String) : Prop where
  keyed : ∀ request ∈ requests, caller deployment outside request = .ok username →
    userKey request = username
  counted : requests.countP (fun request =>
      decide ((caller deployment outside request).toOption = some username)) ≤
    (charges deployment outside requests).count username

end

/-- The credentials of the header have no whitespace around them. -/
def Unpadded (request : Request) : Prop :=
  ∀ header, request.authorization = some header →
    Text.strip (partition header).2 = (partition header).2

section

variable {deployment : Deployment} {outside : Outside} {request : Request}
  {requests : List Request} {username : String}

theorem caller_ok_iff :
    caller deployment outside request = .ok username ↔
      ∃ header, request.authorization = some header ∧ header ≠ "" ∧
        Text.lower (partition header).1 = "bearer" ∧
        decodeSubject request.jwt (Text.strip (partition header).2) = some username ∧
        (deployment.getUser username).isSome = true := by
  unfold caller currentUser oauth2Scheme
  cases request.authorization with
  | none => simp
  | some header =>
      by_cases bearer : header = "" ∨ Text.lower (partition header).1 ≠ "bearer"
      · simp only [if_pos bearer]
        refine iff_of_false (by simp) ?_
        rintro ⟨other, same, filled, scheme, _⟩
        cases same
        exact bearer.elim filled fun different => different scheme
      · obtain ⟨filled, scheme⟩ := not_or.mp bearer
        simp only [if_neg bearer]
        cases decoded : decodeSubject request.jwt (Text.strip (partition header).2) with
        | none => simp [decoded]
        | some subject =>
            by_cases known : (deployment.getUser subject).isSome = true
            · simp only [known, if_true, Except.ok.injEq]
              constructor
              · rintro rfl
                exact ⟨header, rfl, filled, not_not.mp scheme, decoded, known⟩
              · rintro ⟨other, same, _, _, again, _⟩
                cases same
                exact Option.some.inj (decoded.symm.trans again)
            · simp only [known]
              refine iff_of_false (by simp) ?_
              rintro ⟨other, same, _, _, again, present⟩
              cases same
              obtain rfl := Option.some.inj (decoded.symm.trans again)
              exact known present

theorem decodeSubject_some {jwt : TokenVerifier} {token subject : String}
    (decoded : decodeSubject jwt token = some subject) :
    jwt.decode token = some (some subject) := by
  unfold decodeSubject at decoded
  split at decoded
  · rename_i found
    split at decoded
    · cases decoded
    · cases decoded
      exact found
  · cases decoded
  · cases decoded

/-- The key of an accepted request is its user, unless its credentials are padded. -/
theorem userKey_eq_iff (accepted : caller deployment outside request = .ok username) :
    userKey request = username ↔ Unpadded request ∨ request.address = username := by
  obtain ⟨header, authorized, _, scheme, decoded, _⟩ := caller_ok_iff.mp accepted
  have verified := decodeSubject_some decoded
  by_cases same : Text.strip (partition header).2 = (partition header).2
  · have filled : (partition header).2 ≠ "" := by
      intro empty
      rw [same, empty, request.jwt.empty] at verified
      cases verified
    have unpadded : Unpadded request := by
      intro other again
      rw [authorized] at again
      cases again
      exact same
    have keyed : userKey request = username := by
      rw [same] at decoded
      simp only [userKey, authorized, Option.getD_some, scheme, filled, ne_eq, not_false_eq_true,
        and_self, if_true, decoded]
    exact iff_of_true keyed (.inl unpadded)
  · have padded : ¬Unpadded request := fun unpadded => same (unpadded header authorized)
    obtain ⟨before, after, split⟩ := Text.strip_split (partition header).2
    have added : before ++ after ≠ "" := by
      intro empty
      obtain ⟨rfl, rfl⟩ := String.append_eq_empty_iff.mp empty
      exact same (by simpa using split.symm)
    have rejected := request.jwt.lengthened _ _ before after verified added
    rw [← split] at rejected
    have refused : decodeSubject request.jwt (partition header).2 = none := by
      simp only [decodeSubject, rejected]
    have byAddress : userKey request = request.address := by
      simp only [userKey, authorized, Option.getD_some, refused, Option.getD_none, ite_self]
    rw [byAddress]
    exact (or_iff_right padded).symm

theorem counted_of_keyed
    (keyed : ∀ request ∈ requests, caller deployment outside request = .ok username →
      userKey request = username) :
    requests.countP (fun request =>
        decide ((caller deployment outside request).toOption = some username)) ≤
      (charges deployment outside requests).count username := by
  rw [charges, List.count, List.countP_map, List.countP_filter]
  refine List.countP_mono_left fun request member named => ?_
  have named : (caller deployment outside request).toOption = some username := by simpa using named
  cases called : caller deployment outside request with
  | error failure =>
      rw [called] at named
      cases named
  | ok subject =>
      rw [called] at named
      cases named
      have key := keyed request member called
      simp [key, Except.toBool]

end

/-- All accepted calls of a user count against one bucket exactly if each of them has
unpadded credentials, or comes from an address that reads like the user. -/
theorem oneBucket_iff (deployment : Deployment) (outside : Outside) (requests : List Request)
    (username : String) :
    OneBucket deployment outside requests username ↔
      ∀ request ∈ requests, caller deployment outside request = .ok username →
        Unpadded request ∨ request.address = username := by
  constructor
  · intro oneBucket request member accepted
    exact (userKey_eq_iff accepted).mp (oneBucket.keyed request member accepted)
  · intro conditions
    have keyed : ∀ request ∈ requests, caller deployment outside request = .ok username →
        userKey request = username := fun request member accepted =>
      (userKey_eq_iff accepted).mpr (conditions request member accepted)
    exact ⟨keyed, counted_of_keyed keyed⟩

/-- A verifier that has issued one token. -/
def issued (token subject : String) (filled : token ≠ "") : TokenVerifier where
  decode other := if other = token then some (some subject) else none
  empty := if_neg (Ne.symm filled)
  lengthened other claimed before after verified added := by
    split at verified
    · rename_i same
      subst same
      refine if_neg fun again => added ?_
      have sizes := congrArg String.length again
      simp only [String.length_append] at sizes
      have front : before.length = 0 := by omega
      have back : after.length = 0 := by omega
      rw [String.length_eq_zero_iff.mp front, String.length_eq_zero_iff.mp back]
      rfl
    · cases verified

/-- Bob's token behind two spaces. -/
def spaced : Request where
  authorization := some "Bearer  token"
  client := some "10.0.0.1"
  jwt := issued "token" "bob" (by decide)

theorem spaced_not_oneBucket :
    ¬OneBucket twoUsers (undisturbed ⟨"", []⟩ ⟨"", []⟩) [spaced] "bob" := by
  have accepted : caller twoUsers (undisturbed ⟨"", []⟩ ⟨"", []⟩) spaced = .ok "bob" := by
    have token : oauth2Scheme spaced.authorization = some "token" := by decide
    rw [caller, token]
    rfl
  intro oneBucket
  have keyed := oneBucket.keyed spaced (by simp) accepted
  exact absurd keyed (by decide)

end AgenticEnterprise.Api.RateBuckets
