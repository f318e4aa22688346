import AgenticEnterprise.Api.Writes
import AgenticEnterprise.Library.SignedTokens
import Mathlib.Algebra.Order.Floor.Ring
import Mathlib.Data.Rat.Floor

/-! Logins over time: `create_access_token` and `decode_subject` in
`app/core/security.py` behind the routes of the app. The service may be restarted
with other users between requests, the secret stays. -/

set_option autoImplicit false

namespace AgenticEnterprise.Api.AccessTokens

open Core Library

/-! ## `app/core/security.py` -/

/-- The registered claims that are read, `exp` in seconds. -/
structure Claims where
  sub : Option String
  exp : Option Int
  deriving DecidableEq, Repr

/-- `jwt` with the secret and the algorithm of the settings. -/
abbrev Jwt := SignedTokens String Claims

/-- The time of expiry is written down to the second. -/
def loginClaims (expireMinutes : Int) (now : Rat) (subject : String) : Claims where
  sub := some subject
  exp := some ⌊now + expireMinutes * 60⌋

section

variable (jwt : Jwt)

def createAccessToken (expireMinutes : Int) (now : Rat) (subject : String) : String :=
  jwt.sign (loginClaims expireMinutes now subject)

/-- A token without an expiry does not expire. -/
def decode (now : Rat) (token : String) : Option Claims :=
  match jwt.verified token with
  | none => none
  | some claims =>
      match claims.exp with
      | none => some claims
      | some exp => if (exp : Rat) ≤ now then none else some claims

/-- `none` is `jwt.InvalidTokenError`. -/
def decodeSubject (now : Rat) (token : String) : Option String :=
  match decode jwt now token with
  | none => none
  | some claims =>
      match claims.sub with
      | none => none
      | some subject => if subject = "" then none else some subject

end

/-! ## Requests at their times -/

/-- A request with its time and the settings of the process it reaches. -/
structure Moment where
  now : Rat
  expireMinutes : Int := 30
  deployment : Deployment
  request : Request
  outside : Outside

section

variable (jwt : Jwt)

def Moment.exchange (moment : Moment) : Exchange where
  request := moment.request
  outside := { moment.outside with
    decodeSubject := decodeSubject jwt moment.now
    createAccessToken := createAccessToken jwt moment.expireMinutes moment.now }

def Moment.serve (system : System) (moment : Moment) : Served :=
  (moment.exchange jwt).serve moment.deployment system

/-- Who `get_current_user` takes a request for. -/
def Moment.caller (moment : Moment) : Option String :=
  (moment.exchange jwt).caller moment.deployment

/-- The stores that a history of requests leaves. -/
def reachedBy (first : System) (history : List Moment) : System :=
  history.foldl (fun system moment => (moment.serve jwt system).system) first

/-- The access token of a response. -/
def accessToken (response : Response) : Option String :=
  match response.body with
  | .token accessToken _ => some accessToken
  | _ => none

def tokensSent : System → List Moment → List String
  | _, [] => []
  | system, moment :: rest =>
      let served := moment.serve jwt system
      (accessToken served.response).toList ++ tokensSent served.system rest

/-- Any clients, in the order of time, who present what they can make of the tokens
that have been sent to any of them. -/
inductive Clients (derivation : jwt.Derivation) (first : System) : List Moment → Prop where
  | start : Clients derivation first []
  | request {history moment} :
      Clients derivation first history →
      (∀ earlier ∈ history, earlier.now ≤ moment.now) →
      (∀ token, moment.request.token = some token →
        token ∈ derivation.derive {sent | sent ∈ tokensSent jwt first history}) →
      Clients derivation first (history ++ [moment])

end

/-- A login with the password that the user is seeded with. -/
def Moment.LogsIn (moment : Moment) (username : String) : Prop :=
  ∃ password, moment.request.route = .token (some (username, password)) ∧
    moment.deployment.getUser username = some ⟨username, password⟩

/-- The claims of the token that a login is answered with. -/
def Moment.claims (moment : Moment) (username : String) : Claims :=
  loginClaims moment.expireMinutes moment.now username

/-- When the token of a login expires. -/
def Moment.expiry (moment : Moment) : Int :=
  ⌊moment.now + moment.expireMinutes * 60⌋

/-- Among the requests before, the user has logged in, and that not too long ago. -/
def LoggedIn (before : List Moment) (moment : Moment) (username : String) : Prop :=
  ∃ login ∈ before, login.LogsIn username ∧ login.now ≤ moment.now ∧
    moment.now < login.now + login.expireMinutes * 60

section

variable {jwt : Jwt} {derivation : jwt.Derivation} {first system : System}
  {history before after : List Moment} {moment login : Moment} {username token : String}
  {deployment : Deployment} {outside : Outside} {now : Rat}

/-! ## A token and its claims -/

theorem decodeSubject_eq_some_iff :
    decodeSubject jwt now token = some username ↔
      username ≠ "" ∧ ∃ exp, jwt.verified token = some ⟨some username, exp⟩ ∧
        ∀ second, exp = some second → now < second := by
  unfold decodeSubject decode
  cases verified : jwt.verified token with
  | none => simp
  | some claims =>
      obtain ⟨sub, exp⟩ := claims
      have unexpired : (match exp with
          | none => some (⟨sub, exp⟩ : Claims)
          | some second => if (second : Rat) ≤ now then none else some ⟨sub, exp⟩) =
          if ∀ second, exp = some second → now < second then some ⟨sub, exp⟩ else none := by
        cases exp with
        | none => simp
        | some second =>
            by_cases expired : (second : Rat) ≤ now
            · simp [expired, not_lt.mpr expired]
            · simp [expired, not_le.mp expired]
      simp only [unexpired]
      by_cases valid : ∀ second, exp = some second → now < second
      · simp only [if_pos valid]
        cases sub with
        | none => simp
        | some subject =>
            by_cases empty : subject = ""
            · simp only [if_pos empty]
              refine iff_of_false (by simp) ?_
              rintro ⟨named, _, same, _⟩
              cases same
              exact named empty
            · simp only [if_neg empty, Option.some.injEq]
              constructor
              · rintro rfl
                exact ⟨empty, exp, rfl, valid⟩
              · rintro ⟨_, _, same, _⟩
                cases same
                rfl
      · simp only [if_neg valid]
        refine iff_of_false (by simp) ?_
        rintro ⟨_, _, same, unexpired⟩
        cases same
        exact valid unexpired

theorem decodeSubject_of_login
    (verified : jwt.verified token = some (login.claims username)) :
    decodeSubject jwt now token = some username ↔
      username ≠ "" ∧ now < login.expiry := by
  rw [decodeSubject_eq_some_iff, verified]
  refine and_congr_right fun _ => ?_
  constructor
  · rintro ⟨exp, same, unexpired⟩
    obtain ⟨_, rfl⟩ := Claims.mk.inj (Option.some.inj same)
    exact unexpired _ rfl
  · intro unexpired
    refine ⟨_, rfl, fun second same => ?_⟩
    cases same
    exact unexpired

/-! ## Which requests are answered with a token -/

theorem getUser_username {user : User} (found : deployment.getUser username = some user) :
    user.username = username := by
  unfold Deployment.getUser at found
  simpa using List.find?_some found

section

variable {Payload Result : Type} {post : Result → Prop} {responds : Response → Prop}

theorem getDb_returns {body : Handler Result} (returns : Returns post body) :
    Returns post (getDb outside body) := by
  intro state result after ran
  obtain ⟨middle, bodied, _⟩ := getDb_ok ran
  exact returns state result middle bodied

theorem getDbStreaming_returns {body : Handler (Result × Option Exn)}
    (returns : Returns (fun sent => post sent.1) body) :
    Returns post (getDbStreaming outside body) := by
  intro state result after ran
  rw [getDbStreaming_exec] at ran
  rcases bodied : body.exec state with ⟨failure | ⟨sent, _ | broken⟩, middle⟩ <;>
    rw [bodied] at ran <;> cases ran <;> exact returns state _ middle bodied

theorem limited_returns {body : Handler Result} (returns : Returns post body) :
    Returns post (limited outside body) :=
  .bind fun _ => returns

theorem withUser_returns {token : Option String} {payload : Option Payload}
    {handler : Payload → String → Handler Response}
    (returns : ∀ payload username, Returns responds (handler payload username)) :
    Returns responds (withUser deployment outside token payload handler) :=
  .bind fun username => .bind fun payload => returns payload username

theorem withThreadOwner_returns {threadId : String} {token : Option String}
    {payload : Option Payload} {handler : Payload → String → Handler Response}
    (returns : ∀ payload username, Returns responds (handler payload username)) :
    Returns responds (withThreadOwner deployment outside threadId token payload handler) :=
  getDb_returns (.bind fun username => .bind fun payload => returns payload username)

end

theorem login_returns {password : String} :
    Returns
      (fun response => ∀ token, accessToken response = some token →
        deployment.getUser username = some ⟨username, password⟩ ∧
          token = outside.createAccessToken username)
      (Api.login deployment outside username password) := by
  refine .ofExcept fun response answered token sent => ?_
  split at answered
  · cases answered
  · rename_i user found
    split at answered
    · rename_i same
      cases answered
      obtain rfl := getUser_username found
      cases sent
      exact ⟨by rw [found, ← same], rfl⟩
    · cases answered

/-- No route but the login sends a token. -/
theorem handle_accessToken (request : Request) :
    Returns
      (fun response => ∀ token, accessToken response = some token →
        ∃ username password, request.route = .token (some (username, password)) ∧
          deployment.getUser username = some ⟨username, password⟩ ∧
          token = outside.createAccessToken username)
      (handle deployment outside request) := by
  obtain ⟨credential, route⟩ := request
  have plain {action : Handler Response}
      (returns : Returns (fun response => accessToken response = none) action) :
      Returns (fun response => ∀ token, accessToken response = some token →
        ∃ username password, route = .token (some (username, password)) ∧
          deployment.getUser username = some ⟨username, password⟩ ∧
          token = outside.createAccessToken username) action := by
    intro state response after ran token sent
    rw [returns state response after ran] at sent
    cases sent
  cases route with
  | token form =>
      refine .bind_ofExcept fun given valid => ?_
      cases form with
      | none => cases valid
      | some form =>
          cases valid
          intro state response after ran token sent
          obtain ⟨found, rfl⟩ := login_returns state response after ran token sent
          exact ⟨given.1, given.2, rfl, found, rfl⟩
  | root => exact plain (.pure rfl)
  | health => exact plain (.pure rfl)
  | graph => exact plain (.bind fun _ => .pure rfl)
  | graphPng =>
      exact plain (.tryCatch (.bind fun _ => .bind fun _ => .pure rfl) fun _ => .throw _)
  | docs path => exact plain (.pure rfl)
  | smoke payload =>
      refine plain (.bind fun payload => .tryCatch (.bind fun _ => .pure rfl) fun failure => ?_)
      cases failure <;> exact .throw _
  | run payload =>
      refine plain (getDb_returns (withUser_returns fun payload username =>
        limited_returns (.bind fun _ => .tryCatch
          (.bind fun _ => .bind fun _ => .pure rfl) fun failure => ?_)))
      cases failure with
      | graphRecursionError | agenticException => exact .bind fun _ => .throw _
      | _ => exact .throw _
  | runStream payload =>
      exact plain (getDbStreaming_returns (.bind fun _ => .bind fun _ =>
        limited_returns (.bind fun _ => .bind fun _ => .pure rfl)))
  | ask query =>
      refine plain (getDb_returns (withUser_returns fun query username =>
        limited_returns (.bind fun kept => ?_)))
      cases kept with
      | none => exact .bind fun _ => .bind fun _ => .pure rfl
      | some response => exact .pure rfl
  | analyze ticker =>
      refine plain (withUser_returns fun ticker username => .bind fun _ => .bind fun result => ?_)
      cases result.analysis with
      | none => exact .throw _
      | some report => exact .pure rfl
  | research payload =>
      refine plain (withUser_returns fun payload username => .bind fun _ => .bind fun _ =>
        .bind fun thread => .bind fun _ => ?_)
      split
      · exact .throw _
      · exact .throw _
      · split
        · exact .throw _
        · exact .pure rfl
  | conversation conversationId =>
      exact plain (withUser_returns fun _ _ => .bind fun _ => .bind fun _ => .bind fun _ =>
        .pure rfl)
  | history threadId limit =>
      exact plain (withThreadOwner_returns fun _ _ => .bind fun _ => .bind fun _ =>
        .bind fun _ => .bind fun _ => .pure rfl)
  | resume threadId =>
      refine plain (withThreadOwner_returns fun _ _ => .bind fun _ => .bind fun _ =>
        .bind fun thread => ?_)
      split
      · refine .bind fun _ => .bind fun _ => .bind fun _ => .ofExcept fun response answered => ?_
        unfold resumeResponse at answered
        split at answered <;> cases answered
        rfl
      · exact .throw _
  | fork threadId query =>
      exact plain (withThreadOwner_returns fun _ _ => .bind fun _ => .bind fun _ =>
        .bind fun _ => .bind fun _ => .bind fun _ => .bind fun _ => .pure rfl)
  | edit threadId query =>
      refine plain (withThreadOwner_returns fun query _ => ?_)
      unfold editThreadCheckpoint
      split
      · exact .throw _
      · exact .bind fun _ => .bind fun _ => .bind fun _ => .bind fun _ => .bind fun _ =>
          .bind fun _ => .pure rfl
  | branches threadId limit =>
      exact plain (withThreadOwner_returns fun _ _ => .bind fun _ => .bind fun _ =>
        .bind fun _ => .pure rfl)
  | remember threadId text =>
      exact plain (withThreadOwner_returns fun _ _ => .bind fun _ => .bind fun _ =>
        .bind fun _ => .bind fun _ => .bind fun _ => .pure rfl)
  | searchMemory query =>
      exact plain (getDb_returns (withUser_returns fun _ _ => .bind fun _ => .bind fun _ =>
        .bind fun _ => .bind fun _ => .bind fun _ => .pure rfl))
  | gc => exact plain (withUser_returns fun _ _ => .bind fun _ => .bind fun _ =>
      .bind fun _ => .pure rfl)
  | gcStats => exact plain (withUser_returns fun _ _ => .bind fun _ => .bind fun _ => .pure rfl)

theorem serve_accessToken (exchange : Exchange)
    (sent : accessToken (exchange.serve deployment system).response = some token) :
    ∃ username password, exchange.request.route = .token (some (username, password)) ∧
      deployment.getUser username = some ⟨username, password⟩ ∧
      token = exchange.outside.createAccessToken username := by
  unfold Exchange.serve serve at sent
  rcases ran : (handle deployment exchange.outside exchange.request).exec { system := system } with
    ⟨failure | response, after⟩
  · rw [ran] at sent
    cases failure <;> cases sent
  · rw [ran] at sent
    exact handle_accessToken exchange.request _ response after ran token sent

/-- The tokens that are sent are those of logins. -/
theorem tokensSent_signed (sent : token ∈ tokensSent jwt first history) :
    ∃ login ∈ history, ∃ username, login.LogsIn username ∧
      token = jwt.sign (login.claims username) := by
  induction history generalizing first with
  | nil => cases sent
  | cons moment history ih =>
      rcases List.mem_append.mp sent with now | later
      · obtain ⟨username, password, routed, found, rfl⟩ :=
          serve_accessToken (moment.exchange jwt) (Option.mem_toList.mp now)
        exact ⟨moment, .head _, username, ⟨password, routed, found⟩, rfl⟩
      · obtain ⟨login, member, logsIn⟩ := ih later
        exact ⟨login, .tail _ member, logsIn⟩

/-! ## Requests that are not accepted -/

/-- The stores are those of the start and the session is empty. -/
def untouched (system : System) : PartialEquivalence State :=
  .invariant fun state => state.system = system ∧ state.added = []

section

variable {state : State}

theorem rollback_untouched (settled : system.ownership.Settled)
    (same : state.system = system ∧ state.added = []) :
    state.rollback.system = system ∧ state.rollback.added = [] := by
  obtain ⟨rfl, _⟩ := same
  simp [State.rollback, settled.rollback_eq]

theorem commit_untouched (settled : system.ownership.Settled)
    (same : state.system = system ∧ state.added = []) :
    (state.commit outside).system = system ∧ (state.commit outside).added = [] := by
  unfold State.commit
  split
  · exact rollback_untouched settled same
  · obtain ⟨rfl, empty⟩ := same
    simp [empty, settled.commit_eq]

theorem rollbackOnFailure_untouched {Result : Type} {body : Handler Result}
    (settled : system.ownership.Settled) (keeps : (untouched system).Keeps body) :
    (untouched system).Keeps (rollbackOnFailure body) :=
  .tryCatch keeps fun _ =>
    .bind (.write fun same => ⟨same.1, rollback_untouched settled same.1⟩) fun _ => .throw _

theorem getDb_untouched {Result : Type} {body : Handler Result}
    (settled : system.ownership.Settled) (keeps : (untouched system).Keeps body) :
    (untouched system).Keeps (getDb outside body) :=
  .bind (rollbackOnFailure_untouched settled keeps) fun _ =>
    .bind (.write fun same => ⟨same.1, commit_untouched settled same.1⟩) fun _ => .pure _

theorem getDbStreaming_untouched {Result : Type} {body : Handler (Result × Option Exn)}
    (settled : system.ownership.Settled) (keeps : (untouched system).Keeps body) :
    (untouched system).Keeps (getDbStreaming outside body) := by
  refine .bind (rollbackOnFailure_untouched settled keeps) fun result => ?_
  dsimp only
  split
  · exact .bind (.write fun same => ⟨same.1, commit_untouched settled same.1⟩) fun _ => .pure _
  · exact .bind (.write fun same => ⟨same.1, rollback_untouched settled same.1⟩) fun _ => .pure _

end

/-- Whatever is behind `get_current_user` is not reached. -/
theorem getCurrentUser_bind_keeps {credential : Option String} {Result : Type}
    {next : String → Handler Result} {equivalence : PartialEquivalence State}
    (refused : ∀ username, currentUser deployment outside credential ≠ .ok username) :
    equivalence.Keeps (getCurrentUser deployment outside credential >>= next) :=
  .bind_ofExcept fun username accepted => absurd accepted (refused username)

theorem handle_untouched {request : Request} (settled : system.ownership.Settled)
    (refused : ∀ username, currentUser deployment outside request.token ≠ .ok username)
    (ordinary : ∀ payload, request.route ≠ .smoke (some payload)) :
    (untouched system).Keeps (handle deployment outside request) := by
  obtain ⟨credential, route⟩ := request
  have user {Payload : Type} {payload : Option Payload}
      {handler : Payload → String → Handler Response} :
      (untouched system).Keeps (withUser deployment outside credential payload handler) :=
    getCurrentUser_bind_keeps refused
  have owner {threadId : String} {Payload : Type} {payload : Option Payload}
      {handler : Payload → String → Handler Response} :
      (untouched system).Keeps
        (withThreadOwner deployment outside threadId credential payload handler) := by
    refine getDb_untouched settled
      (.bind_yielded (getCurrentUser_bind_keeps refused) fun username passed => ?_)
    obtain ⟨state, after, _, ran⟩ := passed
    exact absurd (requireThreadOwner_ok ran).1 (refused username)
  cases route with
  | root => exact .pure _
  | health => exact .pure _
  | docs path => exact .pure _
  | graph => exact .bind call_keeps fun _ => .pure _
  | graphPng =>
      exact .tryCatch (.bind call_keeps fun _ => .bind call_keeps fun _ => .pure _)
        fun _ => .throw _
  | token form => exact .bind (.ofExcept _) fun _ => .ofExcept _
  | smoke payload =>
      cases payload with
      | none => exact .bind_ofExcept fun _ given => by cases given
      | some payload => exact absurd rfl (ordinary payload)
  | run => exact getDb_untouched settled user
  | runStream => exact getDbStreaming_untouched settled (getCurrentUser_bind_keeps refused)
  | ask => exact getDb_untouched settled user
  | searchMemory => exact getDb_untouched settled user
  | analyze => exact user
  | research => exact user
  | conversation => exact user
  | gc => exact user
  | gcStats => exact user
  | history => exact owner
  | resume => exact owner
  | fork => exact owner
  | edit => exact owner
  | branches => exact owner
  | remember => exact owner

theorem serve_untouched {exchange : Exchange} (settled : system.ownership.Settled)
    (refused : exchange.caller deployment = none)
    (ordinary : ∀ payload, exchange.request.route ≠ .smoke (some payload)) :
    (exchange.serve deployment system).system = system := by
  have kept := @handle_untouched system deployment exchange.outside exchange.request settled
    (fun username accepted => by
      rw [Exchange.caller_eq_some_iff.mpr accepted] at refused
      cases refused)
    ordinary { system := system } ⟨⟨rfl, rfl⟩, rfl, rfl⟩
  exact kept.2.1

/-! ## Histories -/

theorem reachedBy_settled (settled : first.ownership.Settled) :
    (reachedBy jwt first history).ownership.Settled := by
  unfold reachedBy
  induction history generalizing first with
  | nil => exact settled
  | cons moment history ih =>
      exact ih (serve_between settledSession (moment.exchange jwt) settled)

/-- What is known of every request in a history of clients. -/
theorem Clients.at (clients : Clients jwt derivation first history)
    (place : history = before ++ moment :: after) :
    (∀ earlier ∈ before, earlier.now ≤ moment.now) ∧
      ∀ token, moment.request.token = some token →
        token ∈ derivation.derive {sent | sent ∈ tokensSent jwt first before} := by
  induction clients generalizing after with
  | start => simp at place
  | @request history last _ ordered derived ih =>
      rcases List.eq_nil_or_concat after with rfl | ⟨rest, final, rfl⟩
      · obtain ⟨rfl, same⟩ := List.append_inj' place rfl
        cases same
        exact ⟨ordered, derived⟩
      · rw [List.concat_eq_append, ← List.cons_append, ← List.append_assoc] at place
        exact ih (List.append_inj' place rfl).1

/-- The token of an accepted request has been sent to its user. -/
theorem login_of_caller (clients : Clients jwt derivation first history)
    (place : history = before ++ moment :: after) (accepted : moment.caller jwt = some username) :
    (moment.deployment.getUser username).isSome = true ∧ username ≠ "" ∧
      ∃ token, moment.request.token = some token ∧
        ∃ login ∈ before, login.LogsIn username ∧ login.now ≤ moment.now ∧
          jwt.verified token = some (login.claims username) ∧
          moment.now < login.expiry := by
  obtain ⟨ordered, derived⟩ := clients.at place
  have signed (sent : String) (member : sent ∈ tokensSent jwt first before) :
      ∃ claims, (∃ login ∈ before, ∃ name, login.LogsIn name ∧ claims = login.claims name) ∧
        sent = jwt.sign claims := by
    obtain ⟨login, earlier, name, logsIn, rfl⟩ := tokensSent_signed member
    exact ⟨_, ⟨login, earlier, name, logsIn, rfl⟩, rfl⟩
  have current := Exchange.caller_eq_some_iff.mp accepted
  unfold currentUser at current
  split at current
  · cases current
  · rename_i token presented
    split at current
    · cases current
    · rename_i subject decoded
      split at current
      · rename_i known
        cases current
        obtain ⟨filled, exp, verified, unexpired⟩ := decodeSubject_eq_some_iff.mp decoded
        obtain ⟨login, member, name, logsIn, claims⟩ := derivation.signed
          (fun claims => ∃ login ∈ before, ∃ name, login.LogsIn name ∧ claims = login.claims name)
          signed (derived token presented) verified
        obtain ⟨named, rfl⟩ := Claims.mk.inj claims
        cases named
        exact ⟨known, filled, token, presented, login, member, logsIn, ordered login member,
          verified, unexpired _ rfl⟩
      · cases current

theorem caller_of_login (known : (moment.deployment.getUser username).isSome = true)
    (named : username ≠ "") (presented : moment.request.token = some token)
    (verified : jwt.verified token = some (login.claims username))
    (unexpired : moment.now < login.expiry) :
    moment.caller jwt = some username := by
  have decoded : decodeSubject jwt moment.now token = some username :=
    (decodeSubject_of_login verified).mpr ⟨named, unexpired⟩
  refine Exchange.caller_eq_some_iff.mpr ?_
  simp only [Moment.exchange, currentUser, presented, decoded, known, if_true]

theorem login_response (logsIn : login.LogsIn username) :
    accessToken (login.serve jwt system).response = some (jwt.sign (login.claims username)) := by
  obtain ⟨password, routed, found⟩ := logsIn
  simp only [Moment.serve, Moment.exchange, Exchange.serve, serve, handle, routed, validated,
    Api.login, found, Effect.exec_bind, Effect.exec_ofExcept, if_true, accessToken,
    createAccessToken, Moment.claims]

end

/-! ## A login and what comes of it -/

/-- The number of seconds in unary, a mark, and the subject. -/
def spelled (claims : Claims) : List Char :=
  let subject :=
    match claims.sub with
    | none => []
    | some subject => '.' :: subject.toList
  match claims.exp with
  | none => '-' :: subject
  | some (.ofNat seconds) => List.replicate seconds '1' ++ '+' :: subject
  | some (.negSucc seconds) => List.replicate seconds '1' ++ '_' :: subject

def readSubject : List Char → Option (Option String)
  | [] => some none
  | '.' :: subject => some (some (String.ofList subject))
  | _ => none

def readClaims (text : List Char) : Option Claims :=
  let seconds := (text.takeWhile (· = '1')).length
  match text.dropWhile (· = '1') with
  | '-' :: subject => (readSubject subject).map fun sub => ⟨sub, none⟩
  | '+' :: subject => (readSubject subject).map fun sub => ⟨sub, some (.ofNat seconds)⟩
  | '_' :: subject => (readSubject subject).map fun sub => ⟨sub, some (.negSucc seconds)⟩
  | _ => none

theorem readClaims_spelled (claims : Claims) : readClaims (spelled claims) = some claims := by
  obtain ⟨sub, exp⟩ := claims
  rcases exp with _ | seconds | seconds <;> cases sub <;>
    simp [spelled, readClaims, readSubject]

/-- Tokens that nobody writes without the key, since nobody else does. -/
def plainTokens : Jwt where
  sign claims := String.ofList (spelled claims)
  verified token := readClaims token.toList
  verified_sign claims := by simp [readClaims_spelled]

def bobLogin : Moment where
  now := 0
  deployment := twoUsers
  request := { route := .token (some ("bob", "second")) }
  outside := undisturbed ⟨"", []⟩ ⟨"", []⟩

/-- A sweep that is asked for with the token of the login. -/
def bobSweep (now : Rat) : Moment where
  now := now
  deployment := twoUsers
  request :=
    { token := some (plainTokens.sign (bobLogin.claims "bob"))
      route := .gc }
  outside := { undisturbed ⟨"", []⟩ ⟨"", []⟩ with staleThreads := ["notes"] }

theorem bob_logs_in : bobLogin.LogsIn "bob" :=
  ⟨"second", rfl, by decide⟩

theorem bob_clients {now : Rat} (later : 0 ≤ now) :
    Clients plainTokens plainTokens.strongest {} [bobLogin, bobSweep now] := by
  have first : Clients plainTokens plainTokens.strongest {} [bobLogin] :=
    .request .start (List.forall_mem_nil _) fun _ presented => by cases presented
  refine first.request ?_ ?_
  · simpa [bobLogin, bobSweep] using later
  · intro token presented claims verified
    obtain rfl := Option.some.inj presented
    refine ⟨_, ?_, verified⟩
    simp [tokensSent, login_response bob_logs_in]

/-! ## What clients can do -/

/-- Any request of any clients is accepted exactly as long as it presents the claims of
a token that was sent to a login of a user who is still there. -/
theorem token_accepted_iff {jwt : Jwt} {derivation : jwt.Derivation} {first : System}
    {history before after : List Moment} {moment : Moment} {username token : String}
    (clients : Clients jwt derivation first history)
    (place : history = before ++ moment :: after)
    (presented : moment.request.token = some token) :
    moment.caller jwt = some username ↔
      username ≠ "" ∧ (moment.deployment.getUser username).isSome = true ∧
        ∃ earlier login between sent, before = earlier ++ login :: between ∧
          login.LogsIn username ∧
          accessToken (login.serve jwt (reachedBy jwt first earlier)).response = some sent ∧
          jwt.verified token = jwt.verified sent ∧
          moment.now < login.expiry := by
  constructor
  · intro accepted
    obtain ⟨known, named, other, same, login, member, logsIn, _, verified, unexpired⟩ :=
      login_of_caller clients place accepted
    obtain rfl := Option.some.inj (presented.symm.trans same)
    obtain ⟨earlier, between, split⟩ := List.append_of_mem member
    refine ⟨named, known, earlier, login, between, _, split, logsIn, login_response logsIn, ?_,
      unexpired⟩
    rw [verified, jwt.verified_sign]
  · rintro ⟨named, known, earlier, login, between, sent, _, logsIn, answered, verified, unexpired⟩
    obtain rfl := Option.some.inj (answered.symm.trans (login_response logsIn))
    rw [jwt.verified_sign] at verified
    exact caller_of_login known named presented verified unexpired

theorem bob_accepted : (bobSweep 60).caller plainTokens = some "bob" :=
  have place : [bobLogin, bobSweep 60] = [bobLogin] ++ bobSweep 60 :: [] := rfl
  (token_accepted_iff (bob_clients (by norm_num)) place rfl).mpr
    ⟨by decide, by decide, [], bobLogin, [], _, rfl, bob_logs_in, login_response bob_logs_in, rfl,
      by norm_num [Moment.expiry, bobLogin, bobSweep]⟩

/-- Apart from the smoke test, a request leaves the stores as they are unless its user
has logged in before. Then it writes what its route permits that user, and its session
the route's own rows and that user's claim on the checked thread at most. -/
theorem acts_for_logged_in {jwt : Jwt} {derivation : jwt.Derivation} {first : System}
    {history before after : List Moment} {moment : Moment}
    (settled : first.ownership.Settled) (clients : Clients jwt derivation first history)
    (place : history = before ++ moment :: after) :
    let system := reachedBy jwt first before
    let served := moment.serve jwt system
    served.system = system ∨ (∃ payload, moment.request.route = .smoke (some payload)) ∨
      ∃ username, LoggedIn before moment username ∧
        ∃ writes,
          (∀ write ∈ writes,
            Permits (moment.exchange jwt).outside username moment.request.route write ∨
              ∃ table rows, write = .session table rows ∧
                (∀ row ∈ rows, Records moment.request.route row) ∧
                ClaimsAtMost (.ok username) moment.request.route system.ownership table) ∧
          Runs (Written moment.deployment (moment.exchange jwt).outside) system writes
            served.system := by
  intro system served
  by_cases smoke : ∃ payload, moment.request.route = .smoke (some payload)
  · exact .inr (.inl smoke)
  cases accepted : moment.caller jwt with
  | none =>
      exact .inl (serve_untouched (reachedBy_settled settled) accepted
        fun payload routed => smoke ⟨payload, routed⟩)
  | some username =>
      obtain ⟨_, _, _, _, login, member, logsIn, ordered, _, unexpired⟩ :=
        login_of_caller clients place accepted
      have recent : moment.now < login.now + login.expireMinutes * 60 :=
        lt_of_lt_of_le unexpired (Int.floor_le _)
      obtain ⟨writes, allowed, written⟩ :=
        serve_writes_claims moment.deployment system (moment.exchange jwt)
          (reachedBy_settled settled)
      refine .inr (.inr ⟨username, ⟨login, member, logsIn, ordered, recent⟩, writes,
        fun write written => ?_, written⟩)
      obtain ⟨permitted, claimed⟩ := allowed write written
      cases permitted with
      | smoke routed => exact absurd ⟨_, routed⟩ smoke
      | session recorded =>
          rw [Exchange.caller_eq_some_iff.mp accepted] at claimed
          exact .inr ⟨_, _, rfl, recorded, claimed _ _ rfl⟩
      | user current permits =>
          have same := Exchange.caller_eq_some_iff.mpr current
          obtain rfl := Option.some.inj (same.symm.trans accepted)
          exact .inl permits

theorem late_sweep_idle :
    ((bobSweep 1800).serve plainTokens (reachedBy plainTokens {} [bobLogin])).system =
      reachedBy plainTokens {} [bobLogin] := by
  have place : [bobLogin, bobSweep 1800] = [bobLogin] ++ bobSweep 1800 :: [] := rfl
  rcases acts_for_logged_in (fun _ member => by cases member) (bob_clients (by norm_num)) place with
    unchanged | ⟨payload, routed⟩ | ⟨username, ⟨login, member, _, _, recent⟩, _⟩
  · exact unchanged
  · cases routed
  · obtain rfl := List.mem_singleton.mp member
    norm_num [bobLogin, bobSweep] at recent

end AgenticEnterprise.Api.AccessTokens
