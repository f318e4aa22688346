import AgenticEnterprise.Api.Analysis
import AgenticEnterprise.Api.Isolation
import AgenticEnterprise.Api.OpenRoutes

/-! Whose answers the cache of `/ask` hands out.

A key joins the username and the query with a colon, and both may contain one. -/

set_option autoImplicit false

namespace AgenticEnterprise.Api.AskCache

open Core Library Graph Engine Threads PartialEquivalence Isolation OwnedEffects NodeOrder Analysis

/-! ## Hits and answers -/

/-- An `/ask` that is accepted from the user. -/
structure Asks (deployment : Deployment) (exchange : Exchange) (username query : String) :
    Prop where
  caller : exchange.caller deployment = some username
  route : exchange.request.route = .ask (some query)

structure FromCache (deployment : Deployment) (system : System) (exchange : Exchange)
    (username query : String) (response : AskResponse) : Prop
    extends Asks deployment exchange username query where
  admitted : exchange.outside.fault .limiter = none
  reachable : exchange.outside.cacheAnswers = true
  kept : system.cache (askCacheKey username query) = some response

/-- The answer is the one of the run that the request made. -/
structure Computed (deployment : Deployment) (system : System) (exchange : Exchange)
    (username query : String) (response : AskResponse) : Prop
    extends Asks deployment exchange username query where
  missed : exchange.outside.cacheAnswers = true →
    system.cache (askCacheKey username query) = none
  answered : (exchange.serve deployment system).response = { body := .ask response }

/-- Whatever the cache answers a user with was computed by an earlier request of the
same user with the same query. -/
def OwnAnswers (deployment : Deployment) (first : System) (history : List Exchange) : Prop :=
  ∀ before exchange after username query response, history = before ++ exchange :: after →
    FromCache deployment (reached deployment first before) exchange username query response →
    ∃ front earlier back, before = front ++ earlier :: back ∧
      Computed deployment (reached deployment first front) earlier username query response

/-- No account is named like another one with a colon and something behind it. -/
def NamesApart (deployment : Deployment) : Prop :=
  ∀ first second rest, (deployment.getUser first).isSome = true →
    (deployment.getUser second).isSome = true → second ≠ first ++ ":" ++ rest

/-! ## What a request does to the cache -/

def sameCache : PartialEquivalence State :=
  .same fun state => state.system.cache

section

variable {deployment : Deployment} {outside : Outside} {system first : System} {state : State}
  {token : Option String} {route : Route} {exchange : Exchange} {username query : String}
  {response : AskResponse} {history : List Exchange}

theorem commit_cache : (state.commit outside).system.cache = state.system.cache := by
  unfold State.commit
  split <;> rfl

theorem sameCache_ignores (other : ∀ query, route ≠ .ask (some query)) :
    Ignores sameCache deployment outside token route where
  runs _ _ _ := ⟨fun _ _ => .write fun same => same, fun _ => .write fun same => same⟩
  cache _ asks := absurd asks (other _)
  memory _ _ := .write fun same => same
  session _ := .write fun same => same
  claim _ := by
    unfold Api.claimOrCheck
    split
    · exact .pure _
    · refine .bind call_keeps fun _ => .bind (.read _) fun table => ?_
      split
      · exact .throw _
      · exact .bind (.write fun same => same) fun _ => .pure _
  commit := .write fun _ => commit_cache.symm
  rollback := .write fun same => same

theorem handle_keeps_cache (other : ∀ query, route ≠ .ask (some query)) :
    sameCache.Keeps (handle deployment outside { token := token, route := route }) := by
  cases listed : usesThreads route with
  | true => exact (sameCache_ignores other).handle_keeps listed
  | false =>
      cases route with
      | root => exact .pure _
      | health => exact .pure _
      | docs path => exact .pure _
      | graph => exact .bind call_keeps fun _ => .pure _
      | graphPng =>
          exact .tryCatch (.bind call_keeps fun _ => .bind call_keeps fun _ => .pure _)
            fun _ => .throw _
      | smoke payload =>
          exact .bind (.ofExcept _) fun _ =>
            runSmokeTest_keeps fun _ _ => .write fun same => same
      | token form => exact .bind (.ofExcept _) fun _ => .ofExcept _
      | analyze ticker =>
          exact withUser_keeps fun _ _ _ _ =>
            analyzeInvestment_keeps fun _ _ => .write fun same => same
      | searchMemory query =>
          have ignores : Ignores sameCache deployment outside token (.searchMemory query) :=
            sameCache_ignores other
          exact ignores.getDb (withUser_keeps fun _ _ _ _ => searchMemory_keeps)
      | gc =>
          exact withUser_keeps fun _ _ _ _ => .bind call_keeps fun _ => .bind call_keeps fun _ =>
            .bind (.write fun same => same) fun _ => .pure _
      | gcStats =>
          exact withUser_keeps fun _ _ _ _ => .bind call_keeps fun _ => .bind call_keeps fun _ =>
            .pure _
      | _ => cases listed

/-- Without an entry the handler runs the graph and keeps what it answers. -/
theorem ask_missed (missed : (if outside.cacheAnswers = true then
      state.system.cache (askCacheKey username query) else none) = none) :
    (ask deployment outside query username).exec state =
      match (answer deployment outside { username := username } (askThreadId username)
          (some [.human query]) "").exec state with
      | (.error failure, after) => (.error failure, after)
      | (.ok output, after) =>
          (.ok { body := .ask ⟨query, output⟩ },
            ((setCached outside (askCacheKey username query) ⟨query, output⟩).exec after).2) := by
  simp only [ask, cached, Effect.exec_bind, Effect.exec_read, missed]
  rcases (answer deployment outside { username := username } (askThreadId username)
    (some [.human query]) "").exec state with ⟨failure | output, after⟩
  · rfl
  · rfl

theorem answer_keeps_cache :
    ((answer deployment outside { username := username } (askThreadId username)
      (some [.human query]) "").exec state).2.system.cache = state.system.cache := by
  have runs : IgnoresRuns sameCache (askThreadId username) := fun _ _ => .write fun same => same
  exact (answer_keeps runs state rfl).symm

/-- The handler leaves the cache alone, or computes an answer and keeps it. -/
theorem ask_cache :
    ((ask deployment outside query username).exec state).2.system.cache = state.system.cache ∨
      ∃ output,
        ((ask deployment outside query username).exec state).1 =
          .ok { body := .ask ⟨query, output⟩ } ∧
        (outside.cacheAnswers = true → state.system.cache (askCacheKey username query) = none) ∧
        ((ask deployment outside query username).exec state).2.system.cache =
          Function.update state.system.cache (askCacheKey username query)
            (some ⟨query, output⟩) := by
  cases missed : if outside.cacheAnswers = true then
      state.system.cache (askCacheKey username query) else none with
  | some response =>
      left
      simp only [ask, cached, Effect.exec_bind, Effect.exec_read, missed]
      rfl
  | none =>
      have absent (answers : outside.cacheAnswers = true) :
          state.system.cache (askCacheKey username query) = none := by
        rwa [if_pos answers] at missed
      have kept := @answer_keeps_cache deployment outside state username query
      rw [ask_missed missed]
      generalize (answer deployment outside { username := username } (askThreadId username)
        (some [.human query]) "").exec state = ran at kept ⊢
      obtain ⟨failure | output, after⟩ := ran
      · exact .inl kept
      · cases stores : outside.cacheStores with
        | false => exact .inl (by simpa [setCached, stores] using kept)
        | true =>
            refine .inr ⟨output, rfl, absent, ?_⟩
            simp only [setCached, Effect.exec_write, stores, if_true]
            rw [← kept]

/-- The session of an accepted `/ask` spans the limiter and the handler. -/
theorem serve_ask (asks : Asks deployment exchange username query) :
    (exchange.serve deployment system).response =
        (match ((limited exchange.outside
            (ask deployment exchange.outside query username)).exec { system := system }).1 with
        | .ok response => response
        | .error failure => errorResponse failure) ∧
      (exchange.serve deployment system).system.cache =
        ((limited exchange.outside (ask deployment exchange.outside query username)).exec
          { system := system }).2.system.cache := by
  obtain ⟨⟨token, route⟩, outside⟩ := exchange
  obtain ⟨known, rfl⟩ := asks
  have called := Exchange.caller_eq_some_iff.mp known
  have body : (withUser deployment outside token (some query) fun query username =>
      limited outside (ask deployment outside query username)).exec { system := system } =
        (limited outside (ask deployment outside query username)).exec { system := system } :=
    withUser_exec called _ _
  simp only [Exchange.serve, serve, handle, getDb_exec, body]
  rcases (limited outside (ask deployment outside query username)).exec { system := system } with
    ⟨failure | response, after⟩
  · exact ⟨rfl, rfl⟩
  · exact ⟨rfl, commit_cache⟩

theorem serve_refused (refused : exchange.caller deployment = none)
    (route : exchange.request.route = .ask (some query)) :
    (exchange.serve deployment system).system.cache = system.cache := by
  obtain ⟨⟨token, route⟩, outside⟩ := exchange
  subst route
  have failed : ∃ failure, currentUser deployment outside token = .error failure := by
    cases called : currentUser deployment outside token with
    | error failure => exact ⟨failure, rfl⟩
    | ok username =>
        rw [Exchange.caller_eq_some_iff.mpr called] at refused
        cases refused
  obtain ⟨failure, called⟩ := failed
  simp only [Exchange.serve, serve, handle, getDb_exec, withUser, getCurrentUser,
    Effect.exec_bind, Effect.exec_ofExcept, called]
  rfl

/-- A request leaves the cache alone, or computes an answer and keeps it. -/
theorem cache_of_serve :
    (exchange.serve deployment system).system.cache = system.cache ∨
      ∃ username query response,
        Computed deployment system exchange username query response ∧
        (exchange.serve deployment system).system.cache =
          Function.update system.cache (askCacheKey username query) (some response) := by
  by_cases asking : ∃ query, exchange.request.route = .ask (some query)
  · obtain ⟨query, route⟩ := asking
    cases called : exchange.caller deployment with
    | none => exact .inl (serve_refused called route)
    | some username =>
        have asks : Asks deployment exchange username query := ⟨called, route⟩
        obtain ⟨told, kept⟩ := @serve_ask _ system _ _ _ asks
        rw [kept]
        cases admitted : exchange.outside.fault .limiter with
        | some failure =>
            left
            simp only [limited, call, admitted, Effect.exec_bind, Effect.exec_ofExcept]
        | none =>
            have handler := @limited_exec exchange.outside { system := system } _
              (ask deployment exchange.outside query username) admitted
            rw [handler] at told kept ⊢
            rcases @ask_cache deployment exchange.outside { system := system } username query with
              same | ⟨output, answered, missed, stored⟩
            · exact .inl same
            · rw [answered] at told
              exact .inr ⟨username, query, ⟨query, output⟩, ⟨asks, missed, told⟩, stored⟩
  · left
    obtain ⟨⟨token, route⟩, outside⟩ := exchange
    have other : ∀ query, route ≠ .ask (some query) := fun query same => asking ⟨query, same⟩
    exact (handle_keeps_cache other { system := system } rfl).symm

/-! ## Where cached answers come from -/

/-- Every entry was computed by an earlier request, whose key it is kept under. -/
def Traced (deployment : Deployment) (first : System) (history : List Exchange) : Prop :=
  ∀ key response, (reached deployment first history).cache key = some response →
    ∃ front earlier back username query, history = front ++ earlier :: back ∧
      Computed deployment (reached deployment first front) earlier username query response ∧
      key = askCacheKey username query

theorem reached_concat :
    reached deployment first (history ++ [exchange]) =
      (exchange.serve deployment (reached deployment first history)).system := by
  rw [reached_append]
  rfl

theorem traced_of_history (empty : ∀ key, first.cache key = none) (history : List Exchange) :
    Traced deployment first history := by
  induction history using List.reverseRecOn with
  | nil =>
      intro key response found
      rw [show reached deployment first [] = first from rfl, empty] at found
      cases found
  | append_singleton history exchange ih =>
      intro key response found
      have earlier (old : (reached deployment first history).cache key = some response) :
          ∃ front earlier back username query, history ++ [exchange] = front ++ earlier :: back ∧
            Computed deployment (reached deployment first front) earlier username query response ∧
            key = askCacheKey username query := by
        obtain ⟨front, earlier, back, username, query, rfl, computed, named⟩ := ih key response old
        exact ⟨front, earlier, back ++ [exchange], username, query, by simp, computed, named⟩
      rw [reached_concat] at found
      rcases @cache_of_serve deployment (reached deployment first history) exchange with
        same | ⟨username, query, answer, computed, stored⟩
      · exact earlier (same ▸ found)
      · rw [stored] at found
        by_cases own : key = askCacheKey username query
        · subst own
          rw [Function.update_self] at found
          cases found
          exact ⟨history, exchange, [], username, query, rfl, computed, rfl⟩
        · rw [Function.update_of_ne own] at found
          exact earlier found

/-! ## The keys -/

/-- Where no name extends another one, the key determines the name and the query. -/
theorem askCacheKey_inj (apart : NamesApart deployment) {other : String} {otherQuery : String}
    (known : (deployment.getUser username).isSome = true)
    (otherKnown : (deployment.getUser other).isSome = true)
    (same : askCacheKey username query = askCacheKey other otherQuery) :
    username = other ∧ query = otherQuery := by
  have lists := congrArg String.toList same
  rw [askCacheKey_toList, askCacheKey_toList, List.append_cancel_left_eq] at lists
  have names : username = other := by
    rcases Text.extension_of_append_mark lists with equal | ⟨more, extended⟩ | ⟨more, extended⟩
    · exact String.toList_inj.mp equal
    · have different := apart username other (String.ofList more) known otherKnown
      exact absurd (String.toList_inj.mp (by simp [extended])) different
    · have different := apart other username (String.ofList more) otherKnown known
      exact absurd (String.toList_inj.mp (by simp [extended])) different
  subst names
  refine ⟨rfl, String.toList_inj.mp ?_⟩
  exact (List.cons.inj (List.append_cancel_left lists)).2

theorem ownAnswers_of_apart (apart : NamesApart deployment) (empty : ∀ key, first.cache key = none)
    (history : List Exchange) : OwnAnswers deployment first history := by
  intro before exchange after username query response split served
  obtain ⟨front, earlier, back, other, otherQuery, listed, computed, named⟩ :=
    traced_of_history empty before _ _ served.kept
  have known := currentUser_known (Exchange.caller_eq_some_iff.mp served.caller)
  have otherKnown := currentUser_known (Exchange.caller_eq_some_iff.mp computed.caller)
  obtain ⟨rfl, rfl⟩ := askCacheKey_inj apart known otherKnown named
  exact ⟨front, earlier, back, listed, computed⟩

end

/-! ## A name that extends another one -/

/-- The models answer, and nothing fails. -/
def replying : Outside :=
  undisturbed ⟨"done", []⟩ ⟨"done", []⟩

def askAs (username query : String) : Exchange where
  request := { token := some username, route := .ask (some query) }
  outside := replying

section

variable {deployment : Deployment} {system : System} {inputs : RunInputs} {state : State}
  {username query rest : String} {values : GraphState} {index : Nat}

theorem askAs_asks (known : (deployment.getUser username).isSome = true) :
    Asks deployment (askAs username query) username query where
  caller := by
    refine Exchange.caller_eq_some_iff.mpr ?_
    simp [currentUser, askAs, replying, undisturbed, known]
  route := rfl

theorem classify_deploy (named : "deploy".toList <:+: (Text.lower query).toList) :
    classify query = .technical := by
  have technical : Text.containsAny (Text.lower query) technicalWords = true := by
    rw [Text.containsAny, List.any_eq_true]
    exact ⟨"deploy", .head _, Text.contains_iff_infix.mpr named⟩
  simp [classify, technical]

theorem lower_deploy : "deploy".toList <:+: (Text.lower (rest ++ ":" ++ "deploy")).toList := by
  refine ⟨((rest ++ ":").toList.flatMap Text.lowerChar), [], ?_⟩
  simp [Text.lower, Text.lowerChar]

/-- The agent answers and calls no tool. -/
theorem agent_outcome :
    ∃ final, (superstep (environment deployment replying { username := username } inputs index)
        values (.node .agent)).outcome = .ok ⟨final, none⟩ ∧
      lastMessage final = .ok (.ai "done" []) := by
  refine ⟨values.apply
    { messages := [.ai "done" []]
      status := some "completed"
      internalLogs := ["agent: model call complete"] }, ?_, ?_⟩
  · have replied : (environment deployment replying { username := username } inputs
        index).context.toolLlm = some fun _ => .ok ⟨"done", []⟩ := rfl
    simp [superstep, runNode, callModel, replied, nextNode, toolsCondition, GraphState.apply,
      Reply.message, Message.toolCalls, pure, Except.pure, bind, Except.bind]
  · exact lastMessage_eq_ok_iff.mpr (by simp [GraphState.apply])

theorem retrieved_replies (empty : inputs.memory = none) :
    Analysis.retrieved (environment deployment replying { username := username } inputs index)
      query = .ok [] := by
  have hits : retrievedHits
      (environment deployment replying { username := username } inputs index) query = .ok [] := by
    have served : retrievedHits
        (environment deployment replying { username := username } inputs index) query =
          if Ownership.isAdmin deployment.settings username = true then
            Memory.VectorStore.search replying.embedder replying.ranking inputs.memory query 2 none
          else
            Memory.VectorStore.search replying.embedder replying.ranking inputs.memory query 2
              (some (Ownership.ownedThreadIds transaction inputs.ownership username)) := rfl
    rw [served, empty]
    split
    · rfl
    · rfl
  rw [Analysis.retrieved, hits]
  rfl

theorem answer_replies (technical : classify query = .technical)
    (empty : state.system.memory = none) :
    ((answer deployment replying { username := username } (askThreadId username)
      (some [.human query]) "").exec state).1 = .ok "done" := by
  have retrieving := @retriever_outcome _
    (load (state.system.threads (askThreadId username)) none).checkpoint.values _ _
    (@retrieved_replies deployment (state.runInputs (askThreadId username)) username query 2 empty)
  rw [technical, firstWorker] at retrieving
  obtain ⟨final, answering, last⟩ := @agent_outcome deployment
    (state.runInputs (askThreadId username)) username
    (withFacts (routed
      (load (state.system.threads (askThreadId username)) none).checkpoint.values query) []) 3
  have run : (runOn deployment replying { username := username } (some [.human query]) ""
      (state.runInputs (askThreadId username))).1.result = .ok final := by
    have started : (runOn deployment replying { username := username } (some [.human query]) ""
        (state.runInputs (askThreadId username))).1 =
        execute (21 + 4) (environment deployment replying { username := username }
          (state.runInputs (askThreadId username)))
          ⟨(load (state.system.threads (askThreadId username)) none).checkpoint.values,
            some (.input [.human query])⟩ := rfl
    rw [started, execute_to_retriever, execute_step retrieving, execute_step answering]
    rfl
  rw [answer_exec]
  have builds : replying.fault .buildWorkflow = none := rfl
  have loads : replying.fault .getTools = none := rfl
  simp only [builds, loads, run, Outside.ending, bind, Except.bind, last, Except.map,
    Message.content]

/-- The answer is computed and kept. -/
theorem askAs_kept (known : (deployment.getUser username).isSome = true)
    (named : "deploy".toList <:+: (Text.lower query).toList) (empty : system.memory = none)
    (missed : system.cache (askCacheKey username query) = none) :
    ((askAs username query).serve deployment system).system.cache (askCacheKey username query) =
      some ⟨query, "done"⟩ := by
  have asks := @askAs_asks deployment username query known
  have answered := @answer_replies deployment { system := system } username query
    (classify_deploy named) empty
  have handler := @ask_missed deployment replying { system := system } username query
    (by simpa using fun _ => missed)
  have outside : (askAs username query).outside = replying := rfl
  rw [(@serve_ask _ system _ _ _ asks).2, outside,
    @limited_exec replying { system := system } _ _ rfl, handler]
  generalize (answer deployment replying { username := username } (askThreadId username)
    (some [.human query]) "").exec { system := system } = ran at answered ⊢
  obtain ⟨result, after⟩ := ran
  cases answered
  simp [setCached, replying, undisturbed]

theorem askCacheKey_shifted :
    askCacheKey (username ++ ":" ++ rest) query = askCacheKey username (rest ++ ":" ++ query) := by
  apply String.toList_injective
  simp [askCacheKey_toList]

/-- The user with the shorter name asks first, and the other one is answered with that. -/
theorem crosses_of_extension (known : (deployment.getUser username).isSome = true)
    (extended : (deployment.getUser (username ++ ":" ++ rest)).isSome = true) :
    ¬ OwnAnswers deployment {}
      [askAs username (rest ++ ":" ++ "deploy"), askAs (username ++ ":" ++ rest) "deploy"] := by
  intro own
  have kept := @askAs_kept deployment {} username (rest ++ ":" ++ "deploy") known lower_deploy rfl
    rfl
  have served : FromCache deployment
      (reached deployment {} [askAs username (rest ++ ":" ++ "deploy")])
      (askAs (username ++ ":" ++ rest) "deploy") (username ++ ":" ++ rest) "deploy"
      ⟨rest ++ ":" ++ "deploy", "done"⟩ :=
    { askAs_asks extended with
      admitted := rfl
      reachable := rfl
      kept := askCacheKey_shifted ▸ kept }
  obtain ⟨front, earlier, back, split, computed⟩ := own _ _ _ _ _ _ rfl served
  have first : earlier = askAs username (rest ++ ":" ++ "deploy") := by
    have member : earlier ∈ [askAs username (rest ++ ":" ++ "deploy")] := by simp [split]
    exact List.mem_singleton.mp member
  subst first
  have same : username = username ++ ":" ++ rest :=
    Option.some.inj ((askAs_asks known).caller.symm.trans computed.caller)
  have lengths := congrArg String.length same
  simp only [String.length_append] at lengths
  have colon : ":".length = 1 := rfl
  omega

end

/-- The names and queries of different requests never share a key. -/
def KeysInjective (deployment : Deployment) : Prop :=
  ∀ username query other otherQuery, (deployment.getUser username).isSome = true →
    (deployment.getUser other).isSome = true →
    askCacheKey username query = askCacheKey other otherQuery →
    username = other ∧ query = otherQuery

/-- The cache hands out own answers only, and its keys are injective, exactly if no
account is named like another one with a colon and something behind it. -/
theorem own_answers_iff (deployment : Deployment) :
    ((∀ first history, (∀ key, first.cache key = none) → OwnAnswers deployment first history) ↔
      NamesApart deployment) ∧
    (KeysInjective deployment ↔ NamesApart deployment) := by
  refine ⟨⟨fun own username extended rest known alsoKnown same => ?_,
      fun apart first history empty => ownAnswers_of_apart apart empty history⟩,
    ⟨fun injective username extended rest known alsoKnown same => ?_,
      fun apart username query other otherQuery known alsoKnown same =>
        askCacheKey_inj apart known alsoKnown same⟩⟩
  · subst same
    exact crosses_of_extension known alsoKnown (own {} _ fun _ => rfl)
  · subst same
    have shifted := @askCacheKey_shifted username "" rest
    have lengths := congrArg String.length (injective _ _ _ _ alsoKnown known shifted).1
    simp only [String.length_append] at lengths
    have colon : ":".length = 1 := rfl
    omega

/-- The two demo accounts, named so that one name extends the other. -/
def extendedDemo : Deployment where
  settings :=
    { demoUsername := "x", demoPassword := "first"
      demo2Username := "x:y", demo2Password := "second" }

theorem extended_demo_crosses :
    ¬ OwnAnswers extendedDemo {} [askAs "x" "y:deploy", askAs "x:y" "deploy"] := by
  have crosses := @crosses_of_extension extendedDemo "x" "y" (by decide) (by decide)
  exact crosses

end AgenticEnterprise.Api.AskCache
