import AgenticEnterprise.Api.Service
import AgenticEnterprise.Graph.Dispatch

/-! What a request without a valid bearer token can reach. The smoke test runs
the main graph as the admin, so the text it carries decides whether facts and
tools come into play. -/

set_option autoImplicit false

namespace AgenticEnterprise.Api.OpenRoutes

open Core Library Memory Graph Engine Threads Dispatch

/-! ## A turn on the investment route -/

/-- Two checkpoints of turns on one text that differ in the retrieved facts at most. -/
def SeenAlike (text : String) (left right : Checkpoint) : Prop :=
  OnRoute text left ∧ left.next = right.next ∧
    ∃ context, right.values = { left.values with retrievedContext := context }

section

variable {environment : Environment} {memory : VectorStore.Store} {text : String}
  {values : GraphState} {context : Option (List String)}

/-- A node that reads neither the vector store nor the retrieved facts. -/
theorem matching_of_same_run {node : Node} (onRoute : OnRoute text ⟨values, some (.node node)⟩)
    (sameRun : runNode { environment with memory := memory }
      { values with retrievedContext := context } node = runNode environment values node)
    (sameEdge : ∀ update,
      nextNode (GraphState.apply { values with retrievedContext := context } update) node =
        nextNode (values.apply update) node) :
    (superstep environment values (.node node)).prompts =
        (superstep { environment with memory := memory }
          { values with retrievedContext := context } (.node node)).prompts ∧
      Matching (SeenAlike text) (superstep environment values (.node node)).outcome
        (superstep { environment with memory := memory }
          { values with retrievedContext := context } (.node node)).outcome := by
  refine ⟨by simp only [superstep, sameRun], ?_⟩
  have advanced {next : Checkpoint}
      (succeeded : (superstep environment values (.node node)).outcome = .ok next) :
      OnRoute text next :=
    onRoute.advance (advance_of_outcome succeeded)
  revert advanced
  simp only [superstep, sameRun]
  cases (runNode environment values node).update with
  | error failure => exact fun _ => .error
  | ok update =>
      simp only [bind, Except.bind, sameEdge]
      cases nextNode (values.apply update) node with
      | error failure => exact fun _ => .error
      | ok target => exact fun advanced => .ok ⟨advanced rfl, rfl, _, rfl⟩

/-- The update of a successful retrieval. -/
def retrieved (context : List String) : Update where
  retrievedContext := some context
  internalLogs := ["memory_retriever: fetched cross-thread context"]

/-- What the admin's retrieval can fail on: the query and its embedding. -/
def embeddedQuery (environment : Environment) (state : GraphState) :
    Except Exn VectorStore.Embedding := do
  let query ← lastMessage state
  environment.embedder query.content

theorem retrieve_admin
    (admin : Ownership.isAdmin environment.settings environment.context.username = true)
    (textual : VectorStore.Textual environment.memory) :
    match embeddedQuery environment values with
    | .error failure => (retrieveSemanticMemories environment values).update = .error failure
    | .ok _ => ∃ context,
        (retrieveSemanticMemories environment values).update = .ok (retrieved context) := by
  simp only [embeddedQuery, retrieveSemanticMemories, retrievedHits, admin, ↓reduceIte]
  cases lastMessage values with
  | error failure => rfl
  | ok query =>
      have searched := @VectorStore.search_textual environment.embedder environment.ranking
        environment.memory query.content 2 textual (by decide)
      simp only [bind, Except.bind]
      rcases searched with ⟨failure, embedded, failed⟩ | ⟨vector, hits, embedded, found, texts⟩
      · rw [embedded, failed]
      · obtain ⟨context, fitted⟩ := contextWithin_ok texts maxContextChars
        rw [embedded, found]
        dsimp only
        rw [fitted]
        exact ⟨context, rfl⟩

theorem memoryRetriever_matching
    (onRoute : OnRoute text ⟨values, some (.node .memoryRetriever)⟩)
    (admin : Ownership.isAdmin environment.settings environment.context.username = true)
    (textual : VectorStore.Textual environment.memory) (otherTextual : VectorStore.Textual memory) :
    Matching (SeenAlike text) (superstep environment values (.node .memoryRetriever)).outcome
      (superstep { environment with memory := memory }
        { values with retrievedContext := context } (.node .memoryRetriever)).outcome := by
  have advanced {next : Checkpoint}
      (succeeded : (superstep environment values (.node .memoryRetriever)).outcome = .ok next) :
      OnRoute text next :=
    onRoute.advance (advance_of_outcome succeeded)
  revert advanced
  have left := @retrieve_admin environment values admin textual
  have right := @retrieve_admin { environment with memory := memory }
    { values with retrievedContext := context } admin otherTextual
  have sameQuery : embeddedQuery { environment with memory := memory }
      { values with retrievedContext := context } = embeddedQuery environment values := rfl
  rw [sameQuery] at right
  simp only [superstep, runNode]
  cases embedded : embeddedQuery environment values with
  | error failure =>
      rw [embedded] at left right
      rw [left, right]
      exact fun _ => .error
  | ok vector =>
      rw [embedded] at left right
      obtain ⟨leftContext, leftRetrieved⟩ := left
      obtain ⟨rightContext, rightRetrieved⟩ := right
      rw [leftRetrieved, rightRetrieved]
      exact fun advanced => .ok ⟨advanced rfl, rfl, _, rfl⟩

/-- On the investment route every superstep looks alike, whatever the store holds. -/
theorem SeenAlike.step {right : GraphState} {pending : Pending}
    (alike : SeenAlike text ⟨values, some pending⟩ ⟨right, some pending⟩)
    (investment : classify text = .investment)
    (admin : Ownership.isAdmin environment.settings environment.context.username = true)
    (textual : VectorStore.Textual environment.memory) (otherTextual : VectorStore.Textual memory) :
    (superstep environment values pending).prompts =
        (superstep { environment with memory := memory } right pending).prompts ∧
      Matching (SeenAlike text) (superstep environment values pending).outcome
        (superstep { environment with memory := memory } right pending).outcome := by
  obtain ⟨onRoute, _, context, same⟩ := alike
  dsimp only at same
  subst same
  have elsewhere {route : Engine.Route} (different : route ≠ .investment)
      (chosen : classify text = route) : False :=
    different (chosen.symm.trans investment)
  cases pending with
  | input messages =>
      have entered := onRoute.advance (@Advance.input environment values messages)
      exact ⟨rfl, .ok ⟨entered, rfl, context, rfl⟩⟩
  | node node =>
      cases node with
      | router => exact matching_of_same_run onRoute rfl fun _ => rfl
      | memoryRetriever =>
          exact ⟨rfl, memoryRetriever_matching onRoute admin textual otherTextual⟩
      | fetchMetrics => exact matching_of_same_run onRoute rfl fun _ => rfl
      | formatReport => exact matching_of_same_run onRoute rfl fun _ => rfl
      | agent => exact (elsewhere (by decide) onRoute).elim
      | tools => exact (elsewhere (by decide) onRoute).elim
      | billing => exact (elsewhere (by decide) onRoute).elim
      | general => exact (elsewhere (by decide) onRoute).elim
      | critic => exact (elsewhere (by decide) onRoute).elim

end

/-! ## The smoke test -/

section

variable {deployment : Deployment} {outside : Outside} {memory : VectorStore.Store}

def smokeCaller (deployment : Deployment) : Caller where
  username := deployment.settings.demoUsername
  withDb := false

variable {inputs : RunInputs} {text : String} {limit : Nat}

theorem smokeRun_matching (investment : classify text = .investment)
    (textual : VectorStore.Textual inputs.memory) (otherTextual : VectorStore.Textual memory) :
    let left := runOn deployment outside (smokeCaller deployment) (some [.human text]) "" inputs
    let right := runOn deployment outside (smokeCaller deployment) (some [.human text]) ""
      { inputs with memory := memory }
    left.1.steps.map Superstep.prompts = right.1.steps.map Superstep.prompts ∧
      Matching (fun left right => SeenAlike text ⟨left, none⟩ ⟨right, none⟩) left.1.result
        right.1.result := by
  have initially : SeenAlike text (withInput (load inputs.thread none) [.human text]).checkpoint
      (withInput (load inputs.thread none) [.human text]).checkpoint :=
    ⟨rfl, rfl, _, rfl⟩
  have admin : Ownership.isAdmin deployment.settings deployment.settings.demoUsername = true :=
    Ownership.isAdmin_iff.mpr rfl
  exact execute_matching (fun alike => alike.2.1)
    (fun _ _ _ _ alike => alike.step investment admin textual otherTextual) initially _

theorem matching_ending {related : GraphState → GraphState → Prop}
    {left right : Except Exn GraphState} (alike : Matching related left right) :
    Matching related (outside.ending limit left) (outside.ending limit right) := by
  cases alike with
  | ok same => exact .ok same
  | @error failure => cases failure <;> exact .error

theorem lastMessage_alike {left right : Except Exn GraphState}
    (alike : Matching (fun left right => SeenAlike text ⟨left, none⟩ ⟨right, none⟩) left right) :
    (left >>= lastMessage).map Message.content = (right >>= lastMessage).map Message.content := by
  cases alike with
  | error => rfl
  | ok same =>
      obtain ⟨_, _, context, values⟩ := same
      dsimp only at values
      subst values
      rfl

theorem smokeAnswer_alike {threadId : String} {first : System}
    (investment : classify text = .investment)
    (textual : VectorStore.Textual first.memory) (otherTextual : VectorStore.Textual memory) :
    let action := answer deployment outside (smokeCaller deployment) threadId
      (some [.human text]) ""
    (action.exec { system := first }).1 =
        (action.exec { system := { first with memory := memory } }).1 ∧
      (action.exec { system := first }).2.supersteps.map Superstep.prompts =
        (action.exec { system := { first with memory := memory } }).2.supersteps.map
          Superstep.prompts := by
  simp only [answer_exec]
  cases outside.fault .buildWorkflow with
  | some failure => exact ⟨rfl, rfl⟩
  | none =>
      cases outside.fault .getTools with
      | some failure => exact ⟨rfl, rfl⟩
      | none =>
          obtain ⟨prompts, results⟩ := @smokeRun_matching deployment outside memory
            (State.runInputs threadId { system := first }) text investment textual otherTextual
          exact ⟨lastMessage_alike (matching_ending results), prompts⟩

/-- A turn that is not technical executes no tools. -/
theorem smokeAnswer_tools {threadId : String} {system : System} {step : Superstep}
    (taken : step ∈ ((answer deployment outside (smokeCaller deployment) threadId
      (some [.human text]) "").exec { system := system }).2.supersteps)
    (tools : step.pending = .node .tools) : classify text = .technical := by
  rw [answer_exec] at taken
  split at taken
  · cases taken
  · cases taken
  · exact tools_technical taken tools

theorem runSmokeTest_supersteps {request : SmokeTestRequest} {state : State} :
    ((runSmokeTest deployment outside request).exec state).2.supersteps =
      ((answer deployment outside (smokeCaller deployment) (smokeThreadId request.testId)
        (some [.human request.payload]) "").exec state).2.supersteps := by
  simp only [runSmokeTest, smokeCaller, Effect.exec_tryCatch, Effect.exec_bind]
  rcases (answer deployment outside
    { username := deployment.settings.demoUsername, withDb := false }
    (smokeThreadId request.testId) (some [.human request.payload]) "").exec state with
    ⟨failure | output, after⟩
  · cases failure <;> rfl
  · rfl

theorem runSmokeTest_result {request : SmokeTestRequest} {first second : State}
    (same : ((answer deployment outside (smokeCaller deployment) (smokeThreadId request.testId)
        (some [.human request.payload]) "").exec first).1 =
      ((answer deployment outside (smokeCaller deployment) (smokeThreadId request.testId)
        (some [.human request.payload]) "").exec second).1) :
    ((runSmokeTest deployment outside request).exec first).1 =
      ((runSmokeTest deployment outside request).exec second).1 := by
  simp only [runSmokeTest, Effect.exec_tryCatch, Effect.exec_bind]
  simp only [smokeCaller] at same
  generalize (answer deployment outside
    { username := deployment.settings.demoUsername, withDb := false }
    (smokeThreadId request.testId) (some [.human request.payload]) "").exec first = left at same
  generalize (answer deployment outside
    { username := deployment.settings.demoUsername, withDb := false }
    (smokeThreadId request.testId) (some [.human request.payload]) "").exec second = right at same
  obtain ⟨result, reached⟩ := left
  obtain ⟨other, otherReached⟩ := right
  dsimp only at same
  subst same
  cases result with
  | error failure => cases failure <;> rfl
  | ok output => rfl

end

/-! ## Requests without a valid token -/

/-- Routes without `get_current_user`. -/
def isOpen : Api.Route → Bool
  | .root | .health | .graph | .graphPng | .docs _ | .smoke _ | .token _ => true
  | _ => false

def prompts (served : Served) : List Prompt :=
  served.supersteps.flatMap Superstep.prompts

def ExecutesTools (served : Served) : Prop :=
  ∃ step ∈ served.supersteps, step.pending = .node .tools

section

variable {deployment : Deployment} {outside : Outside} {request : Request} {failure : Exn}

/-- The action fails as the token check does and makes the graph do nothing. -/
def Refuses (failure : Exn) (state : State) {Result : Type} (action : Handler Result) : Prop :=
  (action.exec state).1 = .error failure ∧ (action.exec state).2.supersteps = state.supersteps

variable {state : State} {token : Option String} {Payload Result : Type}

theorem Refuses.bind {First : Type} {action : Handler First} {next : First → Handler Result}
    (refuses : Refuses failure state action) : Refuses failure state (action >>= next) := by
  obtain ⟨failed, unmoved⟩ := refuses
  unfold Refuses
  rw [Effect.exec_bind]
  rcases ran : action.exec state with ⟨result, after⟩
  rw [ran] at failed unmoved
  dsimp only at failed
  subst failed
  exact ⟨rfl, unmoved⟩

theorem Refuses.rollbackOnFailure {body : Handler Result} (refuses : Refuses failure state body) :
    Refuses failure state (rollbackOnFailure body) := by
  obtain ⟨failed, unmoved⟩ := refuses
  unfold Refuses Api.rollbackOnFailure
  rw [Effect.exec_tryCatch]
  rcases ran : body.exec state with ⟨result, after⟩
  rw [ran] at failed unmoved
  dsimp only at failed
  subst failed
  exact ⟨rfl, unmoved⟩

/-- A route that is not open refuses such a request before it does anything. -/
theorem handle_refuses (anonymous : currentUser deployment outside request.token = .error failure)
    (closed : isOpen request.route = false) :
    Refuses failure state (handle deployment outside request) := by
  obtain ⟨token, route⟩ := request
  dsimp only at anonymous
  have user : Refuses failure state (getCurrentUser deployment outside token) := ⟨anonymous, rfl⟩
  have behindUser {Payload : Type} {payload : Option Payload}
      {handler : Payload → String → Handler Response} :
      Refuses failure state (withUser deployment outside token payload handler) := user.bind
  have behindOwner {threadId : String} {Payload : Type} {payload : Option Payload}
      {handler : Payload → String → Handler Response} :
      Refuses failure state
        (withThreadOwner deployment outside threadId token payload handler) :=
    user.bind.bind.rollbackOnFailure.bind
  cases route with
  | root => cases closed
  | health => cases closed
  | graph => cases closed
  | graphPng => cases closed
  | docs => cases closed
  | smoke => cases closed
  | token => cases closed
  | run => exact behindUser.rollbackOnFailure.bind
  | runStream => exact user.bind.rollbackOnFailure.bind
  | ask => exact behindUser.rollbackOnFailure.bind
  | searchMemory => exact behindUser.rollbackOnFailure.bind
  | analyze => exact behindUser
  | research => exact behindUser
  | conversation => exact behindUser
  | gc => exact behindUser
  | gcStats => exact behindUser
  | history => exact behindOwner
  | resume => exact behindOwner
  | fork => exact behindOwner
  | edit => exact behindOwner
  | branches => exact behindOwner
  | remember => exact behindOwner

/-- The graph has done nothing. -/
def idle : PartialEquivalence State :=
  .invariant fun state => state.supersteps = []

/-- The open routes other than the smoke test read none of the stores. -/
theorem handle_open (opened : isOpen request.route = true)
    (ordinary : ∀ payload, request.route ≠ .smoke (some payload)) :
    idle.Agree (handle deployment outside request) (handle deployment outside request) := by
  obtain ⟨token, route⟩ := request
  dsimp only at opened ordinary
  cases route with
  | root => exact .pure _
  | health => exact .pure _
  | docs path => exact .pure _
  | graph => exact .bind (.ofExcept _) fun _ => .pure _
  | graphPng =>
      exact .tryCatch (.bind (.ofExcept _) fun _ => .bind (.ofExcept _) fun _ => .pure _)
        fun _ => .throw _
  | token form => exact .bind (.ofExcept _) fun _ => .ofExcept _
  | smoke payload =>
      cases payload with
      | none => exact fun _ _ same => ⟨rfl, same⟩
      | some payload => exact absurd rfl (ordinary payload)
  | _ => cases opened

end

section

variable {deployment : Deployment} {exchange : Exchange} {first : System}
  {memory : VectorStore.Store}

/-- Equal results give equal responses. -/
theorem serve_alike {request : Request} {outside : Outside} {second : System}
    (results : ((handle deployment outside request).exec { system := first }).1 =
      ((handle deployment outside request).exec { system := second }).1) :
    (serve deployment outside first request).response =
      (serve deployment outside second request).response := by
  simp only [serve, results]

theorem serve_smoke_supersteps {token : Option String} {payload : SmokeTestRequest}
    {outside : Outside} :
    (serve deployment outside first
        { token := token, route := .smoke (some payload) }).supersteps =
      ((answer deployment outside (smokeCaller deployment) (smokeThreadId payload.testId)
        (some [.human payload.payload]) "").exec { system := first }).2.supersteps :=
  runSmokeTest_supersteps

theorem smoke_alike {token : Option String} {payload : SmokeTestRequest} {outside : Outside}
    (investment : classify payload.payload = .investment)
    (textual : VectorStore.Textual first.memory) (otherTextual : VectorStore.Textual memory) :
    let request : Request := { token := token, route := .smoke (some payload) }
    (serve deployment outside first request).response =
        (serve deployment outside { first with memory := memory } request).response ∧
      prompts (serve deployment outside first request) =
        prompts (serve deployment outside { first with memory := memory } request) := by
  obtain ⟨answers, prompted⟩ := @smokeAnswer_alike deployment outside memory payload.payload
    (smokeThreadId payload.testId) first investment textual otherTextual
  refine ⟨serve_alike (runSmokeTest_result answers), ?_⟩
  simp only [prompts, serve_smoke_supersteps, List.flatMap_def, prompted]

/-- A request without a valid token that is no smoke test makes the graph do
nothing, and its response does not depend on the stores. -/
theorem anonymous_idle (anonymous : exchange.caller deployment = none)
    (ordinary : ∀ payload, exchange.request.route ≠ .smoke (some payload)) (second : System) :
    (exchange.serve deployment first).supersteps = [] ∧
      (exchange.serve deployment first).response = (exchange.serve deployment second).response := by
  obtain ⟨request, outside⟩ := exchange
  have start (system : System) : ({ system := system } : State).supersteps = [] := rfl
  cases opened : isOpen request.route with
  | true =>
      have agree := @handle_open deployment outside request opened ordinary { system := first }
        { system := second } ⟨start first, start second⟩
      exact ⟨agree.2.1, serve_alike agree.1⟩
  | false =>
      obtain ⟨failure, refused⟩ : ∃ failure,
          currentUser deployment outside request.token = .error failure := by
        unfold Exchange.caller at anonymous
        cases accepted : currentUser deployment outside request.token with
        | error failure => exact ⟨failure, rfl⟩
        | ok username => simp [accepted, Except.toOption] at anonymous
      have refuses (system : System) :=
        @handle_refuses deployment outside request failure { system := system } refused opened
      exact ⟨(refuses first).2, serve_alike ((refuses first).1.trans (refuses second).1.symm)⟩

end

/-- The model calls a tool whenever it is bound to some. -/
def toolCaller : Outside :=
  { undisturbed ⟨"ok", []⟩ ⟨"", [⟨"call", "run_python", []⟩]⟩ with recursionLimit := 5 }

def smokeTest (payload : String) : Exchange where
  request := { route := .smoke (some ⟨"ST", payload⟩) }
  outside := toolCaller

def oneFact : VectorStore.Store :=
  some ⟨0, [⟨0, [], [("text", "secret"), ("thread_id", "alices")]⟩]⟩

end AgenticEnterprise.Api.OpenRoutes
