import AgenticEnterprise.Graph.Messages
import AgenticEnterprise.Graph.Ownership
import AgenticEnterprise.Memory.VectorStore

/-! The nodes and edges of the main graph: `app/graph/engine.py`. -/

set_option autoImplicit false

namespace AgenticEnterprise.Graph.Engine

open Core Library Memory Ownership

/-! ## State -/

inductive Route where
  | technical
  | billing
  | general
  | investment
  deriving DecidableEq, Repr

def Route.text : Route → String
  | .technical => "technical"
  | .billing => "billing"
  | .general => "general"
  | .investment => "investment"

/-- A channel that was never written is absent; the two channels with a reducer
start as empty lists. -/
structure GraphState where
  messages : List Message := []
  status : Option String := none
  internalLogs : List String := []
  routeTo : Option Route := none
  revisionCount : Option Int := none
  critique : Option String := none
  retrievedContext : Option (List String) := none
  toolResult : Option MarketMetrics := none
  analysis : Option InvestmentAnalysis := none
  deriving DecidableEq, Repr

/-- What a node returns: the keys it writes. -/
structure Update where
  messages : List Message := []
  status : Option String := none
  internalLogs : List String := []
  routeTo : Option Route := none
  revisionCount : Option Int := none
  critique : Option String := none
  retrievedContext : Option (List String) := none
  toolResult : Option MarketMetrics := none
  analysis : Option InvestmentAnalysis := none
  deriving DecidableEq, Repr

/-- Append-only merge for `internal_logs`. -/
def mergeLogs (existing : Option (List String)) (update : List String) : List String :=
  let base := existing.getD []
  base ++ update.filter fun line => decide (line ∉ base)

def GraphState.apply (state : GraphState) (update : Update) : GraphState where
  messages := state.messages ++ update.messages
  status := update.status.or state.status
  internalLogs := mergeLogs (some state.internalLogs) update.internalLogs
  routeTo := update.routeTo.or state.routeTo
  revisionCount := update.revisionCount.or state.revisionCount
  critique := update.critique.or state.critique
  retrievedContext := update.retrievedContext.or state.retrievedContext
  toolResult := update.toolResult.or state.toolResult
  analysis := update.analysis.or state.analysis

/-! ## What a node can reach outside the state -/

abbrev ChatModel := List Message → Except Exn Reply

structure Llm where
  ainvoke : ChatModel
  bindTools : (tools : List String) → (toolChoice : Option String) → ChatModel
  withStructuredOutput : String → Except Exn InvestmentAnalysis

structure Session where
  transaction : Nat
  ownership : ThreadOwnership

structure RuntimeContext where
  llm : Llm
  toolLlm : Option ChatModel := none
  db : Option Session := none
  username : String := ""

/-- `runTool` is what the tools node answers a call with; an exception of a tool
is turned into such a text as well. -/
structure Environment where
  settings : Settings
  context : RuntimeContext
  embedder : VectorStore.Embedder
  ranking : VectorStore.PointRanking
  memory : VectorStore.Store
  runTool : ToolCall → String

/-- One execution of a node: what it hands to the model and gets back, what it
writes to the stream, and the update it returns. -/
structure NodeRun where
  prompts : List Prompt := []
  reply : Option Reply := none
  streamed : List String := []
  update : Except Exn Update

/-! ## Nodes -/

def lastMessage (state : GraphState) : Except Exn Message :=
  match state.messages.getLast? with
  | some message => .ok message
  | none => .error .indexError

def technicalWords : List String :=
  ["deploy", "status", "error", "logs", "service", "balance", "account", "python", "script",
    "calculate", "code"]

def billingWords : List String :=
  ["invoice", "payment", "billing", "charge"]

def investmentWords : List String :=
  ["ticker", "stock", "invest", "analyze", "shares"]

def classify (content : String) : Route :=
  let text := Text.lower content
  if Text.containsAny text technicalWords then .technical
  else if Text.containsAny text billingWords then .billing
  else if Text.containsAny text investmentWords then .investment
  else .general

def routeRequest (state : GraphState) : NodeRun :=
  match lastMessage state with
  | .error failure => { update := .error failure }
  | .ok message =>
      let decision := classify message.content
      { streamed := ["routed to " ++ decision.text]
        update := .ok
          { routeTo := some decision
            status := some "routed"
            internalLogs := ["router: classified as " ++ decision.text] } }

def maxContextChars : Nat := 500 * 4

/-- `context` and `budget` between two rounds of the loop over the hits. -/
structure Budgeted where
  context : List String := []
  budget : Int
  deriving DecidableEq, Repr

/-- One round; `none` is the `break`. -/
def fitHit (held : Budgeted) (hit : VectorStore.Hit) : Except Exn (Option Budgeted) :=
  match hit.text with
  | none => .error .typeError
  | some text =>
      if (text.length : Int) > held.budget then .ok none
      else .ok (some ⟨held.context ++ [text], held.budget - text.length⟩)

def fitHits (held : Budgeted) : List VectorStore.Hit → Except Exn Budgeted
  | [] => .ok held
  | hit :: hits =>
      match fitHit held hit with
      | .error failure => .error failure
      | .ok none => .ok held
      | .ok (some next) => fitHits next hits

/-- The loop over the hits from the whole budget on. -/
def contextWithin (limit : Nat) (hits : List VectorStore.Hit) : Except Exn (List String) :=
  (fitHits { budget := limit } hits).map Budgeted.context

/-- The search of `retrieve_semantic_memories`: every thread for the admin, the
caller's own threads for anybody else. -/
def retrievedHits (environment : Environment) (query : String) :
    Except Exn (List VectorStore.Hit) :=
  let username := environment.context.username
  let search := VectorStore.search environment.embedder environment.ranking environment.memory
    query 2
  if isAdmin environment.settings username then search none
  else
    match environment.context.db with
    | none => .error .attributeError
    | some db => search (some (ownedThreadIds db.transaction db.ownership username))

def retrieveSemanticMemories (environment : Environment) (state : GraphState) : NodeRun where
  update := do
    let query ← lastMessage state
    let hits ← retrievedHits environment query.content
    let context ← contextWithin maxContextChars hits
    return { retrievedContext := some context
             internalLogs := ["memory_retriever: fetched cross-thread context"] }

def factLines (facts : List String) : List String :=
  facts.map ("- " ++ ·)

def memoryPrompt (facts : List String) : Message :=
  .system ("The following are past facts recorded in other conversations, " ++
    "not part of the current exchange. Use them only if relevant:\n" ++
    Text.join "\n" (factLines facts))

/-- The conversation, behind the retrieved facts if there are any. -/
def withMemories (state : GraphState) : List Message :=
  match state.retrievedContext with
  | some (fact :: facts) => memoryPrompt (fact :: facts) :: state.messages
  | _ => state.messages

def callModel (environment : Environment) (state : GraphState) : NodeRun :=
  let llm := environment.context.toolLlm.getD environment.context.llm.ainvoke
  let messages := withMemories state
  match llm messages with
  | .error failure =>
      { prompts := [.messages messages], streamed := ["invoking model"], update := .error failure }
  | .ok response =>
      { prompts := [.messages messages]
        reply := some response
        streamed := ["invoking model", "model responded"]
        update := .ok
          { messages := [response.message]
            status := some "completed"
            internalLogs := ["agent: model call complete"] } }

def billingWorker (environment : Environment) (state : GraphState) : NodeRun :=
  let messages := withMemories state
  let answer := environment.context.llm.ainvoke messages
  { prompts := [.messages messages]
    reply := answer.toOption
    update := answer.map fun response =>
      { messages := [response.message]
        status := some "completed"
        internalLogs := ["billing: model call complete"] } }

def contextLines (state : GraphState) : List String :=
  let facts :=
    match state.retrievedContext with
    | some (fact :: facts) =>
        "Relevant past facts from other conversations:" :: factLines (fact :: facts)
    | _ => []
  let note := state.critique.getD ""
  if note ≠ "" ∧ note ≠ "PASS" then
    facts ++ ["Address this feedback on your last draft: " ++ note]
  else facts

def generalMessages (state : GraphState) : List Message :=
  match contextLines state with
  | [] => state.messages
  | line :: lines => .system (Text.join "\n" (line :: lines)) :: state.messages

def generalWorker (environment : Environment) (state : GraphState) : NodeRun :=
  let count := state.revisionCount.getD 0
  let messages := generalMessages state
  let answer := environment.context.llm.ainvoke messages
  { prompts := [.messages messages]
    reply := answer.toOption
    update := answer.map fun response =>
      { messages := [response.message]
        status := some "completed"
        internalLogs := [s!"general: model call complete (attempt {count + 1})"]
        revisionCount := some (count + 1) } }

/-- The call `get_market_metrics(**args)`. -/
def getMarketMetrics : List (String × Argument) → Except Exn MarketMetrics
  | [("ticker", ticker)] => .ok ⟨ticker⟩
  | _ => .error .typeError

def fetchMarketMetrics (environment : Environment) (state : GraphState) : NodeRun :=
  let llm := environment.context.llm.bindTools ["get_market_metrics"] (some "get_market_metrics")
  let answer := llm state.messages
  { prompts := [.messages state.messages]
    reply := answer.toOption
    update := do
      let response ← answer
      match response.toolCalls with
      | [] => .error .indexError
      | call :: _ =>
          let result ← getMarketMetrics call.args
          return { internalLogs := ["fetch_market_metrics: " ++ result.pyRepr]
                   toolResult := some result } }

def reportPrompt (metrics : MarketMetrics) : String :=
  "Based on these metrics: " ++ metrics.pyRepr ++ ", write an " ++
    "InvestmentAnalysis. key_drivers must list at least 3 distinct " ++
    "market drivers - do not stop at 2."

def generateStructuredReport (environment : Environment) (state : GraphState) : NodeRun :=
  match state.toolResult with
  | none => { update := .error (.keyError "tool_result") }
  | some metrics =>
      { prompts := [.text (reportPrompt metrics)]
        update := (environment.context.llm.withStructuredOutput (reportPrompt metrics)).map
          fun report =>
            { analysis := some report
              internalLogs := ["format_report: structured analysis generated"] } }

def generalRevisionLimit : Int := 3

/-- The bar a draft has to clear. -/
def passes (draft : String) : Bool :=
  Text.contains (Text.lower draft) "revised" || decide (draft.length > 90)

def verdictOn (draft : String) (count : Int) : String :=
  if passes draft then "PASS"
  else if count ≥ generalRevisionLimit then "PASS"
  else "draft is a bare stub; add detail"

def critic (state : GraphState) : NodeRun :=
  match lastMessage state, state.revisionCount with
  | .error failure, _ => { update := .error failure }
  | .ok _, none => { update := .error (.keyError "revision_count") }
  | .ok draft, some count =>
      let verdict := verdictOn draft.content count
      { streamed := ["critic verdict: " ++ verdict]
        update := .ok
          { critique := some verdict
            status := some "critiqued"
            internalLogs := [s!"critic: attempt {count} -> " ++ verdict] } }

/-- The prebuilt tool node: it answers every call of the latest AI message. -/
def toolNode (environment : Environment) (state : GraphState) : NodeRun :=
  match state.messages.reverse.find? Message.isAi with
  | none => { update := .error (.valueError "No AIMessage found in input") }
  | some message =>
      { update := .ok
          { messages := message.toolCalls.map fun call =>
              .tool (environment.runTool call) call.id } }

/-! ## Edges -/

inductive Node where
  | router
  | memoryRetriever
  | agent
  | tools
  | billing
  | general
  | critic
  | fetchMetrics
  | formatReport
  deriving DecidableEq, Repr

def Node.name : Node → String
  | .router => "router"
  | .memoryRetriever => "memory_retriever"
  | .agent => "agent"
  | .tools => "tools"
  | .billing => "billing"
  | .general => "general"
  | .critic => "critic"
  | .fetchMetrics => "fetch_metrics"
  | .formatReport => "format_report"

def runNode (environment : Environment) (state : GraphState) : Node → NodeRun
  | .router => routeRequest state
  | .memoryRetriever => retrieveSemanticMemories environment state
  | .agent => callModel environment state
  | .tools => toolNode environment state
  | .billing => billingWorker environment state
  | .general => generalWorker environment state
  | .critic => Engine.critic state
  | .fetchMetrics => fetchMarketMetrics environment state
  | .formatReport => generateStructuredReport environment state

def afterMemoryRetriever (state : GraphState) : Node :=
  match state.routeTo with
  | some .technical => .agent
  | some .billing => .billing
  | some .investment => .fetchMetrics
  | _ => .general

/-- The prebuilt condition behind the agent; `none` is `END`. -/
def toolsCondition (state : GraphState) : Except Exn (Option Node) :=
  match state.messages.getLast? with
  | none => .error (.valueError "No messages found in input state to tool_edge")
  | some message => .ok (if message.toolCalls = [] then none else some .tools)

def afterCritic (state : GraphState) : Except Exn (Option Node) :=
  match state.critique with
  | none => .error (.keyError "critique")
  | some critique => .ok (if critique = "PASS" then none else some .general)

/-- Where control goes behind a node, decided on the state with its update. -/
def nextNode (state : GraphState) : Node → Except Exn (Option Node)
  | .router => .ok (some .memoryRetriever)
  | .memoryRetriever => .ok (some (afterMemoryRetriever state))
  | .agent => toolsCondition state
  | .tools => .ok (some .agent)
  | .billing => .ok none
  | .general => .ok (some .critic)
  | .critic => afterCritic state
  | .fetchMetrics => .ok (some .formatReport)
  | .formatReport => .ok none

/-! ## What a node can write -/

/-- Every successful update, node by node. -/
inductive NodeEffect (environment : Environment) (state : GraphState) : Node → Update → Prop where
  | router {message} :
      state.messages.getLast? = some message →
      NodeEffect environment state .router
        { routeTo := some (classify message.content)
          status := some "routed"
          internalLogs := ["router: classified as " ++ (classify message.content).text] }
  | memoryRetriever {context} :
      NodeEffect environment state .memoryRetriever
        { retrievedContext := some context
          internalLogs := ["memory_retriever: fetched cross-thread context"] }
  | agent {reply} :
      environment.context.toolLlm.getD environment.context.llm.ainvoke (withMemories state) =
        .ok reply →
      NodeEffect environment state .agent
        { messages := [reply.message]
          status := some "completed"
          internalLogs := ["agent: model call complete"] }
  | tools {before content calls after} :
      state.messages = before ++ .ai content calls :: after →
      (∀ message ∈ after, message.isAi = false) →
      NodeEffect environment state .tools
        { messages := calls.map fun call => .tool (environment.runTool call) call.id }
  | billing {reply} :
      environment.context.llm.ainvoke (withMemories state) = .ok reply →
      NodeEffect environment state .billing
        { messages := [reply.message]
          status := some "completed"
          internalLogs := ["billing: model call complete"] }
  | general {reply} :
      environment.context.llm.ainvoke (generalMessages state) = .ok reply →
      NodeEffect environment state .general
        { messages := [reply.message]
          status := some "completed"
          internalLogs :=
            [s!"general: model call complete (attempt {state.revisionCount.getD 0 + 1})"]
          revisionCount := some (state.revisionCount.getD 0 + 1) }
  | critic {draft count} :
      state.messages.getLast? = some draft → state.revisionCount = some count →
      NodeEffect environment state .critic
        { critique := some (verdictOn draft.content count)
          status := some "critiqued"
          internalLogs := [s!"critic: attempt {count} -> " ++ verdictOn draft.content count] }
  | fetchMetrics {result} :
      NodeEffect environment state .fetchMetrics
        { internalLogs := ["fetch_market_metrics: " ++ result.pyRepr]
          toolResult := some result }
  | formatReport {report} :
      NodeEffect environment state .formatReport
        { analysis := some report
          internalLogs := ["format_report: structured analysis generated"] }

section

variable {environment : Environment} {state : GraphState} {node : Node} {update : Update}

theorem lastMessage_eq_ok_iff {message : Message} :
    lastMessage state = .ok message ↔ state.messages.getLast? = some message := by
  unfold lastMessage
  split
  · rename_i found
    simp [found]
  · rename_i missing
    simp [missing]

/-- The split of a list at the last element a test accepts. -/
theorem split_of_reverse_find? {Element : Type} {test : Element → Bool} {elements : List Element}
    {found : Element} (latest : elements.reverse.find? test = some found) :
    test found = true ∧ ∃ before after, elements = before ++ found :: after ∧
      ∀ other ∈ after, test other = false := by
  obtain ⟨accepted, front, back, split, rejected⟩ := List.find?_eq_some_iff_append.mp latest
  refine ⟨accepted, back.reverse, front.reverse, ?_, ?_⟩
  · rw [← List.reverse_reverse elements, split]
    simp
  · intro other member
    simpa using rejected other (List.mem_reverse.mp member)

theorem nodeEffect_of_update (written : (runNode environment state node).update = .ok update) :
    NodeEffect environment state node update := by
  cases node with
  | router =>
      simp only [runNode, routeRequest] at written
      split at written
      · cases written
      · rename_i message last
        cases written
        exact .router (lastMessage_eq_ok_iff.mp last)
  | memoryRetriever =>
      obtain ⟨query, _, rest⟩ := bind_eq_ok_iff.mp written
      obtain ⟨hits, _, rest⟩ := bind_eq_ok_iff.mp rest
      obtain ⟨context, _, rest⟩ := bind_eq_ok_iff.mp rest
      cases rest
      exact .memoryRetriever
  | agent =>
      simp only [runNode, callModel] at written
      split at written
      · cases written
      · rename_i reply answered
        cases written
        exact .agent answered
  | tools =>
      simp only [runNode, toolNode] at written
      split at written
      · cases written
      · rename_i message latest
        cases written
        obtain ⟨accepted, before, after, split, rejected⟩ := split_of_reverse_find? latest
        cases message with
        | ai content calls => exact .tools split rejected
        | system => cases accepted
        | human => cases accepted
        | tool => cases accepted
  | billing =>
      obtain ⟨reply, answered, rfl⟩ := map_eq_ok_iff.mp written
      exact .billing answered
  | general =>
      obtain ⟨reply, answered, rfl⟩ := map_eq_ok_iff.mp written
      exact .general answered
  | critic =>
      simp only [runNode, Engine.critic] at written
      split at written
      · cases written
      · cases written
      · rename_i draft count last counted
        cases written
        exact .critic (lastMessage_eq_ok_iff.mp last) counted
  | fetchMetrics =>
      obtain ⟨reply, _, rest⟩ := bind_eq_ok_iff.mp written
      split at rest
      · cases rest
      · obtain ⟨result, _, rest⟩ := bind_eq_ok_iff.mp rest
        cases rest
        exact .fetchMetrics
  | formatReport =>
      simp only [runNode, generateStructuredReport] at written
      split at written
      · cases written
      · obtain ⟨report, _, rfl⟩ := map_eq_ok_iff.mp written
        exact .formatReport

/-- A budget that no text has exceeded is a natural number. -/
theorem fitHit_natural (budget : Nat) (context : List String) (hit : VectorStore.Hit) :
    fitHit ⟨context, budget⟩ hit =
      match hit.text with
      | none => .error .typeError
      | some text =>
          if text.length > budget then .ok none
          else .ok (some ⟨context ++ [text], (budget - text.length : Nat)⟩) := by
  rw [fitHit]
  cases hit.text with
  | none => rfl
  | some text =>
      by_cases exceeds : text.length > budget
      · have stops : (text.length : Int) > budget := by omega
        simp only [if_pos exceeds, if_pos stops]
      · have fits : ¬(text.length : Int) > budget := by omega
        have spent : (budget : Int) - text.length = (budget - text.length : Nat) := by omega
        simp only [if_neg exceeds, if_neg fits, spent]

/-- What has been taken stays in front of what the rest of the budget takes. -/
theorem fitHits_context (budget : Nat) (context : List String) (hits : List VectorStore.Hit) :
    (fitHits ⟨context, budget⟩ hits).map Budgeted.context =
      (contextWithin budget hits).map (context ++ ·) := by
  unfold contextWithin
  induction hits generalizing budget context with
  | nil => simp [fitHits, Except.map]
  | cons hit hits ih =>
      simp only [fitHits, fitHit_natural]
      cases hit.text with
      | none => rfl
      | some text =>
          by_cases exceeds : text.length > budget
          · simp [exceeds, Except.map]
          · simp only [if_neg exceeds]
            rw [ih _ (context ++ [text]), ih _ ([] ++ [text])]
            cases fitHits { budget := (budget - text.length : Nat) } hits <;>
              simp [Except.map]

@[simp] theorem contextWithin_nil {budget : Nat} : contextWithin budget [] = .ok [] := rfl

theorem contextWithin_cons {budget : Nat} {hit : VectorStore.Hit}
    {hits : List VectorStore.Hit} :
    contextWithin budget (hit :: hits) =
      match hit.text with
      | none => .error .typeError
      | some text =>
          if text.length > budget then .ok []
          else (contextWithin (budget - text.length) hits).map (text :: ·) := by
  rw [contextWithin, fitHits, fitHit_natural]
  cases hit.text with
  | none => rfl
  | some text =>
      by_cases exceeds : text.length > budget
      · simp only [if_pos exceeds]
        rfl
      · simp only [if_neg exceeds]
        exact fitHits_context (budget - text.length) [text] hits

theorem contextWithin_ok {hits : List VectorStore.Hit}
    (texts : ∀ hit ∈ hits, hit.text.isSome = true) (budget : Nat) :
    ∃ context, contextWithin budget hits = .ok context := by
  induction hits generalizing budget with
  | nil => exact ⟨[], rfl⟩
  | cons hit hits ih =>
      obtain ⟨text, written⟩ := Option.isSome_iff_exists.mp (texts hit (.head _))
      obtain ⟨rest, taken⟩ := ih (fun other member => texts other (.tail _ member))
        (budget - text.length)
      simp only [contextWithin_cons, written]
      split
      · exact ⟨[], rfl⟩
      · exact ⟨text :: rest, by rw [taken]; rfl⟩

/-! ## What the conditional edges say -/

theorem toolsCondition_reply {reply : Reply} {target : Option Node}
    (answer : update.messages = [reply.message])
    (decided : toolsCondition (state.apply update) = .ok target) :
    (reply.toolCalls = [] ∧ target = none) ∨ (reply.toolCalls ≠ [] ∧ target = some .tools) := by
  have last : (state.apply update).messages.getLast? = some reply.message := by
    simp [GraphState.apply, answer]
  have calls : reply.message.toolCalls = reply.toolCalls := rfl
  rw [toolsCondition, last, Except.ok.injEq, calls] at decided
  by_cases noCalls : reply.toolCalls = []
  · exact .inl ⟨noCalls, by rw [← decided, if_pos noCalls]⟩
  · exact .inr ⟨noCalls, by rw [← decided, if_neg noCalls]⟩

theorem toolsCondition_cases {target : Option Node} (decided : toolsCondition state = .ok target) :
    target = none ∨ target = some .tools := by
  unfold toolsCondition at decided
  split at decided
  · cases decided
  · cases decided
    split
    · exact .inl rfl
    · exact .inr rfl

theorem afterCritic_cases {target : Option Node} (decided : afterCritic state = .ok target) :
    (target = none ∧ state.critique = some "PASS") ∨
      (target = some .general ∧ ∃ critique, state.critique = some critique ∧
        critique ≠ "PASS") := by
  unfold afterCritic at decided
  split at decided
  · cases decided
  · rename_i critique written
    cases decided
    split
    · rename_i passed
      exact .inl ⟨rfl, passed ▸ written⟩
    · rename_i sentBack
      exact .inr ⟨rfl, critique, written, sentBack⟩

end

end AgenticEnterprise.Graph.Engine
