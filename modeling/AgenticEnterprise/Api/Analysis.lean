import AgenticEnterprise.Api.OwnedEffects
import AgenticEnterprise.Graph.Dispatch
import AgenticEnterprise.Graph.NodeOrder

/-! When `/analyze` answers with an analysis.

The route hands the graph no database session, which the memory retriever needs
for everybody but the admin, and its text reaches the investment path only if no
keyword of an earlier route occurs in the ticker. -/

set_option autoImplicit false

namespace AgenticEnterprise.Api.Analysis

open Core Library Memory Graph Engine Threads Ownership Dispatch NodeOrder OwnedEffects

/-! ## What the route is for -/

def Superstep.node (step : Superstep) : Option Node :=
  match step.pending with
  | .input _ => none
  | .node node => some node

def analyst (username : String) : Caller :=
  { username := username, withDb := false, withTools := false }

def analysisText (ticker : String) : String :=
  "Analyze " ++ ticker

/-- The loop over the hits meets no hit without a text. -/
def Legible : Nat → List VectorStore.Hit → Prop
  | _, [] => True
  | budget, hit :: hits =>
      ∃ text, hit.text = some text ∧ (text.length ≤ budget → Legible (budget - text.length) hits)

section

variable (deployment : Deployment) (outside : Outside) (ticker username : String) (state : State)

/-- The run the handler makes. -/
def analysisRun : Execution :=
  (runOn deployment outside (analyst username) (some [.human (analysisText ticker)]) ""
    (state.runInputs (analyzeThreadId outside username))).1

/-- The run fetches the metrics and then formats the report, nothing raises, and the
handler answers with the analysis the model gave in that run. -/
def Analyzed : Prop :=
  List.Sublist [.fetchMetrics, .formatReport]
      ((analysisRun deployment outside ticker username state).steps.filterMap Superstep.node) ∧
    ∃ index step prompt report,
      (analysisRun deployment outside ticker username state).steps[index]? = some step ∧
      step.pending = .node .formatReport ∧ step.prompts = [.text prompt] ∧
      (outside.llm index).withStructuredOutput prompt = .ok report ∧
      ((analyzeInvestment deployment outside ticker username).exec state).1 =
        .ok { body := .analysis report }

/-- The caller is the admin, no keyword of an earlier route occurs in the ticker, and
every fact the retriever looks at has a text. -/
structure Analyzable : Prop where
  admin : isAdmin deployment.settings username = true
  noTechnicalWord : Text.containsAny (Text.lower ticker) technicalWords = false
  noBillingWord : Text.containsAny (Text.lower ticker) billingWords = false
  legible : ∀ hits, VectorStore.search outside.embedder outside.ranking state.system.memory
    (analysisText ticker) 2 none = .ok hits → Legible maxContextChars hits

end

/-- Nothing outside fails, and the model obeys the forced tool choice and the schema. -/
structure Obedient (outside : Outside) : Prop where
  builds : outside.fault .buildWorkflow = none
  unstopped : outside.stop = none
  longEnough : 5 ≤ outside.recursionLimit
  embeds : ∀ text, ∃ vector, outside.embedder text = .ok vector
  toolChoice : ∀ index messages, ∃ reply call calls ticker,
    (outside.llm index).bindTools ["get_market_metrics"] (some "get_market_metrics") messages =
        .ok reply ∧
      reply.toolCalls = call :: calls ∧ call.args = [("ticker", ticker)]
  schema : ∀ index prompt, ∃ report, (outside.llm index).withStructuredOutput prompt = .ok report

/-! ## The route of the text -/

/-- A word without the separator does not reach across it. -/
theorem infix_of_separated {Element : Type} {word before after : List Element} {separator : Element}
    (inside : word <:+: before ++ separator :: after) (apart : separator ∉ word) :
    word <:+: before ∨ word <:+: after := by
  obtain ⟨front, back, split⟩ := inside
  rw [List.append_assoc] at split
  rcases List.append_eq_append_iff.mp split with ⟨between, rfl, rest⟩ | ⟨between, rfl, rest⟩
  · rcases List.append_eq_append_iff.mp rest with ⟨gap, rfl, _⟩ | ⟨gap, rfl, beyond⟩
    · exact .inl ⟨front, gap, List.append_assoc ..⟩
    · cases gap with
      | nil => exact .inl ⟨front, [], by simp⟩
      | cons first gap =>
          obtain ⟨rfl, _⟩ := List.cons.inj beyond
          exact absurd (by simp) apart
  · cases between with
    | nil =>
        cases word with
        | nil => exact .inl List.nil_infix
        | cons first word =>
            obtain ⟨rfl, _⟩ := List.cons.inj rest
            exact absurd (.head _) apart
    | cons first between =>
        obtain ⟨rfl, rfl⟩ := List.cons.inj rest
        exact .inr ⟨between, back, List.append_assoc ..⟩

theorem lower_analysisText {ticker : String} :
    (Text.lower (analysisText ticker)).toList =
      "analyze".toList ++ ' ' :: (Text.lower ticker).toList := by
  simp [Text.lower, analysisText, Text.lowerChar]

theorem contains_analysisText {ticker word : String} (apart : ' ' ∉ word.toList)
    (foreign : Text.contains "analyze" word = false) :
    Text.contains (Text.lower (analysisText ticker)) word =
      Text.contains (Text.lower ticker) word := by
  rw [Bool.eq_iff_iff, Text.contains_iff_infix, Text.contains_iff_infix, lower_analysisText]
  constructor
  · intro inside
    rcases infix_of_separated inside apart with own | inTicker
    · rw [← Text.contains_iff_infix, foreign] at own
      cases own
    · exact inTicker
  · intro inTicker
    exact inTicker.trans ⟨"analyze".toList ++ [' '], [], by simp⟩

theorem containsAny_analysisText {ticker : String} {words : List String}
    (apart : ∀ word ∈ words, ' ' ∉ word.toList)
    (foreign : ∀ word ∈ words, Text.contains "analyze" word = false) :
    Text.containsAny (Text.lower (analysisText ticker)) words =
      Text.containsAny (Text.lower ticker) words := by
  rw [Bool.eq_iff_iff, Text.containsAny, Text.containsAny, List.any_eq_true, List.any_eq_true]
  refine exists_congr fun word => and_congr_right fun member => ?_
  rw [contains_analysisText (apart word member) (foreign word member)]

theorem investment_iff {ticker : String} :
    classify (analysisText ticker) = .investment ↔
      Text.containsAny (Text.lower ticker) technicalWords = false ∧
        Text.containsAny (Text.lower ticker) billingWords = false := by
  have technical : Text.containsAny (Text.lower (analysisText ticker)) technicalWords = _ :=
    containsAny_analysisText (by decide) (by decide)
  have billing : Text.containsAny (Text.lower (analysisText ticker)) billingWords = _ :=
    containsAny_analysisText (by decide) (by decide)
  have own : Text.containsAny (Text.lower (analysisText ticker)) investmentWords = true := by
    have named : Text.contains (Text.lower (analysisText ticker)) "analyze" = true := by
      rw [Text.contains_iff_infix, lower_analysisText]
      exact ⟨[], _, rfl⟩
    simp [Text.containsAny, investmentWords, named]
  rw [classify]
  rw [technical, billing, own]
  cases Text.containsAny (Text.lower ticker) technicalWords <;>
    cases Text.containsAny (Text.lower ticker) billingWords <;> simp

/-! ## The facts retrieved -/

theorem legible_iff {budget : Nat} {hits : List VectorStore.Hit} :
    (∃ context, contextWithin budget hits = .ok context) ↔ Legible budget hits := by
  induction hits generalizing budget with
  | nil => simp [Legible]
  | cons hit hits ih =>
      rw [contextWithin_cons, Legible]
      cases written : hit.text with
      | none => simp
      | some text =>
          simp only [Option.some.injEq, exists_eq_left', ← ih]
          by_cases fits : text.length ≤ budget
          · rw [if_neg (Nat.not_lt.mpr fits)]
            simp only [map_eq_ok_iff, fits, forall_const]
            constructor
            · rintro ⟨_, context, taken, _⟩
              exact ⟨context, taken⟩
            · rintro ⟨context, taken⟩
              exact ⟨_, context, taken, rfl⟩
          · simp [Nat.lt_of_not_le fits, fits]

/-! ## The run, superstep by superstep -/

def asked (values : GraphState) (text : String) : GraphState :=
  values.apply { messages := [.human text] }

def routed (values : GraphState) (text : String) : GraphState :=
  (asked values text).apply
    { routeTo := some (classify text)
      status := some "routed"
      internalLogs := ["router: classified as " ++ (classify text).text] }

def withMetrics (values : GraphState) (metrics : MarketMetrics) : GraphState :=
  values.apply
    { internalLogs := ["fetch_market_metrics: " ++ metrics.pyRepr]
      toolResult := some metrics }

def withReport (values : GraphState) (report : InvestmentAnalysis) : GraphState :=
  values.apply
    { analysis := some report
      internalLogs := ["format_report: structured analysis generated"] }

def withFacts (values : GraphState) (context : List String) : GraphState :=
  values.apply
    { retrievedContext := some context
      internalLogs := ["memory_retriever: fetched cross-thread context"] }

section

variable {environments : Nat → Environment} {environment : Environment} {values : GraphState}
  {pending : Pending} {next : Checkpoint} {limit : Nat} {text : String} {context : List String}

theorem execute_step (succeeded : (superstep (environments 0) values pending).outcome = .ok next) :
    execute (limit + 1) environments ⟨values, some pending⟩ =
      ⟨superstep (environments 0) values pending ::
          (execute limit (fun index => environments (index + 1)) next).steps,
        (execute limit (fun index => environments (index + 1)) next).result⟩ := by
  simp only [execute, succeeded]

theorem execute_failed {failure : Exn}
    (failed : (superstep (environments 0) values pending).outcome = .error failure) :
    execute (limit + 1) environments ⟨values, some pending⟩ =
      ⟨[superstep (environments 0) values pending], .error failure⟩ := by
  simp only [execute, failed]

theorem last_asked : (asked values text).messages.getLast? = some (.human text) := by
  simp [asked, GraphState.apply]

theorem last_routed : (routed values text).messages.getLast? = some (.human text) := by
  simp [routed, asked, GraphState.apply]

theorem router_outcome :
    (superstep environment (asked values text) (.node .router)).outcome =
      .ok ⟨routed values text, some (.node .memoryRetriever)⟩ := by
  simp [superstep, runNode, routeRequest, lastMessage_eq_ok_iff.mpr last_asked, nextNode, routed,
    Message.content, pure, Except.pure, bind, Except.bind]

/-- Every turn is classified before anything is retrieved. -/
theorem execute_to_retriever :
    execute (limit + 2) environments ⟨values, some (.input [.human text])⟩ =
      ⟨superstep (environments 0) values (.input [.human text]) ::
          superstep (environments 1) (asked values text) (.node .router) ::
          (execute limit (fun index => environments (index + 2))
            ⟨routed values text, some (.node .memoryRetriever)⟩).steps,
        (execute limit (fun index => environments (index + 2))
          ⟨routed values text, some (.node .memoryRetriever)⟩).result⟩ := by
  have entered : (superstep (environments 0) values (.input [.human text])).outcome =
      .ok ⟨asked values text, some (.node .router)⟩ := rfl
  rw [execute_step entered, execute_step router_outcome]

def retrieved (environment : Environment) (query : String) : Except Exn (List String) := do
  let hits ← retrievedHits environment query
  contextWithin maxContextChars hits

theorem retriever_outcome (found : retrieved environment text = .ok context) :
    (superstep environment (routed values text) (.node .memoryRetriever)).outcome =
      .ok ⟨withFacts (routed values text) context,
        some (.node (firstWorker (classify text)))⟩ := by
  obtain ⟨hits, searched, taken⟩ := bind_eq_ok_iff.mp found
  have classified : (withFacts (routed values text) context).routeTo = some (classify text) := rfl
  rw [← afterMemoryRetriever_eq classified]
  simp [superstep, runNode, retrieveSemanticMemories, lastMessage_eq_ok_iff.mpr last_routed,
    Message.content, searched, taken, nextNode, withFacts, pure, Except.pure, bind, Except.bind]

theorem retriever_failed {failure : Exn} (failed : retrieved environment text = .error failure) :
    (superstep environment (routed values text) (.node .memoryRetriever)).outcome =
      .error failure := by
  unfold retrieved at failed
  cases searched : retrievedHits environment text with
  | error other =>
      rw [searched] at failed
      cases failed
      simp [superstep, runNode, retrieveSemanticMemories, lastMessage_eq_ok_iff.mpr last_routed,
        Message.content, searched, bind, Except.bind]
  | ok hits =>
      rw [searched] at failed
      have taken : contextWithin maxContextChars hits = .error failure := failed
      simp [superstep, runNode, retrieveSemanticMemories, lastMessage_eq_ok_iff.mpr last_routed,
        Message.content, searched, taken, bind, Except.bind]

end

section

variable {deployment : Deployment} {outside : Outside} {ticker username : String} {state : State}
  {inputs : RunInputs} {index : Nat} {values : GraphState}

/-- Without a session the retriever serves nobody but the admin. -/
theorem retrieved_iff (obedient : Obedient outside) :
    (∃ context, retrieved (environment deployment outside (analyst username) inputs index)
        (analysisText ticker) = .ok context) ↔
      isAdmin deployment.settings username = true ∧
        ∀ hits, VectorStore.search outside.embedder outside.ranking inputs.memory
          (analysisText ticker) 2 none = .ok hits → Legible maxContextChars hits := by
  have searched : ∃ hits, VectorStore.search outside.embedder outside.ranking inputs.memory
      (analysisText ticker) 2 none = .ok hits := by
    obtain ⟨vector, embedded⟩ := obedient.embeds (analysisText ticker)
    unfold VectorStore.search
    rw [embedded]
    cases inputs.memory with
    | none => exact ⟨[], rfl⟩
    | some collection => exact ⟨_, rfl⟩
  obtain ⟨hits, found⟩ := searched
  have served : retrievedHits (environment deployment outside (analyst username) inputs index)
      (analysisText ticker) =
        if isAdmin deployment.settings username then .ok hits else .error .attributeError := by
    rw [← found]
    rfl
  rw [retrieved, served, found]
  cases isAdmin deployment.settings username with
  | false => simp [bind, Except.bind]
  | true =>
      simp only [↓reduceIte, Except.ok.injEq, forall_eq', true_and]
      exact legible_iff

theorem fetchMetrics_outcome (obedient : Obedient outside) :
    ∃ metrics, (superstep (environment deployment outside (analyst username) inputs index) values
      (.node .fetchMetrics)).outcome =
        .ok ⟨withMetrics values metrics, some (.node .formatReport)⟩ := by
  obtain ⟨reply, call, calls, ticker, answered, called, args⟩ :=
    obedient.toolChoice index values.messages
  have model : (environment deployment outside (analyst username) inputs index).context.llm =
      outside.llm index := rfl
  refine ⟨⟨ticker⟩, ?_⟩
  simp [superstep, runNode, fetchMarketMetrics, model, answered, called, args, getMarketMetrics,
    nextNode, withMetrics, pure, Except.pure, bind, Except.bind]

theorem formatReport_outcome (obedient : Obedient outside) {metrics : MarketMetrics}
    (fetched : values.toolResult = some metrics) :
    ∃ report, (outside.llm index).withStructuredOutput (reportPrompt metrics) = .ok report ∧
      (superstep (environment deployment outside (analyst username) inputs index) values
        (.node .formatReport)).prompts = [.text (reportPrompt metrics)] ∧
      (superstep (environment deployment outside (analyst username) inputs index) values
        (.node .formatReport)).outcome = .ok ⟨withReport values report, none⟩ := by
  obtain ⟨report, written⟩ := obedient.schema index (reportPrompt metrics)
  have model : (environment deployment outside (analyst username) inputs index).context.llm =
      outside.llm index := rfl
  refine ⟨report, written, ?_, ?_⟩
  · simp [superstep, runNode, generateStructuredReport, fetched]
  · simp [superstep, runNode, generateStructuredReport, fetched, model, written, nextNode,
      withReport, Except.map, pure, Except.pure, bind, Except.bind]

/-! ## The handler -/

theorem analysisRun_eq (obedient : Obedient outside) :
    ∃ start limit, analysisRun deployment outside ticker username state =
      execute (limit + 5) (environment deployment outside (analyst username)
        (state.runInputs (analyzeThreadId outside username)))
        ⟨start, some (.input [.human (analysisText ticker)])⟩ := by
  obtain ⟨limit, enough⟩ := Nat.exists_eq_add_of_le' obedient.longEnough
  refine ⟨(load (state.system.threads (analyzeThreadId outside username)) none).checkpoint.values,
    limit, ?_⟩
  rw [analysisRun, runOn, Outside.budget, obedient.unstopped, enough]
  rfl

theorem analyzeInvestment_exec (builds : outside.fault .buildWorkflow = none)
    {final : GraphState} {report : InvestmentAnalysis}
    (completed : (analysisRun deployment outside ticker username state).result = .ok final)
    (analyzed : final.analysis = some report) :
    ((analyzeInvestment deployment outside ticker username).exec state).1 =
      .ok { body := .analysis report } := by
  have ran : (runOn deployment outside { username := username, withDb := false, withTools := false }
      (some [.human ("Analyze " ++ ticker)]) ""
      (state.runInputs (analyzeThreadId outside username))).1.result = .ok final := completed
  simp [analyzeInvestment, Effect.exec_bind, call, builds, ainvoke_exec, ran, Outside.ending,
    analyzed]

/-- A run that fetches the metrics was classified for them, and its retriever
found what it needs. -/
theorem analyzable_of_fetches (obedient : Obedient outside)
    (fetches : .fetchMetrics ∈
      (analysisRun deployment outside ticker username state).steps.filterMap Superstep.node) :
    Analyzable deployment outside ticker username state := by
  obtain ⟨start, limit, run⟩ := @analysisRun_eq deployment outside ticker username state obedient
  rw [run] at fetches
  obtain ⟨step, taken, node⟩ := List.mem_filterMap.mp fetches
  have investment : classify (analysisText ticker) = .investment := by
    have initially : OnRoute (analysisText ticker)
        ⟨start, some (.input [.human (analysisText ticker)])⟩ := rfl
    obtain ⟨environment, values, pending, _, onRoute, rfl⟩ :=
      execute_steps (fun (_ : True) => OnRoute.advance) (fun _ => trivial) initially step taken
    cases pending with
    | input messages => cases node
    | node reached =>
        cases node
        exact onRoute
  obtain ⟨noTechnicalWord, noBillingWord⟩ := investment_iff.mp investment
  cases found : retrieved (environment deployment outside (analyst username)
      (state.runInputs (analyzeThreadId outside username)) 2) (analysisText ticker) with
  | ok context =>
      obtain ⟨admin, legible⟩ := (retrieved_iff obedient).mp ⟨context, found⟩
      exact ⟨admin, noTechnicalWord, noBillingWord, legible⟩
  | error failure =>
      rw [execute_to_retriever, execute_failed (retriever_failed found)] at fetches
      simp [superstep, Superstep.node] at fetches

theorem analyzed_of_analyzable (obedient : Obedient outside)
    (analyzable : Analyzable deployment outside ticker username state) :
    Analyzed deployment outside ticker username state := by
  obtain ⟨start, limit, run⟩ := @analysisRun_eq deployment outside ticker username state obedient
  have investment := investment_iff.mpr ⟨analyzable.noTechnicalWord, analyzable.noBillingWord⟩
  obtain ⟨context, found⟩ := (@retrieved_iff deployment outside ticker username
    (state.runInputs (analyzeThreadId outside username)) 2 obedient).mpr
      ⟨analyzable.admin, analyzable.legible⟩
  have retrieving := @retriever_outcome _ start _ _ found
  rw [investment, firstWorker] at retrieving
  obtain ⟨metrics, fetching⟩ := @fetchMetrics_outcome deployment outside username
    (state.runInputs (analyzeThreadId outside username)) 3
    (withFacts (routed start (analysisText ticker)) context) obedient
  obtain ⟨report, written, prompted, formatting⟩ := @formatReport_outcome deployment outside
    username (state.runInputs (analyzeThreadId outside username)) 4
    (withMetrics (withFacts (routed start (analysisText ticker)) context) metrics) obedient metrics
    rfl
  rw [execute_to_retriever, execute_step retrieving, execute_step fetching,
    execute_step formatting] at run
  have ended : ∀ environments, execute limit environments
      ⟨withReport (withMetrics (withFacts (routed start (analysisText ticker)) context) metrics)
        report, none⟩ = ⟨[], .ok _⟩ := fun _ => by cases limit <;> rfl
  rw [ended] at run
  refine ⟨?_, 4, _, reportPrompt metrics, report, by rw [run]; rfl, rfl, prompted, written,
    analyzeInvestment_exec obedient.builds (by rw [run]) rfl⟩
  rw [run]
  exact List.sublist_append_right [Node.router, Node.memoryRetriever] _

end

/-- The model calls the tool it is forced to call, with the ticker. -/
def obedientOutside : Outside :=
  undisturbed ⟨"", []⟩ ⟨"", [⟨"call", "get_market_metrics", [("ticker", .text "AAPL")]⟩]⟩

theorem obedientOutside_obedient : Obedient obedientOutside where
  builds := rfl
  unstopped := rfl
  longEnough := by decide
  embeds _ := ⟨[], rfl⟩
  toolChoice _ _ := ⟨_, _, _, _, rfl, rfl, rfl⟩
  schema _ _ := ⟨_, rfl⟩

end AgenticEnterprise.Api.Analysis
