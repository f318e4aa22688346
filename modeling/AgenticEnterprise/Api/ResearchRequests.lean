import AgenticEnterprise.Api.Writes
import AgenticEnterprise.Graph.ResearchLoop

/-! `/research` over a history of requests: when a report is sent, what it is made of,
and what the reports on a thread are about. -/

set_option autoImplicit false

namespace AgenticEnterprise.Api.ResearchRequests

open Core Library Graph Research ToolAnswers

/-- What the run of a request starts from. -/
def question (system : System) (payload : ResearchRequest) : List Message :=
  (load (system.research payload.threadId)).values.messages ++
    [.human ("Research the following: " ++ payload.topic)]

/-- The model and the tools of a request once its input is written. -/
def environments (exchange : Exchange) (index : Nat) : Environment :=
  researchEnvironment exchange.outside (index + 1)

section

variable {deployment : Deployment} {outside : Outside} {exchange : Exchange} {state : State}
  {system next : System} {payload : ResearchRequest} {report : ResearchReport}

/-! ## One request -/

def runOf (outside : Outside) (system : System) (payload : ResearchRequest) :
    Execution × ResearchThread :=
  Research.ainvoke (outside.budget researchRecursionLimit) (researchEnvironment outside)
    [.human ("Research the following: " ++ payload.topic)] (system.research payload.threadId)

/-- The stores once the run is over, however it went. -/
def State.researched (outside : Outside) (payload : ResearchRequest) (state : State) : State :=
  { state with
    system := { state.system with
      research := Function.update state.system.research payload.threadId
        (runOf outside state.system payload).2 } }

theorem ending_ok_iff {Result : Type} {limit : Nat} {result : Except Exn Result}
    {value : Result} : outside.ending limit result = .ok value ↔ result = .ok value := by
  cases result with
  | ok returned => rfl
  | error failure => cases failure <;> exact iff_of_false nofun nofun

theorem runResearch_ok_iff {response : Response} {after : State} :
    (runResearch outside payload).exec state = (.ok response, after) ↔
      outside.fault .buildResearchWorkflow = none ∧ outside.fault .getTools = none ∧
        (∃ final report, (runOf outside state.system payload).1.result = .ok final ∧
          final.report = some report ∧ response = { body := .report report }) ∧
        after = State.researched outside payload state := by
  simp only [runResearch, Effect.exec_bind_ok_iff, call_ok_iff, Effect.exec_read, recordResearch,
    Effect.exec_write]
  constructor
  · rintro ⟨_, _, ⟨builds, rfl⟩, _, _, ⟨reaches, rfl⟩, _, _, read, _, _, written, replied⟩
    obtain ⟨loaded, rfl⟩ := Prod.mk.inj read
    cases loaded
    cases written
    refine ⟨builds, reaches, ?_⟩
    split at replied
    · cases replied
    · cases replied
    · rename_i final ended
      split at replied
      · cases replied
      · rename_i report reported
        cases replied
        exact ⟨⟨final, report, ending_ok_iff.mp ended, reported, rfl⟩, rfl⟩
  · rintro ⟨builds, reaches, ⟨final, report, ended, reported, rfl⟩, rfl⟩
    refine ⟨(), _, ⟨builds, rfl⟩, (), _, ⟨reaches, rfl⟩, _, _, rfl, (), _, rfl, ?_⟩
    rw [show Research.ainvoke _ _ _ _ = runOf outside state.system payload from rfl,
      ending_ok_iff.mpr ended]
    dsimp only
    rw [reported]
    rfl

theorem served_ok_iff {after : State} {response : Response}
    (asks : exchange.request.route = .research (some payload)) :
    (handle deployment exchange.outside exchange.request).exec state = (.ok response, after) ↔
      (exchange.caller deployment).isSome = true ∧
        (runResearch exchange.outside payload).exec state = (.ok response, after) := by
  simp only [handle, asks, withUser, getCurrentUser, validated, Effect.exec_bind_ok_iff,
    Effect.exec_ofExcept, Option.isSome_iff_exists, Exchange.caller_eq_some_iff]
  constructor
  · rintro ⟨username, _, called, _, _, given, ran⟩
    obtain ⟨accepted, rfl⟩ := Prod.mk.inj called
    cases given
    exact ⟨⟨username, accepted⟩, ran⟩
  · rintro ⟨⟨username, accepted⟩, ran⟩
    exact ⟨username, _, by rw [accepted], payload, _, rfl, ran⟩

theorem report_sent :
    (exchange.serve deployment system).response = { body := .report report } ↔
      ∃ after, (handle deployment exchange.outside exchange.request).exec { system := system } =
        (.ok { body := .report report }, after) := by
  unfold Exchange.serve serve
  rcases ran : (handle deployment exchange.outside exchange.request).exec { system := system } with
    ⟨failure | response, after⟩
  · exact iff_of_false (by cases failure <;> nofun) (by rintro ⟨_, same⟩; cases same)
  · constructor
    · rintro rfl
      exact ⟨after, rfl⟩
    · rintro ⟨_, same⟩
      cases same
      rfl

end

/-! ## A request with one round -/

def surveyed : ResearchReport where
  topic := "tides"
  summary := "The moon moves the sea."
  confidence := mkRat 3 4
  summary_min := by decide
  confidence_ge := by decide
  confidence_le := by decide

def tides : ResearchRequest where
  topic := "tides"
  threadId := "notes"
  topic_min := by decide
  topic_max := by decide

def lookup : ToolCall := ⟨"1", "read_text_file", [("path", .text "tides.txt")]⟩

/-- The model reads a file before it says anything. -/
def tidesAsked : Exchange where
  request := { token := some "bob", route := .research (some tides) }
  outside :=
    { undisturbed ⟨"", []⟩ ⟨"", []⟩ with
      llm := fun _ =>
        { (undisturbed ⟨"", []⟩ ⟨"", []⟩).llm 0 with
          bindTools := fun _ _ messages =>
            .ok (if messages.length = 1 then ⟨"", [lookup]⟩ else ⟨"It is the moon.", []⟩) }
      runTool := fun _ _ => "High tide follows the moon."
      writeReport := fun _ _ => .ok surveyed }

def tidesTranscript : List Message :=
  [.human "Research the following: tides", .ai "" [lookup],
    .tool "High tide follows the moon." "1", .ai "It is the moon." []]

/-- A report is sent exactly if the loop between model and tools ends within the limit
and its transcript is made into that report. -/
theorem report_sent_iff (deployment : Deployment) (system : System) (exchange : Exchange)
    (payload : ResearchRequest) (report : ResearchReport)
    (asks : exchange.request.route = .research (some payload)) :
    (exchange.serve deployment system).response = { body := .report report } ↔
      (exchange.caller deployment).isSome = true ∧
        exchange.outside.fault .buildResearchWorkflow = none ∧
        exchange.outside.fault .getTools = none ∧
        ∃ used transcript,
          Loop (environments exchange) (question system payload) used transcript ∧
          used + 2 ≤ exchange.outside.budget 50 ∧
          exchange.outside.writeReport (used + 1) (reportPrompt transcript) = .ok report := by
  rw [report_sent]
  simp only [served_ok_iff asks, runResearch_ok_iff]
  constructor
  · rintro ⟨after, accepted, builds, reaches, ⟨final, other, ended, reported, same⟩, _⟩
    cases same
    obtain ⟨used, written, loop, within, synthesized, stored⟩ := ainvoke_ok_iff.mp ended
    rw [stored] at reported
    cases reported
    have limit : used + 2 ≤ exchange.outside.budget 50 := Nat.add_lt_of_lt_sub within
    exact ⟨accepted, builds, reaches, used, final.messages, loop, limit, synthesized⟩
  · rintro ⟨accepted, builds, reaches, used, transcript, loop, limit, synthesized⟩
    have within : used < exchange.outside.budget researchRecursionLimit - 1 :=
      Nat.lt_sub_of_add_lt limit
    exact ⟨_, accepted, builds, reaches, ⟨⟨transcript, some report⟩, report,
      ainvoke_ok_iff.mpr ⟨used, report, loop, within, synthesized, rfl⟩, rfl, rfl⟩, rfl⟩

theorem tides_reported :
    (tidesAsked.serve twoUsers {}).response = { body := .report surveyed } :=
  (report_sent_iff twoUsers {} tidesAsked tides surveyed rfl).mpr
    ⟨by decide, rfl, rfl, 3, tidesTranscript,
      @Loop.round _ _ ⟨"", [lookup]⟩ _ _ rfl (by decide)
        (@Loop.answered _ _ ⟨"It is the moon.", []⟩ rfl rfl),
      by decide, rfl⟩

/-! ## The threads of a history -/

section

variable {deployment : Deployment} {outside : Outside} {exchange : Exchange}
  {system next first : System} {payload : ResearchRequest} {report : ResearchReport}
  {threadId : String} {write : Write} {history : List Exchange}

theorem research_of_written (written : Written deployment outside system write next) :
    next.research threadId = system.research threadId ∨
      ∃ payload, write = .research payload ∧ payload.threadId = threadId ∧
        next.research threadId = (runOf outside system payload).2 := by
  cases write with
  | research payload =>
      cases written
      by_cases same : payload.threadId = threadId
      · subst same
        exact .inr ⟨payload, rfl, rfl, Function.update_self ..⟩
      · exact .inl (Function.update_of_ne (Ne.symm same) ..)
  | edit threadId query =>
      obtain ⟨edited, _, rfl⟩ := map_eq_ok_iff.mp written
      exact .inl rfl
  | remember threadId text =>
      obtain ⟨store, _, rfl⟩ := map_eq_ok_iff.mp written
      exact .inl rfl
  | run | cache | session | sweep =>
      cases written
      exact .inl rfl

/-- A run that a request makes is one its caller has asked for. -/
theorem asked_of_allowed
    (allowed : Allowed deployment exchange.outside exchange.request (.research payload)) :
    (exchange.caller deployment).isSome = true ∧
      exchange.request.route = .research (some payload) := by
  cases allowed with
  | user current permits =>
      refine ⟨Option.isSome_iff_exists.mpr ⟨_, Exchange.caller_eq_some_iff.mpr current⟩, ?_⟩
      generalize exchange.request.route = route at permits
      cases permits
      rfl

/-- What a request keeps of a thread, if its own runs on the thread keep it. -/
theorem serve_research {holds : ResearchThread → Prop}
    (initially : holds (system.research threadId))
    (kept : ∀ payload current, (exchange.caller deployment).isSome = true →
      exchange.request.route = .research (some payload) → payload.threadId = threadId →
      holds (current.research threadId) → holds (runOf exchange.outside current payload).2) :
    holds ((exchange.serve deployment system).system.research threadId) := by
  obtain ⟨writes, allowed, writing⟩ := serve_writes deployment system exchange
  refine @Runs.invariant_of_labels _ _ _ (fun state : System => holds (state.research threadId)) _
    (fun before permitted taken => ?_) _ _ _ writing allowed initially
  rcases research_of_written taken with same | ⟨payload, rfl, own, ran⟩
  · exact same ▸ before
  · obtain ⟨accepted, asks⟩ := asked_of_allowed permitted
    exact ran ▸ kept payload _ accepted asks own before

/-- A model has written the report for somebody who asked for research on the thread. -/
def WrittenFor (deployment : Deployment) (threadId : String) (history : List Exchange)
    (prompt : String) (report : ResearchReport) : Prop :=
  ∃ exchange ∈ history, (exchange.caller deployment).isSome = true ∧
    (∃ payload, exchange.request.route = .research (some payload) ∧
      payload.threadId = threadId) ∧
    ∃ superstep, exchange.outside.writeReport superstep prompt = .ok report

theorem steady_reached (empty : first.research threadId = .empty) :
    ((reached deployment first history).research threadId).All
      (Steady (WrittenFor deployment threadId history)) := by
  induction history using List.reverseRecOn with
  | nil =>
      intro id saved found
      rw [show reached deployment first [] = first from rfl, empty] at found
      simp [CheckpointStore.find?, CheckpointStore.empty] at found
  | append_singleton history exchange ih =>
      rw [reached_append]
      have before : ((reached deployment first history).research threadId).All
          (Steady (WrittenFor deployment threadId (history ++ [exchange]))) := by
        intro id saved found
        refine (ih id saved found).mono fun written => ?_
        obtain ⟨other, member, rest⟩ := written
        exact ⟨other, List.mem_append_left _ member, rest⟩
      refine serve_research before fun payload current accepted asks own steady => ?_
      subst own
      exact steady_ainvoke steady fun answered =>
        ⟨exchange, by simp, accepted, ⟨payload, asks, rfl⟩, _, answered⟩

/-- The question a request puts on a thread. -/
def asked (threadId : String) (exchange : Exchange) : Option Message :=
  match exchange.request.route with
  | .research (some payload) =>
      if payload.threadId = threadId then
        some (.human ("Research the following: " ++ payload.topic))
      else none
  | _ => none

/-- What the model would be handed on a thread. -/
def transcript (threadId : String) (system : System) : List Message :=
  (load (system.research threadId)).values.messages

theorem transcript_of_report (asks : exchange.request.route = .research (some payload))
    (sent : (exchange.serve deployment system).response = { body := .report report }) :
    ∃ used, Loop (environments exchange) (question system payload) used
      (transcript payload.threadId (exchange.serve deployment system).system) := by
  obtain ⟨after, ran⟩ := report_sent.mp sent
  obtain ⟨_, handled⟩ := (served_ok_iff asks).mp ran
  obtain ⟨_, _, ⟨final, other, ended, _, _⟩, rfl⟩ := runResearch_ok_iff.mp handled
  obtain ⟨used, _, loop, _⟩ := ainvoke_ok_iff.mp ended
  have left : transcript payload.threadId (exchange.serve deployment system).system =
      final.messages := by
    simp only [transcript, Exchange.serve, serve, ran, State.researched, Function.update_self,
      load, runOf, ainvoke_latest ended, Option.getD_some]
  exact ⟨used, left ▸ loop⟩

theorem transcript_elsewhere (silent : asked threadId exchange = none) :
    (exchange.serve deployment system).system.research threadId = system.research threadId := by
  refine @serve_research deployment exchange system threadId
    (fun thread => thread = system.research threadId) rfl fun payload current _ asks own _ => ?_
  simp only [asked, asks, own, if_true] at silent
  cases silent

def sendsReport (response : Response) : Bool :=
  match response with
  | ⟨200, .report _⟩ => true
  | _ => false

theorem sendsReport_iff {response : Response} :
    sendsReport response = true ↔ ∃ report, response = { body := .report report } := by
  unfold sendsReport
  split
  · exact iff_of_true rfl ⟨_, rfl⟩
  · rename_i other
    refine iff_of_false Bool.false_ne_true ?_
    rintro ⟨report, rfl⟩
    exact other report rfl

/-- The questions of the requests on a thread that are answered with a report. -/
def answeredQuestions (deployment : Deployment) (threadId : String) :
    System → List Exchange → List Message
  | _, [] => []
  | system, exchange :: rest =>
      let served := exchange.serve deployment system
      let questions :=
        if sendsReport served.response then (asked threadId exchange).toList else []
      questions ++ answeredQuestions deployment threadId served.system rest

/-- A request is answered with a report, or it leaves the thread as it is. -/
def Whole (deployment : Deployment) (threadId : String) (system : System)
    (exchange : Exchange) : Prop :=
  sendsReport (exchange.serve deployment system).response = true ∨
    (exchange.serve deployment system).system.research threadId = system.research threadId

theorem asked_eq_some {message : Message} (asks : asked threadId exchange = some message) :
    ∃ payload, exchange.request.route = .research (some payload) ∧
      payload.threadId = threadId ∧
      message = .human ("Research the following: " ++ payload.topic) := by
  unfold asked at asks
  split at asks
  · rename_i payload routed
    split at asks
    · rename_i own
      exact ⟨payload, routed, own, (Option.some.inj asks).symm⟩
    · cases asks
  · cases asks

/-- Where nothing was added to the thread, it holds the questions it held. -/
theorem whole_of_same {next : System}
    (same : next.research threadId = system.research threadId)
    (before : WellFormed (transcript threadId system)) :
    WellFormed (transcript threadId next) ∧
      (transcript threadId next).filter isHuman =
        (transcript threadId system).filter isHuman ++ [] := by
  have kept : transcript threadId next = transcript threadId system := by
    simp only [transcript, same]
  rw [kept, List.append_nil]
  exact ⟨before, rfl⟩

theorem serve_whole (whole : Whole deployment threadId system exchange)
    (before : WellFormed (transcript threadId system)) :
    let served := exchange.serve deployment system
    WellFormed (transcript threadId served.system) ∧
      (transcript threadId served.system).filter isHuman =
        (transcript threadId system).filter isHuman ++
          if sendsReport served.response then (asked threadId exchange).toList else [] := by
  intro served
  cases question : asked threadId exchange with
  | none =>
      rw [Option.toList_none, ite_self]
      exact whole_of_same (transcript_elsewhere question) before
  | some message =>
      cases sent : sendsReport served.response with
      | false =>
          rcases whole with reports | same
          · exact absurd (reports.symm.trans sent) (by decide)
          · exact whole_of_same same before
      | true =>
          obtain ⟨report, reports⟩ := sendsReport_iff.mp sent
          obtain ⟨payload, asks, rfl, rfl⟩ := asked_eq_some question
          obtain ⟨used, loop⟩ := transcript_of_report asks reports
          refine ⟨loop.wellFormed (before.append_human _), ?_⟩
          rw [loop.humans]
          simp [Api.ResearchRequests.question, transcript, isHuman]

theorem reached_whole (before : WellFormed (transcript threadId first))
    (whole : ∀ front exchange back, history = front ++ exchange :: back →
      Whole deployment threadId (reached deployment first front) exchange) :
    WellFormed (transcript threadId (reached deployment first history)) ∧
      (transcript threadId (reached deployment first history)).filter isHuman =
        (transcript threadId first).filter isHuman ++
          answeredQuestions deployment threadId first history := by
  induction history generalizing first with
  | nil => exact ⟨before, by simp [reached, answeredQuestions]⟩
  | cons exchange history ih =>
      obtain ⟨wellFormed, humans⟩ := serve_whole (whole [] exchange history rfl) before
      obtain ⟨later, said⟩ := ih wellFormed fun front other back split =>
        whole (exchange :: front) other back (congrArg (exchange :: ·) split)
      refine ⟨later, said.trans ?_⟩
      rw [humans, List.append_assoc]
      rfl

end

/-- A report is about the messages it is kept with. Whichever checkpoint of a research
thread holds one, a model has written it from just those messages, which end with the
model's word, for somebody who asked for research on the thread. -/
theorem reports_fresh (deployment : Deployment) (first : System) (history : List Exchange)
    (threadId : String) (id : Nat) (saved : Saved Checkpoint) (report : ResearchReport)
    (empty : first.research threadId = .empty)
    (found : ((reached deployment first history).research threadId).find? id = some saved)
    (reported : saved.state.values.report = some report) :
    WrittenFor deployment threadId history (reportPrompt saved.state.values.messages) report ∧
      Concluded saved.state.values.messages :=
  (steady_reached empty id saved found).reported report reported

theorem tides_report_fresh :
    WrittenFor twoUsers "notes" [tidesAsked] (reportPrompt tidesTranscript) surveyed ∧
      Concluded tidesTranscript :=
  reports_fresh twoUsers {} [tidesAsked] "notes" 5
    ⟨some 4, ⟨⟨tidesTranscript, some surveyed⟩, none⟩⟩ surveyed rfl (by decide) rfl

/-- On a thread whose requests are each answered with a report or leave it alone, the
questions that were answered stand in their order, every tool call is answered, and
nobody else has spoken. -/
theorem answered_thread_whole (deployment : Deployment) (first : System) (threadId : String)
    (history : List Exchange) (empty : first.research threadId = .empty)
    (whole : ∀ front exchange back, history = front ++ exchange :: back →
      Whole deployment threadId (reached deployment first front) exchange) :
    WellFormed (transcript threadId (reached deployment first history)) ∧
      (transcript threadId (reached deployment first history)).filter isHuman =
        answeredQuestions deployment threadId first history := by
  have start : transcript threadId first = [] := by
    rw [transcript, empty]
    rfl
  obtain ⟨wellFormed, humans⟩ := reached_whole (start ▸ trivial) whole
  rw [start] at humans
  exact ⟨wellFormed, humans⟩

theorem tides_thread_whole :
    WellFormed (transcript "notes" (reached twoUsers {} [tidesAsked])) ∧
      (transcript "notes" (reached twoUsers {} [tidesAsked])).filter isHuman =
        [.human "Research the following: tides"] := by
  refine answered_thread_whole twoUsers {} "notes" [tidesAsked] rfl ?_
  intro front exchange back split
  obtain ⟨rfl, same⟩ : front = [] ∧ exchange :: back = [tidesAsked] := by
    cases front with
    | nil => exact ⟨rfl, split.symm⟩
    | cons other front => simp at split
  cases same
  exact .inl (by decide)

end AgenticEnterprise.Api.ResearchRequests
