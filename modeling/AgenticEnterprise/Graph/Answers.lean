import AgenticEnterprise.Graph.Threads

/-! What a completed run answers with: the content of the last message.

The text of the turn picks one of four paths. Three of them end behind a reply
of the chat model; the investment path appends no message at all. -/

set_option autoImplicit false

namespace AgenticEnterprise.Graph.Answers

open Core Library Engine Threads

/-- The output a handler returns: `result["messages"][-1].content`. -/
def output (result : GraphState) : Except Exn String :=
  (lastMessage result).map Message.content

def recordReply (last : Option Reply) (step : Superstep) : Option Reply :=
  step.reply.or last

/-- The last answer the chat model gave in a run. -/
def lastReply (steps : List Superstep) : Option Reply :=
  steps.foldl recordReply none

/-- The output is the content of an AI message produced behind `before`, and that
message calls no tools. -/
def AnsweredByAgent (before : List Message) (result : GraphState) : Prop :=
  ∃ produced content, result.messages = before ++ produced ∧
    produced.getLast? = some (.ai content []) ∧ output result = .ok content

/-- What holds between two supersteps of a run on `text`, given the last reply so far. -/
def Progress (before : List Message) (text : String) (checkpoint : Checkpoint)
    (last : Option Reply) : Prop :=
  let messages := checkpoint.values.messages
  match checkpoint.next with
  | none =>
      (classify text = .investment ∧ messages = before) ∨
        (classify text ≠ .investment ∧ ∃ produced reply, last = some reply ∧
          messages = before ++ produced ++ [reply.message])
  | some (.input input) => messages ++ input = before
  | some (.node node) =>
      match node with
      | .router => messages = before
      | .memoryRetriever =>
          messages = before ∧ checkpoint.values.routeTo = some (classify text)
      | .agent | .tools => classify text = .technical ∧ ∃ produced, messages = before ++ produced
      | .billing => classify text = .billing ∧ messages = before
      | .general => classify text = .general ∧ ∃ produced, messages = before ++ produced
      | .critic =>
          classify text = .general ∧ ∃ produced reply, last = some reply ∧
            messages = before ++ produced ++ [reply.message]
      | .fetchMetrics | .formatReport => classify text = .investment ∧ messages = before

section

variable {environment : Environment} {values : GraphState} {before : List Message}
  {text : String} {pending : Pending} {next : Checkpoint} {last : Option Reply}

theorem Progress.step (endsInText : before.getLast? = some (.human text))
    (progress : Progress before text ⟨values, some pending⟩ last)
    (succeeded : (superstep environment values pending).outcome = .ok next) :
    Progress before text next (recordReply last (superstep environment values pending)) := by
  cases advance_of_outcome succeeded with
  | input => exact progress
  | node effect decided =>
      cases effect with
      | @router message isLast =>
          have messages : values.messages = before := progress
          have same : message = .human text := by
            rw [messages, endsInText] at isLast
            exact (Option.some.inj isLast).symm
          subst same
          cases decided
          exact ⟨by simpa [GraphState.apply] using messages, rfl⟩
      | @memoryRetriever context =>
          obtain ⟨messages, route⟩ := progress
          cases decided
          have kept : (values.apply
              { retrievedContext := some context
                internalLogs := ["memory_retriever: fetched cross-thread context"] }).messages =
              before := by
            simpa [GraphState.apply] using messages
          have routed : (values.apply
              { retrievedContext := some context
                internalLogs := ["memory_retriever: fetched cross-thread context"] }).routeTo =
              some (classify text) := route
          rw [afterMemoryRetriever, routed]
          cases chosen : classify text with
          | technical => exact ⟨chosen, [], by simpa using kept⟩
          | billing => exact ⟨chosen, kept⟩
          | investment => exact ⟨chosen, kept⟩
          | general => exact ⟨chosen, [], by simpa using kept⟩
      | @agent reply answer =>
          dsimp only [Progress] at progress
          obtain ⟨technical, produced, messages⟩ := progress
          have recorded : (superstep environment values (.node .agent)).reply = some reply := by
            simp [superstep, runNode, callModel, answer]
          rw [nextNode] at decided
          rcases toolsCondition_reply rfl decided with ⟨_, rfl⟩ | ⟨_, rfl⟩
          · refine .inr ⟨by simp [technical], produced, reply, ?_, ?_⟩
            · simp [recordReply, recorded]
            · simp [GraphState.apply, messages]
          · exact ⟨technical, produced ++ [reply.message], by simp [GraphState.apply, messages]⟩
      | @tools _ _ calls _ _ _ =>
          dsimp only [Progress] at progress
          obtain ⟨technical, produced, messages⟩ := progress
          cases decided
          refine ⟨technical, produced ++ calls.map fun call =>
            Message.tool (environment.runTool call) call.id, ?_⟩
          simp [GraphState.apply, messages]
      | @billing reply answer =>
          dsimp only [Progress] at progress
          obtain ⟨billing, messages⟩ := progress
          have recorded : (superstep environment values (.node .billing)).reply = some reply := by
            simp [superstep, runNode, billingWorker, answer, Except.toOption]
          cases decided
          refine .inr ⟨by simp [billing], [], reply, ?_, ?_⟩
          · simp [recordReply, recorded]
          · simp [GraphState.apply, messages]
      | @general reply answer =>
          dsimp only [Progress] at progress
          obtain ⟨general, produced, messages⟩ := progress
          have recorded : (superstep environment values (.node .general)).reply = some reply := by
            simp [superstep, runNode, generalWorker, answer, Except.toOption]
          cases decided
          refine ⟨general, produced, reply, ?_, ?_⟩
          · simp [recordReply, recorded]
          · simp [GraphState.apply, messages]
      | @critic draft count isLast counted =>
          dsimp only [Progress] at progress
          obtain ⟨general, produced, reply, replied, messages⟩ := progress
          have silent : (superstep environment values (.node .critic)).reply = none := by
            simp only [superstep, runNode, Engine.critic]
            split <;> rfl
          rw [nextNode] at decided
          rcases afterCritic_cases decided with ⟨rfl, _⟩ | ⟨rfl, _⟩
          · refine .inr ⟨by simp [general], produced, reply, ?_, ?_⟩
            · simp [recordReply, silent, replied]
            · simp [GraphState.apply, messages]
          · exact ⟨general, produced ++ [reply.message], by simp [GraphState.apply, messages]⟩
      | fetchMetrics =>
          obtain ⟨investment, messages⟩ := progress
          cases decided
          exact ⟨investment, by simpa [GraphState.apply] using messages⟩
      | formatReport =>
          obtain ⟨investment, messages⟩ := progress
          cases decided
          exact .inl ⟨investment, by simpa [GraphState.apply] using messages⟩

end

theorem Progress.iff {before : List Message} {text : String} {result : GraphState}
    {last : Option Reply} (progress : Progress before text ⟨result, none⟩ last) :
    AnsweredByAgent before result ↔
      classify text ≠ .investment ∧ ∃ reply, last = some reply ∧ reply.toolCalls = [] := by
  dsimp only [Progress] at progress
  rcases progress with ⟨investment, messages⟩ | ⟨notInvestment, produced, reply, replied, messages⟩
  · -- nothing was produced
    constructor
    · intro answered
      obtain ⟨produced, content, split, isLast, _⟩ := answered
      have empty : produced = [] := List.self_eq_append_right.mp (messages.symm.trans split)
      rw [empty] at isLast
      cases isLast
    · intro condition
      exact absurd investment condition.1
  · constructor
    · intro answered
      obtain ⟨other, content, split, isLast, _⟩ := answered
      have same : produced ++ [reply.message] = other := by
        rw [split, List.append_assoc] at messages
        exact (List.append_cancel_left messages).symm
      rw [← same, List.getLast?_concat, Option.some.injEq, Reply.message,
        Message.ai.injEq] at isLast
      exact ⟨notInvestment, reply, replied, isLast.2⟩
    · intro condition
      obtain ⟨_, other, recorded, noCalls⟩ := condition
      obtain rfl : reply = other := Option.some.inj (replied.symm.trans recorded)
      refine ⟨produced ++ [reply.message], reply.content, ?_, ?_, ?_⟩
      · rw [messages, List.append_assoc]
      · rw [List.getLast?_concat, Reply.message, noCalls]
      · simp [output, lastMessage, messages, Reply.message, Except.map, Message.content]

/-- A completed turn is answered by the agent exactly when its text is not an
investment question and the last reply of the model calls no tools. -/
theorem answered_by_agent_iff {thread : Thread} {checkpointId : Option Nat} {limit : Nat}
    {environments : Nat → Environment} {text : String} {result : GraphState}
    (completed : (ainvoke limit environments (some [.human text]) checkpointId thread).1.result =
      .ok result) :
    AnsweredByAgent ((load thread checkpointId).checkpoint.values.messages ++ [.human text])
        result ↔
      classify text ≠ .investment ∧
        ∃ reply, lastReply (ainvoke limit environments (some [.human text]) checkpointId
          thread).1.steps = some reply ∧ reply.toolCalls = [] := by
  have endsInText : ((load thread checkpointId).checkpoint.values.messages ++
      [Message.human text]).getLast? = some (.human text) := List.getLast?_concat
  have entered : Progress ((load thread checkpointId).checkpoint.values.messages ++ [.human text])
      text (withInput (load thread checkpointId) [Message.human text]).checkpoint none := rfl
  have kept {environment : Environment} {values : GraphState} {pending : Pending}
      {next : Checkpoint} {last : Option Reply}
      (progress : Progress ((load thread checkpointId).checkpoint.values.messages ++
        [.human text]) text ⟨values, some pending⟩ last)
      (succeeded : (superstep environment values pending).outcome = .ok next) :=
    progress.step endsInText succeeded
  exact (execute_result recordReply kept entered completed).iff

def metricsReply : Reply :=
  ⟨"", [⟨"call-1", "get_market_metrics", [("ticker", .text "AAPL")]⟩]⟩

/-- An investment question is answered with itself. -/
theorem investment_turn_echoes :
    ∃ result,
      (ainvoke 25 (fun _ => scripted ⟨"revised", []⟩ metricsReply)
          (some [.human "Analyze AAPL"]) none CheckpointStore.empty).1.result = .ok result ∧
        output result = .ok "Analyze AAPL" ∧
        ¬AnsweredByAgent [.human "Analyze AAPL"] result := by
  refine ⟨_, rfl, by decide, ?_⟩
  intro answered
  obtain ⟨produced, content, split, isLast, _⟩ := answered
  have empty : produced = [] := List.self_eq_append_right.mp (Eq.trans (by decide) split)
  rw [empty] at isLast
  cases isLast

theorem general_turn_answered :
    ∃ result,
      (ainvoke 25 (fun _ => scripted ⟨"revised", []⟩ metricsReply)
          (some [.human "hello"]) none CheckpointStore.empty).1.result = .ok result ∧
        AnsweredByAgent [.human "hello"] result := by
  refine ⟨_, rfl, ?_⟩
  have completed : (ainvoke 25 (fun _ => scripted ⟨"revised", []⟩ metricsReply)
      (some [.human "hello"]) none CheckpointStore.empty).1.result = .ok _ := rfl
  exact (answered_by_agent_iff completed).mpr ⟨by decide, ⟨"revised", []⟩, by decide, rfl⟩

end AgenticEnterprise.Graph.Answers
