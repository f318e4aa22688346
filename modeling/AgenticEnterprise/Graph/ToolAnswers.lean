import AgenticEnterprise.Graph.Threads
import AgenticEnterprise.Library.Runs

/-! Every tool call in a history handed to the model is answered.

The tool messages of an AI message follow it before the next human or AI
message. A checkpoint whose next node is `tools` is the one place where the last
AI message is still unanswered; the invariant carries that through a thread. -/

set_option autoImplicit false

namespace AgenticEnterprise.Graph.ToolAnswers

open Core Library Engine Threads

/-! ## Answered histories -/

def isTurn : Message → Bool
  | .human _ | .ai _ _ => true
  | .system _ | .tool _ _ => false

/-- The calls that are answered before the next human or AI message. -/
def answeredIds : List Message → List String
  | [] => []
  | .human _ :: _ | .ai _ _ :: _ => []
  | .tool _ toolCallId :: rest => toolCallId :: answeredIds rest
  | .system _ :: rest => answeredIds rest

def WellFormed : List Message → Prop
  | [] => True
  | .ai _ calls :: rest =>
      (calls ≠ [] → (answeredIds rest).Perm (calls.map ToolCall.id)) ∧ WellFormed rest
  | .system _ :: rest | .human _ :: rest | .tool _ _ :: rest => WellFormed rest

instance decidableWellFormed : DecidablePred WellFormed
  | [] => .isTrue trivial
  | .ai _ _ :: rest =>
      have := decidableWellFormed rest
      inferInstanceAs (Decidable (_ ∧ _))
  | .system _ :: rest | .human _ :: rest | .tool _ _ :: rest => decidableWellFormed rest

section

variable {messages rest : List Message} {turn : Message}

theorem answeredIds_append (isATurn : isTurn turn = true) :
    answeredIds (messages ++ turn :: rest) = answeredIds messages := by
  induction messages with
  | nil =>
      cases turn with
      | human | ai => rfl
      | system | tool => cases isATurn
  | cons message messages ih => cases message <;> simp [answeredIds, ih]

/-- A human or AI message starts a new block, so the two sides are independent. -/
theorem WellFormed.append (before : WellFormed messages) (isATurn : isTurn turn = true)
    (after : WellFormed (turn :: rest)) : WellFormed (messages ++ turn :: rest) := by
  induction messages with
  | nil => exact after
  | cons message messages ih =>
      cases message with
      | ai content calls =>
          refine ⟨fun some => ?_, ih before.2⟩
          have same : answeredIds (messages ++ turn :: rest) = answeredIds messages :=
            answeredIds_append isATurn
          exact same ▸ before.1 some
      | system | human | tool => exact ih before

theorem WellFormed.append_human (before : WellFormed messages) (text : String) :
    WellFormed (messages ++ [.human text]) :=
  before.append rfl trivial

theorem WellFormed.append_reply (before : WellFormed messages) (content : String) :
    WellFormed (messages ++ [.ai content []]) :=
  before.append rfl ⟨fun some => absurd rfl some, trivial⟩

theorem WellFormed.append_humans (before : WellFormed messages) {humans : List Message}
    (allHuman : ∀ message ∈ humans, ∃ text, message = .human text) :
    WellFormed (messages ++ humans) := by
  induction humans generalizing messages with
  | nil => simpa using before
  | cons message humans ih =>
      obtain ⟨text, rfl⟩ := allHuman message (.head _)
      rw [List.append_cons]
      exact ih (before.append_human text) fun other member => allHuman other (.tail _ member)

theorem answeredIds_answers {run : ToolCall → String} {calls : List ToolCall} :
    answeredIds (calls.map fun call => .tool (run call) call.id) = calls.map ToolCall.id := by
  induction calls with
  | nil => rfl
  | cons call calls ih => simp [answeredIds, ih]

theorem wellFormed_answers {run : ToolCall → String} {calls : List ToolCall} :
    WellFormed (calls.map fun call => .tool (run call) call.id) := by
  induction calls with
  | nil => trivial
  | cons call calls ih => exact ih

theorem WellFormed.append_answers (before : WellFormed messages) (content : String)
    (calls : List ToolCall) (run : ToolCall → String) :
    WellFormed (messages ++ .ai content calls :: calls.map fun call =>
      .tool (run call) call.id) := by
  refine before.append rfl ⟨fun _ => ?_, wellFormed_answers⟩
  rw [answeredIds_answers]

end

/-! ## The invariant of a checkpoint -/

def Answered (checkpoint : Checkpoint) : Prop :=
  match checkpoint.next with
  | some (.node .tools) =>
      ∃ before content calls, checkpoint.values.messages = before ++ [.ai content calls] ∧
        WellFormed before
  | some (.input messages) =>
      WellFormed checkpoint.values.messages ∧ ∀ message ∈ messages, ∃ text, message = .human text
  | _ => WellFormed checkpoint.values.messages

/-- The plain model, which no tools are bound to, calls none. -/
def PlainReplies (environment : Environment) : Prop :=
  ∀ messages reply, environment.context.llm.ainvoke messages = .ok reply → reply.toolCalls = []

section

variable {environment : Environment} {values : GraphState} {pending : Pending} {next : Checkpoint}

theorem Answered.wellFormed {checkpoint : Checkpoint} (answered : Answered checkpoint)
    (noTools : checkpoint.next ≠ some (.node .tools)) : WellFormed checkpoint.values.messages := by
  unfold Answered at answered
  split at answered
  · rename_i isTools
    exact absurd isTools noTools
  · exact answered.1
  · exact answered

theorem answered_of_wellFormed {target : Option Node} (wellFormed : WellFormed values.messages)
    (noTools : target ≠ some .tools) : Answered ⟨values, target.map .node⟩ := by
  cases target with
  | none => exact wellFormed
  | some node =>
      cases node with
      | tools => exact absurd rfl noTools
      | router | memoryRetriever | agent | billing | general | critic | fetchMetrics
      | formatReport => exact wellFormed

theorem append_ai_eq {left before after : List Message} {content other : String}
    {calls others : List ToolCall}
    (same : left ++ [.ai content calls] = before ++ .ai other others :: after)
    (noAi : ∀ message ∈ after, message.isAi = false) :
    left = before ∧ calls = others ∧ after = [] := by
  rcases List.eq_nil_or_concat after with rfl | ⟨front, last, rfl⟩
  · obtain ⟨rfl, lasts⟩ := List.append_inj' same rfl
    cases lasts
    exact ⟨rfl, rfl, rfl⟩
  · -- the last message is the AI message on the left and cannot stand behind the other one
    have lasts : Message.ai content calls = last := by
      simpa [List.getLast?_cons] using congrArg List.getLast? same
    have notAi := noAi last (by simp)
    rw [← lasts] at notAi
    cases notAi

theorem Answered.advance (answered : Answered ⟨values, some pending⟩)
    (plain : PlainReplies environment) (advanced : Advance environment values pending next) :
    Answered next := by
  cases advanced with
  | input =>
      obtain ⟨wellFormed, allHuman⟩ := answered
      exact wellFormed.append_humans allHuman
  | @node node update target effect decided =>
      have quiet (silent : update.messages = []) (before : WellFormed values.messages)
          (noTools : target ≠ some .tools) :
          Answered ⟨values.apply update, target.map .node⟩ :=
        answered_of_wellFormed (by simpa [GraphState.apply, silent] using before) noTools
      cases effect with
      | router =>
          cases decided
          exact quiet rfl answered (by simp)
      | memoryRetriever =>
          cases decided
          refine quiet rfl answered ?_
          unfold afterMemoryRetriever
          split <;> simp
      | @agent reply _ =>
          have before : WellFormed values.messages := answered
          rw [nextNode] at decided
          rcases toolsCondition_reply rfl decided with ⟨noCalls, rfl⟩ | ⟨_, rfl⟩
          · have ended := before.append_reply reply.content
            simpa [Answered, GraphState.apply, Reply.message, noCalls] using ended
          · exact ⟨values.messages, reply.content, reply.toolCalls, rfl, before⟩
      | @tools before content calls after split noAi =>
          cases decided
          obtain ⟨left, last, lastCalls, shape, wellFormed⟩ := answered
          have same := shape.symm.trans split
          obtain ⟨rfl, rfl, rfl⟩ := append_ai_eq same noAi
          have closed := wellFormed.append_answers content lastCalls environment.runTool
          simpa [Answered, GraphState.apply, split] using closed
      | @billing reply answer =>
          cases decided
          have before : WellFormed values.messages := answered
          have ended := before.append_reply reply.content
          simpa [Answered, GraphState.apply, Reply.message, plain _ _ answer] using ended
      | @general reply answer =>
          cases decided
          have before : WellFormed values.messages := answered
          have ended := before.append_reply reply.content
          simpa [Answered, GraphState.apply, Reply.message, plain _ _ answer] using ended
      | critic =>
          rw [nextNode] at decided
          rcases afterCritic_cases decided with ⟨rfl, _⟩ | ⟨rfl, _⟩
          · exact quiet rfl answered (by simp)
          · exact quiet rfl answered (by simp)
      | fetchMetrics =>
          cases decided
          exact quiet rfl answered (by simp)
      | formatReport =>
          cases decided
          exact quiet rfl answered (by simp)

/-! ## What is handed to the model -/

theorem wellFormed_withMemories (before : WellFormed values.messages) :
    WellFormed (withMemories values) := by
  unfold withMemories
  split
  · exact before
  · exact before

theorem wellFormed_generalMessages (before : WellFormed values.messages) :
    WellFormed (generalMessages values) := by
  unfold generalMessages
  split
  · exact before
  · exact before

theorem Answered.prompts (answered : Answered ⟨values, some pending⟩) {messages : List Message}
    (handed : .messages messages ∈ (superstep environment values pending).prompts) :
    WellFormed messages := by
  cases pending with
  | input => cases handed
  | node node =>
      cases node with
      | router =>
          simp only [superstep, runNode, routeRequest] at handed
          split at handed <;> cases handed
      | memoryRetriever => cases handed
      | agent =>
          have same : messages = withMemories values := by
            simp only [superstep, runNode, callModel] at handed
            split at handed <;> simpa using handed
          exact same ▸ wellFormed_withMemories answered
      | tools =>
          simp only [superstep, runNode, toolNode] at handed
          split at handed <;> cases handed
      | billing =>
          have same : messages = withMemories values := by
            simpa [superstep, runNode, billingWorker] using handed
          exact same ▸ wellFormed_withMemories answered
      | general =>
          have same : messages = generalMessages values := by
            simpa [superstep, runNode, generalWorker] using handed
          exact same ▸ wellFormed_generalMessages answered
      | critic =>
          simp only [superstep, runNode, Engine.critic] at handed
          split at handed <;> cases handed
      | fetchMetrics =>
          have same : messages = values.messages := by
            simpa [superstep, runNode, fetchMarketMetrics] using handed
          exact same ▸ answered
      | formatReport =>
          simp only [superstep, runNode, generateStructuredReport] at handed
          split at handed <;> simp at handed

end

/-- The message lists a run hands to the model. -/
def handed (steps : List Superstep) : List (List Message) :=
  steps.flatMap fun step => step.prompts.filterMap fun
    | .messages messages => some messages
    | .text _ => none

theorem mem_handed {steps : List Superstep} {messages : List Message} :
    messages ∈ handed steps ↔ ∃ step ∈ steps, .messages messages ∈ step.prompts := by
  simp only [handed, List.mem_flatMap, List.mem_filterMap]
  constructor
  · intro inside
    obtain ⟨step, member, prompt, prompted, same⟩ := inside
    cases prompt with
    | messages other =>
        cases same
        exact ⟨step, member, prompted⟩
    | text => cases same
  · intro inside
    obtain ⟨step, member, prompted⟩ := inside
    exact ⟨step, member, _, prompted, rfl⟩

/-! ## Over the history of a thread -/

/-- A run that does not leave tool calls behind: a new turn or a fork from a
checkpoint that waits for no tools, or a resume. -/
inductive Guarded (thread : Thread) : Operation → Prop where
  | turn {limit environments messages checkpointId} :
      (∀ index, PlainReplies (environments index)) →
      (∀ message ∈ messages, ∃ text, message = .human text) →
      (load thread checkpointId).checkpoint.next ≠ some (.node .tools) →
      Guarded thread (.invoke limit environments (some messages) checkpointId)
  | resume {limit environments} :
      (∀ index, PlainReplies (environments index)) →
      Guarded thread (.invoke limit environments none none)

def GuardedOperate (thread : Thread) (operation : Operation) (after : Thread) : Prop :=
  Guarded thread operation ∧ Operate thread operation after

section

variable {thread after : Thread} {operation : Operation}

theorem Guarded.started {limit : Nat} {environments : Nat → Environment}
    {messages : List Message} {checkpointId : Option Nat}
    (guarded : Guarded thread (.invoke limit environments (some messages) checkpointId))
    (all : Thread.All Answered thread) :
    Answered (withInput (load thread checkpointId) messages).checkpoint := by
  cases guarded with
  | turn _ allHuman noTools =>
      have loaded : Answered (load thread checkpointId).checkpoint := all.load trivial
      exact ⟨loaded.wellFormed noTools, allHuman⟩

theorem Guarded.plain {limit : Nat} {environments : Nat → Environment}
    {input : Option (List Message)} {checkpointId : Option Nat}
    (guarded : Guarded thread (.invoke limit environments input checkpointId)) :
    ∀ index, PlainReplies (environments index) := by
  cases guarded with
  | turn plain => exact plain
  | resume plain => exact plain

theorem answered_operate (all : Thread.All Answered thread)
    (operated : GuardedOperate thread operation after) : Thread.All Answered after := by
  obtain ⟨guarded, operated⟩ := operated
  cases operated with
  | invoke =>
      refine all.ainvoke trivial ?_ (fun plain answered advanced => answered.advance plain advanced)
        guarded.plain
      intro messages given
      subst given
      exact guarded.started all
  | edit => cases guarded

theorem answered_runs {first last : Thread} {history : List Operation}
    (all : Thread.All Answered first) (past : Runs GuardedOperate first history last) :
    Thread.All Answered last :=
  past.invariant (fun all operated => answered_operate all operated) all

/-- No run on a thread with a guarded past hands the model a history with an
unanswered tool call. -/
theorem handed_well_formed {history : List Operation} {thread : Thread} {limit : Nat}
    {environments : Nat → Environment} {input : Option (List Message)}
    {checkpointId : Option Nat} (past : Runs GuardedOperate CheckpointStore.empty history thread)
    (guarded : Guarded thread (.invoke limit environments input checkpointId)) :
    ∀ messages ∈ handed (ainvoke limit environments input checkpointId thread).1.steps,
      WellFormed messages := by
  have initially : Thread.All Answered CheckpointStore.empty := by
    intro id saved found
    simp [CheckpointStore.find?, CheckpointStore.empty] at found
  have all := answered_runs initially past
  have kept {environment : Environment} {values : GraphState} {pending : Pending}
      {next : Checkpoint} (plain : PlainReplies environment)
      (answered : Answered ⟨values, some pending⟩)
      (advanced : Advance environment values pending next) : Answered next :=
    answered.advance plain advanced
  have fromStart {first : Checkpoint} (start : Answered first) :
      ∀ messages ∈ handed (execute limit environments first).steps, WellFormed messages := by
    intro messages inside
    obtain ⟨step, member, prompted⟩ := mem_handed.mp inside
    obtain ⟨environment, values, pending, _, answered, rfl⟩ :=
      execute_steps kept guarded.plain start step member
    exact answered.prompts prompted
  cases input with
  | none => exact fromStart (all.load trivial)
  | some messages => exact fromStart (guarded.started all)

end

/-! ## Runs that leave a call behind -/

def callingReply : Reply := ⟨"", [⟨"call-1", "get_weather", []⟩]⟩

def callingModel (_ : Nat) : Environment :=
  scripted ⟨"revised", []⟩ callingReply

/-- A turn that stops in front of the tools, as on a recursion limit. -/
def stoppedThread : Thread :=
  (ainvoke 4 callingModel (some [.human "status"]) none CheckpointStore.empty).2

/-- A turn behind a stopped one, and a plain model that calls a tool. -/
theorem unanswered_call_handed :
    (¬∀ messages ∈ handed (ainvoke 25 callingModel (some [.human "hello"]) none
        stoppedThread).1.steps, WellFormed messages) ∧
      ¬∀ messages ∈ handed (ainvoke 25 (fun _ => scripted callingReply callingReply)
        (some [.human "hello"]) none CheckpointStore.empty).1.steps, WellFormed messages :=
  ⟨by decide, by decide⟩

/-- The stopped turn is resumed first. -/
theorem resumed_call_answered :
    handed (ainvoke 25 callingModel none none stoppedThread).1.steps ≠ [] ∧
      ∀ messages ∈ handed (ainvoke 25 callingModel none none stoppedThread).1.steps,
        WellFormed messages := by
  have plain : ∀ index, PlainReplies (callingModel index) := by
    intro index messages reply answer
    cases answer
    rfl
  have stopped : Guarded CheckpointStore.empty
      (.invoke 4 callingModel (some [.human "status"]) none) := by
    refine .turn plain ?_ nofun
    intro message member
    exact ⟨"status", List.mem_singleton.mp member⟩
  have past : Runs GuardedOperate CheckpointStore.empty
      [.invoke 4 callingModel (some [.human "status"]) none] stoppedThread :=
    .single ⟨stopped, .invoke⟩
  exact ⟨by decide, handed_well_formed past (.resume plain)⟩

end AgenticEnterprise.Graph.ToolAnswers
