import AgenticEnterprise.Graph.Research
import AgenticEnterprise.Graph.ToolAnswers

/-! What a run of the research graph comes to: the model is asked and its tool
calls are answered until it makes none, and the report is written from all that was
said. The recursion limit bounds the rounds, nothing else does. -/

set_option autoImplicit false

namespace AgenticEnterprise.Graph.Research

open Core Library Engine ToolAnswers

/-- The answers to the calls of a reply. -/
def answers (environment : Environment) (reply : Reply) : List Message :=
  reply.toolCalls.map fun call => .tool (environment.runTool call) call.id

/-- The loop between model and tools leads from one transcript to another in so many
supersteps. -/
inductive Loop : (Nat → Environment) → List Message → Nat → List Message → Prop where
  | answered {environments messages reply} :
      (environments 0).toolLlm messages = .ok reply → reply.toolCalls = [] →
      Loop environments messages 1 (messages ++ [reply.message])
  | round {environments messages reply used transcript} :
      (environments 0).toolLlm messages = .ok reply → reply.toolCalls ≠ [] →
      Loop (fun index => environments (index + 2))
        (messages ++ reply.message :: answers (environments 1) reply) used transcript →
      Loop environments messages (used + 2) transcript

/-- The report is written in the superstep after the loop. -/
def Synthesized (environments : Nat → Environment) (messages : List Message) (limit : Nat)
    (final : ResearchState) : Prop :=
  ∃ used report, Loop environments messages used final.messages ∧ used < limit ∧
    (environments used).withStructuredOutput (reportPrompt final.messages) = .ok report ∧
    final.report = some report

section

variable {environments : Nat → Environment} {messages transcript : List Message}
  {used limit : Nat} {final : ResearchState} {report : Option ResearchReport}

/-! ## The transcript of a loop -/

def isHuman : Message → Bool
  | .human _ => true
  | _ => false

/-- Nobody but the model and the tools speaks in a loop. -/
theorem Loop.humans (loop : Loop environments messages used transcript) :
    transcript.filter isHuman = messages.filter isHuman := by
  induction loop with
  | answered => simp [Reply.message, isHuman]
  | @round environments messages reply _ _ _ _ _ ih =>
      have quiet : (answers (environments 1) reply).filter isHuman = [] := by
        simp [answers, List.filter_map, isHuman, Function.comp_def]
      rw [ih]
      simp [Reply.message, isHuman, quiet]

/-- Every call of the model is answered before it is asked again. -/
theorem Loop.wellFormed (loop : Loop environments messages used transcript)
    (before : WellFormed messages) : WellFormed transcript := by
  induction loop with
  | answered _ done =>
      rw [Reply.message, done]
      exact before.append_reply _
  | round _ _ _ ih => exact ih (before.append_answers _ _ _)

/-! ## Supersteps -/

section

variable {environment : Environment} {values : ResearchState} {next : Checkpoint}

theorem superstep_agent_iff :
    superstep environment values (.node .agent) = .ok next ↔
      ∃ reply, environment.toolLlm values.messages = .ok reply ∧
        next = ⟨⟨values.messages ++ [reply.message], values.report⟩,
          some (.node (if reply.toolCalls = [] then .report else .tools))⟩ := by
  simp only [superstep, runNode, researcher, bind_eq_ok_iff, nextNode, shouldContinue]
  constructor
  · rintro ⟨reached, ⟨reply, asked, rest⟩, target, decided, ended⟩
    cases rest
    simp only [List.getLast?_append, List.getLast?_singleton, Option.some_or, Except.map] at decided
    cases decided
    cases ended
    exact ⟨reply, asked, rfl⟩
  · rintro ⟨reply, asked, rfl⟩
    refine ⟨_, ⟨reply, asked, rfl⟩, some (if reply.toolCalls = [] then .report else .tools), ?_,
      rfl⟩
    by_cases done : reply.toolCalls = [] <;>
      simp [Except.map, Reply.message, Message.toolCalls, done]

/-- The tools node comes after a reply, so it finds that reply. -/
theorem superstep_tools {reply : Reply}
    (replied : values.messages.getLast? = some reply.message) :
    superstep environment values (.node .tools) =
      .ok ⟨{ values with messages := values.messages ++ answers environment reply },
        some (.node .agent)⟩ := by
  obtain ⟨before, same⟩ := List.getLast?_eq_some_iff.mp replied
  have found : values.messages.reverse.find? Message.isAi = some reply.message := by
    simp [same, Reply.message, Message.isAi]
  simp only [superstep, runNode, toolNode, found]
  rfl

theorem superstep_report_iff :
    superstep environment values (.node .report) = .ok next ↔
      ∃ report, environment.withStructuredOutput (reportPrompt values.messages) = .ok report ∧
        next = ⟨{ values with report := some report }, none⟩ := by
  simp only [superstep, runNode, generateResearchReport, bind_eq_ok_iff, nextNode]
  constructor
  · rintro ⟨reached, ⟨report, written, rest⟩, target, decided, ended⟩
    cases rest
    cases decided
    cases ended
    exact ⟨report, written, rfl⟩
  · rintro ⟨report, written, rfl⟩
    exact ⟨_, ⟨report, written, rfl⟩, none, rfl, rfl⟩

end

/-! ## Runs -/

/-- A run that has something to do ends where the run after its first superstep does. -/
theorem execute_ok_iff {values : ResearchState} {pending : Pending} :
    (execute limit environments ⟨values, some pending⟩).result = .ok final ↔
      ∃ rest next, limit = rest + 1 ∧ superstep (environments 0) values pending = .ok next ∧
        (execute rest (fun index => environments (index + 1)) next).result = .ok final := by
  cases limit with
  | zero => simp [execute]
  | succ rest =>
      simp only [execute]
      cases superstep (environments 0) values pending with
      | error failure => simp
      | ok next => simp

theorem execute_report_iff :
    (execute limit environments ⟨⟨messages, report⟩, some (.node .report)⟩).result = .ok final ↔
      ∃ written, 0 < limit ∧
        (environments 0).withStructuredOutput (reportPrompt messages) = .ok written ∧
        final = ⟨messages, some written⟩ := by
  rw [execute_ok_iff]
  constructor
  · rintro ⟨rest, next, rfl, stepped, ended⟩
    obtain ⟨written, same, rfl⟩ := superstep_report_iff.mp stepped
    cases rest <;> cases ended <;> exact ⟨written, Nat.succ_pos _, same, rfl⟩
  · rintro ⟨written, positive, same, rfl⟩
    obtain ⟨rest, rfl⟩ := Nat.exists_eq_add_of_lt positive
    refine ⟨rest, _, by omega, superstep_report_iff.mpr ⟨written, same, rfl⟩, ?_⟩
    cases rest <;> rfl

/-- A run at the model ends exactly as the loop does, with a report on its transcript. -/
theorem execute_agent_iff :
    (execute limit environments ⟨⟨messages, report⟩, some (.node .agent)⟩).result = .ok final ↔
      Synthesized environments messages limit final := by
  constructor
  · intro ended
    induction limit using Nat.strongRecOn generalizing environments messages with
    | ind limit ih =>
        obtain ⟨rest, next, rfl, stepped, ended⟩ := execute_ok_iff.mp ended
        obtain ⟨reply, asked, rfl⟩ := superstep_agent_iff.mp stepped
        by_cases done : reply.toolCalls = []
        · rw [if_pos done] at ended
          obtain ⟨written, positive, same, rfl⟩ := execute_report_iff.mp ended
          exact ⟨1, written, .answered asked done, by omega, same, rfl⟩
        · rw [if_neg done] at ended
          obtain ⟨rest, next, rfl, answered, ended⟩ := execute_ok_iff.mp ended
          rw [@superstep_tools _ _ reply (by simp)] at answered
          cases answered
          obtain ⟨used, written, loop, within, same, reported⟩ := ih rest (by omega) ended
          rw [List.append_assoc] at loop
          exact ⟨used + 2, written, .round asked done loop, by omega, same, reported⟩
  · rintro ⟨used, written, loop, within, same, reported⟩
    obtain ⟨transcript, reports⟩ := final
    dsimp only at loop same reported
    subst reported
    induction loop generalizing limit with
    | answered asked done =>
        obtain ⟨rest, rfl⟩ := Nat.exists_eq_add_of_lt within
        refine execute_ok_iff.mpr ⟨rest + 1, _, by omega,
          superstep_agent_iff.mpr ⟨_, asked, rfl⟩, ?_⟩
        rw [if_pos done]
        exact execute_report_iff.mpr ⟨written, by omega, same, rfl⟩
    | @round environments messages reply used transcript asked calls _ ih =>
        obtain ⟨rest, rfl⟩ := Nat.exists_eq_add_of_lt within
        refine execute_ok_iff.mpr ⟨used + rest + 2, _, by omega,
          superstep_agent_iff.mpr ⟨_, asked, rfl⟩, ?_⟩
        rw [if_neg calls]
        refine execute_ok_iff.mpr ⟨used + rest + 1, _, rfl,
          @superstep_tools _ _ reply (by simp), ?_⟩
        rw [List.append_assoc]
        exact ih (by omega) same

/-- A run of a request: the input comes first and takes a superstep too. -/
theorem ainvoke_ok_iff {input : List Message} {thread : ResearchThread} :
    (ainvoke limit environments input thread).1.result = .ok final ↔
      Synthesized (fun index => environments (index + 1))
        ((load thread).values.messages ++ input) (limit - 1) final := by
  rw [ainvoke]
  dsimp only
  rw [execute_ok_iff]
  constructor
  · rintro ⟨rest, next, rfl, stepped, ended⟩
    cases stepped
    exact execute_agent_iff.mp ended
  · intro synthesized
    have within : 0 < limit - 1 := by
      obtain ⟨_, _, _, below, _⟩ := synthesized
      omega
    exact ⟨limit - 1, _, by omega, rfl, execute_agent_iff.mpr synthesized⟩

/-- A run that completes leaves its end behind as the latest checkpoint. -/
theorem execute_latest {start : Checkpoint} {thread : ResearchThread}
    (loaded : thread.latest = some start)
    (ended : (execute limit environments start).result = .ok final) :
    ((execute limit environments start).checkpoints.foldl save thread).latest =
      some ⟨final, none⟩ := by
  induction limit generalizing environments start thread with
  | zero =>
      obtain ⟨values, next⟩ := start
      cases next <;> cases ended
      exact loaded
  | succ limit ih =>
      obtain ⟨values, next⟩ := start
      cases next with
      | none =>
          cases ended
          exact loaded
      | some pending =>
          simp only [execute] at ended ⊢
          split at ended
          · cases ended
          · exact ih CheckpointStore.latest_put ended

theorem ainvoke_latest {input : List Message} {thread : ResearchThread}
    (ended : (ainvoke limit environments input thread).1.result = .ok final) :
    (ainvoke limit environments input thread).2.latest = some ⟨final, none⟩ :=
  execute_latest CheckpointStore.latest_put ended

end

/-! ## Reports in checkpoints -/

/-- The model has had the last word. -/
def Concluded (messages : List Message) : Prop :=
  ∃ said content, messages = said ++ [.ai content []]

/-- `written` are the prompts with the reports a model has answered them with. A report
that is kept has been written about the messages it is kept with. -/
structure Steady (written : String → ResearchReport → Prop) (checkpoint : Checkpoint) : Prop where
  reported : ∀ report, checkpoint.values.report = some report →
    written (reportPrompt checkpoint.values.messages) report ∧
      Concluded checkpoint.values.messages
  unreported : ∀ node, checkpoint.next = some (.node node) → checkpoint.values.report = none
  concluded : checkpoint.next = some (.node .report) → Concluded checkpoint.values.messages

section

variable {written : String → ResearchReport → Prop} {environments : Nat → Environment}
  {limit : Nat}

/-- A checkpoint without a report. -/
theorem steady_unreported {checkpoint : Checkpoint} (none : checkpoint.values.report = none)
    (concluded : checkpoint.next = some (.node .report) → Concluded checkpoint.values.messages) :
    Steady written checkpoint where
  reported report same := by
    rw [none] at same
    cases same
  unreported _ _ := none
  concluded := concluded

theorem steady_initial : Steady written {} :=
  steady_unreported rfl fun same => by cases same

theorem Steady.superstep {environment : Environment} {values : ResearchState} {pending : Pending}
    {next : Checkpoint} (steady : Steady written ⟨values, some pending⟩)
    (writes : ∀ {prompt report}, environment.withStructuredOutput prompt = .ok report →
      written prompt report)
    (stepped : superstep environment values pending = .ok next) : Steady written next := by
  cases pending with
  | input messages =>
      cases stepped
      exact steady_unreported rfl fun same => by cases same
  | node node =>
      have none : values.report = none := steady.unreported node rfl
      cases node with
      | agent =>
          obtain ⟨reply, asked, rfl⟩ := superstep_agent_iff.mp stepped
          refine steady_unreported none fun same => ⟨values.messages, reply.content, ?_⟩
          by_cases done : reply.toolCalls = []
          · simp [Reply.message, done]
          · simp [done] at same
      | tools =>
          obtain ⟨reached, ran, rest⟩ := bind_eq_ok_iff.mp stepped
          obtain ⟨target, decided, ended⟩ := bind_eq_ok_iff.mp rest
          cases decided
          cases ended
          have kept : reached.report = values.report := by
            simp only [runNode, toolNode] at ran
            split at ran <;> cases ran
            rfl
          exact steady_unreported (kept.trans none) fun same => by cases same
      | report =>
          obtain ⟨report, answered, rfl⟩ := superstep_report_iff.mp stepped
          refine ⟨fun other same => ?_, fun _ same => ?_, fun same => ?_⟩
          · cases same
            exact ⟨writes answered, steady.concluded rfl⟩
          · cases same
          · cases same

theorem Steady.execute {start : Checkpoint} (steady : Steady written start)
    (writes : ∀ {index prompt report},
      (environments index).withStructuredOutput prompt = .ok report → written prompt report) :
    ∀ checkpoint ∈ (execute limit environments start).checkpoints, Steady written checkpoint := by
  induction limit generalizing environments start with
  | zero =>
      obtain ⟨values, next⟩ := start
      cases next <;> exact List.forall_mem_nil _
  | succ limit ih =>
      obtain ⟨values, next⟩ := start
      cases next with
      | none => exact List.forall_mem_nil _
      | some pending =>
          simp only [Research.execute]
          split
          · exact List.forall_mem_nil _
          · rename_i next stepped
            have reached := steady.superstep writes stepped
            exact List.forall_mem_cons.mpr ⟨reached, ih reached writes⟩

theorem all_save {holds : Checkpoint → Prop} {thread : ResearchThread}
    {checkpoints : List Checkpoint} (all : thread.All holds)
    (saved : ∀ checkpoint ∈ checkpoints, holds checkpoint) :
    (checkpoints.foldl save thread).All holds := by
  induction checkpoints generalizing thread with
  | nil => exact all
  | cons checkpoint checkpoints ih =>
      obtain ⟨here, later⟩ := List.forall_mem_cons.mp saved
      exact ih (all.put here) later

theorem steady_load {thread : ResearchThread} (all : thread.All (Steady written)) :
    Steady written (load thread) := by
  unfold load
  rw [CheckpointStore.latest_eq_find?]
  cases latest : thread.latestId.bind thread.find? with
  | none => exact steady_initial
  | some saved =>
      obtain ⟨id, _, found⟩ := Option.bind_eq_some_iff.mp latest
      exact all id saved found

/-- Whatever becomes of a run, the reports on its thread are about their own messages. -/
theorem steady_ainvoke {input : List Message} {thread : ResearchThread}
    (all : thread.All (Steady written))
    (writes : ∀ {index prompt report},
      (environments index).withStructuredOutput prompt = .ok report → written prompt report) :
    (ainvoke limit environments input thread).2.All (Steady written) := by
  have start : Steady written ⟨(load thread).values, some (.input input)⟩ :=
    { reported := (steady_load all).reported
      unreported := nofun
      concluded := nofun }
  exact all_save (all.put start) (start.execute writes)

theorem Steady.mono {more : String → ResearchReport → Prop} {checkpoint : Checkpoint}
    (steady : Steady written checkpoint)
    (subset : ∀ {prompt report}, written prompt report → more prompt report) :
    Steady more checkpoint where
  reported report same := (steady.reported report same).imp_left subset
  unreported := steady.unreported
  concluded := steady.concluded

end

end AgenticEnterprise.Graph.Research
