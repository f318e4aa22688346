import AgenticEnterprise.Api.ExecutionTrail
import AgenticEnterprise.Api.Writes
import AgenticEnterprise.Graph.Turns
import Mathlib.Data.List.Induction

/-! What a thread holds over a history of requests: who wrote each checkpoint, and what
`GET /conversations/{id}` shows of the messages. -/

set_option autoImplicit false

namespace AgenticEnterprise.Api.Conversations

open Core Library Graph Threads Turns

/-! ## What a request may write on a thread -/

/-- A write that saves checkpoints on the thread. -/
def Write.savesOn (threadId : String) : Write → Prop
  | .run _ other _ _ | .edit other _ => other = threadId
  | _ => False

/-- The request may save checkpoints on the thread. -/
def WorksOn (deployment : Deployment) (threadId : String) (exchange : Exchange) : Prop :=
  ∃ write, Allowed deployment exchange.outside exchange.request write ∧
    Write.savesOn threadId write

/-- A retention sweep of the request does not list the thread. -/
def Spares (threadId : String) (exchange : Exchange) : Prop :=
  exchange.request.route = .gc → threadId ∉ exchange.outside.staleThreads

/-- The request goes back to no earlier checkpoint of the thread. -/
def GoesOn (threadId : String) (exchange : Exchange) : Prop :=
  match exchange.request.route with
  | .fork other (some (checkpointId, _)) => other = threadId → checkpointId = ""
  | .edit other (some query) => other = threadId → query.checkpointId = ""
  | _ => True

def messages (threadId : String) (system : System) : List Message :=
  (History.agetState (system.threads threadId)).values.messages

section

variable {deployment : Deployment} {outside : Outside} {threadId : String}
  {system next : System} {write : Write} {exchange : Exchange} {thread : Thread}

theorem agetState_eq : History.agetState thread = (load thread none).checkpoint := by
  unfold History.agetState
  cases latest : thread.latest with
  | some entry => exact (load_latest latest).symm
  | none =>
      rw [CheckpointStore.latest_eq_find?, Option.map_eq_none_iff] at latest
      simp [load, latest]

/-- The one write that takes something away is the sweep. -/
theorem extends_of_written (written : Written deployment outside system write next)
    (spared : write = .sweep → threadId ∉ outside.staleThreads) :
    (system.threads threadId).Extends (next.threads threadId) := by
  cases write with
  | run caller other input checkpointId =>
      cases written
      by_cases own : threadId = other
      · subst own
        simp only [Function.update_self]
        exact extends_ainvoke input
      · simp [own]
  | edit other query =>
      obtain ⟨edited, succeeded, rfl⟩ := map_eq_ok_iff.mp written
      by_cases own : threadId = other
      · subst own
        simpa using extends_aupdateState succeeded
      · simp [own]
  | remember other text =>
      obtain ⟨store, _, rfl⟩ := map_eq_ok_iff.mp written
      exact CheckpointStore.extends_refl
  | research | cache | session =>
      cases written
      exact CheckpointStore.extends_refl
  | sweep =>
      cases written
      simp [spared rfl]

theorem same_of_written (written : Written deployment outside system write next)
    (elsewhere : ¬Write.savesOn threadId write)
    (spared : write = .sweep → threadId ∉ outside.staleThreads) :
    next.threads threadId = system.threads threadId := by
  cases write with
  | run caller other input checkpointId =>
      cases written
      exact Function.update_of_ne (Ne.symm elsewhere) ..
  | edit other query =>
      obtain ⟨edited, _, rfl⟩ := map_eq_ok_iff.mp written
      exact Function.update_of_ne (Ne.symm elsewhere) ..
  | remember other text =>
      obtain ⟨store, _, rfl⟩ := map_eq_ok_iff.mp written
      rfl
  | research | cache | session =>
      cases written
      rfl
  | sweep =>
      cases written
      simp [spared rfl]

theorem sweep_spared (spares : Spares threadId exchange)
    (allowed : Allowed deployment exchange.outside exchange.request write)
    (sweep : write = .sweep) : threadId ∉ exchange.outside.staleThreads := by
  subst sweep
  cases allowed with
  | user _ permits =>
      generalize route : exchange.request.route = named at permits
      cases permits
      exact spares route

theorem serve_extends (spares : Spares threadId exchange) :
    (system.threads threadId).Extends
      ((exchange.serve deployment system).system.threads threadId) := by
  obtain ⟨writes, allowed, run⟩ := serve_writes deployment system exchange
  refine @Runs.invariant_of_labels _ _ _
    (fun state : System => (system.threads threadId).Extends (state.threads threadId)) _
    (fun grown permitted taken => ?_) _ _ _ run allowed CheckpointStore.extends_refl
  exact grown.trans (extends_of_written taken (sweep_spared spares permitted))

theorem serve_same (spares : Spares threadId exchange)
    (elsewhere : ¬WorksOn deployment threadId exchange) :
    (exchange.serve deployment system).system.threads threadId = system.threads threadId := by
  obtain ⟨writes, allowed, run⟩ := serve_writes deployment system exchange
  refine @Runs.invariant_of_labels _ _ _
    (fun state : System => state.threads threadId = system.threads threadId) _
    (fun same permitted taken => ?_) _ _ _ run allowed rfl
  refine (same_of_written taken (fun saves => elsewhere ⟨_, permitted, saves⟩)
    (sweep_spared spares permitted)).trans same

/-! ## Messages -/

/-- A write goes on from the latest checkpoint of the thread. -/
def Write.goesOn (threadId : String) : Write → Prop
  | .run _ other _ checkpointId => other = threadId → checkpointId = ""
  | .edit other query => other = threadId → query.checkpointId = ""
  | _ => True

theorem messages_updateState {checkpoint after : Checkpoint} {values : Engine.Update}
    {asNode : String} (silent : values.messages = [])
    (updated : Threads.updateState checkpoint values asNode = .ok after) :
    after.values.messages = checkpoint.values.messages := by
  unfold Threads.updateState at updated
  split at updated
  · cases updated
    rfl
  · split at updated
    · cases updated
      rfl
    · split at updated
      · cases updated
      · obtain ⟨target, _, rfl⟩ := map_eq_ok_iff.mp updated
        simp [Engine.GraphState.apply, silent]

theorem messages_of_written (written : Written deployment outside system write next)
    (onward : Write.goesOn threadId write)
    (spared : write = .sweep → threadId ∉ outside.staleThreads) :
    messages threadId system <+: messages threadId next := by
  by_cases saves : Write.savesOn threadId write
  · cases write with
    | run caller other input checkpointId =>
        obtain rfl : other = threadId := saves
        obtain rfl : checkpointId = "" := onward rfl
        cases written
        simp only [messages, Function.update_self, agetState_eq]
        have pinned : History.checkpointConfig (system.threads other) "" = none := rfl
        cases input with
        | none =>
            simp only [runOn, State.runInputs, pinned, Threads.ainvoke]
            rw [load_saveSteps rfl]
            exact messages_reached
        | some input =>
            simp only [runOn, State.runInputs, pinned, Threads.ainvoke]
            rw [load_saveSteps load_put]
            exact @messages_reached _ _
              (withInput (load (system.threads other) none) input).checkpoint
    | edit other query =>
        obtain rfl : other = threadId := saves
        obtain ⟨edited, succeeded, rfl⟩ := map_eq_ok_iff.mp written
        obtain ⟨checkpoint, updated, rfl⟩ := map_eq_ok_iff.mp succeeded
        rw [onward rfl] at updated
        simp only [messages, Function.update_self, agetState_eq, load_put]
        rw [messages_updateState rfl updated]
        exact List.prefix_refl _
    | research | remember | cache | session | sweep => exact saves.elim
  · rw [messages, messages, same_of_written written saves spared]

theorem onward_allowed (goes : GoesOn threadId exchange)
    (allowed : Allowed deployment exchange.outside exchange.request write) :
    Write.goesOn threadId write := by
  cases allowed with
  | smoke => exact fun _ => rfl
  | session => trivial
  | user _ permits =>
      unfold GoesOn at goes
      generalize exchange.request.route = route at permits goes
      cases permits with
      | fork => exact goes
      | edit => exact goes
      | run | runStream | ask | analyze | resume => exact fun _ => rfl
      | cache | research | remember | sweep => trivial

theorem serve_messages (goes : GoesOn threadId exchange) (spares : Spares threadId exchange) :
    messages threadId system <+: messages threadId (exchange.serve deployment system).system := by
  obtain ⟨writes, allowed, run⟩ := serve_writes deployment system exchange
  refine @Runs.invariant_of_labels _ _ _
    (fun state : System => messages threadId system <+: messages threadId state) _
    (fun grown permitted taken => ?_) _ _ _ run allowed (List.prefix_refl _)
  exact grown.trans
    (messages_of_written taken (onward_allowed goes permitted) (sweep_spared spares permitted))

end

/-! ## Histories -/

section

variable {deployment : Deployment} {threadId : String} {first : System}
  {history front back : List Exchange} {exchange : Exchange}

theorem messages_kept (onward : ∀ exchange ∈ history,
      GoesOn threadId exchange ∧ Spares threadId exchange) :
    messages threadId first <+: messages threadId (reached deployment first history) := by
  induction history generalizing first with
  | nil => exact List.prefix_refl _
  | cons exchange history ih =>
      obtain ⟨⟨goes, spares⟩, rest⟩ := List.forall_mem_cons.mp onward
      exact (serve_messages goes spares).trans (ih rest)

/-- Every checkpoint of the thread was there at first, or one request that works on
the thread has saved it; it has been kept since. -/
def Traced (deployment : Deployment) (threadId : String) (first : System)
    (history : List Exchange) : Prop :=
  ∀ id saved, ((reached deployment first history).threads threadId).find? id = some saved →
    (first.threads threadId).find? id = some saved ∨
      ∃ front exchange back, history = front ++ exchange :: back ∧
        WorksOn deployment threadId exchange ∧
        ((reached deployment first front).threads threadId).find? id = none ∧
        ((reached deployment first (front ++ [exchange])).threads threadId).find? id = some saved

theorem traced_concat (traced : Traced deployment threadId first history)
    (spares : Spares threadId exchange) :
    Traced deployment threadId first (history ++ [exchange]) := by
  intro id saved found
  have concat : reached deployment first (history ++ [exchange]) =
      (exchange.serve deployment (reached deployment first history)).system := reached_append
  have grown := @serve_extends deployment threadId (reached deployment first history) exchange
    spares
  rw [← concat] at grown
  by_cases earlier : id < ((reached deployment first history).threads threadId).nextId
  · rw [grown.find?_of_lt earlier] at found
    rcases traced id saved found with initial | ⟨front, own, back, rfl, works, new, saves⟩
    · exact .inl initial
    · exact .inr ⟨front, own, back ++ [exchange], by simp, works, new, saves⟩
  · refine .inr ⟨history, exchange, [], rfl, ?_, ?_, found⟩
    · by_contra elsewhere
      rw [concat, serve_same spares elsewhere] at found
      exact earlier (CheckpointStore.lt_nextId_of_find? found)
    · exact List.getElem?_eq_none (Nat.le_of_not_lt earlier)

end

theorem checkpoints_traced (deployment : Deployment) (threadId : String) (first : System)
    (history : List Exchange) (spared : ∀ exchange ∈ history, Spares threadId exchange) :
    (first.threads threadId).Extends ((reached deployment first history).threads threadId) ∧
      Traced deployment threadId first history := by
  induction history using List.reverseRecOn with
  | nil => exact ⟨CheckpointStore.extends_refl, fun id saved found => .inl found⟩
  | append_singleton history exchange ih =>
      obtain ⟨others, spares⟩ := List.forall_mem_append.mp spared
      obtain ⟨grown, traced⟩ := ih others
      have spares := List.forall_mem_singleton.mp spares
      refine ⟨?_, traced_concat traced spares⟩
      rw [reached_append]
      exact grown.trans (serve_extends spares)

def askedAs (username : String) : Exchange where
  request := { token := some username, route := .run (some ExecutionTrail.invoice) }
  outside := ExecutionTrail.answering

def sweptAs (username : String) : Exchange where
  request := { token := some username, route := .gc }
  outside := { ExecutionTrail.answering with staleThreads := ["invoices of 2020"] }

theorem invoice_checkpoints_traced :
    Traced twoUsers (runThreadId ExecutionTrail.invoice) {} [askedAs "admin", sweptAs "bob"] := by
  have other : runThreadId ExecutionTrail.invoice ≠ "invoices of 2020" := by decide
  exact (checkpoints_traced twoUsers (runThreadId ExecutionTrail.invoice) {}
    [askedAs "admin", sweptAs "bob"] (by simp [askedAs, sweptAs, Spares, other])).2

/-! ## An answer and who asks for it later -/

section

variable {deployment : Deployment} {outside : Outside} {caller : Caller} {inputs : RunInputs}
  {input : List Message} {final : Engine.GraphState} {state after : State}
  {username threadId : String} {payload : AgentRequest} {response : AgentResponse}
  {served : Response}
  {turns : List HistoryTurn} {system : System} {exchange : Exchange}

/-- A run that completes on an input leaves the messages of its result behind, which
are those from before, the input and the replies. -/
theorem runOn_messages
    (completed : (runOn deployment outside caller (some input) "" inputs).1.result = .ok final) :
    (History.agetState inputs.thread).values.messages ++ input <+: final.messages ∧
      (History.agetState
        (runOn deployment outside caller (some input) "" inputs).2).values.messages =
          final.messages := by
  have pinned : History.checkpointConfig inputs.thread "" = none := rfl
  simp only [runOn, pinned, Threads.ainvoke] at completed ⊢
  simp only [agetState_eq]
  rw [load_saveSteps load_put]
  constructor
  · exact messages_of_result completed
  · rw [withInput] at completed ⊢
    rw [reached_of_result completed]

theorem threads_commit : (state.commit outside).system.threads = state.system.threads := by
  unfold State.commit
  split <;> rfl

/-- A `/run` that is answered has left its thread at the end of a completed run. -/
theorem run_answered (runs : exchange.request.route = .run (some payload))
    (answered : (exchange.serve deployment system).response = { body := .agent response }) :
    ∃ replies,
      messages (runThreadId payload) system ++ .human payload.taskDescription :: replies =
        messages (runThreadId payload) (exchange.serve deployment system).system ∧
      ((Message.human payload.taskDescription :: replies).getLast?).map Message.content =
        some response.output := by
  unfold Exchange.serve serve at answered ⊢
  simp only [handle, runs] at answered ⊢
  generalize served : (getDb exchange.outside _).exec _ = ended at answered ⊢
  obtain ⟨failure | returned, after⟩ := ended
  · cases failure <;> cases answered
  · obtain rfl : returned = { body := .agent response } := answered
    obtain ⟨middle, inner, rfl⟩ := getDb_ok served
    obtain ⟨username, args, _, valid, handled⟩ := withUser_ok inner
    cases valid
    obtain ⟨output, running, ran, same, rfl⟩ := runAgent_ok (limited_ok handled)
    obtain ⟨final, last, completed, found, shown, left⟩ := answer_ok ran
    cases same
    obtain ⟨⟨replies, grown⟩, behind⟩ := runOn_messages completed
    refine ⟨replies, ?_, ?_⟩
    · rw [messages, messages, threads_commit, left, behind, ← grown]
      simp [State.runInputs]
    · rw [← grown, List.append_assoc, List.getLast?_append_of_ne_nil _ (by simp)] at found
      rw [show Message.human payload.taskDescription :: replies = [_] ++ replies from rfl, found,
        Option.map_some, shown]
      rfl

theorem conversation_shown (reads : exchange.request.route = .conversation threadId)
    (shown : (exchange.serve deployment system).response =
      { body := .conversation threadId turns }) :
    turns = (messages threadId system).map historyTurn := by
  unfold Exchange.serve serve at shown
  simp only [handle, reads] at shown
  generalize served : (withUser deployment exchange.outside _ _ _).exec _ = ended at shown
  obtain ⟨failure | returned, after⟩ := ended
  · cases failure <;> cases shown
  · obtain ⟨_, _, _, _, handled⟩ := withUser_ok served
    unfold getConversation at handled
    obtain ⟨_, first, builds, rest⟩ := Effect.exec_bind_ok handled
    obtain ⟨_, second, reads, rest⟩ := Effect.exec_bind_ok rest
    obtain rfl := (Effect.exec_ofExcept_ok builds).2
    obtain rfl := (Effect.exec_ofExcept_ok reads).2
    cases rest
    cases shown
    rfl

end

/-- Who has been answered on a thread finds the task, the replies and the answer in
the conversation, behind all that was there before. -/
theorem answer_stays (deployment : Deployment) (first : System) (front middle : List Exchange)
    (asked reader : Exchange) (payload : AgentRequest) (response : AgentResponse)
    (turns : List HistoryTurn)
    (runs : asked.request.route = .run (some payload))
    (answered : (asked.serve deployment (reached deployment first front)).response =
      { body := .agent response })
    (onward : ∀ exchange ∈ middle,
      GoesOn (runThreadId payload) exchange ∧ Spares (runThreadId payload) exchange)
    (reads : reader.request.route = .conversation (runThreadId payload))
    (shown : (reader.serve deployment
        (reached deployment first (front ++ asked :: middle))).response =
      { body := .conversation (runThreadId payload) turns }) :
    ∃ replies,
      (messages (runThreadId payload) (reached deployment first front)).map historyTurn ++
          ⟨"human", payload.taskDescription⟩ :: replies <+: turns ∧
      ((HistoryTurn.mk "human" payload.taskDescription :: replies).getLast?).map
        HistoryTurn.content = some response.output := by
  obtain ⟨replies, left, last⟩ := run_answered runs answered
  have kept := @messages_kept deployment (runThreadId payload)
    (asked.serve deployment (reached deployment first front)).system middle onward
  rw [conversation_shown reads shown, reached_append]
  refine ⟨replies.map historyTurn, ?_, ?_⟩
  · rw [← left] at kept
    have turns := kept.map historyTurn
    rw [List.map_append] at turns
    exact turns
  · have own := @List.getLast?_map _ _ historyTurn (.human payload.taskDescription :: replies)
    rw [List.map_cons] at own
    refine (congrArg _ own).trans ?_
    rw [Option.map_map, ← last]
    rfl

def readAs (username : String) : Exchange where
  request :=
    { token := some username, route := .conversation (runThreadId ExecutionTrail.invoice) }
  outside := ExecutionTrail.answering

theorem invoice_answer_stays : ∃ replies,
    [] ++ (⟨"human", "the invoice of May"⟩ :: replies : List HistoryTurn) <+:
      [⟨"human", "the invoice of May"⟩, ⟨"ai", "it is paid"⟩,
        ⟨"human", "the invoice of May"⟩, ⟨"ai", "it is paid"⟩] ∧
      ((HistoryTurn.mk "human" "the invoice of May" :: replies).getLast?).map
        HistoryTurn.content = some "it is paid" :=
  answer_stays twoUsers {} [] [askedAs "bob"] (askedAs "admin") (readAs "bob")
    ExecutionTrail.invoice (agentResponse ExecutionTrail.invoice "it is paid") _ rfl (by decide)
    (by simp [askedAs, GoesOn, Spares]) rfl (by decide)

end AgenticEnterprise.Api.Conversations
