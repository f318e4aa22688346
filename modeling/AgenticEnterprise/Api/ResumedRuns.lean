import AgenticEnterprise.Api.BothRuns
import AgenticEnterprise.Api.Resume
import AgenticEnterprise.Graph.Resumption

/-! What resumes make of a run that was cut off: the thread, and the answer, of one run
on the same task that nothing has stopped. -/

set_option autoImplicit false

namespace AgenticEnterprise.Api.ResumedRuns

open Core Library Graph Threads Conversations Resumption

/-- The environments of the runs that a request of the history makes. -/
def Supplied (deployment : Deployment) (history : List Exchange)
    (supplied : Engine.Environment) : Prop :=
  ∃ exchange ∈ history, ∃ caller inputs index,
    supplied = environment deployment exchange.outside caller inputs index

/-- On the thread, the request does nothing but resume it. -/
def OnlyResumes (deployment : Deployment) (threadId : String) (exchange : Exchange) : Prop :=
  Spares threadId exchange ∧
    (WorksOn deployment threadId exchange → exchange.request.route = .resume threadId)

section

variable {deployment : Deployment} {outside : Outside} {payload : AgentRequest}
  {username threadId checkpointId : String} {state after : State} {system : System}
  {exchange : Exchange} {Result : Type}

/-! ## The run at first -/

theorem accepted_cases {handler : AgentRequest → String → Handler Result}
    {token : Option String} :
    let body : Handler Result := do
      let username ← getCurrentUser deployment outside token
      let payload ← validated (some payload)
      limited outside (handler payload username)
    (body.exec state).2 = state ∨
      ∃ username, (body.exec state).2 = ((handler payload username).exec state).2 := by
  simp only [Effect.exec_bind, getCurrentUser, validated, limited, call, Effect.exec_ofExcept]
  cases currentUser deployment outside token with
  | error failure => exact .inl rfl
  | ok username =>
      cases outside.fault .limiter with
      | some failure => exact .inl rfl
      | none => exact .inr ⟨username, rfl⟩

theorem threads_getDb {body : Handler Result} :
    ((getDb outside body).exec state).2.system.threads = (body.exec state).2.system.threads := by
  rw [getDb_exec]
  rcases body.exec state with ⟨failure | result, after⟩
  · rfl
  · exact threads_commit

theorem threads_getDbStreaming {body : Handler (Result × Option Exn)} :
    ((getDbStreaming outside body).exec state).2.system.threads =
      (body.exec state).2.system.threads := by
  rw [getDbStreaming_exec]
  rcases body.exec state with ⟨failure | ⟨result, _ | broken⟩, after⟩
  · rfl
  · exact threads_commit
  · rfl

/-- A request for a run takes no run on the thread, or just one. -/
def Launches (deployment : Deployment) (outside : Outside) (payload : AgentRequest)
    (before after : Thread) : Prop :=
  after = before ∨ ∃ username inputs, inputs.thread = before ∧
    after = (runOn deployment outside { username := username }
      (some [.human payload.taskDescription]) "" inputs).2

theorem launches_of_handled {handler : AgentRequest → String → Handler Result}
    {token : Option String}
    (runs : ∀ username, ∃ rows, ((handler payload username).exec state).2 =
      { BothRuns.launch deployment outside payload username state with added := rows }) :
    let body : Handler Result := do
      let username ← getCurrentUser deployment outside token
      let payload ← validated (some payload)
      limited outside (handler payload username)
    Launches deployment outside payload (state.system.threads (runThreadId payload))
      ((body.exec state).2.system.threads (runThreadId payload)) := by
  intro body
  rcases @accepted_cases deployment outside payload state _ handler token with
    same | ⟨username, same⟩
  · exact .inl (by rw [same])
  · obtain ⟨rows, left⟩ := runs username
    rw [same, left]
    unfold BothRuns.launch
    split
    · exact .inr ⟨username, State.runInputs (runThreadId payload) state, rfl, by simp [recordRun]⟩
    · exact .inl rfl

theorem serve_launches (asks : exchange.request.route = .run (some payload) ∨
      exchange.request.route = .runStream (some payload)) :
    Launches deployment exchange.outside payload (system.threads (runThreadId payload))
      ((exchange.serve deployment system).system.threads (runThreadId payload)) := by
  unfold Exchange.serve serve
  rcases asks with asks | asks
  · simp only [handle, asks, threads_getDb]
    exact launches_of_handled fun username => BothRuns.runAgent_launch
  · simp only [handle, asks, threads_getDbStreaming]
    exact launches_of_handled fun username => BothRuns.runAgentStream_launch

theorem Launches.oneRun {before left : Thread} {history : List Exchange}
    (launches : Launches deployment exchange.outside payload before left)
    (changed : left ≠ before) (member : exchange ∈ history) :
    ∃ result, OneRun (Supplied deployment history) before none
      [.human payload.taskDescription] result left := by
  rcases launches with same | ⟨username, inputs, rfl, rfl⟩
  · exact absurd same changed
  · exact ⟨_, _, _, fun index => ⟨exchange, member, _, inputs, index, rfl⟩, rfl, rfl⟩

/-! ## The resumes -/

theorem runOn_resumes {caller : Caller} {inputs : RunInputs} {before : Thread}
    {input : List Message} {result : Except Exn Engine.GraphState} {history : List Exchange}
    (run : OneRun (Supplied deployment history) before none input result inputs.thread)
    (member : exchange ∈ history) :
    OneRun (Supplied deployment history) before none input
      (runOn deployment exchange.outside caller none "" inputs).1.result
      (runOn deployment exchange.outside caller none "" inputs).2 :=
  run.resume fun index => ⟨exchange, member, caller, inputs, index, rfl⟩

/-- A request that does nothing but resume the thread leaves one run on it. -/
theorem serve_resumes {before : Thread} {input : List Message} {history : List Exchange}
    (only : OnlyResumes deployment threadId exchange) (member : exchange ∈ history)
    (run : ∃ result, OneRun (Supplied deployment history) before none input result
      (system.threads threadId)) :
    ∃ result, OneRun (Supplied deployment history) before none input result
      ((exchange.serve deployment system).system.threads threadId) := by
  by_cases works : WorksOn deployment threadId exchange
  · have resumes := only.2 works
    obtain ⟨writes, allowed, written⟩ := serve_writes deployment system exchange
    refine @Runs.invariant_of_labels _ _ _ (fun state : System => ∃ result,
      OneRun (Supplied deployment history) before none input result (state.threads threadId)) _
      (fun so permitted taken => ?_) _ _ _ written allowed run
    cases permitted with
    | smoke other =>
        rw [resumes] at other
        cases other
    | session => 
        cases taken
        exact so
    | user _ permits =>
        generalize exchange.request.route = route at resumes permits
        subst resumes
        cases permits with
        | resume =>
            cases taken
            obtain ⟨result, so⟩ := so
            simp only [Function.update_self]
            exact ⟨_, runOn_resumes so member⟩
  · rw [serve_same only.1 works]
    exact run

/-- A resume that is answered has run its thread to the end. -/
theorem resumeThread_ok {response : AgentResponse}
    (ran : (resumeThread deployment outside threadId username).exec state =
      (.ok { body := .agent response }, after)) :
    let resumed := runOn deployment outside { username := username } none ""
      (State.runInputs threadId state)
    ∃ final, resumed.1.result = .ok final ∧
      (final.messages.getLast?).map Message.content = some response.output ∧
      after.system.threads threadId = resumed.2 := by
  unfold resumeThread at ran
  obtain ⟨_, _, builds, ran⟩ := Effect.exec_bind_ok ran
  obtain rfl := (call_ok_iff.mp builds).2.symm
  obtain ⟨_, _, reads, ran⟩ := Effect.exec_bind_ok ran
  obtain rfl := (call_ok_iff.mp reads).2.symm
  obtain ⟨thread, left, found, ran⟩ := Effect.exec_bind_ok ran
  obtain ⟨rfl, rfl⟩ : state.system.threads threadId = thread ∧ state = left := by
    rw [currentThread, Effect.exec_read] at found
    exact ⟨Except.ok.inj (congrArg Prod.fst found), congrArg Prod.snd found⟩
  split at ran
  · obtain ⟨_, _, loads, ran⟩ := Effect.exec_bind_ok ran
    obtain rfl := (call_ok_iff.mp loads).2.symm
    obtain ⟨final, left, invoked, ran⟩ := Effect.exec_bind_ok ran
    obtain ⟨message, same, last, ran⟩ := Effect.exec_bind_ok ran
    obtain ⟨spoken, kept⟩ := Effect.exec_ofExcept_ok last
    obtain ⟨answered, unchanged⟩ := Effect.exec_ofExcept_ok ran
    rw [Engine.lastMessage_eq_ok_iff] at spoken
    unfold ainvoke astream at invoked
    simp only [Effect.exec_bind, Effect.exec_read, recordRun, Effect.exec_write,
      Effect.exec_pure, Effect.exec_ofExcept] at invoked
    obtain ⟨ended, saved⟩ := Prod.mk.inj invoked
    refine ⟨final, result_of_ending ended, ?_, ?_⟩
    · unfold resumeResponse at answered
      split at answered
      · cases answered
        rw [spoken]
        rfl
      · cases answered
    · rw [unchanged, kept, ← saved]
      exact Function.update_self ..
  · cases ran

theorem isInterrupted_eq_false_iff {thread : Thread} :
    History.isInterrupted thread = false ↔ (load thread none).checkpoint.next = none := by
  rw [History.isInterrupted, agetState_eq, decide_eq_false_iff_not, not_not, History.snapshotNext]
  cases (load thread none).checkpoint.next <;> simp

theorem answered_resume {before : Thread} {input : List Message} {history : List Exchange}
    {response : AgentResponse}
    (run : ∃ result, OneRun (Supplied deployment history) before none input result
      (system.threads threadId))
    (member : exchange ∈ history) (resumes : exchange.request.route = .resume threadId)
    (answered : (exchange.serve deployment system).response = { body := .agent response }) :
    ∃ final, OneRun (Supplied deployment history) before none input (.ok final)
        ((exchange.serve deployment system).system.threads threadId) ∧
      (final.messages.getLast?).map Message.content = some response.output := by
  obtain ⟨result, run⟩ := run
  unfold Exchange.serve serve at answered ⊢
  simp only [handle, resumes] at answered ⊢
  generalize served : (withThreadOwner deployment exchange.outside threadId _ _ _).exec _ = ended
    at answered ⊢
  obtain ⟨failure | returned, after⟩ := ended
  · exact absurd ⟨response, answered⟩ (BothRuns.unanswered failure)
  · obtain rfl : returned = { body := .agent response } := answered
    obtain ⟨username, _, claimed, left, _, _, _, handled, rfl⟩ := withThreadOwner_ok served
    obtain ⟨final, completed, shown, same⟩ := resumeThread_ok handled
    refine ⟨final, ?_, shown⟩
    rw [threads_commit, same, ← completed]
    exact runOn_resumes run member

/-- What a history of resumes leaves, if each of its requests is one of the whole. -/
theorem reached_resumes {before : Thread} {input : List Message} {history rest : List Exchange}
    (only : ∀ exchange ∈ rest, OnlyResumes deployment threadId exchange)
    (members : ∀ exchange ∈ rest, exchange ∈ history)
    (run : ∃ result, OneRun (Supplied deployment history) before none input result
      (system.threads threadId)) :
    ∃ result, OneRun (Supplied deployment history) before none input result
      ((reached deployment system rest).threads threadId) := by
  induction rest generalizing system with
  | nil => exact run
  | cons exchange rest ih =>
      obtain ⟨first, others⟩ := List.forall_mem_cons.mp only
      obtain ⟨member, further⟩ := List.forall_mem_cons.mp members
      exact ih others further (serve_resumes first member run)

end

/-- Behind a `/run` whose thread only resumes work on since, the thread is left as one
run on the task leaves it that nothing has stopped, with something pending unless that
run completes, and a resume that is answered is answered with its last message. -/
theorem resumed_as_one_run (deployment : Deployment) (first : System)
    (front rest : List Exchange) (launch : Exchange) (payload : AgentRequest)
    (asks : launch.request.route = .run (some payload) ∨
      launch.request.route = .runStream (some payload))
    (launched : (launch.serve deployment (reached deployment first front)).system.threads
        (runThreadId payload) ≠
      (reached deployment first front).threads (runThreadId payload))
    (resumes : ∀ exchange ∈ rest, OnlyResumes deployment (runThreadId payload) exchange) :
    let whole (result : Except Exn Engine.GraphState) (left : System) : Prop :=
      OneRun (Supplied deployment (launch :: rest))
        ((reached deployment first front).threads (runThreadId payload)) none
        [.human payload.taskDescription] result (left.threads (runThreadId payload))
    let last := reached deployment first (front ++ launch :: rest)
    (∃ result, whole result last ∧
      (History.isInterrupted (last.threads (runThreadId payload)) = false ↔
        ∃ final, result = .ok final)) ∧
    ∀ middle exchange response, rest = middle ++ [exchange] →
      exchange.request.route = .resume (runThreadId payload) →
      (exchange.serve deployment
        (reached deployment first (front ++ launch :: middle))).response =
          { body := .agent response } →
      ∃ final, whole (.ok final) last ∧
        (final.messages.getLast?).map Message.content = some response.output := by
  intro whole last
  have begun := (serve_launches asks).oneRun launched (List.mem_cons_self : launch ∈ launch :: rest)
  have later : ∀ exchange ∈ rest, exchange ∈ launch :: rest := fun _ => List.mem_cons_of_mem _
  refine ⟨?_, fun middle exchange response split resumed answered => ?_⟩
  · obtain ⟨result, run⟩ := reached_resumes resumes later begun
    have same : last = reached deployment
        (launch.serve deployment (reached deployment first front)).system rest := reached_append
    refine ⟨result, ?_, ?_⟩
    · show OneRun _ _ _ _ _ (last.threads _)
      rw [same]
      exact run
    · rw [isInterrupted_eq_false_iff, same]
      exact run.pending_iff
  · subst split
    obtain ⟨others, own⟩ := List.forall_mem_append.mp resumes
    obtain ⟨before, member⟩ := List.forall_mem_append.mp later
    have run := reached_resumes others before begun
    have same : last = (exchange.serve deployment
        (reached deployment first (front ++ launch :: middle))).system := by
      show reached deployment first (front ++ launch :: (middle ++ [exchange])) = _
      rw [← List.cons_append, ← List.append_assoc, reached_append]
      rfl
    have split : reached deployment first (front ++ launch :: middle) =
        reached deployment (launch.serve deployment (reached deployment first front)).system
          middle := reached_append
    rw [← split] at run
    obtain ⟨final, ran, shown⟩ := answered_resume run (List.forall_mem_singleton.mp member)
      resumed answered
    refine ⟨final, ?_, shown⟩
    show OneRun _ _ _ _ _ (last.threads _)
    rw [same]
    exact ran

/-- The process stops behind the first superstep of a task. -/
def cutOff : Exchange where
  request :=
    { token := some Resume.uuidUsers.settings.demoUsername
      route := .run (some ExecutionTrail.invoice) }
  outside := Resume.stopping

def wentOn : Exchange where
  request :=
    { token := some Resume.uuidUsers.settings.demoUsername
      route := .resume (runThreadId ExecutionTrail.invoice) }
  outside := Resume.replying

theorem invoice_resumed :
    ∃ final, OneRun (Supplied Resume.uuidUsers [cutOff, wentOn]) .empty none
        [.human "the invoice of May"] (.ok final)
        ((reached Resume.uuidUsers {} [cutOff, wentOn]).threads
          (runThreadId ExecutionTrail.invoice)) ∧
      (final.messages.getLast?).map Message.content = some "forty invoices" := by
  have launched : (cutOff.serve Resume.uuidUsers {}).system.threads
      (runThreadId ExecutionTrail.invoice) ≠ CheckpointStore.empty :=
    fun same => absurd (congrArg CheckpointStore.entries same) (by decide)
  have resumes : ∀ exchange ∈ [wentOn],
      OnlyResumes Resume.uuidUsers (runThreadId ExecutionTrail.invoice) exchange :=
    List.forall_mem_singleton.mpr ⟨nofun, fun _ => rfl⟩
  exact (resumed_as_one_run Resume.uuidUsers {} [] [wentOn] cutOff ExecutionTrail.invoice
    (.inl rfl) launched resumes).2 [] wentOn
      ⟨⟨0x6f1c7d0a52be4e0f9a350c2d6b1e8f47⟩, "success", "forty invoices"⟩ rfl rfl
      (by decide)

end AgenticEnterprise.Api.ResumedRuns
