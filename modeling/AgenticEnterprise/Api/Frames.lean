import AgenticEnterprise.Api.Service

/-! What the handlers leave alone. A relation between states that ignores what a
handler writes (the run of one thread, the objects of its session, one key of
the cache) is kept by the handler as a whole. -/

set_option autoImplicit false

namespace AgenticEnterprise.Api

open Core Library Graph Threads PartialEquivalence

section

variable (equivalence : PartialEquivalence State)

def IgnoresRuns (threadId : String) : Prop :=
  ∀ thread supersteps, equivalence.Keeps (recordRun threadId thread supersteps)

def IgnoresResearch (threadId : String) : Prop :=
  ∀ thread, equivalence.Keeps (recordResearch threadId thread)

def IgnoresSession : Prop :=
  ∀ change, equivalence.Keeps (changeSession change)

end

section

variable {equivalence : PartialEquivalence State} {deployment : Deployment} {outside : Outside}
  {threadId username : String} {caller : Caller} {input : Option (List Message)}
  {checkpointId : String}

theorem call_keeps {place : Call} : equivalence.Keeps (call outside place) :=
  .ofExcept _

theorem astream_keeps (runs : IgnoresRuns equivalence threadId) :
    equivalence.Keeps (astream deployment outside caller threadId input checkpointId) :=
  .bind (.read _) fun _ => .bind (runs _ _) fun _ => .pure _

theorem ainvoke_keeps (runs : IgnoresRuns equivalence threadId) :
    equivalence.Keeps (ainvoke deployment outside caller threadId input checkpointId) :=
  .bind (astream_keeps runs) fun _ => .ofExcept _

theorem answer_keeps (runs : IgnoresRuns equivalence threadId) :
    equivalence.Keeps (answer deployment outside caller threadId input checkpointId) :=
  .bind call_keeps fun _ => .bind call_keeps fun _ => .bind (ainvoke_keeps runs) fun _ =>
    .bind (.ofExcept _) fun _ => .pure _

theorem setStatus_keeps (session : IgnoresSession equivalence) {status : String} :
    equivalence.Keeps (setStatus status) :=
  session _

theorem addExecution_keeps (session : IgnoresSession equivalence) {execution : AgentExecution} :
    equivalence.Keeps (addExecution execution) :=
  session _

theorem runAgent_keeps {payload : AgentRequest}
    (runs : IgnoresRuns equivalence (runThreadId payload)) (session : IgnoresSession equivalence) :
    equivalence.Keeps (runAgent deployment outside payload username) := by
  refine .bind (addExecution_keeps session) fun _ => .tryCatch ?_ fun failure => ?_
  · exact .bind (answer_keeps runs) fun _ => .bind (setStatus_keeps session) fun _ => .pure _
  · split
    · exact .bind (setStatus_keeps session) fun _ => .throw _
    · exact .bind (setStatus_keeps session) fun _ => .throw _
    · exact .throw _

theorem streamRun_keeps {payload : AgentRequest}
    (runs : IgnoresRuns equivalence (runThreadId payload)) (session : IgnoresSession equivalence) :
    equivalence.Keeps (streamRun deployment outside payload username) := by
  refine .tryCatch ?_ fun failure => ?_
  · refine .bind call_keeps fun _ => .bind call_keeps fun _ => .bind (astream_keeps runs)
      fun execution => ?_
    split
    · exact .bind (setStatus_keeps session) fun _ => .pure _
    · exact .bind (setStatus_keeps session) fun _ => .pure _
    · exact .pure _
  · split
    · exact .bind (setStatus_keeps session) fun _ => .pure _
    · exact .pure _

theorem runAgentStream_keeps {payload : AgentRequest}
    (runs : IgnoresRuns equivalence (runThreadId payload)) (session : IgnoresSession equivalence) :
    equivalence.Keeps (runAgentStream deployment outside payload username) :=
  .bind (addExecution_keeps session) fun _ => .bind (streamRun_keeps runs session) fun _ => .pure _

theorem ask_keeps {query : String} (runs : IgnoresRuns equivalence (askThreadId username))
    (cache : ∀ response,
      equivalence.Keeps (setCached outside (askCacheKey username query) response)) :
    equivalence.Keeps (ask deployment outside query username) := by
  refine .bind (.read _) fun kept => ?_
  cases kept with
  | some response => exact .pure _
  | none => exact .bind (answer_keeps runs) fun _ => .bind (cache _) fun _ => .pure _

theorem analyzeInvestment_keeps {ticker : String}
    (runs : IgnoresRuns equivalence (analyzeThreadId outside username)) :
    equivalence.Keeps (analyzeInvestment deployment outside ticker username) := by
  refine .bind call_keeps fun _ => .bind (ainvoke_keeps runs) fun result => ?_
  split
  · exact .throw _
  · exact .pure _

theorem runResearch_keeps {request : ResearchRequest}
    (research : IgnoresResearch equivalence request.threadId) :
    equivalence.Keeps (runResearch outside request) := by
  refine .bind call_keeps fun _ => .bind call_keeps fun _ => .bind (.read _) fun thread =>
    .bind (research _) fun _ => ?_
  split
  · exact .throw _
  · exact .throw _
  · split
    · exact .throw _
    · exact .pure _

theorem getConversation_keeps : equivalence.Keeps (getConversation outside threadId) :=
  .bind call_keeps fun _ => .bind call_keeps fun _ => .bind (.read _) fun _ => .pure _

theorem listHistory_keeps {limit : Int} : equivalence.Keeps (listHistory outside limit) := by
  refine .bind call_keeps fun _ => ?_
  split
  · exact .throw _
  · exact .pure _

theorem threadHistory_keeps {limit : Int} :
    equivalence.Keeps (threadHistory outside threadId limit) :=
  .bind call_keeps fun _ => .bind listHistory_keeps fun _ => .bind call_keeps fun _ =>
    .bind (.read _) fun _ => .pure _

theorem threadBranches_keeps {limit : Int} :
    equivalence.Keeps (threadBranches outside threadId limit) :=
  .bind call_keeps fun _ => .bind listHistory_keeps fun _ => .bind (.read _) fun _ => .pure _

theorem resumeThread_keeps (runs : IgnoresRuns equivalence threadId) :
    equivalence.Keeps (resumeThread deployment outside threadId username) := by
  refine .bind call_keeps fun _ => .bind call_keeps fun _ => .bind (.read _) fun thread => ?_
  split
  · exact .bind call_keeps fun _ => .bind (ainvoke_keeps runs) fun _ =>
      .bind (.ofExcept _) fun _ => .ofExcept _
  · exact .throw _

theorem forkThread_keeps {message : String} (runs : IgnoresRuns equivalence threadId) :
    equivalence.Keeps (forkThread deployment outside threadId checkpointId message username) :=
  .bind call_keeps fun _ => .bind call_keeps fun _ => .bind (ainvoke_keeps runs) fun _ =>
    .bind call_keeps fun _ => .bind (.read _) fun _ => .bind (.ofExcept _) fun _ => .pure _

theorem editThreadCheckpoint_keeps {query : EditQuery}
    (runs : IgnoresRuns equivalence threadId) :
    equivalence.Keeps (editThreadCheckpoint outside threadId query) := by
  unfold editThreadCheckpoint
  split
  · exact .throw _
  · exact .bind call_keeps fun _ => .bind call_keeps fun _ => .bind (.read _) fun _ =>
      .bind (.ofExcept _) fun _ => .bind (runs _ _) fun _ => .bind call_keeps fun _ => .pure _

theorem rememberThreadFact_keeps {text : String}
    (memory : ∀ store, equivalence.Keeps (setMemory store)) :
    equivalence.Keeps (rememberThreadFact outside threadId text) :=
  .bind call_keeps fun _ => .bind (.read _) fun _ => .bind (.ofExcept _) fun _ =>
    .bind (memory _) fun _ => .bind call_keeps fun _ => .pure _

theorem searchMemory_keeps {query : String} {limit : Int} :
    equivalence.Keeps (searchMemory deployment outside query limit username) := by
  have threads : equivalence.Keeps (searchedThreads deployment outside username) := by
    unfold searchedThreads
    split
    · exact .pure _
    · exact .bind call_keeps fun _ => .bind (.read _) fun _ => .pure _
  exact .bind threads fun _ => .bind call_keeps fun _ => .bind (.read _) fun _ =>
    .bind (.ofExcept _) fun _ => .bind (.ofExcept _) fun _ => .pure _

theorem runSmokeTest_keeps {request : SmokeTestRequest}
    (runs : IgnoresRuns equivalence (smokeThreadId request.testId)) :
    equivalence.Keeps (runSmokeTest deployment outside request) := by
  refine .tryCatch (.bind (answer_keeps runs) fun _ => .pure _) fun failure => ?_
  split
  · exact .throw _
  · exact .throw _

end

end AgenticEnterprise.Api
