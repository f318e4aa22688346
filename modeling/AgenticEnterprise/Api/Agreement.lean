import AgenticEnterprise.Api.Service

/-! Two runs of one handler. A relation that fixes what a handler reads (one
thread, the ownership table, the vector store, one key of the cache) and bears
the same writes on both sides is kept by the two runs, which end alike. -/

set_option autoImplicit false

namespace AgenticEnterprise.Api

open Core Library Graph Threads PartialEquivalence

section

variable (equivalence : PartialEquivalence State)

/-- The relation fixes what a run on the thread reads and bears what it writes. -/
structure FixesRuns (threadId : String) : Prop where
  inputs : ∀ {left right}, equivalence.related left right →
    left.runInputs threadId = right.runInputs threadId
  record : ∀ thread supersteps,
    equivalence.Agree (recordRun threadId thread supersteps)
      (recordRun threadId thread supersteps)

structure FixesResearch (threadId : String) : Prop where
  thread : ∀ {left right}, equivalence.related left right →
    left.system.research threadId = right.system.research threadId
  record : ∀ thread,
    equivalence.Agree (recordResearch threadId thread) (recordResearch threadId thread)

structure FixesCache (key : String) : Prop where
  entry : ∀ {left right}, equivalence.related left right →
    left.system.cache key = right.system.cache key
  record : ∀ outside response,
    equivalence.Agree (setCached outside key response) (setCached outside key response)

structure FixesMemory : Prop where
  store : ∀ {left right}, equivalence.related left right →
    left.system.memory = right.system.memory
  record : ∀ store, equivalence.Agree (setMemory store) (setMemory store)

def FixesSession : Prop :=
  ∀ change, equivalence.Agree (changeSession change) (changeSession change)

/-- A handler whose two runs from related states end alike. -/
def Determined {Result : Type} (handler : Handler Result) : Prop :=
  equivalence.Agree handler handler

end

section

variable {equivalence : PartialEquivalence State} {deployment : Deployment} {outside : Outside}
  {threadId username : String} {caller : Caller} {input : Option (List Message)}
  {checkpointId : String}

theorem FixesRuns.thread (runs : FixesRuns equivalence threadId) {left right : State}
    (related : equivalence.related left right) :
    left.system.threads threadId = right.system.threads threadId :=
  congrArg RunInputs.thread (runs.inputs related)

theorem call_determined {place : Call} : Determined equivalence (call outside place) :=
  Agree.ofExcept _

theorem currentThread_determined (runs : FixesRuns equivalence threadId) :
    Determined equivalence (currentThread threadId) :=
  Agree.read runs.thread

theorem astream_determined (runs : FixesRuns equivalence threadId) :
    Determined equivalence (astream deployment outside caller threadId input checkpointId) :=
  Agree.bind (.read runs.inputs) fun _ => .bind (runs.record _ _) fun _ => .pure _

theorem ainvoke_determined (runs : FixesRuns equivalence threadId) :
    Determined equivalence (ainvoke deployment outside caller threadId input checkpointId) :=
  Agree.bind (astream_determined runs) fun _ => .ofExcept _

theorem answer_determined (runs : FixesRuns equivalence threadId) :
    Determined equivalence (answer deployment outside caller threadId input checkpointId) :=
  Agree.bind call_determined fun _ => .bind call_determined fun _ =>
    .bind (ainvoke_determined runs) fun _ => .bind (.ofExcept _) fun _ => .pure _

theorem runAgent_determined {payload : AgentRequest}
    (runs : FixesRuns equivalence (runThreadId payload)) (session : FixesSession equivalence) :
    Determined equivalence (runAgent deployment outside payload username) := by
  refine Agree.bind (session _) fun _ => .tryCatch ?_ fun failure => ?_
  · exact .bind (answer_determined runs) fun _ => .bind (session _) fun _ => .pure _
  · split
    · exact .bind (session _) fun _ => .throw _
    · exact .bind (session _) fun _ => .throw _
    · exact .throw _

theorem streamRun_determined {payload : AgentRequest}
    (runs : FixesRuns equivalence (runThreadId payload)) (session : FixesSession equivalence) :
    Determined equivalence (streamRun deployment outside payload username) := by
  refine Agree.tryCatch ?_ fun failure => ?_
  · refine .bind call_determined fun _ => .bind call_determined fun _ =>
      .bind (astream_determined runs) fun execution => ?_
    split
    · exact .bind (session _) fun _ => .pure _
    · exact .bind (session _) fun _ => .pure _
    · exact .pure _
  · split
    · exact .bind (session _) fun _ => .pure _
    · exact .pure _

theorem runAgentStream_determined {payload : AgentRequest}
    (runs : FixesRuns equivalence (runThreadId payload)) (session : FixesSession equivalence) :
    Determined equivalence (runAgentStream deployment outside payload username) :=
  Agree.bind (session _) fun _ => .bind (streamRun_determined runs session) fun _ => .pure _

theorem ask_determined {query : String} (runs : FixesRuns equivalence (askThreadId username))
    (cache : FixesCache equivalence (askCacheKey username query)) :
    Determined equivalence (ask deployment outside query username) := by
  have entry {left right : State} (related : equivalence.related left right) :
      (if outside.cacheAnswers then left.system.cache (askCacheKey username query) else none) =
        if outside.cacheAnswers then right.system.cache (askCacheKey username query) else none := by
    rw [cache.entry related]
  refine Agree.bind (.read entry) fun kept => ?_
  cases kept with
  | some response => exact .pure _
  | none =>
      exact .bind (answer_determined runs) fun _ => .bind (cache.record _ _) fun _ => .pure _

theorem runResearch_determined {request : ResearchRequest}
    (research : FixesResearch equivalence request.threadId) :
    Determined equivalence (runResearch outside request) := by
  refine Agree.bind call_determined fun _ => .bind call_determined fun _ =>
    .bind (.read research.thread) fun thread => .bind (research.record _) fun _ => ?_
  split
  · exact .throw _
  · exact .throw _
  · split
    · exact .throw _
    · exact .pure _

theorem getConversation_determined (runs : FixesRuns equivalence threadId) :
    Determined equivalence (getConversation outside threadId) :=
  Agree.bind call_determined fun _ => .bind call_determined fun _ =>
    .bind (currentThread_determined runs) fun _ => .pure _

theorem listHistory_determined {limit : Int} :
    Determined equivalence (listHistory outside limit) := by
  refine Agree.bind call_determined fun _ => ?_
  split
  · exact .throw _
  · exact .pure _

theorem threadHistory_determined {limit : Int} (runs : FixesRuns equivalence threadId) :
    Determined equivalence (threadHistory outside threadId limit) :=
  Agree.bind call_determined fun _ => .bind listHistory_determined fun _ =>
    .bind call_determined fun _ => .bind (currentThread_determined runs) fun _ => .pure _

theorem threadBranches_determined {limit : Int} (runs : FixesRuns equivalence threadId) :
    Determined equivalence (threadBranches outside threadId limit) :=
  Agree.bind call_determined fun _ => .bind listHistory_determined fun _ =>
    .bind (currentThread_determined runs) fun _ => .pure _

theorem resumeThread_determined (runs : FixesRuns equivalence threadId) :
    Determined equivalence (resumeThread deployment outside threadId username) := by
  refine Agree.bind call_determined fun _ => .bind call_determined fun _ =>
    .bind (currentThread_determined runs) fun thread => ?_
  split
  · exact .bind call_determined fun _ => .bind (ainvoke_determined runs) fun _ =>
      .bind (.ofExcept _) fun _ => .ofExcept _
  · exact .throw _

theorem forkThread_determined {message : String} (runs : FixesRuns equivalence threadId) :
    Determined equivalence
      (forkThread deployment outside threadId checkpointId message username) :=
  Agree.bind call_determined fun _ => .bind call_determined fun _ =>
    .bind (ainvoke_determined runs) fun _ => .bind call_determined fun _ =>
      .bind (currentThread_determined runs) fun _ => .bind (.ofExcept _) fun _ => .pure _

theorem editThreadCheckpoint_determined {query : EditQuery}
    (runs : FixesRuns equivalence threadId) :
    Determined equivalence (editThreadCheckpoint outside threadId query) := by
  unfold editThreadCheckpoint
  split
  · exact Agree.throw _
  · exact Agree.bind call_determined fun _ => .bind call_determined fun _ =>
      .bind (currentThread_determined runs) fun _ => .bind (.ofExcept _) fun _ =>
        .bind (runs.record _ _) fun _ => .bind call_determined fun _ => .pure _

theorem rememberThreadFact_determined {text : String} (memory : FixesMemory equivalence) :
    Determined equivalence (rememberThreadFact outside threadId text) :=
  Agree.bind call_determined fun _ => .bind (.read memory.store) fun _ =>
    .bind (.ofExcept _) fun _ => .bind (memory.record _) fun _ =>
      .bind call_determined fun _ => .pure _

end

end AgenticEnterprise.Api
