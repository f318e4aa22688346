import AgenticEnterprise.Api.SessionOwnership
import AgenticEnterprise.Library.Runs

/-! What a request can write. Every write of a handler is one of few kinds, and the
route and its caller decide which of them a request can make. -/

set_option autoImplicit false

namespace AgenticEnterprise.Api

open Core Library Memory Graph Threads

/-- `session` is the end of a database session. -/
inductive Write where
  | run (caller : Caller) (threadId : String) (input : Option (List Message))
      (checkpointId : String)
  | edit (threadId : String) (query : EditQuery)
  | research (request : ResearchRequest)
  | remember (threadId text : String)
  | cache (key : String) (response : AskResponse)
  | session (table : Ownership.ThreadOwnership) (rows : List AgentExecution)
  | sweep

section

variable (deployment : Deployment) (outside : Outside)

/-- The stores behind a write. An edit of a node that does not exist and a text that
cannot be stored write nothing. -/
def Write.apply (system : System) : Write → Except Exn System
  | .run caller threadId input checkpointId =>
      let inputs := State.runInputs threadId { system := system }
      let thread := (runOn deployment outside caller input checkpointId inputs).2
      .ok { system with threads := Function.update system.threads threadId thread }
  | .edit threadId query =>
      let thread := system.threads threadId
      (Threads.aupdateState thread (History.checkpointConfig thread query.checkpointId)
        { critique := query.critique, revisionCount := query.revisionCount } query.asNode).map
          fun edited =>
            { system with threads := Function.update system.threads threadId edited }
  | .research request =>
      let thread := system.research request.threadId
      let ran := Research.ainvoke (outside.budget researchRecursionLimit)
        (researchEnvironment outside) [.human ("Research the following: " ++ request.topic)] thread
      .ok { system with research := Function.update system.research request.threadId ran.2 }
  | .remember threadId text =>
      (VectorStore.remember outside.embedder outside.pointId system.memory threadId text []).map
        fun store => { system with memory := store }
  | .cache key response =>
      .ok { system with cache := Function.update system.cache key (some response) }
  | .session table rows =>
      .ok { system with ownership := table, executions := system.executions ++ rows }
  | .sweep =>
      .ok
        { system with
          threads := fun threadId =>
            if threadId ∈ outside.staleThreads then .empty else system.threads threadId }

def Written (system : System) (write : Write) (next : System) : Prop :=
  write.apply deployment outside system = .ok next

/-- The writes of a route for the user it has been let in for. -/
inductive Permits (username : String) : Route → Write → Prop where
  | run {payload} :
      Permits username (.run (some payload))
        (.run { username := username } (runThreadId payload)
          (some [.human payload.taskDescription]) "")
  | runStream {payload} :
      Permits username (.runStream (some payload))
        (.run { username := username } (runThreadId payload)
          (some [.human payload.taskDescription]) "")
  | ask {query} :
      Permits username (.ask (some query))
        (.run { username := username } (askThreadId username) (some [.human query]) "")
  | cache {query output} :
      Permits username (.ask (some query))
        (.cache (askCacheKey username query) ⟨query, output⟩)
  | analyze {ticker} :
      Permits username (.analyze (some ticker))
        (.run { username := username, withDb := false, withTools := false }
          (analyzeThreadId outside username) (some [.human ("Analyze " ++ ticker)]) "")
  | research {payload} : Permits username (.research (some payload)) (.research payload)
  | resume {threadId} :
      Permits username (.resume threadId) (.run { username := username } threadId none "")
  | fork {threadId checkpointId message} :
      Permits username (.fork threadId (some (checkpointId, message)))
        (.run { username := username } threadId (some [.human message]) checkpointId)
  | edit {threadId query} : Permits username (.edit threadId (some query)) (.edit threadId query)
  | remember {threadId text} :
      Permits username (.remember threadId (some text)) (.remember threadId text)
  | sweep : Permits username .gc .sweep

/-- The rows a route adds, whatever their status. -/
def Records (route : Route) (row : AgentExecution) : Prop :=
  ∃ payload status, (route = .run (some payload) ∨ route = .runStream (some payload)) ∧
    row = ⟨payload.requestId, payload.agentId, status⟩

/-- The table `found` with the caller's claim on the checked thread at most. -/
def ClaimsAtMost (caller : Except Exn String) (route : Route)
    (found table : Ownership.ThreadOwnership) : Prop :=
  ∀ threadId,
    table.find? threadId = found.find? threadId ∨
      ∃ username writer, caller = .ok username ∧ checkedThread route = some threadId ∧
        found.find? threadId = none ∧
        table.find? threadId = some ⟨threadId, username, writer⟩

/-- What holds of every table that the session of a request can come to. -/
structure SessionTables (caller : Except Exn String) (route : Route)
    (tables : Ownership.ThreadOwnership → Prop) : Prop where
  claimed : ∀ {table after threadId username granted}, tables table → caller = .ok username →
    checkedThread route = some threadId →
    Ownership.claimOrCheck deployment.settings transaction table threadId username =
      some (granted, after) → tables after
  committed : ∀ {table}, tables table → tables (table.commit transaction)
  rolledBack : ∀ {table}, tables table → tables (table.rollback transaction)

/-- The smoke test runs for everybody, in the name of the demo user. -/
inductive Allowed (request : Request) : Write → Prop where
  | smoke {payload} :
      request.route = .smoke (some payload) →
      Allowed request (.run { username := deployment.settings.demoUsername, withDb := false }
        (smokeThreadId payload.testId) (some [.human payload.payload]) "")
  | user {username write} :
      currentUser deployment outside request.token = .ok username →
      Permits outside username request.route write → Allowed request write
  | session {table rows} :
      (∀ row ∈ rows, Records request.route row) → Allowed request (.session table rows)

/-- The states that the allowed writes lead to. The objects of a session are written
later, so they have to be permitted when they are added; `tables` holds of the
ownership table throughout. -/
def writing (allowed : Write → Prop) (records : AgentExecution → Prop)
    (tables : Ownership.ThreadOwnership → Prop) : Growth State where
  grows before after :=
    (∀ row ∈ before.added, records row) → tables before.system.ownership →
      (∀ row ∈ after.added, records row) ∧ tables after.system.ownership ∧
        ∃ writes, (∀ write ∈ writes, allowed write) ∧
          Runs (Written deployment outside) before.system writes after.system
  refl _ added holds := ⟨added, holds, [], List.forall_mem_nil _, .refl⟩
  trans := by
    intro first second third former latter added holds
    obtain ⟨middle, between, writes, allowed, run⟩ := former added holds
    obtain ⟨last, after, more, others, rest⟩ := latter middle between
    exact ⟨last, after, writes ++ more, List.forall_mem_append.mpr ⟨allowed, others⟩,
      run.append rest⟩

end

section

variable {deployment : Deployment} {outside : Outside} {allowed : Write → Prop}
  {records : AgentExecution → Prop} {tables : Ownership.ThreadOwnership → Prop}
  {threadId username : String} {caller : Caller}
  {input : Option (List Message)} {checkpointId : String} {Result : Type}

/-! ## The handlers -/

theorem writing_of_written {write : Write} (permitted : allowed write) {before after : State}
    (written : write.apply deployment outside before.system = .ok after.system)
    (same : after.system.ownership = before.system.ownership)
    (kept : ∀ row ∈ after.added, row ∈ before.added) :
    (writing deployment outside allowed records tables).grows before after :=
  fun added holds => ⟨fun row member => added row (kept row member), same.symm ▸ holds, [write],
    List.forall_mem_singleton.mpr permitted, .single written⟩

theorem writing_of_same {before after : State} (same : after.system = before.system)
    (recorded : (∀ row ∈ before.added, records row) → ∀ row ∈ after.added, records row) :
    (writing deployment outside allowed records tables).grows before after :=
  fun added holds => ⟨recorded added, same.symm ▸ holds, [], List.forall_mem_nil _, same ▸ .refl⟩

theorem call_leads {place : Call} :
    (writing deployment outside allowed records tables).Leads (call outside place) :=
  .ofExcept _

theorem listHistory_leads {limit : Int} :
    (writing deployment outside allowed records tables).Leads (listHistory outside limit) := by
  refine .bind call_leads fun _ => ?_
  split
  · exact .throw _
  · exact .pure _

theorem addExecution_leads {execution : AgentExecution} (recorded : records execution) :
    (writing deployment outside allowed records tables).Leads (addExecution execution) :=
  .write fun _ => writing_of_same rfl fun added =>
    List.forall_mem_append.mpr ⟨added, List.forall_mem_singleton.mpr recorded⟩

theorem setStatus_leads {status : String}
    (restated : ∀ row, records row → records { row with status := status }) :
    (writing deployment outside allowed records tables).Leads (setStatus status) :=
  .write fun _ => writing_of_same rfl fun added =>
    List.forall_mem_map.mpr fun row member => restated row (added row member)

theorem astream_leads (permitted : allowed (.run caller threadId input checkpointId)) :
    (writing deployment outside allowed records tables).Leads
      (astream deployment outside caller threadId input checkpointId) :=
  .bind_read fun _ => writing_of_written permitted rfl rfl fun _ => id

theorem ainvoke_leads (permitted : allowed (.run caller threadId input checkpointId)) :
    (writing deployment outside allowed records tables).Leads
      (ainvoke deployment outside caller threadId input checkpointId) :=
  .bind (astream_leads permitted) fun _ => .ofExcept _

theorem answer_leads (permitted : allowed (.run caller threadId input checkpointId)) :
    (writing deployment outside allowed records tables).Leads
      (answer deployment outside caller threadId input checkpointId) :=
  .bind call_leads fun _ => .bind call_leads fun _ => .bind (ainvoke_leads permitted) fun _ =>
    .bind (.ofExcept _) fun _ => .pure _

theorem runAgent_leads {payload : AgentRequest}
    (permitted : allowed (.run { username := username } (runThreadId payload)
      (some [.human payload.taskDescription]) ""))
    (recorded : records (execution payload))
    (restated : ∀ row status, records row → records { row with status := status }) :
    (writing deployment outside allowed records tables).Leads
      (runAgent deployment outside payload username) := by
  refine .bind (addExecution_leads recorded) fun _ => .tryCatch ?_ fun failure => ?_
  · exact .bind (answer_leads permitted) fun _ =>
      .bind (setStatus_leads fun row => restated row _) fun _ => .pure _
  · split
    · exact .bind (setStatus_leads fun row => restated row _) fun _ => .throw _
    · exact .bind (setStatus_leads fun row => restated row _) fun _ => .throw _
    · exact .throw _

theorem runAgentStream_leads {payload : AgentRequest}
    (permitted : allowed (.run { username := username } (runThreadId payload)
      (some [.human payload.taskDescription]) ""))
    (recorded : records (execution payload))
    (restated : ∀ row status, records row → records { row with status := status }) :
    (writing deployment outside allowed records tables).Leads
      (runAgentStream deployment outside payload username) := by
  refine .bind (addExecution_leads recorded) fun _ =>
    .bind (.tryCatch ?_ fun failure => ?_) fun _ => .pure _
  · refine .bind call_leads fun _ => .bind call_leads fun _ => .bind (astream_leads permitted)
      fun execution => ?_
    split
    · exact .bind (setStatus_leads fun row => restated row _) fun _ => .pure _
    · exact .bind (setStatus_leads fun row => restated row _) fun _ => .pure _
    · exact .pure _
  · split
    · exact .bind (setStatus_leads fun row => restated row _) fun _ => .pure _
    · exact .pure _

theorem ask_leads {query : String}
    (permitted : allowed (.run { username := username } (askThreadId username)
      (some [.human query]) ""))
    (cache : ∀ output, allowed (.cache (askCacheKey username query) ⟨query, output⟩)) :
    (writing deployment outside allowed records tables).Leads
      (ask deployment outside query username) := by
  refine .bind (.read _) fun kept => ?_
  cases kept with
  | some response => exact .pure _
  | none =>
      refine .bind (answer_leads permitted) fun output => .bind (.write fun state => ?_)
        fun _ => .pure _
      split
      · exact writing_of_written (cache output) rfl rfl fun _ => id
      · exact writing_of_same rfl id

theorem analyzeInvestment_leads {ticker : String}
    (permitted : allowed (.run { username := username, withDb := false, withTools := false }
      (analyzeThreadId outside username) (some [.human ("Analyze " ++ ticker)]) "")) :
    (writing deployment outside allowed records tables).Leads
      (analyzeInvestment deployment outside ticker username) := by
  refine .bind call_leads fun _ => .bind (ainvoke_leads permitted) fun result => ?_
  split
  · exact .throw _
  · exact .pure _

theorem runResearch_leads {request : ResearchRequest} (permitted : allowed (.research request)) :
    (writing deployment outside allowed records tables).Leads (runResearch outside request) := by
  refine .bind call_leads fun _ => .bind call_leads fun _ => .bind_read fun state => ?_
  refine Growth.grows_bind (writing_of_written permitted rfl rfl fun _ => id) fun _ after _ => ?_
  split
  · exact Growth.Leads.throw _ after
  · exact Growth.Leads.throw _ after
  · split
    · exact Growth.Leads.throw _ after
    · exact Growth.Leads.pure _ after

theorem resumeThread_leads (permitted : allowed (.run { username := username } threadId none "")) :
    (writing deployment outside allowed records tables).Leads
      (resumeThread deployment outside threadId username) := by
  refine .bind call_leads fun _ => .bind call_leads fun _ => .bind (.read _) fun thread => ?_
  split
  · exact .bind call_leads fun _ => .bind (ainvoke_leads permitted) fun _ =>
      .bind (.ofExcept _) fun _ => .ofExcept _
  · exact .throw _

theorem forkThread_leads {message : String}
    (permitted : allowed (.run { username := username } threadId (some [.human message])
      checkpointId)) :
    (writing deployment outside allowed records tables).Leads
      (forkThread deployment outside threadId checkpointId message username) :=
  .bind call_leads fun _ => .bind call_leads fun _ => .bind (ainvoke_leads permitted) fun _ =>
    .bind call_leads fun _ => .bind (.read _) fun _ => .bind (.ofExcept _) fun _ => .pure _

theorem editThreadCheckpoint_leads {query : EditQuery}
    (permitted : allowed (.edit threadId query)) :
    (writing deployment outside allowed records tables).Leads
      (editThreadCheckpoint outside threadId query) := by
  unfold editThreadCheckpoint
  split
  · exact .throw _
  · refine .bind call_leads fun _ => .bind call_leads fun _ => .bind_read fun state => ?_
    refine Growth.grows_bind_ofExcept fun edited succeeded => ?_
    refine Growth.grows_bind (writing_of_written permitted ?_ rfl fun _ => id) fun _ after _ =>
      Growth.Leads.bind call_leads (fun _ => .pure _) after
    simp only [Write.apply, succeeded]
    rfl

theorem rememberThreadFact_leads {text : String} (permitted : allowed (.remember threadId text)) :
    (writing deployment outside allowed records tables).Leads
      (rememberThreadFact outside threadId text) := by
  refine .bind call_leads fun _ => .bind_read fun state => ?_
  refine Growth.grows_bind_ofExcept fun written succeeded => ?_
  refine Growth.grows_bind (writing_of_written permitted ?_ rfl fun _ => id) fun _ after _ =>
    Growth.Leads.bind call_leads (fun _ => .pure _) after
  simp only [Write.apply, succeeded]
  rfl

theorem searchMemory_leads {query : String} {limit : Int} :
    (writing deployment outside allowed records tables).Leads
      (searchMemory deployment outside query limit username) := by
  have threads : (writing deployment outside allowed records tables).Leads
      (searchedThreads deployment outside username) := by
    unfold searchedThreads
    split
    · exact .pure _
    · exact .bind call_leads fun _ => .bind (.read _) fun _ => .pure _
  exact .bind threads fun _ => .bind call_leads fun _ => .bind (.read _) fun _ =>
    .bind (.ofExcept _) fun _ => .bind (.ofExcept _) fun _ => .pure _

theorem runSmokeTest_leads {request : SmokeTestRequest}
    (permitted : allowed (.run { username := deployment.settings.demoUsername, withDb := false }
      (smokeThreadId request.testId) (some [.human request.payload]) "")) :
    (writing deployment outside allowed records tables).Leads
      (runSmokeTest deployment outside request) := by
  refine .tryCatch (.bind (answer_leads permitted) fun _ => .pure _) fun failure => ?_
  split
  · exact .throw _
  · exact .throw _

theorem runGc_leads (permitted : allowed .sweep) :
    (writing deployment outside allowed records tables).Leads (runGc deployment outside) :=
  .bind call_leads fun _ => .bind call_leads fun _ =>
    .bind (.write fun _ => writing_of_written permitted rfl rfl fun _ => id) fun _ => .pure _

/-! ## The sessions -/

section

variable {route : Route} {token : Option String}
  (closed : SessionTables deployment (currentUser deployment outside token) route tables)
  (session : ∀ table rows, tables table → (∀ row ∈ rows, records row) →
    allowed (.session table rows))

include session

theorem table_grows {before after : State} {table : Ownership.ThreadOwnership}
    (same : after.system = { before.system with ownership := table })
    (reached : tables before.system.ownership → tables table)
    (kept : ∀ row ∈ after.added, row ∈ before.added) :
    (writing deployment outside allowed records tables).grows before after := by
  intro added holds
  refine ⟨fun row member => added row (kept row member), ?_, [.session table []],
    List.forall_mem_singleton.mpr (session _ _ (reached holds) (List.forall_mem_nil _)),
    .single ?_⟩
  · rw [same]
    exact reached holds
  · simp [Written, Write.apply, same]

theorem claimOrCheck_leads
    (claimed : ∀ {table after granted}, tables table →
      Ownership.claimOrCheck deployment.settings transaction table threadId username =
        some (granted, after) → tables after) :
    (writing deployment outside allowed records tables).Leads
      (claimOrCheck deployment outside threadId username) := by
  unfold claimOrCheck
  split
  · exact .pure _
  · refine .bind call_leads fun _ => .bind_read fun state => ?_
    split
    · exact Growth.Leads.throw _ state
    · rename_i granted after executed
      exact table_grows session rfl (fun holds => claimed holds executed) fun _ => id

include closed

theorem commit_grows (state : State) :
    (writing deployment outside allowed records tables).grows state (state.commit outside) := by
  unfold State.commit
  split
  · exact table_grows session rfl closed.rolledBack (List.forall_mem_nil _)
  · exact fun added holds => ⟨List.forall_mem_nil _, closed.committed holds, [.session _ _],
      List.forall_mem_singleton.mpr (session _ _ (closed.committed holds) added), .single rfl⟩

theorem rollback_grows (state : State) :
    (writing deployment outside allowed records tables).grows state state.rollback :=
  table_grows session rfl closed.rolledBack (List.forall_mem_nil _)

theorem rollbackOnFailure_leads {body : Handler Result}
    (leads : (writing deployment outside allowed records tables).Leads body) :
    (writing deployment outside allowed records tables).Leads (rollbackOnFailure body) :=
  .tryCatch leads fun _ => .bind (.write (rollback_grows closed session)) fun _ => .throw _

theorem getDb_leads {body : Handler Result}
    (leads : (writing deployment outside allowed records tables).Leads body) :
    (writing deployment outside allowed records tables).Leads (getDb outside body) :=
  .bind (rollbackOnFailure_leads closed session leads) fun _ =>
    .bind (.write (commit_grows closed session)) fun _ => .pure _

theorem getDbStreaming_leads {body : Handler (Result × Option Exn)}
    (leads : (writing deployment outside allowed records tables).Leads body) :
    (writing deployment outside allowed records tables).Leads (getDbStreaming outside body) := by
  refine .bind (rollbackOnFailure_leads closed session leads) fun result => ?_
  dsimp only
  split
  · exact .bind (.write (commit_grows closed session)) fun _ => .pure _
  · exact .bind (.write (rollback_grows closed session)) fun _ => .pure _

theorem withThreadOwner_leads {Payload : Type} {payload : Option Payload}
    {handler : Payload → String → Handler Response}
    (checked : checkedThread route = some threadId)
    (leads : ∀ args username, payload = some args →
      currentUser deployment outside token = .ok username →
      (writing deployment outside allowed records tables).Leads (handler args username)) :
    (writing deployment outside allowed records tables).Leads
      (withThreadOwner deployment outside threadId token payload handler) := by
  refine getDb_leads closed session fun state => ?_
  have required : (writing deployment outside allowed records tables).Leads
      (requireThreadOwner deployment outside threadId token) := by
    refine .bind_ofExcept fun username current => .bind (claimOrCheck_leads session
      fun holds executed => closed.claimed holds current checked executed) fun granted => ?_
    split
    · exact .pure _
    · exact .throw _
  refine Growth.grows_bind (required state) fun username after passed => ?_
  refine Growth.grows_bind_ofExcept fun args given => ?_
  cases payload with
  | none => cases given
  | some payload =>
      cases given
      exact leads args username rfl (requireThreadOwner_ok passed).1 after

end

theorem withUser_leads {Payload : Type} {token : Option String} {payload : Option Payload}
    {handler : Payload → String → Handler Response}
    (leads : ∀ args username, payload = some args →
      currentUser deployment outside token = .ok username →
      (writing deployment outside allowed records tables).Leads (handler args username)) :
    (writing deployment outside allowed records tables).Leads
      (withUser deployment outside token payload handler) := by
  refine .bind_ofExcept fun username current => .bind_ofExcept fun args given => ?_
  cases payload with
  | none => cases given
  | some payload =>
      cases given
      exact leads args username rfl current

theorem limited_leads {body : Handler Result}
    (leads : (writing deployment outside allowed records tables).Leads body) :
    (writing deployment outside allowed records tables).Leads (limited outside body) :=
  .bind call_leads fun _ => leads

end

/-! ## One request -/

section

variable {deployment : Deployment} {outside : Outside}

theorem not_permits_session {username : String} {route : Route}
    {table : Ownership.ThreadOwnership} {rows : List AgentExecution} :
    ¬Permits outside username route (.session table rows) := by
  intro permits
  cases permits

/-- The writes of a request, where `tables` holds of every table of its session. -/
def AllowedWith (deployment : Deployment) (outside : Outside) (request : Request)
    (tables : Ownership.ThreadOwnership → Prop) (write : Write) : Prop :=
  Allowed deployment outside request write ∧
    ∀ table rows, write = .session table rows → tables table

/-- A request makes no other writes than its route permits its caller. -/
theorem handle_leads (request : Request) {tables : Ownership.ThreadOwnership → Prop}
    (closed : SessionTables deployment (currentUser deployment outside request.token)
      request.route tables) :
    (writing deployment outside (AllowedWith deployment outside request tables)
      (Records request.route) tables).Leads (handle deployment outside request) := by
  have own {username : String} {write : Write}
      (permits : Permits outside username request.route write)
      (current : currentUser deployment outside request.token = .ok username) :
      AllowedWith deployment outside request tables write := by
    refine ⟨.user current permits, fun table rows same => ?_⟩
    subst same
    exact absurd permits not_permits_session
  have session (table : Ownership.ThreadOwnership) (rows : List AgentExecution)
      (holds : tables table) (recorded : ∀ row ∈ rows, Records request.route row) :
      AllowedWith deployment outside request tables (.session table rows) := by
    refine ⟨.session recorded, fun other _ same => ?_⟩
    cases same
    exact holds
  have restated (row : AgentExecution) (status : String) (recorded : Records request.route row) :
      Records request.route { row with status := status } := by
    obtain ⟨payload, _, routed, rfl⟩ := recorded
    exact ⟨payload, status, routed, rfl⟩
  obtain ⟨token, route⟩ := request
  cases route with
  | root => exact .pure _
  | health => exact .pure _
  | docs path => exact .pure _
  | graph => exact .bind call_leads fun _ => .pure _
  | graphPng =>
      exact .tryCatch (.bind call_leads fun _ => .bind call_leads fun _ => .pure _)
        fun _ => .throw _
  | smoke payload =>
      refine .bind_ofExcept fun args given => ?_
      cases payload with
      | none => cases given
      | some payload =>
          cases given
          refine runSmokeTest_leads ⟨.smoke rfl, fun table rows same => ?_⟩
          cases same
  | token form => exact .bind (.ofExcept _) fun _ => .ofExcept _
  | run payload =>
      refine getDb_leads closed session (withUser_leads fun args username given current => ?_)
      subst given
      exact limited_leads
        (runAgent_leads (own .run current) ⟨args, "running", .inl rfl, rfl⟩ restated)
  | runStream payload =>
      refine getDbStreaming_leads closed session (.bind_ofExcept fun username current =>
        .bind_ofExcept fun args given => ?_)
      cases payload with
      | none => cases given
      | some payload =>
          cases given
          exact limited_leads (runAgentStream_leads (own .runStream current)
            ⟨args, "running", .inr rfl, rfl⟩ restated)
  | ask query =>
      refine getDb_leads closed session (withUser_leads fun args username given current => ?_)
      subst given
      exact limited_leads (ask_leads (own .ask current) fun _ => own .cache current)
  | analyze ticker =>
      refine withUser_leads fun args username given current => ?_
      subst given
      exact analyzeInvestment_leads (own .analyze current)
  | research payload =>
      refine withUser_leads fun args username given current => ?_
      subst given
      exact runResearch_leads (own .research current)
  | conversation conversationId =>
      exact withUser_leads fun _ _ _ _ => .bind call_leads fun _ => .bind call_leads fun _ =>
        .bind (.read _) fun _ => .pure _
  | history threadId limit =>
      exact withThreadOwner_leads closed session rfl fun _ _ _ _ => .bind call_leads fun _ =>
        .bind listHistory_leads fun _ => .bind call_leads fun _ =>
          .bind (.read _) fun _ => .pure _
  | resume threadId =>
      exact withThreadOwner_leads closed session rfl fun _ _ _ current =>
        resumeThread_leads (own .resume current)
  | fork threadId query =>
      refine withThreadOwner_leads closed session rfl fun args username given current => ?_
      subst given
      exact forkThread_leads (own .fork current)
  | edit threadId query =>
      refine withThreadOwner_leads closed session rfl fun args username given current => ?_
      subst given
      exact editThreadCheckpoint_leads (own .edit current)
  | branches threadId limit =>
      exact withThreadOwner_leads closed session rfl fun _ _ _ _ => .bind call_leads fun _ =>
        .bind listHistory_leads fun _ => .bind (.read _) fun _ => .pure _
  | remember threadId text =>
      refine withThreadOwner_leads closed session rfl fun args username given current => ?_
      subst given
      exact rememberThreadFact_leads (own .remember current)
  | searchMemory query =>
      exact getDb_leads closed session (withUser_leads fun _ _ _ _ => searchMemory_leads)
  | gc => exact withUser_leads fun _ _ _ current => runGc_leads (own .sweep current)
  | gcStats =>
      exact withUser_leads fun _ _ _ _ => .bind call_leads fun _ => .bind call_leads fun _ =>
        .pure _

/-- What a request has done to the stores. -/
theorem serve_writes (deployment : Deployment) (system : System) (exchange : Exchange) :
    ∃ writes,
      (∀ write ∈ writes, Allowed deployment exchange.outside exchange.request write) ∧
      Runs (Written deployment exchange.outside) system writes
        (exchange.serve deployment system).system := by
  have any : SessionTables deployment
      (currentUser deployment exchange.outside exchange.request.token) exchange.request.route
      fun _ => True :=
    ⟨fun _ _ _ _ => trivial, fun _ => trivial, fun _ => trivial⟩
  obtain ⟨_, _, writes, allowed, run⟩ :=
    handle_leads exchange.request any { system := system } (List.forall_mem_nil _) trivial
  exact ⟨writes, fun write member => (allowed write member).1, run⟩

/-! ## The tables of a session -/

theorem sessionTables_claims {caller : Except Exn String} {route : Route}
    {found : Ownership.ThreadOwnership} (settled : found.Settled) :
    SessionTables deployment caller route (ClaimsAtMost caller route found) where
  claimed {table after threadId username granted} claims called checked executed := by
    rcases Ownership.claimOrCheck_cases executed with
      ⟨_, _, rfl⟩ | ⟨_, rfl, _⟩ | ⟨_, _, missing, added, unchanged⟩
    · exact claims
    · exact claims
    · intro other
      by_cases same : other = threadId
      · subst same
        refine .inr ⟨username, _, called, checked, ?_, added⟩
        rcases claims other with kept | ⟨_, _, _, _, absent, _⟩
        · rw [← kept, missing]
        · exact absent
      · rw [unchanged other same]
        exact claims other
  committed {table} claims := by
    intro threadId
    rcases claims threadId with kept | ⟨username, writer, called, checked, absent, claimed⟩
    · refine .inl ?_
      rw [UniqueKeyTable.find?_commit, kept, ← UniqueKeyTable.find?_commit, settled.commit_eq]
    · by_cases own : writer = some transaction
      · refine .inr ⟨username, none, called, checked, absent, ?_⟩
        simp [UniqueKeyTable.find?_commit, claimed, UniqueKeyTable.settle, own]
      · refine .inr ⟨username, writer, called, checked, absent, ?_⟩
        simp [UniqueKeyTable.find?_commit, claimed, UniqueKeyTable.settle, own]
  rolledBack {table} claims := by
    intro threadId
    rcases claims threadId with kept | ⟨username, writer, called, checked, absent, claimed⟩
    · refine .inl ?_
      rw [UniqueKeyTable.find?_rollback, kept, ← UniqueKeyTable.find?_rollback,
        settled.rollback_eq]
    · by_cases own : writer = some transaction
      · refine .inl ?_
        rw [UniqueKeyTable.find?_rollback, claimed, absent]
        simp [Option.filter, own]
      · refine .inr ⟨username, writer, called, checked, absent, ?_⟩
        rw [UniqueKeyTable.find?_rollback, claimed]
        simp [Option.filter, own]

/-- From a settled table on, a session adds the caller's own claim at most. -/
theorem serve_writes_claims (deployment : Deployment) (system : System) (exchange : Exchange)
    (settled : system.ownership.Settled) :
    ∃ writes,
      (∀ write ∈ writes,
        AllowedWith deployment exchange.outside exchange.request
          (ClaimsAtMost (currentUser deployment exchange.outside exchange.request.token)
            exchange.request.route system.ownership) write) ∧
      Runs (Written deployment exchange.outside) system writes
        (exchange.serve deployment system).system :=
  (handle_leads exchange.request (sessionTables_claims settled) { system := system }
    (List.forall_mem_nil _) fun _ => .inl rfl).2.2

end

end AgenticEnterprise.Api
