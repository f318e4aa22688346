import AgenticEnterprise.Api.Frames

/-! What a request can do to the ownership table: no handler writes it, the
ownership check may add a claim, and the end of the session commits the claim or
takes it back. -/

set_option autoImplicit false

namespace AgenticEnterprise.Api

open Core Library Graph Threads PartialEquivalence

def sameOwnership : PartialEquivalence State :=
  .same fun state => state.system.ownership

/-- What holds of the table while a session is open, and between requests. -/
structure SessionInvariant (deployment : Deployment)
    (between during : Ownership.ThreadOwnership → Prop) : Prop where
  opened : ∀ {table}, between table → during table
  claimed : ∀ {table after threadId username granted}, during table →
    Ownership.claimOrCheck deployment.settings transaction table threadId username =
      some (granted, after) → during after
  committed : ∀ {table}, during table → between (table.commit transaction)
  rolledBack : ∀ {table}, during table → between (table.rollback transaction)

def ownershipHolds (holds : Ownership.ThreadOwnership → Prop) : PartialEquivalence State :=
  .invariant fun state => holds state.system.ownership

section

variable {deployment : Deployment} {outside : Outside} {threadId username : String}
  {token : Option String} {Payload Result : Type} {state : State}

theorem commit_ownership_cases (state : State) :
    (state.commit outside).system.ownership = state.system.ownership.commit transaction ∨
      (state.commit outside).system.ownership = state.system.ownership.rollback transaction := by
  unfold State.commit
  split
  · exact .inr rfl
  · exact .inl rfl

/-! ## The ownership check -/

/-- The check passes with the row it has seen or made, and changes nothing else. -/
theorem claimOrCheck_ok {granted : Bool} {after : State}
    (passed : (claimOrCheck deployment outside threadId username).exec state =
      (.ok granted, after)) :
    ∃ claimed, Ownership.claimOrCheck deployment.settings transaction state.system.ownership
        threadId username = some (granted, claimed) ∧ after = state.withOwnership claimed := by
  unfold claimOrCheck at passed
  split at passed
  · rename_i admin
    cases passed
    exact ⟨state.system.ownership, by simp [Ownership.claimOrCheck, admin], rfl⟩
  · rw [Effect.exec_bind] at passed
    split at passed
    · rename_i reached executed
      have unmoved : reached = state := (congrArg Prod.snd executed).symm
      subst unmoved
      rw [Effect.exec_bind, Effect.exec_read] at passed
      dsimp only at passed
      split at passed
      · cases passed
      · rename_i claimed executed
        cases passed
        exact ⟨_, executed, rfl⟩
    · cases passed

theorem requireThreadOwner_ok {after : State}
    (passed : (requireThreadOwner deployment outside threadId token).exec state =
      (.ok username, after)) :
    currentUser deployment outside token = .ok username ∧
      ∃ claimed, Ownership.claimOrCheck deployment.settings transaction state.system.ownership
        threadId username = some (true, claimed) ∧ after = state.withOwnership claimed := by
  unfold requireThreadOwner getCurrentUser at passed
  rw [Effect.exec_bind, Effect.exec_ofExcept] at passed
  cases current : currentUser deployment outside token with
  | error failure =>
      rw [current] at passed
      cases passed
  | ok caller =>
      rw [current] at passed
      dsimp only at passed
      rw [Effect.exec_bind] at passed
      split at passed
      · rename_i granted reached checked
        obtain ⟨claimed, executed, rfl⟩ := claimOrCheck_ok checked
        cases granted with
        | false => cases passed
        | true =>
            cases passed
            exact ⟨rfl, claimed, executed, rfl⟩
      · cases passed

/-! ## Refused or passed on -/

/-- The stores a handler writes at once. -/
def sameStores : PartialEquivalence State :=
  .same fun state => (state.system.threads, state.system.research, state.system.memory)

theorem requireThreadOwner_sameStores :
    sameStores.Keeps (requireThreadOwner deployment outside threadId token) := by
  refine .bind (.ofExcept _) fun username => .bind ?_ fun granted => ?_
  · unfold claimOrCheck
    split
    · exact .pure _
    · refine .bind call_keeps fun _ => .bind (.read _) fun table => ?_
      split
      · exact .throw _
      · exact .bind (.write fun _ => rfl) fun _ => .pure _
  · split
    · exact .pure _
    · exact .throw _

/-- Without an effect, or the handler has run behind a passed check and its
outcome decides about the claim. -/
theorem withThreadOwner_cases {Payload : Type} {payload : Option Payload}
    {handler : Payload → String → Handler Response} :
    sameStores.related state
        ((withThreadOwner deployment outside threadId token payload handler).exec state).2 ∨
      ∃ username args claimed, currentUser deployment outside token = .ok username ∧
        payload = some args ∧
        Ownership.claimOrCheck deployment.settings transaction state.system.ownership threadId
          username = some (true, claimed) ∧
        ((withThreadOwner deployment outside threadId token payload handler).exec state).2 =
          match (handler args username).exec (state.withOwnership claimed) with
          | (.ok _, after) => after.commit outside
          | (.error _, after) => after.rollback := by
  unfold withThreadOwner
  rw [getDb_exec, Effect.exec_bind]
  have unmoved := @requireThreadOwner_sameStores deployment outside threadId token state rfl
  rcases checked : (requireThreadOwner deployment outside threadId token).exec state with
    ⟨failure | username, after⟩
  · rw [checked] at unmoved
    exact .inl unmoved
  · rw [checked] at unmoved
    cases payload with
    | none => exact .inl unmoved
    | some args =>
        obtain ⟨current, claimed, executed, rfl⟩ := requireThreadOwner_ok checked
        refine .inr ⟨username, args, claimed, current, rfl, executed, ?_⟩
        simp only [Effect.exec_bind, validated, Effect.exec_ofExcept]
        rcases (handler args username).exec (state.withOwnership claimed) with ⟨_ | _, _⟩ <;> rfl

theorem withThreadOwner_ok {Payload : Type} {payload : Option Payload}
    {handler : Payload → String → Handler Response} {response : Response} {after : State}
    (ran : (withThreadOwner deployment outside threadId token payload handler).exec state =
      (.ok response, after)) :
    ∃ username args claimed reached, currentUser deployment outside token = .ok username ∧
      payload = some args ∧
      Ownership.claimOrCheck deployment.settings transaction state.system.ownership threadId
        username = some (true, claimed) ∧
      (handler args username).exec (state.withOwnership claimed) = (.ok response, reached) ∧
      after = reached.commit outside := by
  obtain ⟨reached, body, rfl⟩ := getDb_ok ran
  obtain ⟨username, middle, checked, rest⟩ := Effect.exec_bind_ok body
  obtain ⟨args, _, read, handled⟩ := Effect.exec_bind_ok rest
  obtain ⟨called, claimed, executed, rfl⟩ := requireThreadOwner_ok checked
  obtain ⟨valid, rfl⟩ := Effect.exec_ofExcept_ok read
  cases payload with
  | none => cases valid
  | some payload =>
      cases valid
      exact ⟨username, args, claimed, reached, called, rfl, executed, handled, rfl⟩

/-! ## One request -/

variable {between during : Ownership.ThreadOwnership → Prop}

theorem claimOrCheck_keeps (session : SessionInvariant deployment between during) :
    (ownershipHolds during).Keeps (claimOrCheck deployment outside threadId username) := by
  unfold claimOrCheck
  split
  · exact .pure _
  · refine .bind call_keeps fun _ => ?_
    intro state both
    rw [Effect.exec_bind, Effect.exec_read]
    dsimp only
    split
    · exact both
    · rename_i granted claimed executed
      exact ⟨both.1, session.claimed both.1 executed⟩

theorem requireThreadOwner_keeps (session : SessionInvariant deployment between during) :
    (ownershipHolds during).Keeps (requireThreadOwner deployment outside threadId token) := by
  refine .bind (.ofExcept _) fun username => .bind (claimOrCheck_keeps session) fun granted => ?_
  split
  · exact .pure _
  · exact .throw _

theorem getDb_between (session : SessionInvariant deployment between during)
    {body : Handler Result} (keeps : (ownershipHolds during).Keeps body)
    (initially : between state.system.ownership) :
    between ((getDb outside body).exec state).2.system.ownership := by
  have reached : during (body.exec state).2.system.ownership :=
    (keeps state ⟨session.opened initially, session.opened initially⟩).2
  rw [getDb_exec]
  rcases ran : body.exec state with ⟨failure | result, after⟩ <;> rw [ran] at reached
  · exact session.rolledBack reached
  · rcases commit_ownership_cases after with same | same
    · exact same ▸ session.committed reached
    · exact same ▸ session.rolledBack reached

theorem getDbStreaming_between (session : SessionInvariant deployment between during)
    {body : Handler (Result × Option Exn)} (keeps : (ownershipHolds during).Keeps body)
    (initially : between state.system.ownership) :
    between ((getDbStreaming outside body).exec state).2.system.ownership := by
  have reached : during (body.exec state).2.system.ownership :=
    (keeps state ⟨session.opened initially, session.opened initially⟩).2
  simp only [getDbStreaming, rollbackOnFailure, Effect.exec_bind, Effect.exec_tryCatch]
  rcases ran : body.exec state with ⟨failure | ⟨result, broken⟩, after⟩ <;> rw [ran] at reached
  · exact session.rolledBack reached
  · cases broken with
    | some failure => exact session.rolledBack reached
    | none =>
        rcases commit_ownership_cases after with same | same
        · exact same ▸ session.committed reached
        · exact same ▸ session.rolledBack reached

theorem withUser_keeps {equivalence : PartialEquivalence State} {payload : Option Payload}
    {handler : Payload → String → Handler Response}
    (keeps : ∀ args username, payload = some args →
      currentUser deployment outside token = .ok username →
      equivalence.Keeps (handler args username)) :
    equivalence.Keeps (withUser deployment outside token payload handler) := by
  refine .bind_ofExcept fun username current => .bind_ofExcept fun args given => ?_
  cases payload with
  | none => cases given
  | some args =>
      cases given
      exact keeps args username rfl current

theorem limited_keeps {equivalence : PartialEquivalence State} {body : Handler Result}
    (keeps : equivalence.Keeps body) : equivalence.Keeps (limited outside body) :=
  .bind call_keeps fun _ => keeps

theorem withThreadOwner_between (session : SessionInvariant deployment between during)
    {payload : Option Payload} {handler : Payload → String → Handler Response}
    (keeps : ∀ payload username, sameOwnership.Keeps (handler payload username))
    (initially : between state.system.ownership) :
    between ((withThreadOwner deployment outside threadId token payload handler).exec
      state).2.system.ownership :=
  getDb_between session
    (.bind (requireThreadOwner_keeps session) fun _ => .bind (.ofExcept _) fun _ =>
      (keeps _ _).invariant during)
    initially

theorem runs_keep_ownership : IgnoresRuns sameOwnership threadId :=
  fun _ _ _ _ => rfl

theorem session_keeps_ownership : IgnoresSession sameOwnership :=
  fun _ _ _ => rfl

theorem handle_between (session : SessionInvariant deployment between during) {request : Request}
    (initially : between state.system.ownership) :
    between ((handle deployment outside request).exec state).2.system.ownership := by
  have unchanged {Result : Type} {body : Handler Result} (keeps : sameOwnership.Keeps body) :
      between (body.exec state).2.system.ownership :=
    (keeps.invariant between state ⟨initially, initially⟩).2
  obtain ⟨token, route⟩ := request
  cases route with
  | root => exact initially
  | health => exact initially
  | graph => exact unchanged (.bind call_keeps fun _ => .pure _)
  | graphPng =>
      exact unchanged (.tryCatch
        (.bind call_keeps fun _ => .bind call_keeps fun _ => .pure _) fun _ => .throw _)
  | docs path => exact initially
  | smoke payload =>
      exact unchanged (.bind (.ofExcept _) fun _ => runSmokeTest_keeps runs_keep_ownership)
  | token form => exact unchanged (.bind (.ofExcept _) fun _ => .ofExcept _)
  | run payload =>
      refine getDb_between session (Keeps.invariant ?_ during) initially
      exact withUser_keeps fun _ _ _ _ =>
        limited_keeps (runAgent_keeps runs_keep_ownership session_keeps_ownership)
  | runStream payload =>
      refine getDbStreaming_between session (Keeps.invariant ?_ during) initially
      exact .bind (.ofExcept _) fun _ => .bind (.ofExcept _) fun _ =>
        limited_keeps (runAgentStream_keeps runs_keep_ownership session_keeps_ownership)
  | ask query =>
      refine getDb_between session (Keeps.invariant ?_ during) initially
      refine withUser_keeps fun query username _ _ =>
        limited_keeps (ask_keeps runs_keep_ownership ?_)
      intro response state _
      unfold setCached
      rw [Effect.exec_write]
      dsimp only
      split <;> rfl
  | analyze ticker =>
      exact unchanged (withUser_keeps fun _ _ _ _ => analyzeInvestment_keeps runs_keep_ownership)
  | research payload =>
      exact unchanged (withUser_keeps fun _ _ _ _ => runResearch_keeps fun _ _ _ => rfl)
  | conversation conversationId =>
      exact unchanged (withUser_keeps fun _ _ _ _ => getConversation_keeps)
  | history threadId limit =>
      exact withThreadOwner_between session (fun _ _ => threadHistory_keeps) initially
  | resume threadId =>
      exact withThreadOwner_between session (fun _ _ => resumeThread_keeps runs_keep_ownership)
        initially
  | fork threadId query =>
      exact withThreadOwner_between session (fun _ _ => forkThread_keeps runs_keep_ownership)
        initially
  | edit threadId query =>
      exact withThreadOwner_between session
        (fun _ _ => editThreadCheckpoint_keeps runs_keep_ownership) initially
  | branches threadId limit =>
      exact withThreadOwner_between session (fun _ _ => threadBranches_keeps) initially
  | remember threadId text =>
      exact withThreadOwner_between session
        (fun _ _ => rememberThreadFact_keeps fun _ _ _ => rfl) initially
  | searchMemory query =>
      refine getDb_between session (Keeps.invariant ?_ during) initially
      exact withUser_keeps fun _ _ _ _ => searchMemory_keeps
  | gc =>
      exact unchanged (withUser_keeps fun _ _ _ _ => .bind call_keeps fun _ =>
        .bind call_keeps fun _ => .bind (.write fun _ => rfl) fun _ => .pure _)
  | gcStats =>
      exact unchanged (withUser_keeps fun _ _ _ _ => .bind call_keeps fun _ =>
        .bind call_keeps fun _ => .pure _)

theorem serve_between (session : SessionInvariant deployment between during) {system : System}
    (exchange : Exchange) (initially : between system.ownership) :
    between (exchange.serve deployment system).system.ownership := by
  have start : between ({ system := system } : State).system.ownership := initially
  exact handle_between session start

theorem reached_between (session : SessionInvariant deployment between during) {first : System}
    (history : List Exchange) (initially : between first.ownership) :
    between (reached deployment first history).ownership := by
  induction history generalizing first with
  | nil => exact initially
  | cons exchange history ih => exact ih (serve_between session exchange initially)

/-! ## Settled tables and committed rows -/

theorem settledSession : SessionInvariant deployment UniqueKeyTable.Settled
    (UniqueKeyTable.OnlyWriter transaction) where
  opened := UniqueKeyTable.Settled.onlyWriter
  claimed := Ownership.onlyWriter_claimOrCheck
  committed := UniqueKeyTable.OnlyWriter.settled_commit
  rolledBack := UniqueKeyTable.OnlyWriter.settled_rollback

theorem committedSession : SessionInvariant deployment
    (fun table => table.committed threadId = some username)
    (fun table => table.committed threadId = some username) where
  opened := id
  claimed := Ownership.committed_claimOrCheck
  committed := UniqueKeyTable.committed_commit
  rolledBack present := UniqueKeyTable.committed_rollback.trans present

end

end AgenticEnterprise.Api
