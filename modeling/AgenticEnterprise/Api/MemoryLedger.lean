import AgenticEnterprise.Api.Writes
import Mathlib.Data.List.Forall2
import Mathlib.Data.List.Induction

/-! Where the facts of the semantic memory come from, and whose facts a search shows.

A fact is kept at once and the claim on its thread with the session, so a search may
show what somebody else has remembered on a thread before losing the claim on it. -/

set_option autoImplicit false

namespace AgenticEnterprise.Api.MemoryLedger

open Core Library Memory Graph Ownership

/-- The client has got the identifier of the fact, and the session is committed. -/
structure Concluded (deployment : Deployment) (system : System) (exchange : Exchange)
    (threadId : String) : Prop where
  answered : (exchange.serve deployment system).response =
    { body := .remembered exchange.outside.pointId threadId }
  commits : exchange.outside.fault .commit = none

/-- The request has stored the text on the thread, as the last point. -/
structure Stores (deployment : Deployment) (system : System) (exchange : Exchange)
    (username threadId text : String) (point : VectorStore.Point) : Prop where
  route : exchange.request.route = .remember threadId (some text)
  called : exchange.caller deployment = some username
  embedded : exchange.outside.embedder text = .ok point.vector
  id : point.id = exchange.outside.pointId
  payload : point.payload = VectorStore.rememberedPayload threadId text []
  points : (exchange.serve deployment system).system.memory.points =
    system.memory.points ++ [point]
  claim : ∃ claimed,
    Ownership.claimOrCheck deployment.settings transaction system.ownership threadId username =
      some (true, claimed) ∧
    (Concluded deployment system exchange threadId →
      (exchange.serve deployment system).system.ownership = claimed.commit transaction)

section

variable {deployment : Deployment} {outside : Outside} {threadId username text : String}
  {token : Option String} {state after : State} {system next : System} {write : Write}
  {exchange : Exchange} {point : VectorStore.Point}

/-! ## One request -/

theorem memory_of_written (written : Written deployment outside system write next)
    (other : ∀ threadId text, write ≠ .remember threadId text) : next.memory = system.memory := by
  cases write with
  | remember threadId text => exact absurd rfl (other threadId text)
  | edit threadId query =>
      obtain ⟨edited, _, rfl⟩ := map_eq_ok_iff.mp written
      rfl
  | run | research | cache | session | sweep =>
      cases written
      rfl

theorem serve_memory_same
    (other : ∀ threadId text, exchange.request.route ≠ .remember threadId (some text)) :
    (exchange.serve deployment system).system.memory = system.memory := by
  obtain ⟨writes, allowed, run⟩ := serve_writes deployment system exchange
  refine @Runs.invariant_of_labels _ _ _ (fun state : System => state.memory = system.memory) _
    (fun same permitted taken => ?_) _ _ _ run allowed rfl
  refine (memory_of_written taken fun threadId text named => ?_).trans same
  subst named
  cases permitted with
  | user _ permits =>
      generalize route : exchange.request.route = named at permits
      cases permits
      exact other _ _ route

theorem rememberThreadFact_memory :
    let ran := (rememberThreadFact outside threadId text).exec state
    ran.2.system.memory = state.system.memory ∨
      VectorStore.remember outside.embedder outside.pointId state.system.memory threadId text [] =
        .ok ran.2.system.memory := by
  simp only [rememberThreadFact, Effect.exec_bind, call, Effect.exec_ofExcept, Effect.exec_read,
    setMemory, Effect.exec_write]
  cases outside.fault .vectorStore with
  | some failure => exact .inl rfl
  | none =>
      cases remembered : VectorStore.remember outside.embedder outside.pointId state.system.memory
        threadId text [] with
      | error failure => exact .inl (by simp [remembered])
      | ok written =>
          right
          simp only [remembered]
          cases outside.fault .vectorStoreReply <;> rfl

theorem memory_commit : (state.commit outside).system.memory = state.system.memory := by
  unfold State.commit
  split <;> rfl

theorem ownership_of_concluded {claimed : ThreadOwnership}
    (handled : handle deployment exchange.outside exchange.request =
      withThreadOwner deployment exchange.outside threadId exchange.request.token (some text)
        fun text _ => rememberThreadFact exchange.outside threadId text)
    (called : currentUser deployment exchange.outside exchange.request.token = .ok username)
    (executed : Ownership.claimOrCheck deployment.settings transaction system.ownership threadId
      username = some (true, claimed))
    (concluded : Concluded deployment system exchange threadId) :
    (exchange.serve deployment system).system.ownership = claimed.commit transaction := by
  obtain ⟨answered, commits⟩ := concluded
  unfold Exchange.serve serve at answered ⊢
  rw [handled] at answered ⊢
  generalize ran : (withThreadOwner deployment exchange.outside threadId exchange.request.token
    (some text) fun text _ => rememberThreadFact exchange.outside threadId text).exec _ = ended
    at answered ⊢
  obtain ⟨failure | response, after⟩ := ended
  · cases failure <;> cases answered
  · obtain ⟨other, args, table, reached, accepted, _, claiming, completed, rfl⟩ :=
      withThreadOwner_ok ran
    cases called.symm.trans accepted
    cases executed.symm.trans claiming
    have kept : claimed = ((rememberThreadFact exchange.outside threadId args).exec
        (State.withOwnership claimed { system := system })).2.system.ownership :=
      @rememberThreadFact_keeps sameOwnership exchange.outside threadId args
        (fun _ _ _ => rfl) (State.withOwnership claimed { system := system }) rfl
    rw [completed] at kept
    simp only [State.commit, commits]
    rw [kept]

/-- A request leaves the memory as it was or stores one fact. -/
theorem serve_memory :
    (exchange.serve deployment system).system.memory.points = system.memory.points ∨
      ∃ username threadId text point,
        Stores deployment system exchange username threadId text point := by
  by_cases remembers : ∃ threadId text, exchange.request.route = .remember threadId (some text)
  · obtain ⟨threadId, text, route⟩ := remembers
    have handled : handle deployment exchange.outside exchange.request =
        withThreadOwner deployment exchange.outside threadId exchange.request.token (some text)
          fun text _ => rememberThreadFact exchange.outside threadId text := by
      simp only [handle, route]
    have served : (exchange.serve deployment system).system =
        ((withThreadOwner deployment exchange.outside threadId exchange.request.token (some text)
          fun text _ => rememberThreadFact exchange.outside threadId text).exec
            { system := system }).2.system := by
      rw [← handled]
      rfl
    rcases @withThreadOwner_cases deployment exchange.outside threadId exchange.request.token
      { system := system } _ (some text)
      (fun text _ => rememberThreadFact exchange.outside threadId text) with
      same | ⟨username, args, claimed, called, given, executed, ended⟩
    · left
      rw [served]
      exact congrArg (fun stores => VectorStore.Store.points stores.2.2) same.symm
    · cases given
      have memory := @rememberThreadFact_memory exchange.outside threadId text
        (State.withOwnership claimed { system := system })
      have left : (exchange.serve deployment system).system.memory =
          ((rememberThreadFact exchange.outside threadId text).exec
            (State.withOwnership claimed { system := system })).2.system.memory := by
        rw [served, ended]
        rcases (rememberThreadFact exchange.outside threadId text).exec
          (State.withOwnership claimed { system := system }) with ⟨failure | response, after⟩
        · rfl
        · exact memory_commit
      rcases memory with same | remembered
      · exact .inl (by rw [left, same]; rfl)
      · obtain ⟨vector, embedded, added⟩ := VectorStore.remember_points remembered
        refine .inr ⟨username, threadId, text, ⟨exchange.outside.pointId, vector,
          VectorStore.rememberedPayload threadId text []⟩, route,
          Exchange.caller_eq_some_iff.mpr called, embedded, rfl, rfl, ?_, claimed, executed,
          fun concluded => ?_⟩
        · rw [left, added]
          rfl
        · exact ownership_of_concluded handled called executed concluded
  · left
    rw [serve_memory_same fun threadId text route => remembers ⟨threadId, text, route⟩]

/-- Unless its claim is lost, who stores a fact owns the thread or is the admin. -/
theorem Stores.owner (stores : Stores deployment system exchange username threadId text point)
    (concluded : Concluded deployment system exchange threadId)
    (ordinary : isAdmin deployment.settings username = false) :
    (exchange.serve deployment system).system.ownership.committed threadId = some username := by
  obtain ⟨claimed, executed, committed⟩ := stores.claim
  rw [committed concluded]
  rcases claimOrCheck_cases executed with
    ⟨admin, _⟩ | ⟨_, rfl, owner, seen, decided⟩ | ⟨_, _, _, added, _⟩
  · rw [ordinary] at admin
    cases admin
  · obtain rfl : owner = username := by simpa using decided.symm
    exact UniqueKeyTable.committed_commit_of_visible seen
  · exact UniqueKeyTable.committed_commit_of_visible
      (UniqueKeyTable.visible_eq_some_iff.mpr (.inr added))

end

/-! ## Histories -/

/-- The request of the history that has stored the fact, and who made it. -/
structure Source (deployment : Deployment) (first : System) (history : List Exchange)
    (writer threadId text : String) (point : VectorStore.Point) where
  front : List Exchange
  exchange : Exchange
  back : List Exchange
  split : history = front ++ exchange :: back
  stores : Stores deployment (reached deployment first front) exchange writer threadId text point

section

variable {deployment : Deployment} {first : System} {history : List Exchange}
  {exchange : Exchange}

/-- Every fact has been stored by a request of its own, at its place in the order. -/
def Ledger (deployment : Deployment) (first : System) (history : List Exchange) : Prop :=
  ∀ index point, (reached deployment first history).memory.points[index]? = some point →
    ∃ writer threadId text, ∃ source : Source deployment first history writer threadId text point,
      (reached deployment first source.front).memory.points.length = index

theorem ledger (empty : first.memory = none) : Ledger deployment first history := by
  induction history using List.reverseRecOn with
  | nil =>
      intro index point found
      simp [reached, empty, VectorStore.Store.points] at found
  | append_singleton history exchange ih =>
      have concat : reached deployment first (history ++ [exchange]) =
          (exchange.serve deployment (reached deployment first history)).system := reached_append
      have earlier (index : Nat) (point : VectorStore.Point)
          (found : (reached deployment first history).memory.points[index]? = some point) :
          ∃ writer threadId text,
            ∃ source : Source deployment first (history ++ [exchange]) writer threadId text point,
              (reached deployment first source.front).memory.points.length = index := by
        obtain ⟨writer, threadId, text, ⟨front, own, back, rfl, stores⟩, place⟩ :=
          ih index point found
        exact ⟨writer, threadId, text, ⟨front, own, back ++ [exchange], by simp, stores⟩, place⟩
      intro index point found
      rw [concat] at found
      rcases @serve_memory deployment (reached deployment first history) exchange with
        same | ⟨writer, threadId, text, added, stores⟩
      · rw [same] at found
        exact earlier index point found
      · rw [stores.points] at found
        by_cases old : index < (reached deployment first history).memory.points.length
        · rw [List.getElem?_append_left old] at found
          exact earlier index point found
        · have beyond := Nat.le_of_not_lt old
          rw [List.getElem?_append_right beyond, List.getElem?_singleton] at found
          split at found
          · rename_i last
            cases found
            exact ⟨writer, threadId, text, ⟨history, exchange, [], rfl, stores⟩,
              Nat.le_antisymm beyond (Nat.le_of_sub_eq_zero last)⟩
          · cases found

theorem ids_sublist (empty : first.memory = none) :
    ((reached deployment first history).memory.points.map VectorStore.Point.id).Sublist
      (history.map fun exchange => exchange.outside.pointId) := by
  induction history using List.reverseRecOn with
  | nil => simp [reached, empty, VectorStore.Store.points]
  | append_singleton history exchange ih =>
      have concat : reached deployment first (history ++ [exchange]) =
          (exchange.serve deployment (reached deployment first history)).system := reached_append
      rw [concat, List.map_append]
      rcases @serve_memory deployment (reached deployment first history) exchange with
        same | ⟨writer, threadId, text, added, stores⟩
      · rw [same]
        exact ih.trans (List.sublist_append_left _ _)
      · rw [stores.points, List.map_append, List.map_singleton, stores.id]
        exact ih.append (List.Sublist.refl _)

/-! ## What a search shows -/

theorem forall₂_of_mapM {Failure First Second : Type} {step : First → Except Failure Second}
    {list : List First} {results : List Second} (ran : list.mapM step = .ok results) :
    List.Forall₂ (fun element result => step element = .ok result) list results := by
  induction list generalizing results with
  | nil =>
      cases ran
      exact .nil
  | cons element list ih =>
      rw [List.mapM_cons] at ran
      obtain ⟨result, here, rest⟩ := bind_eq_ok_iff.mp ran
      obtain ⟨others, there, same⟩ := bind_eq_ok_iff.mp rest
      cases same
      exact .cons here (ih there)

theorem searchMemory_ok {outside : Outside} {username query : String} {limit : Int}
    {state after : State} {response : Response}
    (ordinary : isAdmin deployment.settings username = false)
    (ran : (searchMemory deployment outside query limit username).exec state =
      (.ok response, after)) :
    ∃ vector hits, outside.embedder query = .ok vector ∧
      response = { body := .hits query hits } ∧
      List.Forall₂ (fun point hit => memoryHit ⟨outside.ranking.score vector point,
          point.payload.get "text", point.payload.get "thread_id"⟩ = .ok hit)
        (outside.ranking.top vector limit.toNat (state.system.memory.points.filter
          (VectorStore.matchAny (ownedThreadIds transaction state.system.ownership username))))
        hits := by
  unfold searchMemory searchedThreads at ran
  simp only [ordinary, Bool.false_eq_true, ↓reduceIte] at ran
  obtain ⟨allowed, first, limits, reading⟩ := Effect.exec_bind_ok ran
  obtain ⟨_, second, asked, listed⟩ := Effect.exec_bind_ok limits
  obtain ⟨_, third, reached, looking⟩ := Effect.exec_bind_ok reading
  obtain ⟨store, fourth, looked, searching⟩ := Effect.exec_bind_ok looking
  obtain ⟨hits, fifth, searched, showing⟩ := Effect.exec_bind_ok searching
  obtain ⟨shown, sixth, read, ended⟩ := Effect.exec_bind_ok showing
  obtain rfl := (Effect.exec_ofExcept_ok asked).2
  cases listed
  obtain rfl := (Effect.exec_ofExcept_ok reached).2
  cases looked
  obtain ⟨found, rfl⟩ := Effect.exec_ofExcept_ok searched
  obtain ⟨valid, rfl⟩ := Effect.exec_ofExcept_ok read
  cases ended
  obtain ⟨vector, embedded, rfl⟩ := VectorStore.search_ok found
  exact ⟨vector, shown, embedded, rfl, List.forall₂_map_left_iff.mp (forall₂_of_mapM valid)⟩

end

/-- The fact is shown with the text that was remembered. It is the user's own or the
admin's, unless the claim of its writer is lost. -/
def Explains (deployment : Deployment) (first : System) (history : List Exchange)
    (username : String) (point : VectorStore.Point) (hit : MemoryHit) : Prop :=
  ∃ writer threadId, ∃ source : Source deployment first history writer threadId hit.text point,
    hit.threadId = some threadId ∧
    (reached deployment first history).ownership.committed threadId = some username ∧
    (writer = username ∨ isAdmin deployment.settings writer = true ∨
      ¬Concluded deployment (reached deployment first source.front) source.exchange threadId)

section

variable {deployment : Deployment} {first : System} {history : List Exchange}
  {username : String} {point : VectorStore.Point} {hit : MemoryHit}

theorem committed_of_owned {table : ThreadOwnership} {threadId : String}
    (settled : table.Settled) (owned : threadId ∈ ownedThreadIds transaction table username) :
    table.committed threadId = some username := by
  have seen := mem_ownedThreadIds.mp owned
  rcases UniqueKeyTable.visible_eq_some_iff.mp seen with found | found
  · exact UniqueKeyTable.committed_eq_some_iff.mpr found
  · have closed := settled _ (UniqueKeyTable.find?_eq_some_iff.mp found).1
    cases closed

theorem explains_of_owned (empty : first.memory = none) (settled : first.ownership.Settled)
    (member : point ∈ (reached deployment first history).memory.points)
    (owned : VectorStore.matchAny
      (ownedThreadIds transaction (reached deployment first history).ownership username) point =
        true)
    {score : Rat} (shown : memoryHit ⟨score, point.payload.get "text",
      point.payload.get "thread_id"⟩ = .ok hit) :
    hit.score = score ∧ Explains deployment first history username point hit := by
  obtain ⟨index, found⟩ := List.mem_iff_getElem?.mp member
  obtain ⟨writer, threadId, text, source, _⟩ := ledger empty index point found
  have named : point.payload.get "text" = some text := by
    rw [source.stores.payload]
    rfl
  have keyed : point.payload.get "thread_id" = some threadId := by
    rw [source.stores.payload]
    rfl
  rw [named, keyed] at shown
  cases shown
  have listed : threadId ∈
      ownedThreadIds transaction (reached deployment first history).ownership username := by
    simpa [VectorStore.matchAny, keyed, VectorStore.PayloadValue.keywords] using owned
  have committed := committed_of_owned (reached_between settledSession history settled) listed
  refine ⟨rfl, writer, threadId, source, rfl, committed, ?_⟩
  by_cases concluded : Concluded deployment (reached deployment first source.front)
    source.exchange threadId
  · cases ordinary : isAdmin deployment.settings writer with
    | true => exact .inr (.inl rfl)
    | false =>
        have claimed := source.stores.owner concluded ordinary
        have lasting : (reached deployment first history).ownership.committed threadId =
            some writer := by
          rw [source.split, reached_append]
          exact reached_between committedSession source.back claimed
        rw [lasting] at committed
        exact .inl (Option.some.inj committed)
  · exact .inr (.inr concluded)

end

/-- The hits of a user are the best facts on its threads, and each of them has been
remembered there. -/
theorem hits_explained (deployment : Deployment) (first : System) (history : List Exchange)
    (reader : Exchange) (username query : String) (limit : Int) (hits : List MemoryHit)
    (empty : first.memory = none) (settled : first.ownership.Settled)
    (fresh : (history.map fun exchange => exchange.outside.pointId).Nodup)
    (called : reader.caller deployment = some username)
    (ordinary : isAdmin deployment.settings username = false)
    (reads : reader.request.route = .searchMemory (some (query, limit)))
    (shown : (reader.serve deployment (reached deployment first history)).response =
      { body := .hits query hits }) :
    ∃ vector chosen, reader.outside.embedder query = .ok vector ∧
      reader.outside.ranking.Best vector limit.toNat
        ((reached deployment first history).memory.points.filter (VectorStore.matchAny
          (ownedThreadIds transaction (reached deployment first history).ownership username)))
        chosen ∧
      List.Forall₂ (fun point hit => hit.score = reader.outside.ranking.score vector point ∧
        Explains deployment first history username point hit) chosen hits := by
  unfold Exchange.serve serve at shown
  simp only [handle, reads] at shown
  generalize served : (getDb reader.outside _).exec _ = ended at shown
  obtain ⟨failure | returned, after⟩ := ended
  · cases failure <;> cases shown
  · obtain rfl : returned = { body := .hits query hits } := shown
    obtain ⟨middle, inner, rfl⟩ := getDb_ok served
    obtain ⟨other, args, accepted, valid, handled⟩ := withUser_ok inner
    cases valid
    cases (Exchange.caller_eq_some_iff.mp called).symm.trans accepted
    obtain ⟨vector, listed, embedded, same, paired⟩ := searchMemory_ok ordinary handled
    cases same
    have distinct := (@ids_sublist deployment first history empty).nodup fresh
    refine ⟨vector, _, embedded, Ranking.best_top (distinct.of_map.filter _), ?_⟩
    have own (point : VectorStore.Point) (top : point ∈ reader.outside.ranking.top vector
        limit.toNat ((reached deployment first history).memory.points.filter
          (VectorStore.matchAny (ownedThreadIds transaction
            (reached deployment first history).ownership username)))) :=
      List.mem_filter.mp (Ranking.mem_of_mem_top top)
    refine ((List.forall₂_and_left _ _).mpr ⟨own, paired⟩).imp fun point hit both => ?_
    obtain ⟨⟨member, owned⟩, valid⟩ := both
    exact explains_of_owned empty settled member owned valid

/-! ## A claim that is lost -/

def answering : Outside :=
  undisturbed ⟨"", []⟩ ⟨"", []⟩

/-- The commit fails, so the fact stays and the claim does not. -/
def bobRemembers : Exchange where
  request := { token := some "bob", route := .remember "notes" (some "a fact") }
  outside :=
    { answering with
      pointId := 1
      fault := fun place => if place = .commit then some (.external "postgres") else none }

def carolAsks (route : Route) : Exchange where
  request := { token := some "carol", route := route }
  outside := answering

def threeUsers : Deployment :=
  { twoUsers with users := twoUsers.users ++ [⟨"carol", "third"⟩] }

def claimedLater : List Exchange :=
  [bobRemembers, carolAsks (.history "notes" (some 50))]

theorem claimedLater_points :
    (reached threeUsers {} claimedLater).memory.points.filter (VectorStore.matchAny
      (ownedThreadIds transaction (reached threeUsers {} claimedLater).ownership "carol")) =
        [⟨1, [], [("text", "a fact"), ("thread_id", "notes")]⟩] := by decide

theorem claimedLater_shown :
    ((carolAsks (.searchMemory (some ("", 5)))).serve threeUsers
        (reached threeUsers {} claimedLater)).response =
      { body := .hits "" [⟨0, "a fact", some "notes"⟩] } := by
  have called : currentUser threeUsers answering (some "carol") = .ok "carol" := by decide
  have ordinary : isAdmin threeUsers.settings "carol" = false := by decide
  have reachable (place : Call) : answering.fault place = none := rfl
  have embedded : answering.embedder "" = .ok [] := rfl
  have top := @Ranking.top_singleton _ _ _ answering.ranking [] (Int.toNat 5)
    ⟨1, [], [("text", "a fact"), ("thread_id", "notes")]⟩ (by decide)
  simp only [Exchange.serve, serve, handle, carolAsks, getDb_exec, withUser_exec called,
    searchMemory, searchedThreads, ordinary, Effect.exec_bind, call_exec (reachable _),
    Bool.false_eq_true, ↓reduceIte, Effect.exec_read, Effect.exec_pure, Effect.exec_ofExcept,
    VectorStore.search_eq_best _ (show (1 : Int) ≤ 5 by decide), embedded, claimedLater_points,
    Except.map, VectorStore.bestHits, top]
  rfl

/-- Bob has lost his claim on the thread, and Carol is shown his fact. -/
theorem lost_claim_shown :
    ∃ vector chosen, answering.embedder "" = .ok vector ∧
      answering.ranking.Best vector 5
        ((reached threeUsers {} claimedLater).memory.points.filter (VectorStore.matchAny
          (ownedThreadIds transaction (reached threeUsers {} claimedLater).ownership "carol")))
        chosen ∧
      List.Forall₂ (fun point hit => hit.score = answering.ranking.score vector point ∧
          Explains threeUsers {} claimedLater "carol" point hit)
        chosen [⟨0, "a fact", some "notes"⟩] :=
  hits_explained threeUsers {} claimedLater (carolAsks (.searchMemory (some ("", 5)))) "carol" ""
    5 _ rfl (fun _ member => by cases member) (by decide) rfl (by decide) rfl claimedLater_shown

end AgenticEnterprise.Api.MemoryLedger
