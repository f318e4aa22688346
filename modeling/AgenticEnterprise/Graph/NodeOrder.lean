import AgenticEnterprise.Graph.Turns

/-! The order of the nodes in a turn, and the route and the facts its workers see.

A turn goes through the router and the memory retriever to the worker its text is
classified for, and never back. -/

set_option autoImplicit false

namespace AgenticEnterprise.Graph.NodeOrder

open Core Library Engine Threads Turns

/-! ## The nodes of a turn -/

def loop (body : List Node) (rounds : Nat) : List Node :=
  (List.replicate rounds body).flatten

theorem loop_succ (body : List Node) (rounds : Nat) :
    loop body (rounds + 1) = loop body rounds ++ body := by
  simp [loop, List.replicate_succ']

/-- Agent and tools take turns until the agent has the last word, and a draft is
graded every time. -/
def workerNodes (route : Route) (rounds : Nat) : List Node :=
  match route with
  | .technical => loop [.agent, .tools] rounds ++ [.agent]
  | .billing => [.billing]
  | .general => loop [.general, .critic] (rounds + 1)
  | .investment => [.fetchMetrics, .formatReport]

def turnNodes (route : Route) (rounds : Nat) : List Node :=
  .router :: .memoryRetriever :: workerNodes route rounds

/-- The workers so far, and the node behind them. -/
inductive Working : Route → List Node → Option Node → Prop where
  | agent {rounds} : Working .technical (loop [.agent, .tools] rounds) (some .agent)
  | tools {rounds} : Working .technical (loop [.agent, .tools] rounds ++ [.agent]) (some .tools)
  | billing : Working .billing [] (some .billing)
  | general {rounds} : Working .general (loop [.general, .critic] rounds) (some .general)
  | critic {rounds} :
      Working .general (loop [.general, .critic] rounds ++ [.general]) (some .critic)
  | fetchMetrics : Working .investment [] (some .fetchMetrics)
  | formatReport : Working .investment [.fetchMetrics] (some .formatReport)
  | ended {route rounds} : Working route (workerNodes route rounds) none

section

variable {route : Route} {nodes : List Node} {node : Node} {target : Option Node}
  {environment : Environment} {values : GraphState} {update : Update}

theorem Working.advance (working : Working route nodes (some node))
    (decided : nextNode (values.apply update) node = .ok target) :
    Working route (nodes ++ [node]) target := by
  cases working with
  | agent =>
      rw [nextNode] at decided
      rcases toolsCondition_cases decided with rfl | rfl
      · exact .ended
      · exact .tools
  | @tools rounds =>
      cases decided
      have closed : Working .technical (loop [.agent, .tools] (rounds + 1)) (some .agent) := .agent
      simpa [loop_succ] using closed
  | billing =>
      cases decided
      exact @Working.ended .billing 0
  | general =>
      cases decided
      exact .critic
  | @critic rounds =>
      rw [nextNode] at decided
      have graded : loop [.general, .critic] rounds ++ [.general] ++ [.critic] =
          loop [.general, .critic] (rounds + 1) := by
        simp [loop_succ]
      rw [graded]
      rcases afterCritic_cases decided with ⟨rfl, _⟩ | ⟨rfl, _⟩
      · exact @Working.ended .general rounds
      · exact .general
  | fetchMetrics =>
      cases decided
      exact .formatReport
  | formatReport =>
      cases decided
      exact @Working.ended .investment 0

theorem Working.isPrefix (working : Working route nodes target) :
    ∃ rounds, nodes <+: workerNodes route rounds := by
  cases working with
  | @agent rounds => exact ⟨rounds, List.prefix_append _ _⟩
  | @tools rounds => exact ⟨rounds, List.prefix_rfl⟩
  | billing => exact ⟨0, List.nil_prefix⟩
  | @general rounds =>
      refine ⟨rounds, ?_⟩
      rw [workerNodes, loop_succ]
      exact List.prefix_append _ _
  | @critic rounds =>
      refine ⟨rounds, [.critic], ?_⟩
      simp [workerNodes, loop_succ]
  | fetchMetrics => exact ⟨0, List.nil_prefix⟩
  | formatReport => exact ⟨0, [.formatReport], rfl⟩
  | @ended _ rounds => exact ⟨rounds, List.prefix_rfl⟩

theorem Working.atEnd (working : Working route nodes none) :
    ∃ rounds, nodes = workerNodes route rounds := by
  cases working with
  | ended => exact ⟨_, rfl⟩

theorem count_turnNodes {rounds : Nat} :
    (turnNodes route rounds).count .memoryRetriever = 1 := by
  cases route <;> simp [turnNodes, workerNodes, loop, List.count_flatten]

end

/-- The worker a route is dispatched to. -/
def firstWorker : Route → Node
  | .technical => .agent
  | .billing => .billing
  | .general => .general
  | .investment => .fetchMetrics

theorem afterMemoryRetriever_eq {state : GraphState} {route : Route}
    (routed : state.routeTo = some route) : afterMemoryRetriever state = firstWorker route := by
  rw [afterMemoryRetriever, routed]
  cases route <;> rfl

/-! ## The invariant of a turn -/

/-- The visit executes a node that returns the update. -/
def Writes (visit : Visit) (node : Node) (update : Update) : Prop :=
  visit.node = some node ∧ (runNode visit.environment visit.values node).update = .ok update

/-- What a worker reads is what the turn's router and retriever wrote. -/
def Sees (text : String) (context : List String) (values : GraphState) : Prop :=
  values.routeTo = some (classify text) ∧ values.retrievedContext = some context

inductive Progress (text : String) : List Visit → Checkpoint → Prop where
  | input {values} : Progress text [] ⟨values, some (.input [.human text])⟩
  | router {entry values} :
      entry.node = none →
      values.messages.getLast? = some (.human text) →
      Progress text [entry] ⟨values, some (.node .router)⟩
  | retriever {entry routing routed values} :
      entry.node = none →
      Writes routing .router routed → routed.routeTo = some (classify text) →
      values.routeTo = some (classify text) →
      Progress text [entry, routing] ⟨values, some (.node .memoryRetriever)⟩
  | working {entry routing routed retrieval retrieved context workers values target} :
      entry.node = none →
      Writes routing .router routed → routed.routeTo = some (classify text) →
      Writes retrieval .memoryRetriever retrieved → retrieved.retrievedContext = some context →
      (∀ worker ∈ workers, Sees text context worker.values) →
      Sees text context values →
      Working (classify text) (executed workers) target →
      Progress text (entry :: routing :: retrieval :: workers) ⟨values, target.map .node⟩

section

variable {text : String} {visited : List Visit} {visit : Visit} {before after : Checkpoint}

theorem written_of_move {node : Node} (moved : Move before visit after)
    (pending : before.next = some (.node node)) :
    ∃ update target, Writes visit node update ∧
      nextNode (visit.values.apply update) node = .ok target ∧
      after = ⟨visit.values.apply update, target.map .node⟩ := by
  obtain ⟨rfl, succeeded⟩ := moved
  obtain ⟨environment, values, _⟩ := visit
  cases pending
  obtain ⟨update, written, rest⟩ := bind_eq_ok_iff.mp succeeded
  obtain ⟨target, decided, rest⟩ := bind_eq_ok_iff.mp rest
  cases rest
  exact ⟨update, target, ⟨rfl, written⟩, decided, rfl⟩

theorem Writes.effect {node : Node} {update : Update} (written : Writes visit node update) :
    NodeEffect visit.environment visit.values node update :=
  nodeEffect_of_update written.2

theorem Working.isWorker {route : Route} {nodes : List Node} {node : Node}
    (working : Working route nodes (some node)) : node ≠ .router ∧ node ≠ .memoryRetriever := by
  cases working <;> simp

/-- No worker writes the route or the facts. -/
theorem Sees.apply {environment : Environment} {values : GraphState} {node : Node}
    {update : Update} {context : List String} (sees : Sees text context values)
    (effect : NodeEffect environment values node update)
    (worker : node ≠ .router ∧ node ≠ .memoryRetriever) :
    Sees text context (values.apply update) := by
  cases effect with
  | router => exact absurd rfl worker.1
  | memoryRetriever => exact absurd rfl worker.2
  | agent | tools | billing | general | critic | fetchMetrics | formatReport => exact sees

theorem Progress.step (progress : Progress text visited before)
    (moved : Move before visit after) : Progress text (visited ++ [visit]) after := by
  obtain ⟨environment, read, pending⟩ := visit
  cases progress with
  | input =>
      obtain ⟨same, succeeded⟩ := moved
      cases same
      cases succeeded
      exact .router rfl (by simp [GraphState.apply])
  | router entered isText =>
      obtain ⟨update, target, written, decided, rfl⟩ := written_of_move moved rfl
      obtain ⟨same, _⟩ := moved
      cases same
      cases written.effect with
      | router last =>
          rw [isText] at last
          cases last
          cases decided
          exact .retriever entered written rfl rfl
  | retriever entered routed chosen route =>
      obtain ⟨update, target, written, decided, rfl⟩ := written_of_move moved rfl
      obtain ⟨same, _⟩ := moved
      cases same
      cases written.effect with
      | @memoryRetriever context =>
          have dispatched : Working (classify text) (executed [])
              (some (firstWorker (classify text))) := by
            cases classify text with
            | technical => exact @Working.agent 0
            | billing => exact .billing
            | general => exact @Working.general 0
            | investment => exact .fetchMetrics
          have sees : Sees text context (read.apply
              { retrievedContext := some context
                internalLogs := ["memory_retriever: fetched cross-thread context"] }) :=
            ⟨route, rfl⟩
          have unread (worker : Visit) (member : worker ∈ []) :
              Sees text context worker.values := by cases member
          rw [nextNode, afterMemoryRetriever_eq sees.1] at decided
          cases decided
          exact .working entered routed chosen written rfl unread sees dispatched
  | @working _ _ _ _ _ context workers values target entered routed chosen retrieved found seen sees
      working =>
      cases target with
      | none =>
          obtain ⟨same, _⟩ := moved
          cases same
      | some node =>
          obtain ⟨update, target, written, decided, rfl⟩ := written_of_move moved rfl
          obtain ⟨same, _⟩ := moved
          cases same
          have done : executed (workers ++ [⟨environment, read, .node node⟩]) =
              executed workers ++ [node] := by
            simp [executed, Visit.node]
          refine .working entered routed chosen retrieved found ?_
            (sees.apply written.effect working.isWorker) (done ▸ working.advance decided)
          intro worker member
          rcases List.mem_append.mp member with earlier | here
          · exact seen worker earlier
          · obtain rfl := List.mem_singleton.mp here
            exact sees

end

/-! ## Every turn -/

/-- The order of the nodes, and what is read after the retrieval. -/
structure Disciplined (text : String) (visited : List Visit) : Prop where
  order : ∃ rounds, executed visited <+: turnNodes (classify text) rounds
  retrievedOnce : (executed visited).count .memoryRetriever ≤ 1
  routed : ∀ visit ∈ visited, visit.node = some .router →
    ∃ update, Writes visit .router update ∧ update.routeTo = some (classify text)
  scratch : ∀ earlier retrieval workers, visited = earlier ++ retrieval :: workers →
    retrieval.node = some .memoryRetriever →
    ∃ update context, Writes retrieval .memoryRetriever update ∧
      update.retrievedContext = some context ∧
      ∀ worker ∈ workers, Sees text context worker.values

/-- All nodes of a turn have been executed. -/
def Complete (text : String) (visited : List Visit) : Prop :=
  (∃ rounds, executed visited = turnNodes (classify text) rounds) ∧
    (executed visited).count .memoryRetriever = 1

section

variable {text : String} {visited : List Visit} {last : Checkpoint}

/-- A visit of the retriever splits the visits of a turn where it stands. -/
theorem split_at_retrieval {entry routing retrieval other : Visit}
    {earlier workers rest : List Visit} (entered : entry.node = none)
    (routed : routing.node = some .router)
    (others : ∀ worker ∈ workers, worker.node ≠ some .memoryRetriever)
    (split : entry :: routing :: retrieval :: workers = earlier ++ other :: rest)
    (isRetrieval : other.node = some .memoryRetriever) : retrieval = other ∧ workers = rest := by
  match earlier, split with
  | [], split =>
      cases split
      rw [entered] at isRetrieval
      cases isRetrieval
  | [_], split =>
      cases split
      rw [routed] at isRetrieval
      cases isRetrieval
  | [_, _], split =>
      cases split
      exact ⟨rfl, rfl⟩
  | _ :: _ :: _ :: earlier, split =>
      cases split
      exact absurd isRetrieval (others other (by simp))

theorem mem_loop {body : List Node} {rounds : Nat} {node : Node}
    (member : node ∈ loop body rounds) : node ∈ body := by
  obtain ⟨part, isPart, inside⟩ := List.mem_flatten.mp member
  exact (List.mem_replicate.mp isPart).2 ▸ inside

theorem mem_workerNodes {route : Route} {rounds : Nat} {node : Node}
    (member : node ∈ workerNodes route rounds) : node ≠ .router ∧ node ≠ .memoryRetriever := by
  cases route with
  | technical =>
      rcases List.mem_append.mp member with inLoop | last
      · have inBody := mem_loop inLoop
        constructor <;> rintro rfl <;> simp at inBody
      · constructor <;> rintro rfl <;> simp at last
  | general =>
      have inBody := mem_loop member
      constructor <;> rintro rfl <;> simp at inBody
  | billing | investment => constructor <;> rintro rfl <;> simp [workerNodes] at member

theorem Working.outside {route : Route} {workers : List Visit} {target : Option Node}
    (working : Working route (executed workers) target) {worker : Visit}
    (member : worker ∈ workers) :
    worker.node ≠ some .router ∧ worker.node ≠ some .memoryRetriever := by
  obtain ⟨rounds, isPrefix⟩ := working.isPrefix
  have inNodes {node : Node} (here : worker.node = some node) :
      node ∈ workerNodes route rounds :=
    isPrefix.subset (List.mem_filterMap.mpr ⟨worker, member, here⟩)
  exact ⟨fun here => (mem_workerNodes (inNodes here)).1 rfl,
    fun here => (mem_workerNodes (inNodes here)).2 rfl⟩

/-- A turn that has not retrieved yet. -/
theorem disciplined_of_unretrieved
    (order : executed visited <+: [.router])
    (routed : ∀ visit ∈ visited, visit.node = some .router →
      ∃ update, Writes visit .router update ∧ update.routeTo = some (classify text)) :
    Disciplined text visited := by
  have unretrieved : .memoryRetriever ∉ executed visited := fun inside => by
    simpa using order.subset inside
  refine ⟨⟨0, order.trans (List.prefix_append [Node.router] _)⟩, ?_, routed, ?_⟩
  · rw [List.count_eq_zero_of_not_mem unretrieved]
    exact Nat.zero_le 1
  · intro earlier retrieval workers split isRetrieval
    have member : retrieval ∈ visited := by simp [split]
    exact absurd (List.mem_filterMap.mpr ⟨retrieval, member, isRetrieval⟩) unretrieved

theorem Progress.disciplined (progress : Progress text visited last) :
    Disciplined text visited := by
  cases progress with
  | input => exact disciplined_of_unretrieved List.nil_prefix fun _ member => by cases member
  | @router entry _ entered _ =>
      have nodes : executed [entry] = [] := by simp [executed, entered]
      refine disciplined_of_unretrieved (nodes ▸ List.nil_prefix) ?_
      intro visit member isRouter
      obtain rfl := List.mem_singleton.mp member
      rw [entered] at isRouter
      cases isRouter
  | @retriever entry routing routed _ entered written chosen _ =>
      have nodes : executed [entry, routing] = [.router] := by
        simp [executed, entered, written.1]
      refine disciplined_of_unretrieved (nodes ▸ List.prefix_rfl) ?_
      intro visit member isRouter
      rcases List.mem_pair.mp member with rfl | rfl
      · rw [entered] at isRouter
        cases isRouter
      · exact ⟨routed, written, chosen⟩
  | @working entry routing routed retrieval retrieved context workers _ _ entered written chosen
      retrieving found seen _ working =>
      have nodes : executed (entry :: routing :: retrieval :: workers) =
          .router :: .memoryRetriever :: executed workers := by
        simp [executed, entered, written.1, retrieving.1]
      obtain ⟨rounds, isPrefix⟩ := working.isPrefix
      have order : executed (entry :: routing :: retrieval :: workers) <+:
          turnNodes (classify text) rounds := by
        rw [nodes, turnNodes, List.cons_prefix_cons, List.cons_prefix_cons]
        exact ⟨rfl, rfl, isPrefix⟩
      refine ⟨⟨rounds, order⟩, count_turnNodes ▸ order.sublist.count_le _, ?_, ?_⟩
      · intro visit member isRouter
        simp only [List.mem_cons] at member
        rcases member with rfl | rfl | rfl | worker
        · rw [entered] at isRouter
          cases isRouter
        · exact ⟨routed, written, chosen⟩
        · rw [retrieving.1] at isRouter
          cases isRouter
        · exact absurd isRouter (working.outside worker).1
      · intro earlier other rest split isRetrieval
        obtain ⟨rfl, rfl⟩ := split_at_retrieval entered written.1
          (fun worker member => (working.outside member).2) split isRetrieval
        exact ⟨retrieved, context, retrieving, found, seen⟩

theorem Progress.complete (progress : Progress text visited last) (ended : last.next = none) :
    Complete text visited := by
  cases progress with
  | input => cases ended
  | router => cases ended
  | retriever => cases ended
  | @working entry routing _ retrieval _ _ workers _ target entered written _ retrieving _ _ _
      working =>
      obtain rfl : target = none := Option.map_eq_none_iff.mp ended
      obtain ⟨rounds, done⟩ := working.atEnd
      have nodes : executed (entry :: routing :: retrieval :: workers) =
          turnNodes (classify text) rounds := by
        rw [turnNodes, ← done]
        simp [executed, entered, written.1, retrieving.1]
      exact ⟨⟨rounds, nodes⟩, nodes ▸ count_turnNodes⟩

/-- Interrupted and resumed anywhere, a turn executes its nodes in order, retrieves
once, and hands its workers what its router and its retriever wrote. -/
theorem turn_disciplined (thread : Thread) (checkpointId : Option Nat) (text : String)
    (first : Leg) (rest : List Leg) :
    Disciplined text (turn thread checkpointId text first rest).1 ∧
      ((load (turn thread checkpointId text first rest).2 none).checkpoint.next = none →
        Complete text (turn thread checkpointId text first rest).1) := by
  have progress : Progress text (turn thread checkpointId text first rest).1
      (load (turn thread checkpointId text first rest).2 none).checkpoint :=
    turn_moves.invariant_of_history Progress.step .input
  exact ⟨progress.disciplined, progress.complete⟩

end

end AgenticEnterprise.Graph.NodeOrder
