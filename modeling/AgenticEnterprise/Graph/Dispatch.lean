import AgenticEnterprise.Graph.Threads

/-! Which worker a turn reaches: the one its text is classified for. -/

set_option autoImplicit false

namespace AgenticEnterprise.Graph.Dispatch

open Core Library Engine Threads

/-- The pending superstep belongs to the route of the turn's text. -/
def OnRoute (text : String) (checkpoint : Checkpoint) : Prop :=
  match checkpoint.next with
  | none => True
  | some (.input messages) => messages = [.human text]
  | some (.node node) =>
      match node with
      | .router => checkpoint.values.messages.getLast? = some (.human text)
      | .memoryRetriever => checkpoint.values.routeTo = some (classify text)
      | .agent | .tools => classify text = .technical
      | .billing => classify text = .billing
      | .general | .critic => classify text = .general
      | .fetchMetrics | .formatReport => classify text = .investment

section

variable {environment : Environment} {values : GraphState} {text : String} {pending : Pending}
  {next : Checkpoint}

theorem OnRoute.advance (onRoute : OnRoute text ⟨values, some pending⟩)
    (advanced : Advance environment values pending next) : OnRoute text next := by
  cases advanced with
  | @input messages =>
      obtain rfl : messages = [.human text] := onRoute
      show (values.messages ++ [Message.human text]).getLast? = some (.human text)
      simp
  | node effect decided =>
      cases effect with
      | router last =>
          have expected : values.messages.getLast? = some (.human text) := onRoute
          rw [expected] at last
          cases last
          cases decided
          rfl
      | @memoryRetriever context =>
          have routed : (values.apply
              { retrievedContext := some context
                internalLogs := ["memory_retriever: fetched cross-thread context"] }).routeTo =
              some (classify text) := onRoute
          cases decided
          rw [afterMemoryRetriever, routed]
          cases chosen : classify text <;> exact chosen
      | agent =>
          have technical : classify text = .technical := onRoute
          rw [nextNode] at decided
          rcases toolsCondition_cases decided with rfl | rfl
          · trivial
          · exact technical
      | tools =>
          cases decided
          exact onRoute
      | billing =>
          cases decided
          trivial
      | general =>
          cases decided
          exact onRoute
      | critic =>
          have general : classify text = .general := onRoute
          rw [nextNode] at decided
          rcases afterCritic_cases decided with ⟨rfl, _⟩ | ⟨rfl, _⟩
          · trivial
          · exact general
      | fetchMetrics =>
          cases decided
          exact onRoute
      | formatReport =>
          cases decided
          trivial

end

/-- A turn executes the tools node only if its text is technical. -/
theorem tools_technical {limit : Nat} {environments : Nat → Environment} {values : GraphState}
    {text : String} {step : Superstep}
    (taken : step ∈
      (execute limit environments ⟨values, some (.input [.human text])⟩).steps)
    (tools : step.pending = .node .tools) : classify text = .technical := by
  have initially : OnRoute text ⟨values, some (.input [.human text])⟩ := rfl
  obtain ⟨environment, values, pending, _, onRoute, rfl⟩ :=
    execute_steps (fun (_ : True) => OnRoute.advance) (fun _ => trivial) initially step taken
  cases pending with
  | input messages => cases tools
  | node node =>
      cases tools
      exact onRoute

end AgenticEnterprise.Graph.Dispatch
