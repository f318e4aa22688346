import AgenticEnterprise.Core.Exceptions
import AgenticEnterprise.Library.LockedMemo

/-! The tools that requests bind to their model: `load_tools` and `get_tools` of
`app/graph/tools.py`, with any number of requests at a time. -/

set_option autoImplicit false

namespace AgenticEnterprise.Graph.Tools

open Core Library LockedMemo

def localTools : List String :=
  ["get_deployment_status", "execute_sandboxed_code", "get_weather", "get_market_metrics"]

/-- `remote` is what the MCP servers are asked for with one `_mcp_client.get_tools()`. -/
def loadTools (remote : Except Exn (List String)) : Except Exn (List String) :=
  remote.map (localTools ++ ·)

/-- `_tools_cache` and `_tools_lock`, with the calls of `get_tools`. -/
abbrev State := LockedMemo Nat (List String) Exn

/-- `answered` is the answer to the `load_tools` that a call awaits. -/
abbrev Event := MemoEvent Nat (Except Exn (List String))

def getTools : State → Event → Option State :=
  LockedMemo.step loadTools

abbrev Step (state : State) (event : Event) (next : State) : Prop :=
  getTools state event = some next

section

variable {events : List Event} {state : State} {remote : Except Exn (List String)}

theorem loadTools_ok_iff {tools : List String} :
    loadTools remote = .ok tools ↔
      ∃ listed, remote = .ok listed ∧ tools = localTools ++ listed := by
  cases remote <;> simp [loadTools, Except.map, eq_comm]

theorem loadTools_error_iff {failure : Exn} :
    loadTools remote = .error failure ↔ remote = .error failure := by
  cases remote <;> simp [loadTools, Except.map]

end

/-- The servers answer once at most. Whoever gets tools gets that answer behind the
local ones, and whoever fails has failed by an answer to its own call. -/
theorem tools_listed_once (events : List Event) (state : State)
    (run : Runs Step {} events state) :
    (events.countP fun event => succeeds loadTools event) ≤ 1 ∧
      (∃ listed, ∀ id tools, state.phase id = .returned tools →
        tools = localTools ++ listed ∧ ∃ first, .answered first (.ok listed) ∈ events) ∧
      ∀ id failure, state.phase id = .raised failure → .answered id (.error failure) ∈ events := by
  have sound : Sound state := sound_initial.runs run
  have traced := traced_of_run run
  refine ⟨?_, ?_, fun id failure raised => ?_⟩
  · rw [List.countP_eq_length_filter]
    exact sound_initial.length_succeeds_le run
  · cases kept : state.cache with
    | none =>
        refine ⟨[], fun id tools returned => ?_⟩
        rw [(sound.placed id).cached tools returned] at kept
        cases kept
    | some value =>
        obtain ⟨first, answer, member, made⟩ := traced.value value kept
        obtain ⟨listed, rfl, rfl⟩ := loadTools_ok_iff.mp made
        refine ⟨listed, fun id tools returned => ?_⟩
        rw [(sound.placed id).cached tools returned] at kept
        exact ⟨Option.some.inj kept, first, member⟩
  · obtain ⟨answer, member, made⟩ := traced.failure id failure raised
    rwa [loadTools_error_iff.mp made] at member

/-- The second request waits while the first one asks. -/
def twoRequests : List Event :=
  [.call 0, .call 1, .answered 0 (.ok ["read_text_file"]), .acquire 1]

def bothServed : State :=
  (runSteps getTools {} twoRequests).getD {}

theorem bothServed_reached : Runs Step {} twoRequests bothServed :=
  runSteps_eq_some_iff.mp rfl

theorem bothServed_tools : ∃ listed,
    bothServed.phase 0 = .returned (localTools ++ listed) ∧
      bothServed.phase 1 = .returned (localTools ++ listed) := by
  obtain ⟨_, ⟨listed, same⟩, _⟩ := tools_listed_once _ _ bothServed_reached
  have first : bothServed.phase 0 = .returned (localTools ++ ["read_text_file"]) := rfl
  have second : bothServed.phase 1 = .returned (localTools ++ ["read_text_file"]) := rfl
  refine ⟨listed, ?_, ?_⟩
  · rw [first, (same 0 _ first).1]
  · rw [second, (same 1 _ second).1]

end AgenticEnterprise.Graph.Tools
