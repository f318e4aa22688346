import AgenticEnterprise.Library.Runs
import AgenticEnterprise.Tools.CodeExecutor
import Mathlib.Logic.Function.Basic

/-! The containers of the sandbox host under any number of executions at once:
`app/tools/code_executor.py`. Each call of the podman client is a step of its own, and
those of other executions may come in between. -/

set_option autoImplicit false

namespace AgenticEnterprise.Tools.SandboxContainers

open Library CodeExecutor

/-- The answers of one execution. A container that `run` returns has been started, and
`clears` says whether a `remove` that raises has removed it all the same. -/
structure Podman extends Sandbox where
  clears : Bool
  started : run = .ok () → launches = true

@[ext] structure Container where
  id : Nat
  command : List String
  deriving DecidableEq, Repr

inductive Phase where
  | connecting
  | launching
  | working
  | removing (shown : Except Failure String)
  | closing (outcome : Except Failure String)
  | ended (outcome : Except Failure String)

/-- An execution, with the container it has started. -/
structure Call where
  podman : Podman
  code : String
  phase : Phase := .connecting
  container : Option Nat := none

structure State where
  calls : Nat → Option Call := fun _ => none
  host : List Container := []
  fresh : Nat := 0

inductive Event where
  | begin (id : Nat) (podman : Podman) (input : CodeExecutionInput)
  | advance (id : Nat)

/-- Whether the container is still there once the execution is past it. -/
def Podman.leaves (podman : Podman) : Bool :=
  match podman.run, podman.remove with
  | .error _, _ => podman.launches
  | .ok (), .error _ => !podman.clears
  | .ok (), .ok () => false

def Call.next (call : Call) (fresh : Nat) : Option Call :=
  match call.phase with
  | .connecting =>
      match call.podman.connect with
      | .error failure => some { call with phase := .ended (.error failure) }
      | .ok () => some { call with phase := .launching }
  | .launching =>
      some { call with
        container := if call.podman.launches then some fresh else none
        phase :=
          match call.podman.run with
          | .error failure => .closing (.error failure)
          | .ok () => .working }
  | .working => some { call with phase := .removing call.podman.shown }
  -- `finally`: what is raised here takes the place of what the container has shown.
  | .removing shown =>
      some { call with
        phase :=
          match call.podman.remove with
          | .error failure => .closing (.error failure)
          | .ok () => .closing shown }
  | .closing outcome =>
      some { call with
        phase :=
          match call.podman.close with
          | .error failure => .ended (.error failure)
          | .ok () => .ended outcome }
  | .ended _ => none

/-- The containers once the call has taken its next step. -/
def Call.changes (call : Call) (fresh : Nat) (host : List Container) : List Container :=
  match call.phase with
  | .launching =>
      if call.podman.launches then host ++ [⟨fresh, command call.code⟩] else host
  | .removing _ =>
      if call.podman.leaves then host
      else host.filter fun container => decide (call.container ≠ some container.id)
  | _ => host

def step (state : State) : Event → Option State
  | .begin id podman input =>
      if (state.calls id).isNone then
        some { state with
          calls := Function.update state.calls id (some { podman := podman, code := input.code }) }
      else none
  | .advance id =>
      (state.calls id).bind fun call =>
        (call.next state.fresh).map fun next =>
          { calls := Function.update state.calls id (some next)
            host := call.changes state.fresh state.host
            fresh := state.fresh + 1 }

def Step (state : State) (event : Event) (next : State) : Prop :=
  step state event = some next

/-- The container that a call is responsible for, if there is one. -/
def Call.holds (call : Call) : Option Nat :=
  match call.phase with
  | .connecting | .launching => none
  | .working | .removing _ => call.container
  | .closing _ | .ended _ => if call.podman.leaves then call.container else none

def Call.Owns (call : Call) (container : Container) : Prop :=
  call.holds = some container.id ∧ container.command = command call.code

/-! ## One call -/

/-- What a call has behind it agrees with what its answers come to. -/
def Call.Sound (call : Call) : Prop :=
  match call.phase with
  | .connecting => call.container = none
  | .launching => call.container = none ∧ call.podman.connect = .ok ()
  | .working => call.podman.connect = .ok () ∧ call.podman.run = .ok ()
  | .removing shown =>
      call.podman.connect = .ok () ∧ call.podman.run = .ok () ∧ shown = call.podman.shown
  | .closing outcome =>
      call.podman.connect = .ok () ∧ outcome = call.podman.toSandbox.container
  | .ended outcome => outcome = call.podman.ending

section

variable {call next : Call} {fresh : Nat} {container : Container} {host : List Container}

theorem Call.sound_next (sound : call.Sound) (moved : call.next fresh = some next) :
    next.Sound := by
  obtain ⟨podman, code, phase, held⟩ := call
  cases phase with
  | connecting =>
      simp only [Call.next] at moved
      split at moved
      · rename_i failure failed
        cases moved
        simp [Call.Sound, Sandbox.ending, failed]
      · rename_i connected
        cases moved
        exact ⟨sound, connected⟩
  | launching =>
      cases moved
      have connected : podman.connect = .ok () := sound.2
      cases ran : podman.run with
      | error failure => simp [Call.Sound, ran, connected, Sandbox.container]
      | ok => simp [Call.Sound, ran, connected]
  | working =>
      cases moved
      exact ⟨sound.1, sound.2, rfl⟩
  | removing shown =>
      cases moved
      obtain ⟨connected, ran, same⟩ :
        podman.connect = .ok () ∧ podman.run = .ok () ∧ shown = podman.shown := sound
      cases removed : podman.remove with
      | error failure => simp [Call.Sound, connected, ran, removed, Sandbox.container]
      | ok => simp [Call.Sound, connected, ran, removed, Sandbox.container, same]
  | closing outcome =>
      cases moved
      obtain ⟨connected, same⟩ :
        podman.connect = .ok () ∧ outcome = podman.toSandbox.container := sound
      cases closed : podman.close with
      | error failure => simp [Call.Sound, connected, closed, Sandbox.ending]
      | ok => simp [Call.Sound, connected, closed, Sandbox.ending, same]
  | ended => cases moved

theorem container_of_holds {id : Nat} (holds : call.holds = some id) :
    call.container = some id := by
  obtain ⟨podman, code, phase, held⟩ := call
  cases phase with
  | connecting => cases holds
  | launching => cases holds
  | working => exact holds
  | removing => exact holds
  | closing =>
      simp only [Call.holds, Option.ite_none_right_eq_some] at holds
      exact holds.2
  | ended =>
      simp only [Call.holds, Option.ite_none_right_eq_some] at holds
      exact holds.2

theorem container_next (moved : call.next fresh = some next) {id : Nat}
    (names : next.container = some id) : call.container = some id ∨ id = fresh := by
  obtain ⟨podman, code, phase, held⟩ := call
  cases phase with
  | connecting =>
      simp only [Call.next] at moved
      split at moved <;> cases moved <;> exact .inl names
  | launching =>
      cases moved
      simp only [Option.ite_none_right_eq_some, Option.some.injEq] at names
      exact .inr names.2.symm
  | working | removing | closing =>
      cases moved
      exact .inl names
  | ended => cases moved

/-- A step puts on the host what the call comes to own, and takes off what it owned. -/
theorem mem_changes (sound : call.Sound) (moved : call.next fresh = some next)
    (present : call.Owns container → container ∈ host)
    (named : container ∈ host → call.holds = some container.id → call.Owns container) :
    container ∈ call.changes fresh host ↔
      next.Owns container ∨ (container ∈ host ∧ ¬call.Owns container) := by
  have kept (same : next.Owns container ↔ call.Owns container) : container ∈ host ↔
      next.Owns container ∨ (container ∈ host ∧ ¬call.Owns container) := by
    rw [same]
    by_cases owned : call.Owns container
    · simp [owned, present owned]
    · simp [owned]
  obtain ⟨podman, code, phase, held⟩ := call
  cases phase with
  | connecting =>
      refine kept ?_
      obtain rfl : held = none := sound
      simp only [Call.next] at moved
      split at moved <;> cases moved <;> simp [Call.Owns, Call.holds]
  | launching =>
      cases moved
      cases ran : podman.run with
      | error failure =>
          cases started : podman.launches <;>
            simp [Call.changes, Call.Owns, Call.holds, Podman.leaves, ran, started,
              Container.ext_iff, or_comm, eq_comm]
      | ok =>
          have started := podman.started ran
          simp [Call.changes, Call.Owns, Call.holds, started, Container.ext_iff, or_comm, eq_comm]
  | working =>
      cases moved
      exact kept Iff.rfl
  | removing shown =>
      cases moved
      obtain ⟨_, ran, _⟩ :
        podman.connect = .ok () ∧ podman.run = .ok () ∧ shown = podman.shown := sound
      cases stays : podman.leaves with
      | true =>
          have same : Call.changes ⟨podman, code, .removing shown, held⟩ fresh host = host := by
            simp [Call.changes, stays]
          rw [same]
          refine kept ?_
          cases podman.remove <;> simp [Call.Owns, Call.holds, stays]
      | false =>
          have released : ¬Call.Owns ⟨podman, code,
              match podman.remove with
              | .error failure => .closing (.error failure)
              | .ok () => .closing shown, held⟩ container := by
            cases podman.remove <;> simp [Call.Owns, Call.holds, stays]
          have owned (member : container ∈ host) : held = some container.id ↔
              Call.Owns ⟨podman, code, .removing shown, held⟩ container :=
            ⟨named member, And.left⟩
          simp only [Call.changes, stays, Bool.false_eq_true, if_false, List.mem_filter,
            decide_eq_true_eq, iff_false_intro released, false_or]
          exact and_congr_right fun member => not_congr (owned member)
  | closing outcome =>
      cases moved
      refine kept ?_
      cases podman.close <;> rfl
  | ended => cases moved

end

/-! ## All calls -/

structure Coherent (state : State) : Prop where
  sound : ∀ id call, state.calls id = some call → call.Sound
  earlier : ∀ id call container, state.calls id = some call →
    call.container = some container → container < state.fresh
  apart : ∀ id other call further container, state.calls id = some call →
    state.calls other = some further → call.container = some container →
    further.container = some container → id = other
  host : ∀ container, container ∈ state.host ↔
    ∃ id call, state.calls id = some call ∧ call.Owns container

theorem coherent_initial : Coherent {} where
  sound _ _ found := nomatch found
  earlier _ _ _ found := nomatch found
  apart _ _ _ _ _ found := nomatch found
  host container := by simp

section

variable {state next : State} {event : Event} {id : Nat} {call further : Call}

theorem update_eq_some_iff {calls : Nat → Option Call} {other : Nat} :
    Function.update calls id (some further) other = some call ↔
      (other = id ∧ further = call) ∨ (other ≠ id ∧ calls other = some call) := by
  by_cases same : other = id
  · subst same
    simp
  · simp [same]

/-- One call comes to be another one, which changes what it owns on the host. -/
theorem Coherent.update {host : List Container} {fresh : Nat} (coherent : Coherent state)
    (sound : further.Sound) (later : state.fresh ≤ fresh)
    (own : ∀ container, further.container = some container → container < fresh ∧
      ∀ other call, state.calls other = some call → call.container = some container → other = id)
    (changed : ∀ container, container ∈ host ↔ further.Owns container ∨
      (container ∈ state.host ∧ ∀ call, state.calls id = some call → ¬call.Owns container)) :
    Coherent ⟨Function.update state.calls id (some further), host, fresh⟩ := by
  refine ⟨?_, ?_, ?_, fun container => ?_⟩
  · intro other call found
    rcases update_eq_some_iff.mp found with ⟨_, rfl⟩ | ⟨_, before⟩
    · exact sound
    · exact coherent.sound other call before
  · intro other call container found names
    rcases update_eq_some_iff.mp found with ⟨_, rfl⟩ | ⟨_, before⟩
    · exact (own container names).1
    · exact (coherent.earlier other call container before names).trans_le later
  · intro first second call beside container found other names also
    rcases update_eq_some_iff.mp found with ⟨rfl, rfl⟩ | ⟨_, before⟩
    · rcases update_eq_some_iff.mp other with ⟨rfl, rfl⟩ | ⟨_, behind⟩
      · rfl
      · exact ((own container names).2 second beside behind also).symm
    · rcases update_eq_some_iff.mp other with ⟨rfl, rfl⟩ | ⟨_, behind⟩
      · exact (own container also).2 first call before names
      · exact coherent.apart first second call beside container before behind names also
  · rw [changed]
    constructor
    · rintro (owns | ⟨member, others⟩)
      · exact ⟨id, further, update_eq_some_iff.mpr (.inl ⟨rfl, rfl⟩), owns⟩
      · obtain ⟨other, call, found, owns⟩ := (coherent.host container).mp member
        refine ⟨other, call, update_eq_some_iff.mpr (.inr ⟨?_, found⟩), owns⟩
        rintro rfl
        exact others call found owns
    · rintro ⟨other, call, found, owns⟩
      rcases update_eq_some_iff.mp found with ⟨_, rfl⟩ | ⟨distinct, before⟩
      · exact .inl owns
      · refine .inr ⟨(coherent.host container).mpr ⟨other, call, before, owns⟩, ?_⟩
        intro first here also
        exact distinct (coherent.apart other id call first container.id before here
          (container_of_holds owns.1) (container_of_holds also.1))

theorem Coherent.advance (coherent : Coherent state) (found : state.calls id = some call)
    (moved : call.next state.fresh = some further) :
    Coherent ⟨Function.update state.calls id (some further),
      call.changes state.fresh state.host, state.fresh + 1⟩ := by
  have sound := coherent.sound id call found
  refine coherent.update (Call.sound_next sound moved) (Nat.le_succ _) (fun container names => ?_)
    fun container => ?_
  · rcases container_next moved names with before | rfl
    · exact ⟨(coherent.earlier id call container found before).trans (Nat.lt_succ_self _),
        fun other beside behind also =>
          coherent.apart other id beside call container behind found also before⟩
    · exact ⟨Nat.lt_succ_self _, fun other beside behind also =>
        absurd (coherent.earlier other beside _ behind also) (Nat.lt_irrefl _)⟩
  · rw [mem_changes sound moved]
    · simp [found]
    · exact fun owns => (coherent.host container).mpr ⟨id, call, found, owns⟩
    · intro member holds
      obtain ⟨other, beside, behind, owns⟩ := (coherent.host container).mp member
      obtain rfl := coherent.apart other id beside call container.id behind found
        (container_of_holds owns.1) (container_of_holds holds)
      obtain rfl : beside = call := Option.some.inj (behind.symm.trans found)
      exact owns

theorem Coherent.step (coherent : Coherent state) (taken : Step state event next) :
    Coherent next := by
  cases event with
  | begin id podman input =>
      simp only [Step, SandboxContainers.step, Option.ite_none_right_eq_some,
        Option.some.injEq] at taken
      obtain ⟨idle, rfl⟩ := taken
      have unused := Option.isNone_iff_eq_none.mp idle
      exact coherent.update rfl le_rfl nofun fun container => by
        simp [Call.Owns, Call.holds, unused]
  | advance id =>
      obtain ⟨call, found, rest⟩ := Option.bind_eq_some_iff.mp taken
      obtain ⟨further, moved, rfl⟩ := Option.map_eq_some_iff.mp rest
      exact coherent.advance found moved

theorem leaves_of_success {podman : Podman} {output : String}
    (succeeds : podman.ending = .ok output) : podman.leaves = false := by
  unfold Sandbox.ending at succeeds
  split at succeeds
  · cases succeeds
  · cases succeeds
  · unfold Sandbox.container at succeeds
    split at succeeds
    · cases succeeds
    · cases succeeds
    · rename_i ran removed
      simp [Podman.leaves, ran, removed]

end

/-- Whatever comes in between, the host has the containers of the executions at work and
those that `run` or `remove` has left behind by raising, each of one execution. What an
execution comes to is what it comes to alone, and a successful one has left nothing. -/
theorem containers_accounted (events : List Event) (state : State)
    (run : Runs Step {} events state) :
    (∀ container, container ∈ state.host ↔
      ∃ id call, state.calls id = some call ∧ call.Owns container) ∧
    (∀ container id other call further, state.calls id = some call →
      state.calls other = some further → call.Owns container → further.Owns container →
      id = other) ∧
    ∀ id call outcome, state.calls id = some call → call.phase = .ended outcome →
      (∀ before, ((executeSandboxedCode call.podman.toSandbox call.code).exec before).1 =
        .ok (told outcome)) ∧
      ((told outcome).status = "success" → call.holds = none) := by
  have coherent : Coherent state :=
    run.invariant (fun before taken => before.step taken) coherent_initial
  refine ⟨coherent.host, fun container id other call further found beside owns also => ?_, ?_⟩
  · exact coherent.apart id other call further container.id found beside
      (container_of_holds owns.1) (container_of_holds also.1)
  · intro id call outcome found ended
    have sound := coherent.sound id call found
    rw [Call.Sound, ended] at sound
    obtain rfl : outcome = call.podman.ending := sound
    refine ⟨fun before => by rw [executeSandboxedCode_exec]; rfl, fun success => ?_⟩
    cases ending : call.podman.ending with
    | error failure =>
        rw [ending] at success
        cases failure <;> simp [told] at success
    | ok output => simp [Call.holds, ended, leaves_of_success ending]

/-- The host does not answer a `remove`. -/
def unremoved : Podman where
  toSandbox := { printing "2" with remove := .error (.podmanError "timed out") }
  clears := false
  started _ := rfl

def printTwo : CodeExecutionInput where
  code := "print(2)"
  nonempty := by decide
  bounded := by decide

/-- The script has run, the execution ends with an error, and its container stays. -/
theorem unremoved_container_accounted : ∃ state,
    Runs Step {} (.begin 7 unremoved printTwo :: List.replicate 5 (.advance 7)) state ∧
      state.host = [⟨1, command "print(2)"⟩] ∧
      ∀ container, container ∈ state.host ↔
        ∃ id call, state.calls id = some call ∧ call.Owns container := by
  have reached : ∃ state,
      Runs Step {} (.begin 7 unremoved printTwo :: List.replicate 5 (.advance 7)) state ∧
        state.host = [⟨1, command "print(2)"⟩] :=
    ⟨_, .cons rfl (.cons rfl (.cons rfl (.cons rfl (.cons rfl (.cons rfl .refl))))), rfl⟩
  obtain ⟨state, run, left⟩ := reached
  exact ⟨state, run, left, (containers_accounted _ state run).1⟩

end AgenticEnterprise.Tools.SandboxContainers
