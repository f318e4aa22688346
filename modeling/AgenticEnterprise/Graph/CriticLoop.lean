import AgenticEnterprise.Graph.Threads
import AgenticEnterprise.Library.Runs

/-! How often one run executes the general node.

The counter `revision_count` outlives a run, so the bound depends on the value a
run starts from. Between two drafts the counter grows by one and the critic
sends a draft back only below the limit; what is left of the limit is the
potential of a checkpoint. -/

set_option autoImplicit false

namespace AgenticEnterprise.Graph.CriticLoop

open Core Library Engine Threads

def generalRuns (steps : List Superstep) : Nat :=
  steps.countP fun step => decide (step.pending = .node .general)

def revisionsLeft (state : GraphState) : Nat :=
  (generalRevisionLimit - state.revisionCount.getD 0).toNat

/-- How many drafts may still be written from a checkpoint on. A run that has not
passed the critic yet writes one in any case. -/
def draftsLeft (checkpoint : Checkpoint) : Nat :=
  match checkpoint.next with
  | none => 0
  | some (.input _) => max 1 (revisionsLeft checkpoint.values)
  | some (.node node) =>
      match node with
      | .router | .memoryRetriever | .general => max 1 (revisionsLeft checkpoint.values)
      | .critic => revisionsLeft checkpoint.values
      | .agent | .tools | .billing | .fetchMetrics | .formatReport => 0

def draftsOf (pending : Pending) : Nat :=
  if pending = .node .general then 1 else 0

theorem verdictOn_ne_pass {draft : String} {count : Int}
    (sentBack : verdictOn draft count ≠ "PASS") :
    count < generalRevisionLimit := by
  unfold verdictOn at sentBack
  split at sentBack
  · exact absurd rfl sentBack
  · split at sentBack
    · exact absurd rfl sentBack
    · omega

section

variable {environment : Environment} {values : GraphState} {pending : Pending} {next : Checkpoint}

theorem draftsOf_le : draftsOf pending ≤ draftsLeft ⟨values, some pending⟩ := by
  unfold draftsOf
  split
  · rename_i isGeneral
    subst isGeneral
    exact Nat.le_max_left _ _
  · exact Nat.zero_le _

theorem revisionsLeft_apply {update : Update} (unwritten : update.revisionCount = none) :
    revisionsLeft (values.apply update) = revisionsLeft values := by
  simp [revisionsLeft, GraphState.apply, unwritten]

theorem afterMemoryRetriever_cases :
    afterMemoryRetriever values = .general ∨
      ∀ state : GraphState, draftsLeft ⟨state, some (.node (afterMemoryRetriever values))⟩ = 0 := by
  unfold afterMemoryRetriever
  split
  · exact .inr fun _ => rfl
  · exact .inr fun _ => rfl
  · exact .inr fun _ => rfl
  · exact .inl rfl

/-- Every draft is paid for. -/
theorem draftsLeft_advance (advanced : Advance environment values pending next) :
    draftsOf pending + draftsLeft next ≤ draftsLeft ⟨values, some pending⟩ := by
  cases advanced with
  | input => simp [draftsOf, draftsLeft, revisionsLeft_apply]
  | node effect decided =>
      cases effect with
      | router =>
          cases decided
          simp [draftsOf, draftsLeft, revisionsLeft_apply]
      | memoryRetriever =>
          cases decided
          rcases afterMemoryRetriever_cases with general | elsewhere
          · rw [general]
            simp [draftsOf, draftsLeft, revisionsLeft_apply]
          · simp [elsewhere, draftsOf]
      | agent =>
          rcases toolsCondition_cases decided with rfl | rfl <;> simp [draftsOf, draftsLeft]
      | tools =>
          cases decided
          simp [draftsOf, draftsLeft]
      | billing =>
          cases decided
          simp [draftsOf, draftsLeft]
      | general =>
          cases decided
          simp only [draftsOf, draftsLeft, revisionsLeft, GraphState.apply, Option.map_some,
            ↓reduceIte, Option.some_or, Option.getD_some]
          omega
      | @critic draft count _ counted =>
          have kept : revisionsLeft values = (generalRevisionLimit - count).toNat := by
            simp [revisionsLeft, counted]
          rw [nextNode] at decided
          rcases afterCritic_cases decided with ⟨rfl, _⟩ | ⟨rfl, critique, written, sentBack⟩
          · simp [draftsOf, draftsLeft]
          · -- a draft is sent back only while the counter is below the limit
            have isVerdict : verdictOn draft.content count = critique := by
              simpa [GraphState.apply] using written
            have below : count < generalRevisionLimit :=
              verdictOn_ne_pass (isVerdict ▸ sentBack)
            simp only [draftsOf, draftsLeft, Option.map_some, revisionsLeft_apply, kept]
            simp only [reduceCtorEq, Pending.node.injEq, ↓reduceIte]
            omega
      | fetchMetrics =>
          cases decided
          simp [draftsOf, draftsLeft]
      | formatReport =>
          cases decided
          simp [draftsOf, draftsLeft]

end

/-- One run, from any checkpoint, stays within what its counter leaves. -/
theorem generalRuns_execute {limit : Nat} {environments : Nat → Environment}
    {start : Checkpoint} :
    generalRuns (execute limit environments start).steps ≤ draftsLeft start := by
  have shown (environment : Environment) (values : GraphState) (pending : Pending) :
      (if (superstep environment values pending).pending = .node .general then 1 else 0) =
        draftsOf pending := by
    cases pending <;> rfl
  induction limit generalizing environments start with
  | zero =>
      obtain ⟨values, next⟩ := start
      cases next <;> exact Nat.zero_le _
  | succ limit ih =>
      obtain ⟨values, next⟩ := start
      cases next with
      | none => exact Nat.zero_le _
      | some pending =>
          simp only [execute]
          split
          · rw [generalRuns, List.countP_singleton]
            simp only [decide_eq_true_eq, shown]
            exact draftsOf_le
          · rename_i next succeeded
            have paid := draftsLeft_advance (advance_of_outcome succeeded)
            have later := @ih (fun index => environments (index + 1)) next
            rw [generalRuns] at later ⊢
            rw [List.countP_cons]
            simp only [decide_eq_true_eq, shown]
            omega

/-! ## Over the history of a thread -/

def NonnegativeCount (checkpoint : Checkpoint) : Prop :=
  0 ≤ checkpoint.values.revisionCount.getD 0

def NonnegativeEdit : Operation → Prop
  | .invoke _ _ _ _ => True
  | .edit _ _ revisionCount _ => ∀ count, revisionCount = some count → 0 ≤ count

theorem draftsLeft_le_of_nonnegative {checkpoint : Checkpoint}
    (nonnegative : NonnegativeCount checkpoint) : draftsLeft checkpoint ≤ 3 := by
  have left : revisionsLeft checkpoint.values ≤ 3 := by
    simp only [NonnegativeCount] at nonnegative
    simp only [revisionsLeft, generalRevisionLimit]
    omega
  unfold draftsLeft
  split
  · omega
  · omega
  · split <;> omega

theorem NonnegativeCount.advance {environment : Environment} {values : GraphState}
    {pending : Pending} {next : Checkpoint} (nonnegative : NonnegativeCount ⟨values, some pending⟩)
    (advanced : Advance environment values pending next) : NonnegativeCount next := by
  simp only [NonnegativeCount] at nonnegative ⊢
  cases advanced with
  | input => simpa [GraphState.apply] using nonnegative
  | node effect _ =>
      cases effect with
      | general =>
          simp only [GraphState.apply, Option.some_or, Option.getD_some]
          omega
      | _ => simpa [GraphState.apply] using nonnegative

theorem NonnegativeCount.apply {values : GraphState} {update : Update} {next next' : Option Pending}
    (nonnegative : NonnegativeCount ⟨values, next⟩)
    (written : ∀ count, update.revisionCount = some count → 0 ≤ count) :
    NonnegativeCount ⟨values.apply update, next'⟩ := by
  simp only [NonnegativeCount, GraphState.apply] at nonnegative ⊢
  cases counted : update.revisionCount with
  | none => simpa using nonnegative
  | some count => simpa using written count counted

theorem NonnegativeCount.updateState {checkpoint after : Checkpoint} {values : Update}
    {asNode : String} (nonnegative : NonnegativeCount checkpoint)
    (written : ∀ count, values.revisionCount = some count → 0 ≤ count)
    (edited : Threads.updateState checkpoint values asNode = .ok after) :
    NonnegativeCount after := by
  unfold Threads.updateState at edited
  split at edited
  · cases edited
    exact nonnegative
  · split at edited
    · cases edited
      exact nonnegative
    · split at edited
      · cases edited
      · obtain ⟨target, _, rfl⟩ := map_eq_ok_iff.mp edited
        exact nonnegative.apply written

theorem nonnegative_operate {thread after : Thread} {operation : Operation}
    (all : Thread.All NonnegativeCount thread) (edit : NonnegativeEdit operation)
    (operated : Operate thread operation after) : Thread.All NonnegativeCount after := by
  have empty : NonnegativeCount {} := Int.le_refl 0
  cases operated with
  | invoke =>
      exact all.ainvoke empty (fun _ _ => all.load empty)
        (fun (_ : True) before advanced => before.advance advanced) (fun _ => trivial)
  | @edit _ critique revisionCount _ _ edited =>
      have written : ∀ count, revisionCount = some count → 0 ≤ count := edit
      exact all.aupdateState (fun _ result => (all.load empty).updateState written result) edited

theorem nonnegative_runs {first last : Thread} {history : List Operation}
    (all : Thread.All NonnegativeCount first) (past : Runs Operate first history last)
    (edits : ∀ operation ∈ history, NonnegativeEdit operation) :
    Thread.All NonnegativeCount last :=
  past.invariant_of_labels (fun all edit operated => nonnegative_operate all edit operated)
    edits all

/-- With no negative count among the edits of a thread's past, every run on it
executes the general node at most as often as the limit says. -/
theorem general_runs_within_limit {history : List Operation} {thread : Thread}
    (past : Runs Operate CheckpointStore.empty history thread)
    (edits : ∀ operation ∈ history, NonnegativeEdit operation) (limit : Nat)
    (environments : Nat → Environment) (input : Option (List Message))
    (checkpointId : Option Nat) :
    (generalRuns (ainvoke limit environments input checkpointId thread).1.steps : Int) ≤
      generalRevisionLimit := by
  have initially : Thread.All NonnegativeCount CheckpointStore.empty := by
    intro id saved found
    simp [CheckpointStore.find?, CheckpointStore.empty] at found
  have all := nonnegative_runs initially past edits
  have start : NonnegativeCount (load thread checkpointId).checkpoint :=
    all.load (Int.le_refl 0)
  have bounded {first : Checkpoint} (nonnegative : NonnegativeCount first) :
      generalRuns (execute limit environments first).steps ≤ 3 :=
    generalRuns_execute.trans (draftsLeft_le_of_nonnegative nonnegative)
  cases input with
  | none => exact Int.ofNat_le.mpr (bounded start)
  | some messages =>
      have entered : NonnegativeCount (withInput (load thread checkpointId) messages).checkpoint :=
        start
      exact Int.ofNat_le.mpr (bounded entered)

/-! ## A negative count -/

def stubEnvironment : Environment :=
  scripted ⟨"stub", []⟩ ⟨"", []⟩

def question : List Message := [.human "hello"]

def firstTurn : Operation :=
  .invoke 25 (fun _ => stubEnvironment) (some question) none

def afterFirstTurn : Thread :=
  (ainvoke 25 (fun _ => stubEnvironment) (some question) none CheckpointStore.empty).2

def editedThread : Thread :=
  match aupdateState afterFirstTurn none { revisionCount := some (-1) } "critic" with
  | .ok thread => thread
  | .error _ => afterFirstTurn

/-- The run behind such an edit writes a fourth draft. -/
theorem negative_count_exceeds_limit :
    Runs Operate CheckpointStore.empty [firstTurn, .edit none none (some (-1)) "critic"]
        editedThread ∧
      ¬(generalRuns (ainvoke 25 (fun _ => stubEnvironment) (some question) none
        editedThread).1.steps : Int) ≤ generalRevisionLimit :=
  ⟨.cons .invoke (.single (.edit rfl)), by decide⟩

theorem second_turn_within_limit :
    (generalRuns (ainvoke 25 (fun _ => stubEnvironment) (some question) none
      afterFirstTurn).1.steps : Int) ≤ generalRevisionLimit := by
  have past : Runs Operate CheckpointStore.empty [firstTurn] afterFirstTurn := .single .invoke
  refine general_runs_within_limit past ?_ 25 (fun _ => stubEnvironment) (some question) none
  intro operation member
  obtain rfl := List.mem_singleton.mp member
  trivial

end AgenticEnterprise.Graph.CriticLoop
