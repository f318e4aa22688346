/-! Finite runs of a labelled transition relation. An invariant is proved once
per transition and holds along every run; a relation between two systems that
every pair of equally labelled transitions keeps holds along every pair of runs
with the same labels. -/

set_option autoImplicit false

namespace AgenticEnterprise.Library

universe u v

/-- `Runs step first labels last`: the labels drive `first` to `last`. -/
inductive Runs {State : Type u} {Label : Type v} (step : State → Label → State → Prop) :
    State → List Label → State → Prop where
  | refl {state} : Runs step state [] state
  | cons {first middle last label labels} :
      step first label middle → Runs step middle labels last →
      Runs step first (label :: labels) last

namespace Runs

variable {State : Type u} {Label : Type v} {step : State → Label → State → Prop}

theorem single {first last : State} {label : Label} (taken : step first label last) :
    Runs step first [label] last :=
  .cons taken .refl

theorem append {first middle last : State} {labels more : List Label}
    (run : Runs step first labels middle) (rest : Runs step middle more last) :
    Runs step first (labels ++ more) last := by
  induction run with
  | refl => exact rest
  | cons taken _ ih => exact .cons taken (ih rest)

theorem split {first last : State} {labels more : List Label}
    (run : Runs step first (labels ++ more) last) :
    ∃ middle, Runs step first labels middle ∧ Runs step middle more last := by
  induction labels generalizing first with
  | nil => exact ⟨first, .refl, run⟩
  | cons label labels ih =>
      cases run with
      | cons taken rest =>
          obtain ⟨middle, before, after⟩ := ih rest
          exact ⟨middle, .cons taken before, after⟩

/-- What every transition keeps holds at the end of a run that starts with it. -/
theorem invariant {holds : State → Prop}
    (kept : ∀ {state label next}, holds state → step state label next → holds next)
    {first last : State} {labels : List Label} (run : Runs step first labels last)
    (initially : holds first) : holds last := by
  induction run with
  | refl => exact initially
  | cons taken _ ih => exact ih (kept initially taken)

/-- The same for a property that also sees the labels so far. -/
theorem invariant_of_history {holds : List Label → State → Prop}
    (kept : ∀ {labels state label next}, holds labels state → step state label next →
      holds (labels ++ [label]) next)
    {first last : State} {labels : List Label} (run : Runs step first labels last)
    (initially : holds [] first) : holds labels last := by
  have general {seen : List Label} (before : holds seen first) : holds (seen ++ labels) last := by
    clear initially
    induction run generalizing seen with
    | refl => simpa using before
    | cons taken _ ih =>
        rw [List.append_cons]
        exact ih (kept before taken)
  exact general initially

/-- The same where a transition is known to leave a state that was reached. -/
theorem invariant_of_reached {holds : State → Prop} {first last : State} {labels : List Label}
    (kept : ∀ {before state label next}, Runs step first before state → holds state →
      step state label next → holds next)
    (run : Runs step first labels last) (initially : holds first) : holds last := by
  have both : Runs step first labels last ∧ holds last := by
    refine @invariant_of_history _ _ _ (fun seen state => Runs step first seen state ∧ holds state)
      (fun before taken => ?_) _ _ _ run ⟨.refl, initially⟩
    exact ⟨before.1.append (.single taken), kept before.1 before.2 taken⟩
  exact both.2

/-- What every transition keeps may be assumed of each of them. -/
theorem restrict {holds : State → Prop}
    (kept : ∀ {state label next}, holds state → step state label next → holds next)
    {first last : State} {labels : List Label} (run : Runs step first labels last)
    (initially : holds first) :
    Runs (fun state label next => holds state ∧ step state label next) first labels last := by
  induction run with
  | refl => exact .refl
  | cons taken _ ih => exact .cons ⟨initially, taken⟩ (ih (kept initially taken))

theorem invariant_of_labels {holds : State → Prop} {allowed : Label → Prop}
    (kept : ∀ {state label next}, holds state → allowed label → step state label next →
      holds next)
    {first last : State} {labels : List Label} (run : Runs step first labels last)
    (permitted : ∀ label ∈ labels, allowed label) (initially : holds first) : holds last := by
  induction run with
  | refl => exact initially
  | cons taken _ ih =>
      exact ih (fun label member => permitted label (.tail _ member))
        (kept initially (permitted _ (.head _)) taken)

/-- Where a state has one transition at most, runs from it go the same way. -/
theorem connected
    (deterministic : ∀ {state label next other end'}, step state label next →
      step state other end' → next = end')
    {first last other : State} {labels more : List Label}
    (run : Runs step first labels last) (again : Runs step first more other) :
    (∃ rest, Runs step last rest other) ∨ ∃ rest, Runs step other rest last := by
  induction run generalizing more with
  | refl => exact .inl ⟨more, again⟩
  | cons taken rest ih =>
      cases again with
      | refl => exact .inr ⟨_, .cons taken rest⟩
      | cons retaken further =>
          obtain rfl := deterministic taken retaken
          exact ih further

/-- Labels that each cost one of a rank no transition raises occur that often at most. -/
theorem length_filter_le (counts : Label → Bool) (rank : State → Nat)
    (paid : ∀ {state label next}, step state label next →
      rank next + (if counts label then 1 else 0) ≤ rank state)
    {first last : State} {labels : List Label} (run : Runs step first labels last) :
    (labels.filter counts).length + rank last ≤ rank first := by
  induction run with
  | refl => simp
  | @cons first middle last label labels taken _ ih =>
      have cost := paid taken
      by_cases counted : counts label = true
      · rw [List.filter_cons_of_pos counted, List.length_cons]
        rw [if_pos counted] at cost
        omega
      · rw [List.filter_cons_of_neg counted]
        omega

end Runs

def runSteps {State : Type u} {Label : Type v} (step : State → Label → Option State) :
    State → List Label → Option State
  | state, [] => some state
  | state, label :: labels => (step state label).bind fun next => runSteps step next labels

/-- The executable form and the inductive form describe the same runs. -/
theorem runSteps_eq_some_iff {State : Type u} {Label : Type v}
    {step : State → Label → Option State} {first last : State} {labels : List Label} :
    runSteps step first labels = some last ↔
      Runs (fun state label next => step state label = some next) first labels last := by
  induction labels generalizing first with
  | nil =>
      constructor
      · intro result
        cases result
        exact .refl
      · intro run
        cases run
        rfl
  | cons label labels ih =>
      rw [runSteps, Option.bind_eq_some_iff]
      constructor
      · intro result
        obtain ⟨middle, taken, rest⟩ := result
        exact .cons taken (ih.mp rest)
      · intro run
        cases run with
        | cons taken rest => exact ⟨_, taken, ih.mpr rest⟩

end AgenticEnterprise.Library
