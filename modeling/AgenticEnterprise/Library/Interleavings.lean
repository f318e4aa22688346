import Mathlib.Data.List.Count
import Mathlib.Data.List.Perm.Basic
import AgenticEnterprise.Library.Effects

/-! Items that are served one after another, each on the part of the state under its key.

An item that answers as the part under its key says, and leaves the parts under the other
keys alone, can change places with the items of other keys. What counts for it are the
items of its own key in front of it. -/

set_option autoImplicit false

namespace AgenticEnterprise.Library

namespace Interleavings

variable {Item State Answer Key : Type}

/-- Two lists that have the same items under every key, in the same order. -/
def Alike [DecidableEq Key] (key : Item → Key) (left right : List Item) : Prop :=
  ∀ chosen, left.filter (key · = chosen) = right.filter (key · = chosen)

section

variable (serve : Item → State → Answer × State)

/-- The items with their answers. -/
def answered : State → List Item → List (Item × Answer)
  | _, [] => []
  | state, item :: rest => (item, (serve item state).1) :: answered (serve item state).2 rest

/-- The state behind the items. -/
def behind (state : State) (items : List Item) : State :=
  items.foldl (fun state item => (serve item state).2) state

end

/-- The item depends on the part under its key only, and keeps the other parts. -/
structure Separate (serve : Item → State → Answer × State) (key : Item → Key)
    (part : Key → PartialEquivalence State) (item : Item) : Prop where
  own : ∀ {left right}, (part (key item)).related left right →
    (serve item left).1 = (serve item right).1 ∧
      (part (key item)).related (serve item left).2 (serve item right).2
  foreign : ∀ {chosen state}, key item ≠ chosen → (part chosen).related state state →
    (part chosen).related state (serve item state).2

section

variable [DecidableEq Key] {serve : Item → State → Answer × State} {key : Item → Key}
  {part : Key → PartialEquivalence State} {left right : List Item} {item : Item} {chosen : Key}

namespace Alike

theorem mem (alike : Alike key left right) (member : item ∈ left) : item ∈ right := by
  have listed : item ∈ left.filter (key · = key item) :=
    List.mem_filter.mpr ⟨member, decide_eq_true rfl⟩
  rw [alike (key item)] at listed
  exact List.mem_of_mem_filter listed

theorem symm (alike : Alike key left right) : Alike key right left :=
  fun chosen => (alike chosen).symm

theorem perm (alike : Alike key left right) : left.Perm right := by
  classical
  refine List.perm_iff_count.mpr fun item => ?_
  have kept (items : List Item) :
      (items.filter (key · = key item)).count item = items.count item := by
    apply List.count_filter
    exact decide_eq_true rfl
  rw [← kept left, alike (key item), kept right]

/-- Neighbours of different keys change places. -/
theorem swap {first second : Item} {front rest : List Item} (different : key first ≠ key second) :
    Alike key (front ++ first :: second :: rest) (front ++ second :: first :: rest) := by
  intro chosen
  simp only [List.filter_append, List.filter_cons]
  by_cases here : key first = chosen
  · have apart : key second ≠ chosen := fun same => different (here.trans same.symm)
    simp [here, apart]
  · simp [here]

end Alike

/-- What the items of one key are answered, and what they leave under it, is what they
are answered and leave without the others. -/
theorem answered_filter {items : List Item}
    (separate : ∀ item ∈ items, Separate serve key part item) {state other : State}
    (related : (part chosen).related state other) :
    (answered serve state items).filter (key ·.1 = chosen) =
        answered serve other (items.filter (key · = chosen)) ∧
      (part chosen).related (behind serve state items)
        (behind serve other (items.filter (key · = chosen))) := by
  induction items generalizing state other with
  | nil => exact ⟨rfl, related⟩
  | cons item items ih =>
      have apart := separate item (.head _)
      have later := fun item member => separate item (.tail _ member)
      by_cases here : key item = chosen
      · subst here
        obtain ⟨same, next⟩ := apart.own related
        obtain ⟨answers, last⟩ := ih later next
        simp only [answered, List.filter_cons, decide_true, ↓reduceIte]
        exact ⟨by rw [same, answers], last⟩
      · have kept := apart.foreign here (PartialEquivalence.left_refl related)
        have next := (part chosen).trans ((part chosen).symm kept) related
        obtain ⟨answers, last⟩ := ih later next
        simp only [answered, List.filter_cons, here, decide_false, Bool.false_eq_true, ↓reduceIte]
        exact ⟨answers, last⟩

/-- Two interleavings of the same items, from one state. -/
theorem answered_alike (separate : ∀ item ∈ left, Separate serve key part item)
    (alike : Alike key left right) {state : State}
    (start : ∀ chosen, (part chosen).related state state) :
    Alike (fun told : Item × Answer => key told.1) (answered serve state left)
        (answered serve state right) ∧
      ∀ chosen, (part chosen).related (behind serve state left) (behind serve state right) := by
  have projected (chosen : Key) := answered_filter separate (start chosen)
  have others (chosen : Key) :=
    answered_filter (fun item member => separate item (alike.symm.mem member)) (start chosen)
  refine ⟨fun chosen => ?_, fun chosen => ?_⟩
  · rw [(projected chosen).1, (others chosen).1, alike chosen]
  · have last := (projected chosen).2
    rw [alike chosen] at last
    exact (part chosen).trans last ((part chosen).symm (others chosen).2)

end

end Interleavings

end AgenticEnterprise.Library
