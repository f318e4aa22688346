import Mathlib.Logic.Basic

/-! An append-only store of checkpoints that form a forest: every checkpoint
names the one it was derived from. Identifiers are positions, so later ones are
larger; the latest checkpoint is the one saved last. -/

set_option autoImplicit false

namespace AgenticEnterprise.Library

structure Saved (State : Type) where
  parent : Option Nat
  state : State
  deriving DecidableEq, Repr

structure CheckpointStore (State : Type) where
  entries : List (Saved State)
  parentsEarlier : ∀ (id : Nat) (entry : Saved State), entries[id]? = some entry →
    ∀ parent, entry.parent = some parent → parent < id

namespace CheckpointStore

variable {State : Type}

def empty : CheckpointStore State := ⟨[], fun _ _ found => by simp at found⟩

def find? (store : CheckpointStore State) (id : Nat) : Option (Saved State) :=
  store.entries[id]?

def nextId (store : CheckpointStore State) : Nat :=
  store.entries.length

def latestId (store : CheckpointStore State) : Option Nat :=
  match store.entries.length with
  | 0 => none
  | length + 1 => some length

def latest (store : CheckpointStore State) : Option State :=
  store.entries.getLast?.map Saved.state

/-- The checkpoint was derived from the other one, directly or through others. -/
inductive Descends (store : CheckpointStore State) (origin : Nat) : Nat → Prop where
  | child {id : Nat} {saved : Saved State} :
      store.find? id = some saved → saved.parent = some origin → Descends store origin id
  | step {id parent : Nat} {saved : Saved State} :
      store.find? id = some saved → saved.parent = some parent → Descends store origin parent →
      Descends store origin id

/-- Nothing has been changed, and checkpoints may have been added. -/
def Extends (store next : CheckpointStore State) : Prop :=
  store.entries <+: next.entries

def All (holds : State → Prop) (store : CheckpointStore State) : Prop :=
  ∀ id saved, store.find? id = some saved → holds saved.state

/-- A parent that is not in the store counts as no parent. -/
def put (store : CheckpointStore State) (parent : Option Nat) (state : State) :
    CheckpointStore State where
  entries := store.entries ++ [⟨parent.filter (· < store.nextId), state⟩]
  parentsEarlier id entry found parent named := by
    rw [List.getElem?_append] at found
    split at found
    · exact store.parentsEarlier id entry found parent named
    · rename_i notEarlier
      rw [List.getElem?_singleton] at found
      split at found
      · cases found
        have below := (Option.filter_eq_some_iff.mp named).2
        have bound : parent < store.nextId := of_decide_eq_true below
        exact Nat.lt_of_lt_of_le bound (Nat.le_of_not_lt notEarlier)
      · cases found

section

variable {store : CheckpointStore State} {parent : Option Nat} {state : State} {id : Nat}
  {saved : Saved State}

@[simp] theorem latest_put : (store.put parent state).latest = some state := by
  simp [latest, put]

@[simp] theorem nextId_put : (store.put parent state).nextId = store.nextId + 1 := by
  simp [put, nextId]

theorem lt_nextId_of_find? (found : store.find? id = some saved) : id < store.nextId :=
  (List.getElem?_eq_some_iff.mp found).1

theorem find?_put_of_lt (earlier : id < store.nextId) :
    (store.put parent state).find? id = store.find? id :=
  List.getElem?_append_left earlier

theorem find?_put_nextId :
    (store.put parent state).find? store.nextId =
      some ⟨parent.filter (· < store.nextId), state⟩ := by
  simp [find?, put, nextId]

theorem find?_put_of_find? {new : State} (found : store.find? id = some saved) :
    (store.put parent new).find? id = some saved :=
  (find?_put_of_lt (lt_nextId_of_find? found)).trans found

/-- A checkpoint keeps the ones it was derived from. -/
theorem Descends.put {origin : Nat} (descends : store.Descends origin id) :
    (CheckpointStore.put store parent state).Descends origin id := by
  induction descends with
  | child found derived => exact .child (find?_put_of_find? found) derived
  | step found derived _ ih => exact .step (find?_put_of_find? found) derived ih

/-- A new checkpoint descends from where the one it is derived from does. -/
theorem Descends.of_put {origin : Nat} (descends : store.Descends origin id)
    (found : store.find? id = some saved) :
    (CheckpointStore.put store (some id) state).Descends origin store.nextId := by
  have derived : (Option.some id).filter (· < store.nextId) = some id := by
    simp [lt_nextId_of_find? found]
  exact .step find?_put_nextId derived descends.put

theorem Descends.child_of_put (found : store.find? id = some saved) :
    (CheckpointStore.put store (some id) state).Descends id store.nextId := by
  have derived : (Option.some id).filter (· < store.nextId) = some id := by
    simp [lt_nextId_of_find? found]
  exact .child find?_put_nextId derived

/-- A checkpoint without a parent descends from nothing. -/
theorem not_descends_of_root {origin : Nat} (found : store.find? id = some saved)
    (root : saved.parent = none) : ¬store.Descends origin id := by
  intro descends
  cases descends with
  | child other derived =>
      rw [found] at other
      cases other
      rw [root] at derived
      cases derived
  | step other derived _ =>
      rw [found] at other
      cases other
      rw [root] at derived
      cases derived

/-- What holds of every stored state and of a new one holds of every state after
the new one is saved. -/
theorem All.put {holds : State → Prop} (all : store.All holds) (new : holds state) :
    (CheckpointStore.put store parent state).All holds := by
  intro id saved found
  by_cases earlier : id < store.nextId
  · exact all id saved ((find?_put_of_lt earlier).symm.trans found)
  · have bound : id < store.nextId + 1 := nextId_put ▸ lt_nextId_of_find? found
    obtain rfl : id = store.nextId := by omega
    rw [find?_put_nextId] at found
    cases found
    exact new

@[simp] theorem extends_refl : store.Extends store :=
  List.prefix_refl _

theorem extends_put : store.Extends (store.put parent state) :=
  List.prefix_append ..

namespace Extends

variable {next last : CheckpointStore State}

theorem trans (grown : store.Extends next) (more : next.Extends last) : store.Extends last :=
  List.IsPrefix.trans grown more

theorem find? (grown : store.Extends next) (found : store.find? id = some saved) :
    next.find? id = some saved := by
  obtain ⟨rest, same⟩ := grown
  rw [CheckpointStore.find?, ← same, List.getElem?_append_left (lt_nextId_of_find? found)]
  exact found

/-- What was there is as it was. -/
theorem find?_of_lt (grown : store.Extends next) (earlier : id < store.nextId) :
    next.find? id = store.find? id := by
  obtain ⟨rest, same⟩ := grown
  rw [CheckpointStore.find?, ← same, List.getElem?_append_left earlier]
  rfl

end Extends

theorem latest_eq_find? :
    store.latest = (store.latestId.bind store.find?).map Saved.state := by
  unfold latest latestId find?
  cases length : store.entries.length with
  | zero => simp [List.length_eq_zero_iff.mp length]
  | succ last => simp [List.getLast?_eq_getElem?, length]

end

end CheckpointStore

end AgenticEnterprise.Library
