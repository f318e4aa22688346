import Mathlib.Data.List.Nodup

/-! A table with a unique key under READ COMMITTED transactions.

The table holds every entry that is committed or written by an open
transaction. Inserting a key that another open transaction has written waits
for that transaction, so at most one entry of a key exists at any moment; that
fact is carried by the table itself. -/

set_option autoImplicit false

namespace AgenticEnterprise.Library

/-- One row. `writer` is the open transaction that inserted it, or `none` once
the row is committed. -/
structure Entry (Key Row : Type) where
  key : Key
  row : Row
  writer : Option Nat
  deriving DecidableEq, Repr

structure UniqueKeyTable (Key Row : Type) where
  entries : List (Entry Key Row)
  keysUnique : (entries.map Entry.key).Nodup

namespace UniqueKeyTable

variable {Key Row : Type}

def settle (transaction : Nat) (entry : Entry Key Row) : Entry Key Row :=
  if entry.writer = some transaction then { entry with writer := none } else entry

@[simp] theorem settle_key (transaction : Nat) (entry : Entry Key Row) :
    (settle transaction entry).key = entry.key := by
  unfold settle
  split <;> rfl

private theorem eq_of_mem_of_key {entries : List (Entry Key Row)}
    (unique : (entries.map Entry.key).Nodup) {left right : Entry Key Row}
    (leftMember : left ∈ entries) (rightMember : right ∈ entries) (same : left.key = right.key) :
    left = right :=
  List.inj_on_of_nodup_map unique leftMember rightMember same

def empty : UniqueKeyTable Key Row := ⟨[], List.nodup_nil⟩

variable [DecidableEq Key]

def find? (table : UniqueKeyTable Key Row) (key : Key) : Option (Entry Key Row) :=
  table.entries.find? fun entry => decide (entry.key = key)

def committed (table : UniqueKeyTable Key Row) (key : Key) : Option Row :=
  (table.find? key).bind fun entry => if entry.writer = none then some entry.row else none

/-- The row of a key that a transaction sees: a committed one or its own. -/
def visible (table : UniqueKeyTable Key Row) (transaction : Nat) (key : Key) : Option Row :=
  (table.find? key).bind fun entry =>
    if entry.writer = none ∨ entry.writer = some transaction then some entry.row else none

def visibleEntries (table : UniqueKeyTable Key Row) (transaction : Nat) :
    List (Entry Key Row) :=
  table.entries.filter fun entry =>
    decide (entry.writer = none ∨ entry.writer = some transaction)

private theorem key_not_mem {entries : List (Entry Key Row)} {key : Key}
    (missing : (entries.find? fun entry => decide (entry.key = key)) = none) :
    key ∉ entries.map Entry.key := by
  intro member
  obtain ⟨entry, included, same⟩ := List.mem_map.mp member
  have excluded := List.find?_eq_none.mp missing entry included
  exact excluded (by simpa using same)

private theorem nodup_append_fresh {entries : List (Entry Key Row)}
    (unique : (entries.map Entry.key).Nodup) (added : Entry Key Row)
    (missing : (entries.find? fun entry => decide (entry.key = added.key)) = none) :
    ((entries ++ [added]).map Entry.key).Nodup := by
  rw [List.map_append, List.map_singleton]
  refine unique.append (List.nodup_singleton _) ?_
  intro key member same
  rw [List.mem_singleton] at same
  exact key_not_mem missing (same ▸ member)

/-- `INSERT … ON CONFLICT DO NOTHING`. The result is `none` while another open
transaction holds the key: the statement waits until that one has ended. -/
def insertOrIgnore (table : UniqueKeyTable Key Row) (transaction : Nat) (key : Key) (row : Row) :
    Option (UniqueKeyTable Key Row) :=
  match missing : table.find? key with
  | none =>
      some ⟨table.entries ++ [⟨key, row, some transaction⟩],
        nodup_append_fresh table.keysUnique ⟨key, row, some transaction⟩ missing⟩
  | some entry =>
      if entry.writer = none ∨ entry.writer = some transaction then some table else none

def commit (table : UniqueKeyTable Key Row) (transaction : Nat) : UniqueKeyTable Key Row where
  entries := table.entries.map (settle transaction)
  keysUnique := by
    have same : (table.entries.map (settle transaction)).map Entry.key =
        table.entries.map Entry.key := by
      rw [List.map_map]
      exact List.map_congr_left fun entry _ => settle_key transaction entry
    rw [same]
    exact table.keysUnique

def rollback (table : UniqueKeyTable Key Row) (transaction : Nat) : UniqueKeyTable Key Row where
  entries := table.entries.filter fun entry => decide (entry.writer ≠ some transaction)
  keysUnique := (List.filter_sublist.map Entry.key).nodup table.keysUnique

/-! ## What each operation does to one key -/

variable {table after : UniqueKeyTable Key Row} {transaction : Nat} {key : Key} {row : Row}

theorem find?_eq_some_iff {entry : Entry Key Row} :
    table.find? key = some entry ↔ entry ∈ table.entries ∧ entry.key = key := by
  constructor
  · intro found
    exact ⟨List.mem_of_find?_eq_some found, by simpa using List.find?_some found⟩
  · intro present
    obtain ⟨member, rfl⟩ := present
    cases found : table.find? entry.key with
    | none => exact absurd (List.mem_map_of_mem member) (key_not_mem found)
    | some first =>
        have same : first.key = entry.key := by simpa using List.find?_some found
        rw [eq_of_mem_of_key table.keysUnique (List.mem_of_find?_eq_some found) member same]

theorem find?_of_mem {entry : Entry Key Row} (member : entry ∈ table.entries) :
    table.find? entry.key = some entry :=
  find?_eq_some_iff.mpr ⟨member, rfl⟩

theorem committed_eq_some_iff :
    table.committed key = some row ↔ table.find? key = some ⟨key, row, none⟩ := by
  unfold committed
  cases found : table.find? key with
  | none => simp
  | some entry =>
      obtain ⟨_, rfl⟩ := find?_eq_some_iff.mp found
      obtain ⟨entryKey, entryRow, writer⟩ := entry
      cases writer <;> simp

theorem visible_eq_some_iff :
    table.visible transaction key = some row ↔
      table.find? key = some ⟨key, row, none⟩ ∨
        table.find? key = some ⟨key, row, some transaction⟩ := by
  unfold visible
  cases found : table.find? key with
  | none => simp
  | some entry =>
      obtain ⟨_, rfl⟩ := find?_eq_some_iff.mp found
      obtain ⟨entryKey, entryRow, writer⟩ := entry
      cases writer <;> simp [and_comm]

theorem visible_of_committed (present : table.committed key = some row) :
    table.visible transaction key = some row :=
  visible_eq_some_iff.mpr (.inl (committed_eq_some_iff.mp present))

/-- An executed insert either finds a visible row and changes nothing, or adds
its own uncommitted row under a key that had none. -/
theorem insertOrIgnore_cases (executed : table.insertOrIgnore transaction key row = some after) :
    (after = table ∧ ∃ old, table.visible transaction key = some old) ∨
      (table.find? key = none ∧ after.find? key = some ⟨key, row, some transaction⟩ ∧
        ∀ other, other ≠ key → after.find? other = table.find? other) := by
  unfold insertOrIgnore at executed
  split at executed
  · next missing =>
      cases executed
      refine .inr ⟨missing, find?_eq_some_iff.mpr ⟨by simp, rfl⟩, ?_⟩
      intro other different
      simp [find?, List.find?_append, Ne.symm different]
  · next entry found =>
      split at executed
      · next seen =>
          cases executed
          obtain ⟨_, rfl⟩ := find?_eq_some_iff.mp found
          exact .inl ⟨rfl, entry.row, by simp [visible, found, seen]⟩
      · cases executed

theorem visible_insertOrIgnore
    (executed : table.insertOrIgnore transaction key row = some after) :
    ∃ owner, after.visible transaction key = some owner := by
  rcases insertOrIgnore_cases executed with ⟨rfl, old, seen⟩ | ⟨_, added, _⟩
  · exact ⟨old, seen⟩
  · exact ⟨row, visible_eq_some_iff.mpr (.inr added)⟩

theorem find?_commit :
    (table.commit transaction).find? key = (table.find? key).map (settle transaction) := by
  unfold find? commit
  simp only [List.find?_map, Function.comp_def, settle_key]

theorem find?_rollback :
    (table.rollback transaction).find? key =
      (table.find? key).filter fun entry => decide (entry.writer ≠ some transaction) := by
  cases found : table.find? key with
  | none =>
      have absent := key_not_mem found
      cases kept : (table.rollback transaction).find? key with
      | none => rfl
      | some entry =>
          obtain ⟨member, rfl⟩ := find?_eq_some_iff.mp kept
          exact absurd (List.mem_map_of_mem (List.mem_of_mem_filter member)) absent
  | some entry =>
      obtain ⟨member, rfl⟩ := find?_eq_some_iff.mp found
      by_cases own : entry.writer = some transaction
      · simp only [Option.filter, own, ne_eq, not_true_eq_false, decide_false,
          Bool.false_eq_true, ↓reduceIte]
        cases kept : (table.rollback transaction).find? entry.key with
        | none => rfl
        | some survivor =>
            obtain ⟨survives, same⟩ := find?_eq_some_iff.mp kept
            obtain ⟨included, foreign⟩ := List.mem_filter.mp survives
            have equal := eq_of_mem_of_key table.keysUnique included member same
            exact absurd (equal ▸ own) (by simpa using foreign)
      · simp only [Option.filter, ne_eq, own, not_false_eq_true, decide_true, ↓reduceIte]
        exact find?_of_mem (List.mem_filter.mpr ⟨member, by simpa using own⟩)

/-! ## What a transaction sees survives the steps of the others -/

variable {reader : Nat} {seen : Row}

theorem visible_insertOrIgnore_of_visible
    (executed : table.insertOrIgnore transaction key row = some after) {other : Key}
    (present : table.visible reader other = some seen) :
    after.visible reader other = some seen := by
  rcases insertOrIgnore_cases executed with ⟨rfl, _⟩ | ⟨missing, _, unchanged⟩
  · exact present
  · have different : other ≠ key := by
      intro same
      rw [visible, same, missing] at present
      cases present
    rwa [visible, unchanged other different]

theorem visible_commit_of_visible (present : table.visible reader key = some seen) :
    (table.commit transaction).visible reader key = some seen := by
  rw [visible_eq_some_iff] at present ⊢
  rw [find?_commit]
  rcases present with found | found <;> rw [found]
  · exact .inl rfl
  · by_cases own : reader = transaction <;> simp [settle, own]

theorem visible_rollback_of_visible (different : reader ≠ transaction)
    (present : table.visible reader key = some seen) :
    (table.rollback transaction).visible reader key = some seen := by
  rw [visible_eq_some_iff] at present ⊢
  rw [find?_rollback]
  rcases present with found | found <;> rw [found] <;> simp [Option.filter, different]

theorem committed_commit_of_visible (present : table.visible transaction key = some seen) :
    (table.commit transaction).committed key = some seen := by
  rw [committed_eq_some_iff, find?_commit]
  rcases visible_eq_some_iff.mp present with found | found <;> simp [found, settle]

/-! ## Committed rows never change -/

theorem committed_insertOrIgnore
    (executed : table.insertOrIgnore transaction key row = some after)
    (other : Key) : after.committed other = table.committed other := by
  rcases insertOrIgnore_cases executed with ⟨rfl, _⟩ | ⟨missing, added, unchanged⟩
  · rfl
  · by_cases same : other = key
    · subst same
      simp [committed, missing, added]
    · simp [committed, unchanged other same]

theorem committed_commit {owner : Row} (present : table.committed key = some owner) :
    (table.commit transaction).committed key = some owner := by
  rw [committed_eq_some_iff] at present ⊢
  rw [find?_commit, present]
  rfl

theorem committed_rollback :
    (table.rollback transaction).committed key = table.committed key := by
  unfold committed
  rw [find?_rollback]
  cases table.find? key with
  | none => rfl
  | some entry =>
      by_cases own : entry.writer = some transaction <;> simp [Option.filter, own]

/-! ## One session after another -/

/-- No transaction is open. -/
def Settled (table : UniqueKeyTable Key Row) : Prop :=
  ∀ entry ∈ table.entries, entry.writer = none

/-- No other transaction is open. -/
def OnlyWriter (transaction : Nat) (table : UniqueKeyTable Key Row) : Prop :=
  ∀ entry ∈ table.entries, entry.writer = none ∨ entry.writer = some transaction

omit [DecidableEq Key] in
theorem Settled.onlyWriter (settled : table.Settled) : table.OnlyWriter transaction :=
  fun entry member => .inl (settled entry member)

omit [DecidableEq Key] in
theorem Settled.commit_eq (settled : table.Settled) : table.commit transaction = table := by
  obtain ⟨entries, keysUnique⟩ := table
  have same : entries.map (settle transaction) = entries := by
    rw [List.map_congr_left fun entry member => ?_, List.map_id]
    simp [settle, settled entry member]
  simp only [commit, same]

omit [DecidableEq Key] in
theorem Settled.rollback_eq (settled : table.Settled) : table.rollback transaction = table := by
  obtain ⟨entries, keysUnique⟩ := table
  have same : entries.filter (fun entry => decide (entry.writer ≠ some transaction)) = entries := by
    rw [List.filter_eq_self]
    intro entry member
    simp [settled entry member]
  simp only [rollback, same]

omit [DecidableEq Key] in
theorem OnlyWriter.settled_commit (only : table.OnlyWriter transaction) :
    (table.commit transaction).Settled := by
  intro entry member
  obtain ⟨old, included, rfl⟩ := List.mem_map.mp member
  rcases only old included with committed | own
  · simp [settle, committed]
  · simp [settle, own]

omit [DecidableEq Key] in
theorem OnlyWriter.settled_rollback (only : table.OnlyWriter transaction) :
    (table.rollback transaction).Settled := by
  intro entry member
  obtain ⟨included, foreign⟩ := List.mem_filter.mp member
  rcases only entry included with committed | own
  · exact committed
  · exact absurd own (of_decide_eq_true foreign)

theorem OnlyWriter.insertOrIgnore (only : table.OnlyWriter transaction)
    (executed : table.insertOrIgnore transaction key row = some after) :
    after.OnlyWriter transaction := by
  unfold UniqueKeyTable.insertOrIgnore at executed
  split at executed
  · cases executed
    intro entry member
    rcases List.mem_append.mp member with old | new
    · exact only entry old
    · obtain rfl := List.mem_singleton.mp new
      exact .inr rfl
  · split at executed
    · cases executed
      exact only
    · cases executed

theorem Settled.find?_eq_none (settled : table.Settled) (missing : table.committed key = none) :
    table.find? key = none := by
  cases found : table.find? key with
  | none => rfl
  | some entry =>
      have own := settled entry (find?_eq_some_iff.mp found).1
      simp [committed, found, own] at missing

end UniqueKeyTable

end AgenticEnterprise.Library
