import Mathlib.Data.List.Infix
import Mathlib.Data.List.Nodup

/-! Loops that accumulate a list: merges that leave out what is there, groups by a
key, and prefixes within a budget. -/

set_option autoImplicit false

namespace AgenticEnterprise.Library

variable {Item : Type}

/-! ## Merging lists -/

section

variable [DecidableEq Item] {base update more items : List Item} {updates : List (List Item)}

theorem nodup_eraseDups (items : List Item) : items.eraseDups.Nodup := by
  cases items with
  | nil => exact List.nodup_nil
  | cons first rest =>
      rw [List.eraseDups_cons, List.nodup_cons]
      exact ⟨by simp [List.mem_eraseDups], nodup_eraseDups _⟩
termination_by items.length
decreasing_by exact Nat.lt_succ_of_le (List.length_filter_le _ _)

theorem eraseDups_eq_self_iff : items.eraseDups = items ↔ items.Nodup := by
  constructor
  · intro same
    exact same ▸ nodup_eraseDups items
  · intro distinct
    induction items with
    | nil => rfl
    | cons first rest ih =>
        obtain ⟨fresh, distinct⟩ := List.nodup_cons.mp distinct
        have kept : rest.filter (fun item => !item == first) = rest := by
          rw [List.filter_eq_self]
          intro item member
          have different : item ≠ first := fun same => fresh (same ▸ member)
          simpa using different
        rw [List.eraseDups_cons, kept, ih distinct]

/-- The items of the update that are not in the base follow it. -/
def merge (base update : List Item) : List Item :=
  base ++ update.removeAll base

@[simp] theorem mem_removeAll {item : Item} :
    item ∈ update.removeAll base ↔ item ∈ update ∧ item ∉ base := by
  simp [List.removeAll]

@[simp] theorem mem_merge {item : Item} :
    item ∈ merge base update ↔ item ∈ base ∨ item ∈ update := by
  rw [merge, List.mem_append, mem_removeAll]
  tauto

theorem removeAll_congr {other : List Item} (same : ∀ item, item ∈ base ↔ item ∈ other) :
    update.removeAll base = update.removeAll other := by
  simp [List.removeAll, same]

theorem removeAll_append :
    update.removeAll (base ++ more) = (update.removeAll base).removeAll more := by
  simp only [List.removeAll, List.filter_filter]
  refine List.filter_congr fun item _ => ?_
  simp [Bool.and_comm]

theorem merge_nil : merge [] update = update := by
  simp [merge]

theorem merge_of_subset (present : ∀ item ∈ update, item ∈ base) : merge base update = base := by
  have nothing : update.removeAll base = [] := by
    rw [List.eq_nil_iff_forall_not_mem]
    intro item member
    obtain ⟨here, absent⟩ := mem_removeAll.mp member
    exact absent (present item here)
  rw [merge, nothing, List.append_nil]

theorem merge_assoc : merge (merge base update) more = merge base (merge update more) := by
  have split : (merge update more).removeAll base =
      update.removeAll base ++ more.removeAll (merge base update) := by
    have ordered : more.removeAll (merge base update) = (more.removeAll update).removeAll base := by
      rw [← removeAll_append]
      exact removeAll_congr fun item => by simp [or_comm]
    rw [ordered, merge, List.removeAll, List.filter_append]
    rfl
  calc
    merge (merge base update) more =
        base ++ (update.removeAll base ++ more.removeAll (merge base update)) := by
      rw [merge, merge, List.append_assoc]
    _ = merge base (merge update more) := by
      rw [← split]
      rfl

theorem prefix_merges : base <+: updates.foldl merge base := by
  induction updates generalizing base with
  | nil => exact List.prefix_refl base
  | cons update updates ih => exact (List.prefix_append base _).trans ih

theorem mem_merges {item : Item} :
    item ∈ updates.foldl merge base ↔ item ∈ base ∨ ∃ update ∈ updates, item ∈ update := by
  induction updates generalizing base with
  | nil => simp
  | cons update updates ih => simp [ih, or_assoc]

/-- Merging one by one is merging what the updates merge to. -/
theorem merges_eq_merge : updates.foldl merge base = merge base (updates.foldl merge []) := by
  induction updates generalizing base with
  | nil => simp [merge]
  | cons update updates ih =>
      calc
        (update :: updates).foldl merge base =
            merge (merge base update) (updates.foldl merge []) := ih
        _ = merge base (merge update (updates.foldl merge [])) := merge_assoc
        _ = merge base ((update :: updates).foldl merge []) := by
          rw [List.foldl_cons, merge_nil, ← ih]

/-- No update has an item twice that is new with it. -/
def NewOnce (seen : List Item) : List (List Item) → Prop
  | [] => True
  | update :: updates => (update.removeAll seen).Nodup ∧ NewOnce (seen ++ update) updates

instance decidableNewOnce : (seen : List Item) → (updates : List (List Item)) →
    Decidable (NewOnce seen updates)
  | _, [] => isTrue trivial
  | seen, update :: updates =>
      have := decidableNewOnce (seen ++ update) updates
      inferInstanceAs (Decidable ((update.removeAll seen).Nodup ∧ NewOnce (seen ++ update) updates))

theorem newOnce_congr {other : List Item} (same : ∀ item, item ∈ base ↔ item ∈ other) :
    NewOnce base updates ↔ NewOnce other updates := by
  induction updates generalizing base other with
  | nil => rfl
  | cons update updates ih =>
      rw [NewOnce, NewOnce, removeAll_congr same]
      exact and_congr_right fun _ => ih fun item => by simp [same]

theorem nodup_merge_iff (distinct : base.Nodup) :
    (merge base update).Nodup ↔ (update.removeAll base).Nodup := by
  rw [merge, List.nodup_append']
  constructor
  · intro whole
    exact whole.2.1
  · intro fresh
    exact ⟨distinct, fresh, fun item here member => (mem_removeAll.mp member).2 here⟩

theorem nodup_merges_iff (distinct : base.Nodup) :
    (updates.foldl merge base).Nodup ↔ NewOnce base updates := by
  induction updates generalizing base with
  | nil => exact iff_of_true distinct trivial
  | cons update updates ih =>
      rw [List.foldl_cons, NewOnce, ← @newOnce_congr _ _ (merge base update) _ _ (by simp)]
      by_cases fresh : (update.removeAll base).Nodup
      · rw [ih ((nodup_merge_iff distinct).mpr fresh)]
        exact (and_iff_right fresh).symm
      · refine iff_of_false (fun whole => ?_) fun both => fresh both.1
        have first : (merge base update).Nodup := prefix_merges.sublist.nodup whole
        exact fresh ((nodup_merge_iff distinct).mp first)

/-- Without repeats, the items stand in the order of their first occurrences. -/
theorem merges_eq_eraseDups (distinct : (updates.foldl merge base).Nodup) :
    updates.foldl merge base = (base ++ updates.flatten).eraseDups := by
  induction updates generalizing base with
  | nil => simpa using (eraseDups_eq_self_iff.mpr distinct).symm
  | cons update updates ih =>
      have first : (merge base update).Nodup := prefix_merges.sublist.nodup distinct
      have own : (base ++ update).eraseDups = (merge base update).eraseDups := by
        have base_nodup : base.Nodup := (List.prefix_append base _).sublist.nodup first
        rw [List.eraseDups_append, merge, List.eraseDups_append]
        congr 2
        rw [← removeAll_append]
        exact removeAll_congr fun item => by simp
      rw [List.foldl_cons, ih distinct, List.flatten_cons, ← List.append_assoc,
        List.eraseDups_append, List.eraseDups_append, own]
      congr 2
      exact removeAll_congr fun item => by simp

end

/-! ## Groups -/

section

variable {Key : Type} [DecidableEq Key]

/-- An item goes to the end of the group of its key. -/
def addToGroup (keyOf : Item → Key) : List (Key × List Item) → Item → List (Key × List Item)
  | [], item => [(keyOf item, [item])]
  | (key, group) :: groups, item =>
      if key = keyOf item then (key, group ++ [item]) :: groups
      else (key, group) :: addToGroup keyOf groups item

def groupBy (keyOf : Item → Key) (items : List Item) : List (Key × List Item) :=
  items.foldl (addToGroup keyOf) []

/-- Each key has one group at most, of all the items that have it, in their order. -/
structure Grouped (keyOf : Item → Key) (items : List Item) (groups : List (Key × List Item)) :
    Prop where
  keys : (groups.map Prod.fst).Nodup
  mem_iff : ∀ key group, (key, group) ∈ groups ↔
    group = items.filter (fun item => decide (keyOf item = key)) ∧ group ≠ []

variable {keyOf : Item → Key} {items group : List Item} {groups : List (Key × List Item)}
  {item : Item} {key : Key}

theorem mem_keys_addToGroup :
    key ∈ (addToGroup keyOf groups item).map Prod.fst ↔
      key ∈ groups.map Prod.fst ∨ key = keyOf item := by
  induction groups with
  | nil => simp [addToGroup]
  | cons entry groups ih =>
      obtain ⟨other, members⟩ := entry
      rw [addToGroup]
      split
      · rename_i same
        simp only [List.map_cons, List.mem_cons, ← same]
        tauto
      · simp only [List.map_cons, List.mem_cons, ih, or_assoc]

theorem nodup_keys_addToGroup (distinct : (groups.map Prod.fst).Nodup) :
    ((addToGroup keyOf groups item).map Prod.fst).Nodup := by
  induction groups with
  | nil => simp [addToGroup]
  | cons entry groups ih =>
      obtain ⟨other, members⟩ := entry
      obtain ⟨fresh, rest⟩ := List.nodup_cons.mp distinct
      rw [addToGroup]
      split
      · exact distinct
      · rename_i different
        refine List.nodup_cons.mpr ⟨fun member => ?_, ih rest⟩
        rcases mem_keys_addToGroup.mp member with old | same
        · exact fresh old
        · exact different same

theorem mem_addToGroup_of_ne (other : key ≠ keyOf item) :
    (key, group) ∈ addToGroup keyOf groups item ↔ (key, group) ∈ groups := by
  induction groups with
  | nil => simp [addToGroup, other]
  | cons entry groups ih =>
      obtain ⟨first, members⟩ := entry
      rw [addToGroup]
      split
      · rename_i same
        have apart : key ≠ first := fun clash => other (clash.trans same)
        simp [apart]
      · rw [List.mem_cons, List.mem_cons, ih]

theorem mem_addToGroup_own (distinct : (groups.map Prod.fst).Nodup) :
    (keyOf item, group) ∈ addToGroup keyOf groups item ↔
      (keyOf item ∉ groups.map Prod.fst ∧ group = [item]) ∨
        ∃ before, (keyOf item, before) ∈ groups ∧ group = before ++ [item] := by
  induction groups with
  | nil => simp [addToGroup]
  | cons entry groups ih =>
      obtain ⟨first, members⟩ := entry
      obtain ⟨fresh, rest⟩ := List.nodup_cons.mp distinct
      rw [addToGroup]
      split
      · rename_i same
        subst same
        have absent (other : List Item) : (keyOf item, other) ∉ groups :=
          fun member => fresh (List.mem_map.mpr ⟨_, member, rfl⟩)
        simp [absent]
      · rename_i different
        have apart : keyOf item ≠ first := Ne.symm different
        simp [apart, ih rest]

theorem Grouped.add (grouped : Grouped keyOf items groups) :
    Grouped keyOf (items ++ [item]) (addToGroup keyOf groups item) where
  keys := nodup_keys_addToGroup grouped.keys
  mem_iff key group := by
    rw [List.filter_append]
    by_cases own : key = keyOf item
    · subst own
      have present : keyOf item ∈ groups.map Prod.fst ↔
          items.filter (fun other => decide (keyOf other = keyOf item)) ≠ [] := by
        constructor
        · intro member
          obtain ⟨⟨key, members⟩, listed, same⟩ := List.mem_map.mp member
          subst same
          obtain ⟨rfl, filled⟩ := (grouped.mem_iff _ _).mp listed
          exact filled
        · intro filled
          exact List.mem_map_of_mem ((grouped.mem_iff _ _).mpr ⟨rfl, filled⟩)
      have alone : [item].filter (fun other => decide (keyOf other = keyOf item)) = [item] := by
        simp
      rw [mem_addToGroup_own grouped.keys, alone, present]
      constructor
      · rintro (⟨missing, rfl⟩ | ⟨before, listed, rfl⟩)
        · simp [not_not.mp missing]
        · obtain ⟨rfl, _⟩ := (grouped.mem_iff _ _).mp listed
          simp
      · rintro ⟨rfl, _⟩
        by_cases missing : items.filter (fun other => decide (keyOf other = keyOf item)) = []
        · exact .inl ⟨not_not.mpr missing, by rw [missing, List.nil_append]⟩
        · exact .inr ⟨_, (grouped.mem_iff _ _).mpr ⟨rfl, missing⟩, rfl⟩
    · have none : [item].filter (fun other => decide (keyOf other = key)) = [] := by
        simp [Ne.symm own]
      rw [mem_addToGroup_of_ne own, none, List.append_nil]
      exact grouped.mem_iff key group

theorem grouped_groupBy (keyOf : Item → Key) (items : List Item) :
    Grouped keyOf items (groupBy keyOf items) := by
  induction items using List.reverseRecOn with
  | nil => exact ⟨List.nodup_nil, by simp [groupBy]⟩
  | append_singleton items item ih =>
      rw [groupBy, List.foldl_append]
      exact ih.add

end

/-! ## Prefixes within a budget -/

section

variable (size : Item → Nat)

def total : List Item → Nat
  | [] => 0
  | item :: items => size item + total items

def takeWithin : Nat → List Item → List Item
  | _, [] => []
  | budget, item :: items =>
      if size item > budget then [] else item :: takeWithin (budget - size item) items

/-- The longest of the prefixes whose total is within the budget. -/
structure LongestWithin (budget : Nat) (items taken : List Item) : Prop where
  isPrefix : taken <+: items
  fits : total size taken ≤ budget
  longest : ∀ other, other <+: items → total size other ≤ budget → other <+: taken

variable {size} {budget larger : Nat} {items : List Item}

theorem longestWithin_takeWithin :
    LongestWithin size budget items (takeWithin size budget items) := by
  induction items generalizing budget with
  | nil => exact ⟨List.prefix_refl [], Nat.zero_le budget, fun _ isPrefix _ => isPrefix⟩
  | cons item items ih =>
      rw [takeWithin]
      split
      · rename_i exceeds
        refine ⟨List.nil_prefix, Nat.zero_le budget, fun other isPrefix fits => ?_⟩
        cases other with
        | nil => exact List.prefix_refl []
        | cons first others =>
            obtain ⟨rfl, _⟩ := List.cons_prefix_cons.mp isPrefix
            simp only [total] at fits
            omega
      · rename_i within
        obtain ⟨shorter, fitted, longest⟩ := @ih (budget - size item)
        have spent : total size (item :: takeWithin size (budget - size item) items) ≤ budget := by
          simp only [total]
          omega
        refine ⟨List.cons_prefix_cons.mpr ⟨rfl, shorter⟩, spent, fun other isPrefix fits => ?_⟩
        cases other with
        | nil => exact List.nil_prefix
        | cons first others =>
            obtain ⟨rfl, others_prefix⟩ := List.cons_prefix_cons.mp isPrefix
            simp only [total] at fits
            exact List.cons_prefix_cons.mpr ⟨rfl, longest others others_prefix (by omega)⟩

theorem LongestWithin.mono {taken more : List Item} (longest : LongestWithin size budget items taken)
    (again : LongestWithin size larger items more) (grown : budget ≤ larger) :
    taken <+: more :=
  again.longest taken longest.isPrefix (longest.fits.trans grown)

end

end AgenticEnterprise.Library
