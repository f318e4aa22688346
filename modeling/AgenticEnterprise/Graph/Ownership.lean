import AgenticEnterprise.Core.Settings
import AgenticEnterprise.Library.UniqueKeyTable

/-! Thread ownership: `app/graph/ownership.py` over the `thread_ownership` table.

Every function takes the transaction its session runs in. The two statements of
`claim_or_check` are separate definitions, so that requests can interleave
between them. -/

set_option autoImplicit false

namespace AgenticEnterprise.Graph.Ownership

open Core Library

abbrev ThreadOwnership := UniqueKeyTable String String

def isAdmin (settings : Settings) (username : String) : Bool :=
  decide (username = settings.demoUsername)

/-- The insert of `claim_or_check`; `none` while it has to wait. -/
def insertClaim (transaction : Nat) (table : ThreadOwnership) (threadId username : String) :
    Option ThreadOwnership :=
  table.insertOrIgnore transaction threadId username

/-- The select of `claim_or_check` and its comparison with the caller. -/
def checkOwner (transaction : Nat) (table : ThreadOwnership) (threadId username : String) : Bool :=
  decide (table.visible transaction threadId = some username)

def claimOrCheck (settings : Settings) (transaction : Nat) (table : ThreadOwnership)
    (threadId username : String) : Option (Bool × ThreadOwnership) :=
  if isAdmin settings username then
    some (true, table)
  else
    (insertClaim transaction table threadId username).map fun claimed =>
      (checkOwner transaction claimed threadId username, claimed)

def ownedThreadIds (transaction : Nat) (table : ThreadOwnership) (username : String) :
    List String :=
  ((table.visibleEntries transaction).filter fun entry => decide (entry.row = username)).map
    Entry.key

section

variable {settings : Settings} {transaction : Nat} {table after : ThreadOwnership}
  {threadId username owner : String} {granted : Bool}

theorem isAdmin_iff : isAdmin settings username = true ↔ username = settings.demoUsername := by
  simp [isAdmin]

/-- The three ways `claim_or_check` ends: the admin's shortcut, a visible row
that decides, or a new row of the caller's own. -/
theorem claimOrCheck_cases
    (executed : claimOrCheck settings transaction table threadId username = some (granted, after)) :
    (isAdmin settings username = true ∧ granted = true ∧ after = table) ∨
      (isAdmin settings username = false ∧ after = table ∧
        ∃ owner, table.visible transaction threadId = some owner ∧
          granted = decide (owner = username)) ∨
      (isAdmin settings username = false ∧ granted = true ∧ table.find? threadId = none ∧
        after.find? threadId = some ⟨threadId, username, some transaction⟩ ∧
        ∀ other, other ≠ threadId → after.find? other = table.find? other) := by
  unfold claimOrCheck at executed
  cases admin : isAdmin settings username with
  | true =>
      simp only [admin, ↓reduceIte, Option.some.injEq, Prod.mk.injEq] at executed
      obtain ⟨rfl, rfl⟩ := executed
      exact .inl ⟨rfl, rfl, rfl⟩
  | false =>
      simp only [admin, Bool.false_eq_true, ↓reduceIte, Option.map_eq_some_iff,
        Prod.mk.injEq] at executed
      obtain ⟨claimed, inserted, decided, rfl⟩ := executed
      rcases UniqueKeyTable.insertOrIgnore_cases inserted with
        ⟨rfl, owner, seen⟩ | ⟨missing, added, unchanged⟩
      · refine .inr (.inl ⟨rfl, rfl, owner, seen, ?_⟩)
        rw [← decided]
        simp [checkOwner, seen]
      · have own : claimed.visible transaction threadId = some username :=
          UniqueKeyTable.visible_eq_some_iff.mpr (.inr added)
        refine .inr (.inr ⟨rfl, ?_, missing, added, unchanged⟩)
        rw [← decided]
        simp [checkOwner, own]

/-- A committed row decides every later call: only its owner and the admin pass,
and the table stays as it is. -/
theorem claimOrCheck_of_committed (present : table.committed threadId = some owner)
    (executed : claimOrCheck settings transaction table threadId username = some (granted, after)) :
    after = table ∧ granted = (isAdmin settings username || decide (owner = username)) := by
  have seen : table.visible transaction threadId = some owner :=
    UniqueKeyTable.visible_of_committed present
  rcases claimOrCheck_cases executed with
    ⟨admin, rfl, rfl⟩ | ⟨admin, rfl, other, found, rfl⟩ | ⟨_, _, missing, _⟩
  · simp [admin]
  · rw [seen] at found
    cases found
    simp [admin]
  · rw [UniqueKeyTable.committed_eq_some_iff, missing] at present
    cases present

/-- A committed row outlasts every claim, whoever makes it and on which thread. -/
theorem committed_claimOrCheck {other : String} (present : table.committed other = some owner)
    (executed : claimOrCheck settings transaction table threadId username = some (granted, after)) :
    after.committed other = some owner := by
  rcases claimOrCheck_cases executed with
    ⟨_, _, rfl⟩ | ⟨_, rfl, _⟩ | ⟨_, _, missing, _, unchanged⟩
  · exact present
  · exact present
  · rw [UniqueKeyTable.committed_eq_some_iff] at present ⊢
    have different : other ≠ threadId := by
      intro same
      rw [same, missing] at present
      cases present
    rw [unchanged other different]
    exact present

theorem onlyWriter_claimOrCheck (only : table.OnlyWriter transaction)
    (executed : claimOrCheck settings transaction table threadId username = some (granted, after)) :
    after.OnlyWriter transaction := by
  unfold claimOrCheck at executed
  split at executed
  · cases executed
    exact only
  · obtain ⟨claimed, inserted, rest⟩ := Option.map_eq_some_iff.mp executed
    cases rest
    exact only.insertOrIgnore inserted

theorem mem_ownedThreadIds :
    threadId ∈ ownedThreadIds transaction table username ↔
      table.visible transaction threadId = some username := by
  rw [UniqueKeyTable.visible_eq_some_iff, UniqueKeyTable.find?_eq_some_iff,
    UniqueKeyTable.find?_eq_some_iff]
  simp only [ownedThreadIds, UniqueKeyTable.visibleEntries, List.mem_map, List.mem_filter,
    decide_eq_true_eq]
  constructor
  · intro owned
    obtain ⟨⟨key, row, writer⟩, ⟨⟨member, seen⟩, same⟩, keyed⟩ := owned
    dsimp only at seen same keyed
    subst same keyed
    rcases seen with rfl | rfl
    · exact .inl ⟨member, trivial⟩
    · exact .inr ⟨member, trivial⟩
  · intro present
    rcases present with ⟨member, _⟩ | ⟨member, _⟩
    · exact ⟨_, ⟨⟨member, .inl rfl⟩, rfl⟩, rfl⟩
    · exact ⟨_, ⟨⟨member, .inr rfl⟩, rfl⟩, rfl⟩

end

end AgenticEnterprise.Graph.Ownership
