import AgenticEnterprise.Mcp.FileJail

/-! Which paths `resolve_in_root` accepts, against the rule its docstring states: a
relative path without `..` that stays below `ROOT`. -/

set_option autoImplicit false

namespace AgenticEnterprise.Mcp.PathRules

open Core Library FileTree FileJail

/-- A relative path with no `..` among its components. -/
def Plain (relativePath : String) : Prop :=
  isAbsolute relativePath = false ∧ ".." ∉ pathNames relativePath

section

variable (server : Server) (tree : FileTree ByteArray) (relativePath : String)

def Inside : Prop :=
  ∃ real, server.resolve tree (joined server.root relativePath) = .ok real ∧ server.root <+: real

/-- Only a plain path that resolves below `ROOT` is accepted, and every other one
raises `ValueError`. -/
structure PlainOnly : Prop where
  accepts : ∀ real, resolveInRoot server tree relativePath = .ok real →
    Plain relativePath ∧ Inside server tree relativePath
  refuses : ¬(Plain relativePath ∧ Inside server tree relativePath) →
    ∃ message, resolveInRoot server tree relativePath = .error (.valueError message)

end

section

variable {server : Server} {tree : FileTree ByteArray} {relativePath : String} {real : Path}

theorem resolveInRoot_ok_iff :
    resolveInRoot server tree relativePath = .ok real ↔
      server.resolve tree (joined server.root relativePath) = .ok real ∧ server.root <+: real := by
  unfold resolveInRoot
  rw [bind_eq_ok_iff]
  constructor
  · rintro ⟨candidate, resolved, kept⟩
    split at kept
    · rename_i below
      cases kept
      exact ⟨resolved, List.isPrefixOf_iff_prefix.mp below⟩
    · cases kept
  · rintro ⟨resolved, below⟩
    exact ⟨real, resolved, if_pos (List.isPrefixOf_iff_prefix.mpr below)⟩

theorem resolveInRoot_error {error : Exn}
    (failed : server.resolve tree (joined server.root relativePath) = .error error) :
    resolveInRoot server tree relativePath = .error error := by
  rw [resolveInRoot, failed]
  rfl

theorem resolveInRoot_outside
    (resolved : server.resolve tree (joined server.root relativePath) = .ok real)
    (apart : ¬server.root <+: real) :
    resolveInRoot server tree relativePath =
      .error (.valueError
        ("path escapes the agent files directory: " ++ Text.pyRepr relativePath)) := by
  rw [resolveInRoot, resolved]
  exact if_neg fun below => apart (List.isPrefixOf_iff_prefix.mp below)

/-- What is inside is accepted, however it is written. -/
theorem plainOnly_iff :
    PlainOnly server tree relativePath ↔
      (Plain relativePath ∨ ¬Inside server tree relativePath) ∧
        ∀ error, server.resolve tree (joined server.root relativePath) = .error error →
          ∃ message, error = .valueError message := by
  constructor
  · intro plainOnly
    constructor
    · by_contra broken
      obtain ⟨marked, inside⟩ := not_or.mp broken
      obtain ⟨real, resolved, below⟩ := not_not.mp inside
      exact marked (plainOnly.accepts real (resolveInRoot_ok_iff.mpr ⟨resolved, below⟩)).1
    · intro error failed
      have outside : ¬Inside server tree relativePath := by
        rintro ⟨real, resolved, _⟩
        rw [failed] at resolved
        cases resolved
      obtain ⟨message, raised⟩ := plainOnly.refuses fun both => outside both.2
      rw [resolveInRoot_error failed] at raised
      cases raised
      exact ⟨message, rfl⟩
  · rintro ⟨plain, raises⟩
    constructor
    · intro real accepted
      have inside : Inside server tree relativePath := ⟨real, resolveInRoot_ok_iff.mp accepted⟩
      exact ⟨plain.resolve_right (not_not.mpr inside), inside⟩
    · intro refused
      have outside : ¬Inside server tree relativePath := fun inside =>
        refused ⟨plain.resolve_right (not_not.mpr inside), inside⟩
      cases resolved : server.resolve tree (joined server.root relativePath) with
      | error error =>
          obtain ⟨message, rfl⟩ := raises error resolved
          exact ⟨message, resolveInRoot_error resolved⟩
      | ok real =>
          exact ⟨_, resolveInRoot_outside resolved fun below => outside ⟨real, resolved, below⟩⟩

end

/-- `ROOT` by its absolute path, and by a way up and back. -/
theorem marked_not_plainOnly :
    ¬PlainOnly linkedServer linkedTree "/srv/files" ∧
      ¬PlainOnly linkedServer linkedTree "docs/../../files" := by
  have absolute : resolveInRoot linkedServer linkedTree "/srv/files" = .ok ["srv", "files"] := by
    decide +kernel
  have dotted : resolveInRoot linkedServer linkedTree "docs/../../files" =
      .ok ["srv", "files"] := by
    decide +kernel
  constructor
  · intro plainOnly
    exact absurd (plainOnly.accepts _ absolute).1.1 (by decide)
  · intro plainOnly
    exact absurd (plainOnly.accepts _ dotted).1.2 (by decide)

end AgenticEnterprise.Mcp.PathRules
