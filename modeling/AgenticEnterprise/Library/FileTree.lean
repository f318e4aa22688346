import Mathlib.Data.List.Infix

/-! File trees with symbolic links. A path is the list of its names from the root
of the tree on. `Leads` says where a path leads to once its links are followed;
`walk` computes it, for a kernel or for a program that resolves a path itself. -/

set_option autoImplicit false

namespace AgenticEnterprise.Library

abbrev Path := List String

inductive Node (Content : Type) where
  | file (content : Content)
  | dir
  | link (target : String)
  deriving DecidableEq, Repr

/-- The nodes below the root directory; the first entry of a path counts. -/
abbrev FileTree (Content : Type) := List (Path × Node Content)

inductive Fault where
  | notFound
  | exists
  | notDirectory
  | isDirectory
  | loop
  | denied
  deriving DecidableEq, Repr

def pathNames (path : String) : List String :=
  (path.toList.splitOn '/').map String.ofList

def isAbsolute (path : String) : Bool :=
  path.toList.head? = some '/'

/-- Names that stand for a node of their own. -/
def Proper (name : String) : Prop :=
  name ≠ "" ∧ name ≠ "." ∧ name ≠ ".."

namespace FileTree

variable {Content : Type}

section

variable (tree : FileTree Content)

def find (path : Path) : Option (Node Content) :=
  if path = [] then some .dir else tree.lookup path

def put (path : Path) (node : Node Content) : FileTree Content :=
  (path, node) :: tree

def link? (path : Path) : Option String :=
  match tree.find path with
  | some (.link target) => some target
  | _ => none

/-- Where the names of a link's target start. -/
def origin (base : Path) (target : String) : Path :=
  if isAbsolute target then [] else base

/-- `Leads tree base names real`: from `base` on, the names lead to `real`. -/
inductive Leads : Path → List String → Path → Prop where
  | here {base} : Leads base [] base
  | stay {base name rest real} :
      name = "" ∨ name = "." → Leads base rest real → Leads base (name :: rest) real
  | up {base rest real} : Leads base.dropLast rest real → Leads base (".." :: rest) real
  | follow {base name rest target real} :
      Proper name → tree.link? (base ++ [name]) = some target →
      Leads (origin base target) (pathNames target ++ rest) real →
      Leads base (name :: rest) real
  | enter {base name rest real} :
      Proper name → tree.link? (base ++ [name]) = none → Leads (base ++ [name]) rest real →
      Leads base (name :: rest) real

def enterable (path : Path) : Except Fault Unit :=
  match tree.find path with
  | some .dir => .ok ()
  | some _ => .error .notDirectory
  | none => .error .notFound

/-- The names up to the first link, whose target `onward` goes on with. With `strict`,
what is walked through has to be a directory, as it has for a kernel. -/
def walkNames (strict : Bool) (onward : Path → List String → Except Fault Path) (base : Path) :
    List String → Except Fault Path
  | [] => .ok base
  | name :: rest =>
      match if strict then tree.enterable base else .ok () with
      | .error fault => .error fault
      | .ok () =>
          if name = "" ∨ name = "." then walkNames strict onward base rest
          else if name = ".." then walkNames strict onward base.dropLast rest
          else
            match tree.link? (base ++ [name]) with
            | some target => onward (origin base target) (pathNames target ++ rest)
            | none => walkNames strict onward (base ++ [name]) rest

/-- A walk that may follow so many links. -/
def walk (strict : Bool) : Nat → Path → List String → Except Fault Path
  | 0 => tree.walkNames strict fun _ _ => .error .loop
  | links + 1 => tree.walkNames strict (walk strict links)

/-! ## System calls -/

def maxLinks : Nat := 40

/-- The place of the node that a system call with a path is about. -/
def locate (path : Path) : Except Fault Path :=
  tree.walk true maxLinks [] path

/-- `mkdir` does not follow a link in the last place. -/
def makeDir (path : Path) : Except Fault (FileTree Content × Path) :=
  match tree.locate path.dropLast with
  | .error fault => .error fault
  | .ok parent =>
      match tree.enterable parent, path.getLast? with
      | .error fault, _ => .error fault
      | .ok (), none => .error .exists
      | .ok (), some name =>
          if (tree.find (parent ++ [name])).isSome then .error .exists
          else .ok (tree.put (parent ++ [name]) .dir, parent ++ [name])

/-- `open` for writing: the file is truncated, or created. -/
def openWrite (empty : Content) (path : Path) : Except Fault (FileTree Content × Path) :=
  match tree.locate path with
  | .error fault => .error fault
  | .ok real =>
      match tree.find real with
      | some .dir => .error .isDirectory
      | some (.link _) => .error .loop
      | some (.file _) | none => .ok (tree.put real (.file empty), real)

def openRead (path : Path) : Except Fault (Content × Path) :=
  match tree.locate path with
  | .error fault => .error fault
  | .ok real =>
      match tree.find real with
      | some (.file content) => .ok (content, real)
      | some .dir => .error .isDirectory
      | some (.link _) => .error .loop
      | none => .error .notFound

/-- What is written to a file that is open already. -/
def overwrite (change : Content → Content) (real : Path) : FileTree Content :=
  match tree.find real with
  | some (.file content) => tree.put real (.file (change content))
  | _ => tree

def nodeAt (path : Path) : Option (Node Content) :=
  match tree.locate path with
  | .ok real => tree.find real
  | .error _ => none

def isDir (path : Path) : Bool :=
  match tree.nodeAt path with
  | some .dir => true
  | _ => false

def namesIn (real : Path) : List String :=
  ((tree.map Prod.fst).dedup.filter fun path =>
    decide (path ≠ [] ∧ path.dropLast = real)).filterMap List.getLast?

def listDir (path : Path) : Except Fault (List String × Path) :=
  match tree.locate path with
  | .error fault => .error fault
  | .ok real => (tree.enterable real).map fun _ => (tree.namesIn real, real)

end

/-! ## Where paths lead -/

section

variable {tree next : FileTree Content} {base real other path : Path} {names : List String}

theorem find_put {node : Node Content} (below : real ≠ []) :
    (tree.put real node).find path = if path = real then some node else tree.find path := by
  by_cases top : path = []
  · subst top
    simp [find, Ne.symm below]
  · by_cases same : path = real
    · subst same
      simp [find, put, below]
    · simp [find, put, top, same, List.lookup_cons, beq_false_of_ne same]

/-- A path that no name of it leads away from. -/
structure Canonical (tree : FileTree Content) (path : Path) : Prop where
  proper : ∀ name ∈ path, Proper name
  linkFree : ∀ before, before <+: path → tree.link? before = none

theorem Canonical.of_prefix (canonical : Canonical tree path) {before : Path}
    (isPrefix : before <+: path) : Canonical tree before where
  proper name member := canonical.proper name (isPrefix.subset member)
  linkFree first inside := canonical.linkFree first (inside.trans isPrefix)

theorem Canonical.concat (canonical : Canonical tree base) {name : String} (proper : Proper name)
    (noLink : tree.link? (base ++ [name]) = none) : Canonical tree (base ++ [name]) where
  proper other member := by
    rcases List.mem_append.mp member with old | new
    · exact canonical.proper other old
    · obtain rfl := List.mem_singleton.mp new
      exact proper
  linkFree before inside := by
    rcases List.prefix_concat_iff.mp inside with rfl | shorter
    · exact noLink
    · exact canonical.linkFree before shorter

theorem canonical_nil : Canonical tree [] where
  proper _ member := by cases member
  linkFree before inside := by
    obtain rfl := List.prefix_nil.mp inside
    rfl

theorem Leads.canonical (leads : Leads tree base names real) (canonical : Canonical tree base) :
    Canonical tree real := by
  induction leads with
  | here => exact canonical
  | stay _ _ ih => exact ih canonical
  | up _ ih => exact ih (canonical.of_prefix (List.dropLast_prefix _))
  | @follow base name rest target real proper link _ ih =>
      apply ih
      unfold origin
      split
      · exact canonical_nil
      · exact canonical
  | enter proper noLink _ ih => exact ih (canonical.concat proper noLink)

/-- A canonical path leads to itself. -/
theorem Leads.eq_of_canonical (leads : Leads tree base names real)
    (canonical : Canonical tree (base ++ names)) : real = base ++ names := by
  induction leads with
  | here => simp
  | @stay base name rest real dots _ _ =>
      have proper := canonical.proper name (by simp)
      rcases dots with rfl | rfl
      · exact absurd rfl proper.1
      · exact absurd rfl proper.2.1
  | up =>
      have proper := canonical.proper ".." (by simp)
      exact absurd rfl proper.2.2
  | @follow base name rest target real _ link _ _ =>
      have noLink := canonical.linkFree (base ++ [name]) ⟨rest, by simp⟩
      rw [link] at noLink
      cases noLink
  | enter _ _ _ ih =>
      rw [List.append_cons] at canonical ⊢
      exact ih canonical

theorem Leads.unique (leads : Leads tree base names real) (again : Leads tree base names other) :
    real = other := by
  induction leads with
  | here =>
      cases again
      rfl
  | stay dots _ ih =>
      cases again with
      | stay _ rest => exact ih rest
      | up => exact absurd dots (by decide)
      | follow proper => exact absurd dots (not_or.mpr ⟨proper.1, proper.2.1⟩)
      | enter proper => exact absurd dots (not_or.mpr ⟨proper.1, proper.2.1⟩)
  | up _ ih =>
      cases again with
      | stay dots => exact absurd dots (by decide)
      | up rest => exact ih rest
      | follow proper => exact absurd rfl proper.2.2
      | enter proper => exact absurd rfl proper.2.2
  | follow proper link _ ih =>
      cases again with
      | stay dots => exact absurd dots (not_or.mpr ⟨proper.1, proper.2.1⟩)
      | up => exact absurd rfl proper.2.2
      | follow _ again rest =>
          rw [link, Option.some.injEq] at again
          subst again
          exact ih rest
      | enter _ noLink =>
          rw [link] at noLink
          cases noLink
  | enter proper noLink _ ih =>
      cases again with
      | stay dots => exact absurd dots (not_or.mpr ⟨proper.1, proper.2.1⟩)
      | up => exact absurd rfl proper.2.2
      | follow _ link =>
          rw [link] at noLink
          cases noLink
      | enter _ _ rest => exact ih rest

/-- Only the links of a tree decide where a path leads. -/
theorem Leads.congr (same : ∀ path, next.link? path = tree.link? path)
    (leads : Leads tree base names real) : Leads next base names real := by
  induction leads with
  | here => exact .here
  | stay dots _ ih => exact .stay dots ih
  | up _ ih => exact .up ih
  | follow proper link _ ih => exact .follow proper ((same _).trans link) ih
  | enter proper noLink _ ih => exact .enter proper ((same _).trans noLink) ih

theorem Canonical.congr (same : ∀ path, next.link? path = tree.link? path)
    (canonical : Canonical tree path) : Canonical next path where
  proper := canonical.proper
  linkFree before inside := (same before).trans (canonical.linkFree before inside)

theorem leads_of_walkNames {strict : Bool} {onward : Path → List String → Except Fault Path}
    (sound : ∀ {base names real}, onward base names = .ok real → Leads tree base names real)
    (walked : tree.walkNames strict onward base names = .ok real) :
    Leads tree base names real := by
  induction names generalizing base with
  | nil =>
      cases walked
      exact .here
  | cons name rest ih =>
      unfold walkNames at walked
      split at walked
      · cases walked
      · split at walked
        · rename_i dots
          exact .stay dots (ih walked)
        · rename_i dots
          obtain ⟨noName, noDot⟩ := not_or.mp dots
          split at walked
          · rename_i dotDot
            subst dotDot
            exact .up (ih walked)
          · rename_i noDotDot
            split at walked
            · rename_i target link
              exact .follow ⟨noName, noDot, noDotDot⟩ link (sound walked)
            · rename_i noLink
              exact .enter ⟨noName, noDot, noDotDot⟩ noLink (ih walked)

theorem leads_of_walk {strict : Bool} {links : Nat}
    (walked : tree.walk strict links base names = .ok real) : Leads tree base names real := by
  induction links generalizing base names real with
  | zero => exact leads_of_walkNames (fun absurdity => by cases absurdity) walked
  | succ links ih => exact leads_of_walkNames ih walked

/-- Without directories to walk through, only the links of a tree decide where a walk ends. -/
theorem walkNames_congr {onward again : Path → List String → Except Fault Path}
    (same : ∀ path, next.link? path = tree.link? path)
    (alike : ∀ base names, again base names = onward base names) :
    next.walkNames false again base names = tree.walkNames false onward base names := by
  induction names generalizing base with
  | nil => rfl
  | cons name rest ih =>
      simp only [walkNames, Bool.false_eq_true, if_false, same, ih, alike]

theorem walk_congr {links : Nat} (same : ∀ path, next.link? path = tree.link? path) :
    next.walk false links base names = tree.walk false links base names := by
  induction links generalizing base names with
  | zero => exact walkNames_congr same fun _ _ => rfl
  | succ links ih => exact walkNames_congr same fun _ _ => ih

theorem locate_eq (located : tree.locate path = .ok real) (canonical : Canonical tree path) :
    real = path :=
  (leads_of_walk located).eq_of_canonical canonical

/-- One node that is no link came or changed, and directories stayed directories. -/
structure Changes (tree next : FileTree Content) (real : Path) : Prop where
  elsewhere : ∀ path, path ≠ real → next.find path = tree.find path
  links : ∀ path, next.link? path = tree.link? path
  dirs : ∀ path, tree.find path = some .dir → next.find path = some .dir

theorem changes_put {node : Node Content} (noLink : ∀ target, node ≠ .link target)
    (before : tree.find real = none ∨ ∃ content, tree.find real = some (.file content)) :
    Changes tree (tree.put real node) real := by
  have below : real ≠ [] := by
    rintro rfl
    rcases before with absurdity | ⟨_, absurdity⟩ <;> cases absurdity
  refine ⟨fun path different => by simp [find_put below, different], fun path => ?_,
    fun path found => ?_⟩
  · by_cases same : path = real
    · subst same
      have absent : tree.link? path = none := by
        rcases before with found | ⟨_, found⟩ <;> simp [link?, found]
      rw [absent]
      cases node with
      | link target => exact absurd rfl (noLink target)
      | _ => simp [link?, find_put below]
    · simp [link?, find_put below, same]
  · have different : path ≠ real := by
      rintro rfl
      rcases before with absurdity | ⟨_, absurdity⟩ <;> (rw [found] at absurdity; cases absurdity)
    simp [find_put below, different, found]

theorem changes_overwrite {change : Content → Content} :
    Changes tree (tree.overwrite change real) real := by
  unfold overwrite
  split
  · rename_i content found
    exact changes_put (by simp) (.inr ⟨content, found⟩)
  · exact ⟨fun _ _ => rfl, fun _ => rfl, fun _ found => found⟩

theorem makeDir_ok (made : tree.makeDir path = .ok (next, real))
    (canonical : Canonical tree path) :
    real = path ∧ tree.find path = none ∧ Changes tree next path := by
  unfold makeDir at made
  split at made
  · cases made
  · rename_i parent located
    have same := locate_eq located (canonical.of_prefix (List.dropLast_prefix path))
    subst same
    split at made
    · cases made
    · cases made
    · rename_i name _ last
      split at made
      · cases made
      · rename_i absent
        cases made
        have whole : path.dropLast ++ [name] = path :=
          List.dropLast_append_getLast? name (by simpa using last)
        have missing : tree.find path = none := by simpa [whole] using absent
        rw [whole]
        exact ⟨rfl, missing, changes_put (by simp) (.inl missing)⟩

theorem openWrite_ok {empty : Content} (opened : tree.openWrite empty path = .ok (next, real))
    (canonical : Canonical tree path) : real = path ∧ Changes tree next path := by
  unfold openWrite at opened
  split at opened
  · cases opened
  · rename_i place located
    have same := locate_eq located canonical
    subst same
    split at opened
    · cases opened
    · cases opened
    · rename_i content found
      cases opened
      exact ⟨rfl, changes_put (by simp) (.inr ⟨content, found⟩)⟩
    · rename_i absent
      cases opened
      exact ⟨rfl, changes_put (by simp) (.inl absent)⟩

theorem openRead_ok {content : Content} (opened : tree.openRead path = .ok (content, real))
    (canonical : Canonical tree path) : real = path := by
  unfold openRead at opened
  split at opened
  · cases opened
  · rename_i place located
    split at opened
    · cases opened
      exact locate_eq located canonical
    · cases opened
    · cases opened
    · cases opened

theorem listDir_ok (listed : tree.listDir path = .ok (names, real))
    (canonical : Canonical tree path) : real = path := by
  unfold listDir at listed
  split at listed
  · cases listed
  · rename_i place located
    cases entered : tree.enterable place with
    | error fault =>
        rw [entered] at listed
        cases listed
    | ok =>
        rw [entered] at listed
        cases listed
        exact locate_eq located canonical

end

/-! ## Files that come and change -/

section

variable {tree next : FileTree Content} {base real path : Path} {names : List String}

/-- Every node is in a directory. -/
def Housed (tree : FileTree Content) : Prop :=
  ∀ path name, (tree.find (path ++ [name])).isSome → tree.find path = some .dir

theorem housed_of_entries (checked : ∀ entry ∈ tree, tree.find entry.1.dropLast = some .dir) :
    Housed tree := by
  intro path name present
  have below : path ++ [name] ≠ [] := by simp
  rw [find, if_neg below] at present
  obtain ⟨node, found⟩ := Option.isSome_iff_exists.mp present
  obtain ⟨before, after, rfl, _⟩ := List.lookup_eq_some_iff.mp found
  have parent := checked (path ++ [name], node) (by simp)
  rwa [List.dropLast_concat] at parent

theorem Housed.dir (housed : Housed tree) (present : (tree.find path).isSome) {before : Path}
    (isPrefix : before <+: path) (proper : before ≠ path) : tree.find before = some .dir := by
  induction path using List.reverseRecOn with
  | nil => exact absurd (List.prefix_nil.mp isPrefix) proper
  | append_singleton init name ih =>
      have parent := housed init name present
      rcases List.prefix_concat_iff.mp isPrefix with whole | shorter
      · exact absurd whole proper
      · by_cases same : before = init
        · exact same ▸ parent
        · exact ih (by rw [parent]; rfl) shorter same

theorem enterable_ok_iff : tree.enterable path = .ok () ↔ tree.find path = some .dir := by
  unfold enterable
  split
  · rename_i found
    simp [found]
  · rename_i other found
    simpa [found] using other
  · rename_i missing
    simp [missing]

/-- A kernel walks along a canonical path through directories only. -/
theorem walkNames_canonical_iff {onward : Path → List String → Except Fault Path}
    (canonical : Canonical tree (base ++ names)) :
    tree.walkNames true onward base names = .ok (base ++ names) ↔
      ∀ before, before <+: names → before ≠ names → tree.find (base ++ before) = some .dir := by
  induction names generalizing base with
  | nil =>
      rw [walkNames, List.append_nil]
      exact iff_of_true rfl fun before isPrefix proper =>
        absurd (List.prefix_nil.mp isPrefix) proper
  | cons name rest ih =>
      have proper := canonical.proper name (by simp)
      have noLink : tree.link? (base ++ [name]) = none :=
        canonical.linkFree _ ⟨rest, by simp⟩
      by_cases entered : tree.find base = some .dir
      · have walked : tree.walkNames true onward base (name :: rest) =
            tree.walkNames true onward (base ++ [name]) rest := by
          rw [walkNames, if_pos rfl, enterable_ok_iff.mpr entered]
          simp only [proper.1, proper.2.1, proper.2.2, or_self, if_false, noLink]
        have whole := List.append_cons base name rest
        rw [whole] at canonical ⊢
        rw [walked, ih canonical]
        constructor
        · intro dirs before isPrefix different
          cases before with
          | nil => simpa using entered
          | cons first others =>
              obtain ⟨rfl, shorter⟩ := List.cons_prefix_cons.mp isPrefix
              rw [List.append_cons]
              exact dirs others shorter fun same => different (by rw [same])
        · intro dirs before isPrefix different
          rw [List.append_assoc, List.singleton_append]
          exact dirs (name :: before) (List.cons_prefix_cons.mpr ⟨rfl, isPrefix⟩)
            fun same => different (List.cons_eq_cons.mp same).2
      · have refused : tree.enterable base ≠ .ok () := fun ok => entered (enterable_ok_iff.mp ok)
        refine iff_of_false (fun walked => ?_) fun dirs => ?_
        · rw [walkNames, if_pos rfl] at walked
          cases checked : tree.enterable base with
          | error fault =>
              rw [checked] at walked
              cases walked
          | ok => exact refused checked
        · exact entered (by simpa using dirs [] List.nil_prefix (by simp))

theorem locate_canonical_iff (canonical : Canonical tree path) :
    tree.locate path = .ok path ↔
      ∀ before, before <+: path → before ≠ path → tree.find before = some .dir :=
  @walkNames_canonical_iff _ tree [] path _ canonical

theorem nodeAt_of_canonical (canonical : Canonical tree path) (housed : Housed tree) :
    tree.nodeAt path = tree.find path := by
  unfold nodeAt
  split
  · rename_i place located
    rw [locate_eq located canonical]
  · rename_i fault lost
    have absent : ¬(tree.find path).isSome := fun present => by
      have located := (locate_canonical_iff canonical).mpr fun _ => housed.dir present
      rw [lost] at located
      cases located
    exact (Option.not_isSome_iff_eq_none.mp absent).symm

/-- Nothing but directories came. -/
def AddsDirs (tree next : FileTree Content) : Prop :=
  ∀ path, next.find path = tree.find path ∨ tree.find path = none ∧ next.find path = some .dir

theorem addsDirs_refl : AddsDirs tree tree := fun _ => .inl rfl

theorem AddsDirs.trans {last : FileTree Content} (adds : AddsDirs tree next)
    (more : AddsDirs next last) : AddsDirs tree last := by
  intro path
  rcases more path with same | ⟨missing, made⟩
  · rw [same]
    exact adds path
  · rcases adds path with before | ⟨_, dir⟩
    · exact .inr ⟨before ▸ missing, made⟩
    · rw [missing] at dir
      cases dir

theorem AddsDirs.find_file_iff (adds : AddsDirs tree next) {content : Content} :
    next.find path = some (.file content) ↔ tree.find path = some (.file content) := by
  rcases adds path with same | ⟨missing, made⟩
  · rw [same]
  · simp [missing, made]

theorem AddsDirs.link? (adds : AddsDirs tree next) : next.link? path = tree.link? path := by
  rcases adds path with same | ⟨missing, made⟩
  · simp only [FileTree.link?, same]
  · simp only [FileTree.link?, missing, made]

theorem addsDirs_put (missing : tree.find real = none) : AddsDirs tree (tree.put real .dir) := by
  have below : real ≠ [] := by
    rintro rfl
    cases missing
  intro path
  by_cases same : path = real
  · subst same
    exact .inr ⟨missing, by simp [find_put below]⟩
  · exact .inl (by simp [find_put below, same])

theorem makeDir_addsDirs (made : tree.makeDir path = .ok (next, real)) : AddsDirs tree next := by
  unfold makeDir at made
  split at made
  · cases made
  · split at made
    · cases made
    · cases made
    · split at made
      · cases made
      · rename_i absent
        cases made
        exact addsDirs_put (by simpa using absent)

/-- A file with this content came, or another content of it went, and perhaps
directories came. -/
structure Stores (tree next : FileTree Content) (real : Path) (content : Content) : Prop where
  opens : next.openRead real = .ok (content, real)
  before : tree.find real = none ∨ ∃ old, tree.find real = some (.file old)
  elsewhere : ∀ path, path ≠ real →
    next.find path = tree.find path ∨ tree.find path = none ∧ next.find path = some .dir

theorem openRead_ok_iff {content : Content} (canonical : Canonical tree path) :
    tree.openRead path = .ok (content, path) ↔
      tree.locate path = .ok path ∧ tree.find path = some (.file content) := by
  unfold openRead
  cases located : tree.locate path with
  | error fault => simp
  | ok real =>
      obtain rfl := locate_eq located canonical
      dsimp only
      split
      · rename_i other found
        simp [found]
      all_goals
        rename_i found
        simp [found]

section

variable {content : Content}

theorem openRead_nodeAt (opened : tree.openRead path = .ok (content, real)) :
    tree.nodeAt path = some (.file content) := by
  unfold openRead at opened
  unfold nodeAt
  split at opened
  · cases opened
  · rename_i place located
    split at opened
    · rename_i found
      cases opened
      rw [located]
      exact found
    all_goals cases opened

theorem openRead_find (opened : tree.openRead path = .ok (content, real)) :
    tree.find real = some (.file content) := by
  unfold openRead at opened
  split at opened
  · cases opened
  · split at opened
    · rename_i found
      cases opened
      exact found
    all_goals cases opened

theorem Stores.find (stores : Stores tree next real content) :
    next.find real = some (.file content) :=
  openRead_find stores.opens

theorem put_opens (canonical : Canonical tree real) (located : tree.locate real = .ok real)
    (before : tree.find real = none ∨ ∃ old, tree.find real = some (.file old)) :
    (tree.put real (.file content)).openRead real = .ok (content, real) := by
  have changes : Changes tree (tree.put real (.file content)) real := changes_put (by simp) before
  have below : real ≠ [] := by
    rintro rfl
    rcases before with absurdity | ⟨_, absurdity⟩ <;> cases absurdity
  have dirs := (locate_canonical_iff canonical).mp located
  have after : Canonical (tree.put real (.file content)) real := canonical.congr changes.links
  rw [openRead_ok_iff after, locate_canonical_iff after]
  exact ⟨fun path isPrefix proper => changes.dirs path (dirs path isPrefix proper),
    by simp [find_put below]⟩

theorem openWrite_stores (opened : tree.openWrite content path = .ok (next, real))
    (canonical : Canonical tree path) : real = path ∧ Stores tree next path content := by
  unfold openWrite at opened
  split at opened
  · cases opened
  · rename_i place located
    obtain rfl := locate_eq located canonical
    have stored (before : tree.find place = none ∨ ∃ old, tree.find place = some (.file old)) :
        Stores tree (tree.put place (.file content)) place content :=
      ⟨put_opens canonical located before, before,
        fun path different => .inl ((changes_put (by simp) before).elsewhere path different)⟩
    split at opened
    · cases opened
    · cases opened
    · rename_i old found
      cases opened
      exact ⟨rfl, stored (.inr ⟨old, found⟩)⟩
    · rename_i missing
      cases opened
      exact ⟨rfl, stored (.inl missing)⟩

theorem Stores.of_addsDirs {middle : FileTree Content} (adds : AddsDirs tree middle)
    (stores : Stores middle next real content) : Stores tree next real content where
  opens := stores.opens
  before := by
    rcases stores.before with missing | ⟨old, found⟩
    · rcases adds real with same | ⟨_, dir⟩
      · exact .inl (same ▸ missing)
      · rw [missing] at dir
        cases dir
    · exact .inr ⟨old, adds.find_file_iff.mp found⟩
  elsewhere path different := by
    rcases stores.elsewhere path different with same | ⟨missing, made⟩
    · rw [same]
      exact adds path
    · rcases adds path with before | ⟨_, dir⟩
      · exact .inr ⟨before ▸ missing, made⟩
      · rw [missing] at dir
        cases dir

theorem Stores.overwrite (stores : Stores tree next real content)
    (canonical : Canonical next real) (change : Content → Content) :
    Stores tree (next.overwrite change real) real (change content) := by
  obtain ⟨located, found⟩ := (openRead_ok_iff canonical).mp stores.opens
  have file : next.find real = none ∨ ∃ old, next.find real = some (.file old) :=
    .inr ⟨content, found⟩
  have put : next.overwrite change real = next.put real (.file (change content)) := by
    rw [FileTree.overwrite, found]
  rw [put]
  refine ⟨put_opens canonical located file, stores.before, fun path different => ?_⟩
  rw [(changes_put (by simp) file).elsewhere path different]
  exact stores.elsewhere path different

theorem Stores.link? (stores : Stores tree next real content) :
    next.link? path = tree.link? path := by
  have found := stores.find
  by_cases same : path = real
  · subst same
    rcases stores.before with missing | ⟨old, before⟩
    · simp only [FileTree.link?, found, missing]
    · simp only [FileTree.link?, found, before]
  · rcases stores.elsewhere path same with unchanged | ⟨missing, made⟩
    · simp only [FileTree.link?, unchanged]
    · simp only [FileTree.link?, missing, made]

end

end

end FileTree

end AgenticEnterprise.Library
