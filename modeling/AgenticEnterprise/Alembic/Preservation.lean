import AgenticEnterprise.Alembic.Versions
import AgenticEnterprise.Library.Runs

/-! What the migrations do to tables they do not own: the checkpoint tables of
LangGraph's saver. -/

set_option autoImplicit false

namespace AgenticEnterprise.Alembic.Preservation

open Library Catalog Versions

variable {Row : Type}

/-! ## Reachable databases -/

def saverTables : List (String × TableDefinition) :=
  [ ("checkpoints", checkpoints), ("checkpoint_blobs", checkpointBlobs),
    ("checkpoint_migrations", checkpointMigrations), ("checkpoint_writes", checkpointWrites) ]

/-- Each index with its table. -/
def saverIndexes : List (String × String) :=
  [ ("checkpoints_thread_id_idx", "checkpoints"),
    ("checkpoint_blobs_thread_id_idx", "checkpoint_blobs"),
    ("checkpoint_writes_thread_id_idx", "checkpoint_writes") ]

def saverNames : List String :=
  saverTables.map Prod.fst ++ saverIndexes.map Prod.fst

/-- A relation under one of the saver's names is of the saver's kind. -/
structure SaverShape (name : String) (relation : Relation TableDefinition Row) : Prop where
  table : name ∈ saverTables.map Prod.fst → ∃ definition rows, relation = .table definition rows
  index : ∀ owner, (name, owner) ∈ saverIndexes →
    ∃ columns unique, relation = .index owner columns unique

def SaverLayout (database : Database TableDefinition Row) : Prop :=
  ∀ name relation, database name = some relation → SaverShape name relation

/-- `saver.setup()` of any release, with any rows of its own. -/
structure SaverSetup (before after : Database TableDefinition Row) : Prop where
  others : ∀ name, name ∉ saverNames → after name = before name
  layout : SaverLayout after

/-- Inserts, updates and deletes: any change to the rows of any tables. -/
def RowsWritten (before after : Database TableDefinition Row) : Prop :=
  ∀ name,
    after name = before name ∨
      ∃ definition rows written, before name = some (.table definition rows) ∧
        after name = some (.table definition written)

inductive Change where
  | upgrade (revision : Revision)
  | downgrade (revision : Revision)
  | saverSetup
  | write
  deriving DecidableEq, Repr

structure State (Row : Type) where
  version : Option Revision
  database : Database TableDefinition Row

inductive Step : State Row → Change → State Row → Prop where
  | upgrade {revision before after} :
      executeAll (upgrade revision) before = .ok after →
      Step ⟨downRevision revision, before⟩ (.upgrade revision) ⟨some revision, after⟩
  | downgrade {revision before after} :
      executeAll (downgrade revision) before = .ok after →
      Step ⟨some revision, before⟩ (.downgrade revision) ⟨downRevision revision, after⟩
  | saverSetup {version before after} :
      SaverSetup before after → Step ⟨version, before⟩ .saverSetup ⟨version, after⟩
  | write {version before after} :
      RowsWritten before after → Step ⟨version, before⟩ .write ⟨version, after⟩

/-- Databases at a revision of the chain, from an empty database on. -/
def Reachable (revision : Revision) (database : Database TableDefinition Row) : Prop :=
  ∃ changes, Runs Step ⟨none, fun _ => none⟩ changes ⟨some revision, database⟩

/-- The remaining upgrades succeed and change no row of an existing table, and
the matching downgrades bring back the tables with their rows. -/
def Preserves (revision : Revision) (database : Database TableDefinition Row) : Prop :=
  ∃ head, executeAll (upgradeToHead revision) database = .ok head ∧
    (∀ {name definition rows}, tables database name = some (definition, rows) →
      rowsOf head name = rows) ∧
    ∃ restored, executeAll (downgradeFromHead revision) head = .ok restored ∧
      tables restored = tables database

/-! ## The layout of a reachable database -/

structure Layout (state : State Row) : Prop where
  saver : SaverLayout state.database
  balanceQueryEvents : state.version = none ∨ state.version = some .baseline →
    state.database "balance_query_events" = none
  codeExecutionEvents : state.version ≠ some .codeExecutionEvents →
    state.database "code_execution_events" = none

/-- A statement creates under the saver's names only what belongs there. -/
def fitsSaver : Statement TableDefinition → Bool
  | .createTable name _ => decide (name ∉ saverIndexes.map Prod.fst)
  | .createIndex name table _ _ =>
      decide (name ∉ saverTables.map Prod.fst) &&
        saverIndexes.all fun entry => decide (entry.1 = name → entry.2 = table)
  | .dropTable _ | .dropIndex _ => true

theorem saverShape_of_fits {statement : Statement TableDefinition} {name : String}
    {relation : Relation TableDefinition Row} (fits : fitsSaver statement = true)
    (created : statement.created = some (name, relation)) : SaverShape name relation := by
  cases statement with
  | createTable target definition =>
      simp only [Statement.created, Option.some.injEq, Prod.mk.injEq] at created
      obtain ⟨rfl, rfl⟩ := created
      refine ⟨fun _ => ⟨definition, [], rfl⟩, fun owner member => ?_⟩
      have absent : target ∉ saverIndexes.map Prod.fst := by simpa [fitsSaver] using fits
      exact absurd (List.mem_map_of_mem member) absent
  | createIndex target table columns unique =>
      simp only [Statement.created, Option.some.injEq, Prod.mk.injEq] at created
      obtain ⟨rfl, rfl⟩ := created
      simp only [fitsSaver, Bool.and_eq_true, decide_eq_true_eq, List.all_eq_true] at fits
      refine ⟨fun member => absurd member fits.1, fun owner member => ⟨columns, unique, ?_⟩⟩
      have same : owner = table := fits.2 (target, owner) member rfl
      rw [same]
  | dropTable => cases created
  | dropIndex => cases created

theorem upgrade_fitsSaver (revision : Revision) :
    ∀ statement ∈ upgrade revision, fitsSaver statement = true := by
  cases revision <;> decide

theorem downgrade_fitsSaver (revision : Revision) :
    ∀ statement ∈ downgrade revision, fitsSaver statement = true := by
  cases revision <;> decide

theorem SaverLayout.executeAll {statements : List (Statement TableDefinition)}
    {database last : Database TableDefinition Row} (layout : SaverLayout database)
    (fits : ∀ statement ∈ statements, fitsSaver statement = true)
    (executed : Catalog.executeAll statements database = .ok last) : SaverLayout last := by
  intro name relation present
  rcases executeAll_origin executed present with before | ⟨statement, member, created⟩
  · exact layout name relation before
  · exact saverShape_of_fits (fits statement member) created

theorem SaverLayout.rowsWritten {before after : Database TableDefinition Row}
    (layout : SaverLayout before) (written : RowsWritten before after) : SaverLayout after := by
  intro name relation present
  rcases written name with same | ⟨definition, rows, others, earlier, later⟩
  · exact layout name relation (same ▸ present)
  · rw [later, Option.some.injEq] at present
    subst present
    refine ⟨fun _ => ⟨definition, others, rfl⟩, fun owner member => ?_⟩
    obtain ⟨columns, unique, different⟩ := (layout name _ earlier).index owner member
    cases different

theorem rowsWritten_absent {before after : Database TableDefinition Row} {name : String}
    (written : RowsWritten before after) (absent : before name = none) : after name = none := by
  rcases written name with same | ⟨definition, rows, others, earlier, later⟩
  · rw [same, absent]
  · rw [absent] at earlier
    cases earlier

theorem Layout.step {before after : State Row} {change : Change} (layout : Layout before)
    (taken : Step before change after) : Layout after := by
  obtain ⟨saver, noBalance, noCode⟩ := layout
  cases taken with
  | @upgrade revision before after executed =>
      refine ⟨saver.executeAll (upgrade_fitsSaver revision) executed, ?_, ?_⟩
      · intro early
        cases revision with
        | baseline => exact executeAll_absent executed (by decide) (noBalance (.inl rfl))
        | balanceQueryEvents => simp at early
        | codeExecutionEvents => simp at early
      · intro notHead
        cases revision with
        | baseline => exact executeAll_absent executed (by decide) (noCode (by simp [downRevision]))
        | balanceQueryEvents =>
            exact executeAll_absent executed (by decide) (noCode (by simp [downRevision]))
        | codeExecutionEvents => exact absurd rfl notHead
  | @downgrade revision before after executed =>
      refine ⟨saver.executeAll (downgrade_fitsSaver revision) executed, ?_, ?_⟩
      · intro early
        cases revision with
        | baseline => exact executeAll_absent executed (by decide) (noBalance (.inr rfl))
        | balanceQueryEvents => exact dropped_table executed (by decide) (by decide)
        | codeExecutionEvents => simp [downRevision] at early
      · intro _
        cases revision with
        | baseline => exact executeAll_absent executed (by decide) (noCode (by simp))
        | balanceQueryEvents => exact executeAll_absent executed (by decide) (noCode (by simp))
        | codeExecutionEvents => exact dropped_table executed (by decide) (by decide)
  | saverSetup setup =>
      refine ⟨setup.layout, fun early => ?_, fun notHead => ?_⟩
      · exact (setup.others _ (by decide)).trans (noBalance early)
      · exact (setup.others _ (by decide)).trans (noCode notHead)
  | write written =>
      exact ⟨saver.rowsWritten written,
        fun early => rowsWritten_absent written (noBalance early),
        fun notHead => rowsWritten_absent written (noCode notHead)⟩

theorem Layout.runs {first last : State Row} {changes : List Change} (layout : Layout first)
    (run : Runs Step first changes last) : Layout last :=
  run.invariant (fun layout taken => layout.step taken) layout

theorem Reachable.layout {revision : Revision} {database : Database TableDefinition Row}
    (reachable : Reachable revision database) : Layout ⟨some revision, database⟩ := by
  obtain ⟨changes, run⟩ := reachable
  have initially : Layout (⟨none, fun _ => none⟩ : State Row) :=
    ⟨fun _ _ present => (by cases present), fun _ => rfl, fun _ => rfl⟩
  exact initially.runs run

/-! ## The way to head and back -/

theorem lookup_of_not_mem {Value : Type} {entries : List (String × Value)} {name : String}
    (outside : name ∉ entries.map Prod.fst) : entries.lookup name = none := by
  rw [List.lookup_eq_none_iff]
  intro entry member
  have different : name ≠ entry.1 := fun same => outside (same ▸ List.mem_map_of_mem member)
  simpa using different

theorem not_mem_of_lookup {Value : Type} {entries : List (String × Value)} {name : String}
    (unlisted : entries.lookup name = none) : name ∉ entries.map Prod.fst := by
  intro member
  obtain ⟨entry, listed, rfl⟩ := List.mem_map.mp member
  simpa using List.lookup_eq_none_iff.mp unlisted entry listed

theorem mem_of_lookup {Value : Type} {entries : List (String × Value)} {name : String}
    {value : Value} (listed : entries.lookup name = some value) : (name, value) ∈ entries := by
  obtain ⟨before, after, split, _⟩ := List.lookup_eq_some_iff.mp listed
  simp [split]

/-- The checkpoint tables as the last downgrade creates them, with no rows. -/
structure SaverPristine (database : Database TableDefinition Row) : Prop where
  empty : ∀ entry ∈ saverTables, database entry.1 = some (.table entry.2 [])
  indexed : ∀ entry ∈ saverIndexes, database entry.1 ≠ none

variable {revision : Revision} {database head restored : Database TableDefinition Row}

theorem upgradeToHead_succeeds (layout : Layout ⟨some revision, database⟩)
    (pristine : SaverPristine database) :
    ∃ head, executeAll (upgradeToHead revision) database = .ok head := by
  have checkpointsTable := pristine.empty ("checkpoints", checkpoints) (by decide)
  have blobsTable := pristine.empty ("checkpoint_blobs", checkpointBlobs) (by decide)
  have migrationsTable := pristine.empty ("checkpoint_migrations", checkpointMigrations) (by decide)
  have writesTable := pristine.empty ("checkpoint_writes", checkpointWrites) (by decide)
  have index (name owner : String) (member : (name, owner) ∈ saverIndexes) :
      ∃ columns unique, database name = some (.index owner columns unique) := by
    cases present : database name with
    | none => exact absurd present (pristine.indexed _ member)
    | some relation =>
        obtain ⟨columns, unique, rfl⟩ := (layout.saver _ _ present).index owner member
        exact ⟨columns, unique, rfl⟩
  obtain ⟨_, _, checkpointsIndex⟩ := index "checkpoints_thread_id_idx" "checkpoints" (by decide)
  obtain ⟨_, _, blobsIndex⟩ := index "checkpoint_blobs_thread_id_idx" "checkpoint_blobs" (by decide)
  obtain ⟨_, _, writesIndex⟩ :=
    index "checkpoint_writes_thread_id_idx" "checkpoint_writes" (by decide)
  cases revision with
  | codeExecutionEvents => exact ⟨database, rfl⟩
  | balanceQueryEvents =>
      have noCode : database "code_execution_events" = none := layout.codeExecutionEvents (by simp)
      simp [upgradeToHead, remaining, upgrade, executeAll, execute, withoutTable,
        checkpointsTable, blobsTable, migrationsTable,
        writesTable, checkpointsIndex, blobsIndex, writesIndex, noCode]
  | baseline =>
      have noCode : database "code_execution_events" = none := layout.codeExecutionEvents (by simp)
      have noBalance : database "balance_query_events" = none :=
        layout.balanceQueryEvents (.inr rfl)
      simp [upgradeToHead, remaining, upgrade, executeAll, execute, withoutTable,
        checkpointsTable, blobsTable, migrationsTable,
        writesTable, checkpointsIndex, blobsIndex, writesIndex, noCode, noBalance]

theorem drops_saver (notHead : revision ≠ .codeExecutionEvents) :
    (∀ entry ∈ saverTables, .dropTable entry.1 ∈ upgradeToHead revision ∧
      entry.1 ∉ (upgradeToHead revision).filterMap Statement.createdName) ∧
    ∀ entry ∈ saverIndexes, .dropIndex entry.1 ∈ upgradeToHead revision ∧
      entry.1 ∉ (upgradeToHead revision).filterMap Statement.createdName := by
  cases revision with
  | codeExecutionEvents => exact absurd rfl notHead
  | balanceQueryEvents => decide
  | baseline => decide

/-- The tables the remaining upgrades create. -/
def addedTables : Revision → List String
  | .baseline => ["balance_query_events", "code_execution_events"]
  | .balanceQueryEvents => ["code_execution_events"]
  | .codeExecutionEvents => []

theorem tableNames_upgradeToHead {name : String}
    (named : name ∈ (upgradeToHead revision).filterMap Statement.tableName) :
    name ∈ saverTables.map Prod.fst ∨ name ∈ addedTables revision := by
  rw [← List.mem_append]
  revert name
  cases revision <;> decide

theorem tableNames_downgradeFromHead {name : String}
    (named : name ∈ (downgradeFromHead revision).filterMap Statement.tableName) :
    name ∈ saverTables.map Prod.fst ∨ name ∈ addedTables revision := by
  rw [← List.mem_append]
  revert name
  cases revision <;> decide

/-- There and back, the saver's tables come out empty and the added ones are
gone, whatever was there before. -/
theorem onTables_roundTrip (notHead : revision ≠ .codeExecutionEvents)
    (present : String → Option (TableDefinition × List Row)) (name : String) :
    onTables (downgradeFromHead revision) (onTables (upgradeToHead revision) present) name =
      match saverTables.lookup name with
      | some definition => some (definition, [])
      | none => if name ∈ addedTables revision then none else present name := by
  by_cases saver : name ∈ saverTables.map Prod.fst
  · simp only [saverTables, List.map_cons, List.map_nil, List.mem_cons, List.not_mem_nil,
      or_false] at saver
    rcases saver with rfl | rfl | rfl | rfl <;> cases revision <;>
      first | exact absurd rfl notHead | rfl
  · rw [lookup_of_not_mem saver]
    by_cases added : name ∈ addedTables revision
    · rw [if_pos added]
      cases revision with
      | codeExecutionEvents => cases added
      | balanceQueryEvents =>
          obtain rfl := List.mem_singleton.mp added
          rfl
      | baseline =>
          simp only [addedTables, List.mem_cons, List.not_mem_nil, or_false] at added
          rcases added with rfl | rfl <;> rfl
    · have others := not_or.mpr ⟨saver, added⟩
      rw [if_neg added, onTables_of_untouched (mt tableNames_downgradeFromHead others),
        onTables_of_untouched (mt tableNames_upgradeToHead others)]

theorem downgradeFromHead_succeeds (notHead : revision ≠ .codeExecutionEvents)
    (upgraded : executeAll (upgradeToHead revision) database = .ok head) :
    ∃ restored, executeAll (downgradeFromHead revision) head = .ok restored := by
  have noTable (entry) (member : entry ∈ saverTables) : head entry.1 = none :=
    have drops := (drops_saver notHead).1 entry member
    dropped_table upgraded drops.1 drops.2
  have noIndex (entry) (member : entry ∈ saverIndexes) : head entry.1 = none :=
    have drops := (drops_saver notHead).2 entry member
    dropped_index upgraded drops.1 drops.2
  have noCheckpoints := noTable ("checkpoints", checkpoints) (by decide)
  have noBlobs := noTable ("checkpoint_blobs", checkpointBlobs) (by decide)
  have noMigrations := noTable ("checkpoint_migrations", checkpointMigrations) (by decide)
  have noWrites := noTable ("checkpoint_writes", checkpointWrites) (by decide)
  have noCheckpointsIndex := noIndex ("checkpoints_thread_id_idx", "checkpoints") (by decide)
  have noBlobsIndex := noIndex ("checkpoint_blobs_thread_id_idx", "checkpoint_blobs") (by decide)
  have noWritesIndex :=
    noIndex ("checkpoint_writes_thread_id_idx", "checkpoint_writes") (by decide)
  have after := tables_executeAll upgraded
  cases revision with
  | codeExecutionEvents => exact absurd rfl notHead
  | balanceQueryEvents =>
      have code : head "code_execution_events" = some (.table codeExecutionEvents []) := by
        rw [← tables_eq_some_iff, after]
        simp [onTables, upgradeToHead, remaining, upgrade, Statement.onTables]
      simp [downgradeFromHead, remaining, downgrade, executeAll, execute, noCheckpoints, noBlobs,
        noMigrations, noWrites, noCheckpointsIndex, noBlobsIndex, noWritesIndex, code]
  | baseline =>
      have code : head "code_execution_events" = some (.table codeExecutionEvents []) := by
        rw [← tables_eq_some_iff, after]
        simp [onTables, upgradeToHead, remaining, upgrade, Statement.onTables]
      have balance : head "balance_query_events" = some (.table balanceQueryEvents []) := by
        rw [← tables_eq_some_iff, after]
        simp [onTables, upgradeToHead, remaining, upgrade, Statement.onTables]
      simp [downgradeFromHead, remaining, downgrade, executeAll, execute, withoutTable,
        noCheckpoints, noBlobs, noMigrations, noWrites, noCheckpointsIndex, noBlobsIndex,
        noWritesIndex, code, balance]

theorem addedTables_absent (layout : Layout ⟨some revision, database⟩) {name : String}
    (added : name ∈ addedTables revision) : database name = none := by
  cases revision with
  | codeExecutionEvents => cases added
  | balanceQueryEvents =>
      obtain rfl := List.mem_singleton.mp added
      exact layout.codeExecutionEvents (by simp)
  | baseline =>
      simp only [addedTables, List.mem_cons, List.not_mem_nil, or_false] at added
      rcases added with rfl | rfl
      · exact layout.balanceQueryEvents (.inr rfl)
      · exact layout.codeExecutionEvents (by simp)

theorem SaverPristine.of_preserves (notHead : revision ≠ .codeExecutionEvents)
    (preserves : Preserves revision database) : SaverPristine database := by
  obtain ⟨head, upgraded, _, restored, downgraded, same⟩ := preserves
  refine ⟨fun entry member => ?_, fun entry member => ?_⟩
  · rw [← tables_eq_some_iff, ← same, tables_executeAll downgraded, tables_executeAll upgraded,
      onTables_roundTrip notHead]
    have listed : saverTables.lookup entry.1 = some entry.2 := by
      revert entry
      decide
    rw [listed]
  · have drops := (drops_saver notHead).2 entry member
    obtain ⟨table, columns, unique, present⟩ := required_index upgraded drops.1 drops.2
    simp [present]

theorem SaverPristine.roundTrip (layout : Layout ⟨some revision, database⟩)
    (notHead : revision ≠ .codeExecutionEvents) (pristine : SaverPristine database) :
    onTables (downgradeFromHead revision) (onTables (upgradeToHead revision) (tables database)) =
      tables database := by
  funext name
  rw [onTables_roundTrip notHead]
  cases listed : saverTables.lookup name with
  | some definition =>
      exact (tables_eq_some_iff.mpr (pristine.empty _ (mem_of_lookup listed))).symm
  | none =>
      by_cases added : name ∈ addedTables revision
      · simp [added, tables, addedTables_absent layout added]
      · simp [added]

theorem SaverPristine.rowsOf_head (layout : Layout ⟨some revision, database⟩)
    (notHead : revision ≠ .codeExecutionEvents) (pristine : SaverPristine database)
    (upgraded : executeAll (upgradeToHead revision) database = .ok head)
    {name : String} {definition : TableDefinition} {rows : List Row}
    (present : tables database name = some (definition, rows)) : rowsOf head name = rows := by
  by_cases touched : name ∈ (upgradeToHead revision).filterMap Statement.tableName
  · rcases tableNames_upgradeToHead touched with saver | added
    · obtain ⟨entry, member, rfl⟩ := List.mem_map.mp saver
      have empty : rows = [] := by
        rw [tables_eq_some_iff, pristine.empty entry member] at present
        cases present
        rfl
      have drops := (drops_saver notHead).1 entry member
      have gone : head entry.1 = none := dropped_table upgraded drops.1 drops.2
      simp [rowsOf, tables, gone, empty]
    · rw [tables, addedTables_absent layout added] at present
      cases present
  · rw [rowsOf, tables_executeAll upgraded, onTables_of_untouched touched, present]
    rfl

/-- Below head the migrations keep what they do not own exactly when there is
nothing to lose: the saver's tables exist as LangGraph creates them and are empty. -/
theorem preserves_iff_saver_pristine {revision : Revision}
    {database : Database TableDefinition Row} (reachable : Reachable revision database) :
    Preserves revision database ↔
      revision = .codeExecutionEvents ∨ SaverPristine database := by
  by_cases atHead : revision = .codeExecutionEvents
  · subst atHead
    have kept : Preserves .codeExecutionEvents database := by
      refine ⟨database, rfl, fun present => ?_, database, rfl, rfl⟩
      simp [rowsOf, present]
    exact ⟨fun _ => .inl rfl, fun _ => kept⟩
  · constructor
    · intro preserves
      exact .inr (.of_preserves atHead preserves)
    · intro condition
      have layout := reachable.layout
      have pristine : SaverPristine database := condition.resolve_left atHead
      obtain ⟨head, upgraded⟩ := upgradeToHead_succeeds layout pristine
      obtain ⟨restored, downgraded⟩ := downgradeFromHead_succeeds atHead upgraded
      refine ⟨head, upgraded, pristine.rowsOf_head layout atHead upgraded, restored, downgraded, ?_⟩
      rw [tables_executeAll downgraded, tables_executeAll upgraded]
      exact pristine.roundTrip layout atHead

/-! ## Databases at 6e8da6865934 -/

/-- After the first two migrations, before LangGraph's saver has run. -/
def migrated : Database TableDefinition Row := fun name =>
  match executeAll (upgrade .baseline ++ upgrade .balanceQueryEvents) fun _ => none with
  | .ok database => database name
  | .error _ => none

/-- The same with the saver's tables and some rows in `checkpoints`. -/
def withSaver (rows : List Row) : Database TableDefinition Row := fun name =>
  match saverTables.lookup name, saverIndexes.lookup name with
  | some definition, _ =>
      some (.table definition (if name = "checkpoints" then rows else []))
  | none, some owner => some (.index owner ["thread_id"] false)
  | none, none => migrated name

theorem migrated_reachable :
    Reachable .balanceQueryEvents (migrated : Database TableDefinition Row) := by
  have executed : executeAll (upgrade .baseline ++ upgrade .balanceQueryEvents) (fun _ => none) =
      .ok (migrated : Database TableDefinition Row) := rfl
  obtain ⟨middle, first, second⟩ := executeAll_append_iff.mp executed
  exact ⟨_, .cons (.upgrade first) (.cons (.upgrade second) .refl)⟩

theorem withSaver_layout (rows : List Row) : SaverLayout (withSaver rows) := by
  intro name relation present
  have disjoint : ∀ table ∈ saverTables, ∀ index ∈ saverIndexes, table.1 ≠ index.1 := by decide
  have single : ∀ index ∈ saverIndexes, ∀ other ∈ saverIndexes,
      index.1 = other.1 → index = other := by decide
  unfold withSaver at present
  cases isTable : saverTables.lookup name with
  | some definition =>
      have member := mem_of_lookup isTable
      simp only [isTable, Option.some.injEq] at present
      subst present
      refine ⟨fun _ => ⟨_, _, rfl⟩, fun owner indexed => ?_⟩
      exact absurd rfl (disjoint _ member _ indexed)
  | none =>
      have notTable := not_mem_of_lookup isTable
      refine ⟨fun named => absurd named notTable, fun owner indexed => ?_⟩
      cases isIndex : saverIndexes.lookup name with
      | none => exact absurd (List.mem_map_of_mem indexed) (not_mem_of_lookup isIndex)
      | some first =>
          have same := single _ (mem_of_lookup isIndex) _ indexed rfl
          simp only [isTable, isIndex, Option.some.injEq] at present
          cases same
          exact ⟨_, _, present.symm⟩

theorem withSaver_setup (rows : List Row) : SaverSetup migrated (withSaver rows) where
  others name outside := by
    rw [saverNames, List.mem_append, not_or] at outside
    simp [withSaver, lookup_of_not_mem outside.1, lookup_of_not_mem outside.2]
  layout := withSaver_layout rows

theorem withSaver_reachable (rows : List Row) :
    Reachable .balanceQueryEvents (withSaver rows) := by
  obtain ⟨changes, run⟩ :=
    (migrated_reachable :
      Reachable .balanceQueryEvents (migrated : Database TableDefinition Row))
  exact ⟨_, run.append (.single (.saverSetup (withSaver_setup rows)))⟩

theorem empty_saver_preserved : Preserves .balanceQueryEvents (withSaver ([] : List String)) :=
  (preserves_iff_saver_pristine (withSaver_reachable [])).mpr
    (.inr ⟨by decide, by decide⟩)

/-- A stored checkpoint is lost, and without the saver's tables the upgrade fails. -/
theorem checkpoints_not_preserved :
    (Reachable .balanceQueryEvents (withSaver ["checkpoint"]) ∧
        ¬Preserves .balanceQueryEvents (withSaver ["checkpoint"])) ∧
      Reachable .balanceQueryEvents (migrated : Database TableDefinition String) ∧
        ¬Preserves .balanceQueryEvents (migrated : Database TableDefinition String) := by
  refine ⟨⟨withSaver_reachable _, fun preserves => ?_⟩, migrated_reachable, fun preserves => ?_⟩
  · have empty := (SaverPristine.of_preserves (by decide) preserves).empty
      ("checkpoints", checkpoints) (by decide)
    cases empty
  · have missing := (SaverPristine.of_preserves (by decide) preserves).empty
      ("checkpoints", checkpoints) (by decide)
    cases missing

end AgenticEnterprise.Alembic.Preservation
