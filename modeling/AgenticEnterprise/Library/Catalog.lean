import Mathlib.Logic.Function.Basic

/-! A relational catalog under schema changes.

Tables and indexes share one namespace. Dropping a table drops its indexes;
creating a relation whose name is taken and dropping one that is absent fail.
A list of statements runs in one transaction, so a failure has no effect. -/

set_option autoImplicit false

namespace AgenticEnterprise.Library.Catalog

inductive Relation (Definition Row : Type) where
  | table (definition : Definition) (rows : List Row)
  | index (table : String) (columns : List String) (unique : Bool)
  deriving DecidableEq, Repr

abbrev Database (Definition Row : Type) := String → Option (Relation Definition Row)

inductive Statement (Definition : Type) where
  | createTable (name : String) (definition : Definition)
  | dropTable (name : String)
  | createIndex (name table : String) (columns : List String) (unique : Bool)
  | dropIndex (name : String)
  deriving DecidableEq, Repr

inductive Failure where
  | duplicateRelation (name : String)
  | undefinedTable (name : String)
  | undefinedIndex (name : String)
  deriving DecidableEq, Repr

variable {Definition Row : Type}

/-- The tables of a database without its indexes. -/
def tables (database : Database Definition Row) (name : String) :
    Option (Definition × List Row) :=
  match database name with
  | some (.table definition rows) => some (definition, rows)
  | _ => none

def rowsOf (database : Database Definition Row) (name : String) : List Row :=
  ((tables database name).map Prod.snd).getD []

/-- The database without a table and its indexes. -/
def withoutTable (database : Database Definition Row) (name : String) : Database Definition Row :=
  fun other =>
    match database other with
    | some (.index table columns unique) =>
        if table = name then none else some (.index table columns unique)
    | relation => if other = name then none else relation

def execute (statement : Statement Definition) (database : Database Definition Row) :
    Except Failure (Database Definition Row) :=
  match statement with
  | .createTable name definition =>
      match database name with
      | none => .ok (Function.update database name (some (.table definition [])))
      | some _ => .error (.duplicateRelation name)
  | .dropTable name =>
      match database name with
      | some (.table _ _) => .ok (withoutTable database name)
      | _ => .error (.undefinedTable name)
  | .createIndex name table columns unique =>
      match database name, database table with
      | none, some (.table _ _) =>
          .ok (Function.update database name (some (.index table columns unique)))
      | none, _ => .error (.undefinedTable table)
      | some _, _ => .error (.duplicateRelation name)
  | .dropIndex name =>
      match database name with
      | some (.index _ _ _) => .ok (Function.update database name none)
      | _ => .error (.undefinedIndex name)

def executeAll : List (Statement Definition) → Database Definition Row →
    Except Failure (Database Definition Row)
  | [], database => .ok database
  | statement :: rest, database =>
      match execute statement database with
      | .ok next => executeAll rest next
      | .error failure => .error failure

/-! ## When a statement succeeds, and with what -/

variable {database next last : Database Definition Row} {name table : String}

theorem tables_eq_some_iff {definition : Definition} {rows : List Row} :
    tables database name = some (definition, rows) ↔
      database name = some (.table definition rows) := by
  unfold tables
  cases found : database name with
  | none => simp
  | some relation => cases relation <;> simp

theorem execute_createTable_iff {definition : Definition} :
    execute (.createTable name definition) database = .ok next ↔
      database name = none ∧
        next = Function.update database name (some (.table definition [])) := by
  cases found : database name <;> simp [execute, found, eq_comm]

theorem execute_dropTable_iff :
    execute (.dropTable name) database = .ok next ↔
      (∃ definition rows, database name = some (.table definition rows)) ∧
        next = withoutTable database name := by
  cases found : database name with
  | none => simp [execute, found]
  | some relation => cases relation <;> simp [execute, found, eq_comm]

theorem execute_createIndex_iff {columns : List String} {unique : Bool} :
    execute (.createIndex name table columns unique) database = .ok next ↔
      database name = none ∧
        (∃ definition rows, database table = some (.table definition rows)) ∧
        next = Function.update database name (some (.index table columns unique)) := by
  cases taken : database name with
  | some relation => simp [execute, taken]
  | none =>
      cases found : database table with
      | none => simp [execute, taken, found]
      | some relation => cases relation <;> simp [execute, taken, found, eq_comm]

theorem execute_dropIndex_iff :
    execute (.dropIndex name) database = .ok next ↔
      (∃ table columns unique, database name = some (.index table columns unique)) ∧
        next = Function.update database name none := by
  cases found : database name with
  | none => simp [execute, found]
  | some relation => cases relation <;> simp [execute, found, eq_comm]

@[simp] theorem executeAll_nil_iff :
    executeAll ([] : List (Statement Definition)) database = .ok last ↔ last = database := by
  simp [executeAll, eq_comm]

theorem executeAll_cons_iff {statement : Statement Definition}
    {rest : List (Statement Definition)} :
    executeAll (statement :: rest) database = .ok last ↔
      ∃ next, execute statement database = .ok next ∧ executeAll rest next = .ok last := by
  simp only [executeAll]
  cases execute statement database <;> simp

theorem executeAll_append_iff {first rest : List (Statement Definition)} :
    executeAll (first ++ rest) database = .ok last ↔
      ∃ next, executeAll first database = .ok next ∧ executeAll rest next = .ok last := by
  induction first generalizing database with
  | nil => simp
  | cons statement first ih =>
      simp only [List.cons_append, executeAll_cons_iff, ih]
      constructor
      · intro result
        obtain ⟨middle, executed, next, remaining, after⟩ := result
        exact ⟨next, ⟨middle, executed, remaining⟩, after⟩
      · intro result
        obtain ⟨next, ⟨middle, executed, remaining⟩, after⟩ := result
        exact ⟨middle, executed, next, remaining, after⟩

/-! ## Where the relations of the result come from -/

def Statement.created : Statement Definition → Option (String × Relation Definition Row)
  | .createTable name definition => some (name, .table definition [])
  | .createIndex name table columns unique => some (name, .index table columns unique)
  | .dropTable _ | .dropIndex _ => none

def Statement.createdName : Statement Definition → Option String
  | .createTable name _ | .createIndex name _ _ _ => some name
  | .dropTable _ | .dropIndex _ => none

theorem createdName_of_created {statement : Statement Definition}
    {relation : Relation Definition Row} (created : statement.created = some (name, relation)) :
    statement.createdName = some name := by
  cases statement <;> simp_all [Statement.created, Statement.createdName]

theorem withoutTable_source {relation : Relation Definition Row}
    (present : withoutTable database table name = some relation) :
    database name = some relation := by
  unfold withoutTable at present
  split at present
  · split at present
    · cases present
    · rename_i found _
      rw [found, present]
  · split at present
    · cases present
    · exact present

theorem execute_origin {statement : Statement Definition} {relation : Relation Definition Row}
    (executed : execute statement database = .ok next) (present : next name = some relation) :
    database name = some relation ∨ statement.created = some (name, relation) := by
  cases statement with
  | createTable target definition =>
      obtain ⟨_, rfl⟩ := execute_createTable_iff.mp executed
      by_cases same : name = target
      · subst same
        exact .inr (by simpa [Statement.created] using present)
      · exact .inl (by rwa [Function.update_of_ne same] at present)
  | dropTable target =>
      obtain ⟨_, rfl⟩ := execute_dropTable_iff.mp executed
      exact .inl (withoutTable_source present)
  | createIndex target owner columns unique =>
      obtain ⟨_, _, rfl⟩ := execute_createIndex_iff.mp executed
      by_cases same : name = target
      · subst same
        exact .inr (by simpa [Statement.created] using present)
      · exact .inl (by rwa [Function.update_of_ne same] at present)
  | dropIndex target =>
      obtain ⟨_, rfl⟩ := execute_dropIndex_iff.mp executed
      by_cases same : name = target
      · subst same
        simp at present
      · exact .inl (by rwa [Function.update_of_ne same] at present)

/-- A relation of the result was there before or is created by the list. -/
theorem executeAll_origin {statements : List (Statement Definition)}
    {relation : Relation Definition Row} (executed : executeAll statements database = .ok last)
    (present : last name = some relation) :
    database name = some relation ∨
      ∃ statement ∈ statements, statement.created = some (name, relation) := by
  induction statements generalizing database with
  | nil =>
      obtain rfl := executeAll_nil_iff.mp executed
      exact .inl present
  | cons statement rest ih =>
      obtain ⟨next, first, remaining⟩ := executeAll_cons_iff.mp executed
      rcases ih remaining with earlier | ⟨creator, member, created⟩
      · rcases execute_origin first earlier with before | created
        · exact .inl before
        · exact .inr ⟨statement, .head _, created⟩
      · exact .inr ⟨creator, .tail _ member, created⟩

theorem executeAll_source {statements : List (Statement Definition)}
    {relation : Relation Definition Row} (executed : executeAll statements database = .ok last)
    (notCreated : name ∉ statements.filterMap Statement.createdName)
    (present : last name = some relation) : database name = some relation := by
  rcases executeAll_origin executed present with before | ⟨creator, member, created⟩
  · exact before
  · exact absurd (List.mem_filterMap.mpr ⟨creator, member, createdName_of_created created⟩)
      notCreated

theorem executeAll_absent {statements : List (Statement Definition)}
    (executed : executeAll statements database = .ok last)
    (notCreated : name ∉ statements.filterMap Statement.createdName)
    (absent : database name = none) : last name = none := by
  cases present : last name with
  | none => rfl
  | some relation =>
      rw [executeAll_source executed notCreated present] at absent
      cases absent

section Drop

variable {statements : List (Statement Definition)}

theorem required_index (executed : executeAll statements database = .ok last)
    (drops : .dropIndex name ∈ statements)
    (notCreated : name ∉ statements.filterMap Statement.createdName) :
    ∃ table columns unique, database name = some (.index table columns unique) := by
  obtain ⟨before, after, rfl⟩ := List.append_of_mem drops
  rw [List.filterMap_append, List.mem_append, not_or] at notCreated
  obtain ⟨middle, first, rest⟩ := executeAll_append_iff.mp executed
  obtain ⟨next, dropped, _⟩ := executeAll_cons_iff.mp rest
  obtain ⟨⟨table, columns, unique, present⟩, _⟩ := execute_dropIndex_iff.mp dropped
  exact ⟨table, columns, unique, executeAll_source first notCreated.1 present⟩

theorem dropped_table (executed : executeAll statements database = .ok last)
    (drops : .dropTable name ∈ statements)
    (notCreated : name ∉ statements.filterMap Statement.createdName) : last name = none := by
  obtain ⟨before, after, rfl⟩ := List.append_of_mem drops
  rw [List.filterMap_append, List.mem_append, not_or] at notCreated
  obtain ⟨middle, _, rest⟩ := executeAll_append_iff.mp executed
  obtain ⟨next, dropped, remaining⟩ := executeAll_cons_iff.mp rest
  obtain ⟨⟨definition, rows, present⟩, rfl⟩ := execute_dropTable_iff.mp dropped
  exact executeAll_absent remaining notCreated.2 (by simp [withoutTable, present])

theorem dropped_index (executed : executeAll statements database = .ok last)
    (drops : .dropIndex name ∈ statements)
    (notCreated : name ∉ statements.filterMap Statement.createdName) : last name = none := by
  obtain ⟨before, after, rfl⟩ := List.append_of_mem drops
  rw [List.filterMap_append, List.mem_append, not_or] at notCreated
  obtain ⟨middle, _, rest⟩ := executeAll_append_iff.mp executed
  obtain ⟨next, dropped, remaining⟩ := executeAll_cons_iff.mp rest
  obtain ⟨_, rfl⟩ := execute_dropIndex_iff.mp dropped
  exact executeAll_absent remaining notCreated.2 (by simp)

end Drop

/-! ## The effect on the tables

On the tables alone a successful list of statements is a function of them: the
indexes decide only whether it succeeds. -/

def Statement.onTables (statement : Statement Definition)
    (present : String → Option (Definition × List Row)) : String → Option (Definition × List Row) :=
  match statement with
  | .createTable name definition => Function.update present name (some (definition, []))
  | .dropTable name => Function.update present name none
  | .createIndex _ _ _ _ | .dropIndex _ => present

def onTables (statements : List (Statement Definition))
    (present : String → Option (Definition × List Row)) :
    String → Option (Definition × List Row) :=
  statements.foldl (fun tables statement => statement.onTables tables) present

theorem tables_update (relation : Option (Relation Definition Row)) :
    tables (Function.update database name relation) =
      Function.update (tables database) name (tables (fun _ => relation) name) := by
  funext other
  by_cases same : other = name
  · subst same
    simp [tables]
  · simp [tables, same]

theorem tables_withoutTable :
    tables (withoutTable database name) = Function.update (tables database) name none := by
  funext other
  by_cases same : other = name
  · subst same
    cases found : database other with
    | none => simp [tables, withoutTable, found]
    | some relation =>
        cases relation with
        | table => simp [tables, withoutTable, found]
        | index owner columns unique =>
            by_cases owned : owner = other <;> simp [tables, withoutTable, found, owned]
  · cases found : database other with
    | none => simp [tables, withoutTable, found, same]
    | some relation =>
        cases relation with
        | table => simp [tables, withoutTable, found, same]
        | index owner columns unique =>
            by_cases owned : owner = name <;> simp [tables, withoutTable, found, owned, same]

theorem tables_execute {statement : Statement Definition}
    (executed : execute statement database = .ok next) :
    tables next = statement.onTables (tables database) := by
  cases statement with
  | createTable target definition =>
      obtain ⟨_, rfl⟩ := execute_createTable_iff.mp executed
      exact tables_update _
  | dropTable target =>
      obtain ⟨_, rfl⟩ := execute_dropTable_iff.mp executed
      exact tables_withoutTable
  | createIndex target owner columns unique =>
      obtain ⟨absent, _, rfl⟩ := execute_createIndex_iff.mp executed
      rw [tables_update]
      exact Function.update_eq_self_iff.mpr (by simp [tables, absent])
  | dropIndex target =>
      obtain ⟨⟨_, _, _, present⟩, rfl⟩ := execute_dropIndex_iff.mp executed
      rw [tables_update]
      exact Function.update_eq_self_iff.mpr (by simp [tables, present])

theorem tables_executeAll {statements : List (Statement Definition)}
    (executed : executeAll statements database = .ok last) :
    tables last = onTables statements (tables database) := by
  induction statements generalizing database with
  | nil =>
      obtain rfl := executeAll_nil_iff.mp executed
      rfl
  | cons statement rest ih =>
      obtain ⟨next, first, remaining⟩ := executeAll_cons_iff.mp executed
      rw [ih remaining, tables_execute first]
      rfl

/-- The table a statement creates or drops. -/
def Statement.tableName : Statement Definition → Option String
  | .createTable name _ | .dropTable name => some name
  | .createIndex _ _ _ _ | .dropIndex _ => none

theorem onTables_of_untouched {statements : List (Statement Definition)}
    {present : String → Option (Definition × List Row)}
    (untouched : name ∉ statements.filterMap Statement.tableName) :
    onTables statements present name = present name := by
  induction statements generalizing present with
  | nil => rfl
  | cons statement rest ih =>
      cases statement with
      | createTable target definition =>
          simp only [Statement.tableName, List.filterMap_cons, List.mem_cons, not_or] at untouched
          exact (ih untouched.2).trans (Function.update_of_ne untouched.1 _ _)
      | dropTable target =>
          simp only [Statement.tableName, List.filterMap_cons, List.mem_cons, not_or] at untouched
          exact (ih untouched.2).trans (Function.update_of_ne untouched.1 _ _)
      | createIndex => exact ih untouched
      | dropIndex => exact ih untouched

end AgenticEnterprise.Library.Catalog
