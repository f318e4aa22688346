import AgenticEnterprise.Library.Catalog

/-! The migrations of `alembic/versions`, statement by statement. -/

set_option autoImplicit false

namespace AgenticEnterprise.Alembic.Versions

open Library Catalog

inductive ColumnType where
  | integer
  | string (length : Option Nat)
  | text
  | uuid
  | dateTime (timezone : Bool)
  | bytea
  | jsonb
  deriving DecidableEq, Repr

structure Column where
  name : String
  type : ColumnType
  nullable : Bool
  serverDefault : Option String := none
  autoincrement : Bool := true
  deriving DecidableEq, Repr

structure TableDefinition where
  columns : List Column
  primaryKey : List String
  primaryKeyName : Option String := none
  deriving DecidableEq, Repr

inductive Revision where
  | baseline
  | balanceQueryEvents
  | codeExecutionEvents
  deriving DecidableEq, Repr

def Revision.revision : Revision → String
  | .baseline => "5a228e071209"
  | .balanceQueryEvents => "6e8da6865934"
  | .codeExecutionEvents => "4b3e4acd205a"

def downRevision : Revision → Option Revision
  | .baseline => none
  | .balanceQueryEvents => some .baseline
  | .codeExecutionEvents => some .balanceQueryEvents

/-! ## 5a228e071209 -/

def createdAt : Column where
  name := "created_at"
  type := .dateTime true
  nullable := false
  serverDefault := some "now()"

def updatedAt : Column where
  name := "updated_at"
  type := .dateTime true
  nullable := false
  serverDefault := some "now()"

def agentExecutions : TableDefinition where
  columns :=
    [ { name := "id", type := .uuid, nullable := false },
      { name := "request_id", type := .uuid, nullable := false },
      { name := "agent_id", type := .string none, nullable := false },
      { name := "status", type := .string none, nullable := false },
      createdAt, updatedAt ]
  primaryKey := ["id"]

def fileAuditEvents : TableDefinition where
  columns :=
    [ { name := "id", type := .integer, nullable := false },
      { name := "path", type := .string (some 1024), nullable := false },
      { name := "action", type := .string (some 32), nullable := false },
      { name := "byte_count", type := .integer, nullable := false },
      { name := "preview", type := .text, nullable := false },
      createdAt, updatedAt ]
  primaryKey := ["id"]

def threadOwnership : TableDefinition where
  columns :=
    [ { name := "thread_id", type := .string none, nullable := false },
      { name := "owner_username", type := .string none, nullable := false },
      createdAt, updatedAt ]
  primaryKey := ["thread_id"]

/-! ## 6e8da6865934 -/

def balanceQueryEvents : TableDefinition where
  columns :=
    [ { name := "id", type := .integer, nullable := false },
      { name := "account_id", type := .string (some 64), nullable := false },
      { name := "thread_id", type := .string (some 128), nullable := true },
      { name := "username", type := .string (some 128), nullable := true },
      { name := "outcome", type := .string (some 16), nullable := false },
      { name := "detail", type := .string (some 256), nullable := true },
      createdAt, updatedAt ]
  primaryKey := ["id"]

/-! ## 4b3e4acd205a -/

def codeExecutionEvents : TableDefinition where
  columns :=
    [ { name := "id", type := .integer, nullable := false },
      { name := "thread_id", type := .string (some 128), nullable := true },
      { name := "code_length", type := .integer, nullable := false },
      { name := "outcome", type := .string (some 16), nullable := false },
      { name := "detail", type := .string (some 512), nullable := true },
      createdAt, updatedAt ]
  primaryKey := ["id"]

def saverText (name : String) (nullable : Bool) : Column where
  name := name
  type := .text
  nullable := nullable
  autoincrement := false

def checkpointNs : Column where
  name := "checkpoint_ns"
  type := .text
  nullable := false
  serverDefault := some "''::text"
  autoincrement := false

def checkpointWrites : TableDefinition where
  columns :=
    [ saverText "thread_id" false, checkpointNs, saverText "checkpoint_id" false,
      saverText "task_id" false,
      { name := "idx", type := .integer, nullable := false, autoincrement := false },
      saverText "channel" false, saverText "type" true,
      { name := "blob", type := .bytea, nullable := false, autoincrement := false },
      { name := "task_path", type := .text, nullable := false, serverDefault := some "''::text",
        autoincrement := false } ]
  primaryKey := ["thread_id", "checkpoint_ns", "checkpoint_id", "task_id", "idx"]
  primaryKeyName := some "checkpoint_writes_pkey"

def checkpointMigrations : TableDefinition where
  columns := [{ name := "v", type := .integer, nullable := false, autoincrement := false }]
  primaryKey := ["v"]
  primaryKeyName := some "checkpoint_migrations_pkey"

def checkpointBlobs : TableDefinition where
  columns :=
    [ saverText "thread_id" false, checkpointNs, saverText "channel" false,
      saverText "version" false, saverText "type" false,
      { name := "blob", type := .bytea, nullable := true, autoincrement := false } ]
  primaryKey := ["thread_id", "checkpoint_ns", "channel", "version"]
  primaryKeyName := some "checkpoint_blobs_pkey"

def checkpoints : TableDefinition where
  columns :=
    [ saverText "thread_id" false, checkpointNs, saverText "checkpoint_id" false,
      saverText "parent_checkpoint_id" true, saverText "type" true,
      { name := "checkpoint", type := .jsonb, nullable := false, autoincrement := false },
      { name := "metadata", type := .jsonb, nullable := false,
        serverDefault := some "'\x7b\x7d'::jsonb", autoincrement := false } ]
  primaryKey := ["thread_id", "checkpoint_ns", "checkpoint_id"]
  primaryKeyName := some "checkpoints_pkey"

/-! ## The steps -/

def upgrade : Revision → List (Statement TableDefinition)
  | .baseline =>
      [ .createTable "agent_executions" agentExecutions,
        .createIndex "ix_agent_executions_request_id" "agent_executions" ["request_id"] false,
        .createTable "file_audit_events" fileAuditEvents,
        .createTable "thread_ownership" threadOwnership,
        .createIndex "ix_thread_ownership_owner_username" "thread_ownership"
          ["owner_username"] false ]
  | .balanceQueryEvents => [.createTable "balance_query_events" balanceQueryEvents]
  | .codeExecutionEvents =>
      [ .createTable "code_execution_events" codeExecutionEvents,
        .dropIndex "checkpoints_thread_id_idx",
        .dropTable "checkpoints",
        .dropIndex "checkpoint_blobs_thread_id_idx",
        .dropTable "checkpoint_blobs",
        .dropTable "checkpoint_migrations",
        .dropIndex "checkpoint_writes_thread_id_idx",
        .dropTable "checkpoint_writes" ]

def downgrade : Revision → List (Statement TableDefinition)
  | .baseline =>
      [ .dropIndex "ix_thread_ownership_owner_username",
        .dropTable "thread_ownership",
        .dropTable "file_audit_events",
        .dropIndex "ix_agent_executions_request_id",
        .dropTable "agent_executions" ]
  | .balanceQueryEvents => [.dropTable "balance_query_events"]
  | .codeExecutionEvents =>
      [ .createTable "checkpoint_writes" checkpointWrites,
        .createIndex "checkpoint_writes_thread_id_idx" "checkpoint_writes" ["thread_id"] false,
        .createTable "checkpoint_migrations" checkpointMigrations,
        .createTable "checkpoint_blobs" checkpointBlobs,
        .createIndex "checkpoint_blobs_thread_id_idx" "checkpoint_blobs" ["thread_id"] false,
        .createTable "checkpoints" checkpoints,
        .createIndex "checkpoints_thread_id_idx" "checkpoints" ["thread_id"] false,
        .dropTable "code_execution_events" ]

/-- The revisions after a given one, in the order they are applied. -/
def remaining : Revision → List Revision
  | .baseline => [.balanceQueryEvents, .codeExecutionEvents]
  | .balanceQueryEvents => [.codeExecutionEvents]
  | .codeExecutionEvents => []

def upgradeToHead (revision : Revision) : List (Statement TableDefinition) :=
  (remaining revision).flatMap upgrade

def downgradeFromHead (revision : Revision) : List (Statement TableDefinition) :=
  (remaining revision).reverse.flatMap downgrade

end AgenticEnterprise.Alembic.Versions
