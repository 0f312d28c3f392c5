import EvaluationService.Foundation.Schema
import EvaluationService.Storage.Postgres

/-!
The schema of the database (`migrations/`). A database may come from `init_schema`, which the
service runs at its start, or from Alembic; the revisions look at what is there and add the rest.
-/

set_option autoImplicit false

namespace EvaluationService

open Foundation

inductive ColumnKind where
  | uuid
  | string (length : Nat)
  | text
  | jsonb
  | integer
  /-- `DateTime(timezone=True)` -/
  | dateTime
deriving DecidableEq, Repr

inductive Cell where
  | uuid (value : UUID)
  | text (value : String)
  | json (value : JsonObject)
  | integer (value : Int)
  | dateTime (value : DateTime)
deriving DecidableEq, Repr

/-- The table `evaluation_jobs` as the database sees it. -/
abbrev JobsTable : Type := Relation ColumnKind Cell

/-- `op.create_index`, unless the inspector has listed the index. -/
def createMissingIndex (existingIndexes : List String) (index : Index) (table : JobsTable) :
    Except SchemaError JobsTable :=
  if index.name ∈ existingIndexes then .ok table else table.createIndex index

/-- `op.add_column`, unless the inspector has listed the column. -/
def addMissingColumn (existingColumns : List String) (column : Column ColumnKind Cell)
    (table : JobsTable) : Except SchemaError JobsTable :=
  if column.name ∈ existingColumns then .ok table else table.addColumn column

/-- `op.add_column` with a default for the rows that exist, which is dropped afterwards. -/
def addFilledColumn (existingColumns : List String) (column : Column ColumnKind Cell) (value : Cell)
    (table : JobsTable) : Except SchemaError JobsTable :=
  if column.name ∈ existingColumns then .ok table
  else do
    let table ← table.addColumn { column with default := some value }
    table.dropDefault column.name

def onTable (change : JobsTable → Except SchemaError JobsTable) :
    Option JobsTable → Except SchemaError JobsTable
  | none => .error .undefinedTable
  | some table => change table

/-! ## Revisions -/

namespace CreateEvaluationJobs

def columns : List (Column ColumnKind Cell) :=
  [⟨"job_id", .uuid, false, none⟩,
    ⟨"tenant_id", .string 128, false, none⟩,
    ⟨"project_id", .string 128, false, none⟩,
    ⟨"status", .string 32, false, none⟩,
    ⟨"request_payload", .jsonb, false, none⟩,
    ⟨"result_payload", .jsonb, true, none⟩,
    ⟨"error_message", .text, true, none⟩,
    ⟨"created_at", .dateTime, false, none⟩,
    ⟨"updated_at", .dateTime, false, none⟩]

def projectIdIndex : Index := ⟨"ix_evaluation_jobs_project_id", ["project_id"]⟩

def statusIndex : Index := ⟨"ix_evaluation_jobs_status", ["status"]⟩

def tenantIdIndex : Index := ⟨"ix_evaluation_jobs_tenant_id", ["tenant_id"]⟩

def table : JobsTable := .createTable columns ["job_id"] (by decide)

def upgrade (schema : Option JobsTable) : Except SchemaError (Option JobsTable) := do
  let table := schema.getD table
  let existingIndexes := table.indexes.map (·.name)
  let table ← createMissingIndex existingIndexes projectIdIndex table
  let table ← createMissingIndex existingIndexes statusIndex table
  let table ← createMissingIndex existingIndexes tenantIdIndex table
  .ok (some table)

def downgrade (schema : Option JobsTable) : Except SchemaError (Option JobsTable) := do
  let table ← onTable (Relation.dropIndex tenantIdIndex.name) schema
  let table ← table.dropIndex statusIndex.name
  let _ ← table.dropIndex projectIdIndex.name
  .ok none

end CreateEvaluationJobs

namespace AddJobAttemptMetadata

def attemptCount : Column ColumnKind Cell := ⟨"attempt_count", .integer, false, none⟩

def maxAttempts : Column ColumnKind Cell := ⟨"max_attempts", .integer, false, none⟩

def claimedAt : Column ColumnKind Cell := ⟨"claimed_at", .dateTime, true, none⟩

def claimedAtIndex : Index := ⟨"ix_evaluation_jobs_claimed_at", ["claimed_at"]⟩

def upgrade (schema : Option JobsTable) : Except SchemaError (Option JobsTable) := do
  let table ← onTable .ok schema
  let existingColumns := table.columns.map (·.name)
  let table ← addFilledColumn existingColumns attemptCount (.integer 0) table
  let table ← addFilledColumn existingColumns maxAttempts (.integer 3) table
  let table ← addMissingColumn existingColumns claimedAt table
  let existingIndexes := table.indexes.map (·.name)
  let table ← createMissingIndex existingIndexes claimedAtIndex table
  .ok (some table)

def downgrade (schema : Option JobsTable) : Except SchemaError (Option JobsTable) := do
  let table ← onTable (Relation.dropIndex claimedAtIndex.name) schema
  let table ← table.dropColumn claimedAt.name
  let table ← table.dropColumn maxAttempts.name
  let table ← table.dropColumn attemptCount.name
  .ok (some table)

end AddJobAttemptMetadata

inductive Revision where
  | createEvaluationJobs
  | addJobAttemptMetadata
deriving DecidableEq, Repr

namespace Revision

def downRevision : Revision → Option Revision
  | createEvaluationJobs => none
  | addJobAttemptMetadata => some createEvaluationJobs

def upgrade : Revision → Option JobsTable → Except SchemaError (Option JobsTable)
  | createEvaluationJobs => CreateEvaluationJobs.upgrade
  | addJobAttemptMetadata => AddJobAttemptMetadata.upgrade

def downgrade : Revision → Option JobsTable → Except SchemaError (Option JobsTable)
  | createEvaluationJobs => CreateEvaluationJobs.downgrade
  | addJobAttemptMetadata => AddJobAttemptMetadata.downgrade

/-- The revisions after the one that a database is at. -/
def pending : Option Revision → List Revision
  | none => [createEvaluationJobs, addJobAttemptMetadata]
  | some createEvaluationJobs => [addJobAttemptMetadata]
  | some addJobAttemptMetadata => []

end Revision

/-! ## Databases -/

/-- The table of the mapped class. Its defaults are the client's: the server knows of none. -/
def EvaluationJobRow.metadata : JobsTable where
  columns :=
    [⟨"job_id", .uuid, false, none⟩,
      ⟨"tenant_id", .string 128, false, none⟩,
      ⟨"project_id", .string 128, false, none⟩,
      ⟨"status", .string 32, false, none⟩,
      ⟨"request_payload", .jsonb, false, none⟩,
      ⟨"result_payload", .jsonb, true, none⟩,
      ⟨"error_message", .text, true, none⟩,
      ⟨"attempt_count", .integer, false, none⟩,
      ⟨"max_attempts", .integer, false, none⟩,
      ⟨"claimed_at", .dateTime, true, none⟩,
      ⟨"created_at", .dateTime, false, none⟩,
      ⟨"updated_at", .dateTime, false, none⟩]
  primaryKey := ["job_id"]
  indexes :=
    [⟨"ix_evaluation_jobs_tenant_id", ["tenant_id"]⟩,
      ⟨"ix_evaluation_jobs_project_id", ["project_id"]⟩,
      ⟨"ix_evaluation_jobs_status", ["status"]⟩]
  rows := []
  columnsDistinct := by decide
  indexesDistinct := by decide
  indexed := by decide
  required := by
    intro row member
    cases member
  blank := by
    intro row member
    cases member

/-- The job table, if there is one, and the revision that Alembic has recorded. -/
structure Database where
  version : Option Revision
  table : Option JobsTable

/-- Why a step back fails: a statement of the revision does, or there is no revision. -/
inductive MigrationError where
  | statement (error : SchemaError)
  | noRevision
deriving DecidableEq, Repr

namespace Database

def apply (database : Database) (revision : Revision) : Except SchemaError Database :=
  (revision.upgrade database.table).map fun table => ⟨some revision, table⟩

/-- `alembic upgrade head`: one transaction, of which nothing remains if it fails. -/
def upgradeHead (database : Database) : Except SchemaError Database :=
  (Revision.pending database.version).foldlM apply database

/-- `alembic downgrade -1`: refused where no revision is recorded. -/
def downgradeStep (database : Database) : Except MigrationError Database :=
  match database.version with
  | none => .error .noRevision
  | some revision =>
      ((revision.downgrade database.table).mapError .statement).map fun table =>
        ⟨revision.downRevision, table⟩

/-- `Base.metadata.create_all`: a table that exists is left as it is. -/
def initSchema (database : Database) : Database :=
  { database with table := some (database.table.getD EvaluationJobRow.metadata) }

end Database

/-! ## Rows -/

namespace Cell

def uuid? : Cell → Option UUID
  | uuid value => some value
  | _ => none

def text? : Cell → Option String
  | text value => some value
  | _ => none

def json? : Cell → Option JsonObject
  | json value => some value
  | _ => none

def integer? : Cell → Option Int
  | integer value => some value
  | _ => none

def dateTime? : Cell → Option DateTime
  | dateTime value => some value
  | _ => none

/-- A column that may be `NULL`. -/
def orNull {Value : Type} (read : Cell → Option Value) : Option Cell → Option (Option Value)
  | none => some none
  | some cell => (read cell).map some

end Cell

namespace EvaluationJobRow

/-- What a row holds in the column of each name. -/
def cells (row : EvaluationJobRow) (name : String) : Option Cell :=
  match name with
  | "job_id" => some (.uuid row.jobId)
  | "tenant_id" => some (.text row.tenantId)
  | "project_id" => some (.text row.projectId)
  | "status" => some (.text row.status)
  | "request_payload" => some (.json row.requestPayload)
  | "result_payload" => row.resultPayload.map .json
  | "error_message" => row.errorMessage.map .text
  | "attempt_count" => some (.integer row.attemptCount)
  | "max_attempts" => some (.integer row.maxAttempts)
  | "claimed_at" => row.claimedAt.map .dateTime
  | "created_at" => some (.dateTime row.createdAt)
  | "updated_at" => some (.dateTime row.updatedAt)
  | _ => none

/-- A row as `select(EvaluationJobRow)` loads it. -/
def ofCells? (cells : String → Option Cell) : Option EvaluationJobRow := do
  let jobId ← cells "job_id" >>= Cell.uuid?
  let tenantId ← cells "tenant_id" >>= Cell.text?
  let projectId ← cells "project_id" >>= Cell.text?
  let status ← cells "status" >>= Cell.text?
  let requestPayload ← cells "request_payload" >>= Cell.json?
  let resultPayload ← Cell.orNull Cell.json? (cells "result_payload")
  let errorMessage ← Cell.orNull Cell.text? (cells "error_message")
  let attemptCount ← cells "attempt_count" >>= Cell.integer?
  let maxAttempts ← cells "max_attempts" >>= Cell.integer?
  let claimedAt ← Cell.orNull Cell.dateTime? (cells "claimed_at")
  let createdAt ← cells "created_at" >>= Cell.dateTime?
  let updatedAt ← cells "updated_at" >>= Cell.dateTime?
  some ⟨jobId, tenantId, projectId, status, requestPayload, resultPayload, errorMessage,
    attemptCount, maxAttempts, claimedAt, createdAt, updatedAt⟩

theorem ofCells?_cells (row : EvaluationJobRow) : ofCells? row.cells = some row := by
  obtain ⟨jobId, tenantId, projectId, status, requestPayload, resultPayload, errorMessage,
    attemptCount, maxAttempts, claimedAt, createdAt, updatedAt⟩ := row
  cases resultPayload <;> cases errorMessage <;> cases claimedAt <;> rfl

end EvaluationJobRow

end EvaluationService
