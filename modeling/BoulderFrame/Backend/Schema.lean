import BoulderFrame.Domain.State
import BoulderFrame.Domain.Uuid
import BoulderFrame.Library.Json
import BoulderFrame.Library.Migration
import BoulderFrame.Library.Value
import Mathlib.Data.List.Sort

/-!
# The migrations of the database

The tables as the migrations make and change them, with the statements of the five files. Texts are
not yet enumerations here: which of them a column may have is a check of the table, and the checks
change. A transaction works on its own copy of the tables that it has locked, and sees the others as
they are committed.

## Main definitions

* `Table`, `Database`: the tables, each with its rows, columns and checks, if it exists
* `Statement`, `execute`: the statements of the files
* `Transaction`: the tables as a transaction sees them
* `migrationPaths`: the files of a directory, in the order of their names
* `migrationFiles`: the files of the repository
* `Consistent`: the keys and checks of the tables hold
-/

namespace BoulderFrame

namespace Migrations

/-! ## The tables -/

/-- A row of `projects`. -/
structure ProjectRow where
  id : Uuid
  name : String
  ownerId : String
  createdAt : Time

/-- A row of `assets`. -/
structure AssetRow where
  id : Uuid
  projectId : Uuid
  kind : String
  storageKey : String
  uploadState : String
  filename : Option String
  contentType : Option String
  sizeBytes : ℤ
  width : Option ℤ
  height : Option ℤ
  frameRate : Option (FloatValue ℚ)
  durationMs : Option ℤ
  createdAt : Time

/-- A row of `processing_jobs`; the columns that are added later are empty before. -/
structure JobRow where
  id : Uuid
  projectId : Uuid
  sourceAssetId : Uuid
  state : String
  stage : String
  progress : ℤ
  configuration : Json
  configurationHash : String
  errorCode : Option String
  errorMessage : Option String
  outputAssetId : Option Uuid
  createdAt : Time
  startedAt : Option Time
  completedAt : Option Time
  leaseOwner : Option String
  leaseExpiresAt : Option Time
  report : Option Json

/-- A row of `job_artifacts`. -/
structure ArtifactRow where
  id : Uuid
  jobId : Uuid
  assetId : Uuid
  kind : String
  createdAt : Time

/-- `processing_jobs`: the rows, the columns that have been added, the check of the stage and the
indexes. -/
structure JobsTable where
  rows : List JobRow
  columns : List String
  stageCheck : Option (List String)
  indexes : List String

/-- `job_artifacts`: the rows and the check of the kind. -/
structure ArtifactsTable where
  rows : List ArtifactRow
  kindCheck : Option (List String)

inductive Table
  | developmentOwners
  | projects
  | assets
  | processingJobs
  | jobArtifacts
  deriving DecidableEq, Repr

/-- What a table has. -/
@[reducible] def Table.Content : Table → Type
  | .developmentOwners => List String
  | .projects => List ProjectRow
  | .assets => List AssetRow
  | .processingJobs => JobsTable
  | .jobArtifacts => ArtifactsTable

/-- The tables that exist. -/
abbrev Database := (t : Table) → Option t.Content

/-- The tables to which a table has foreign keys. -/
def Table.references : Table → List Table
  | .developmentOwners => []
  | .projects => [.developmentOwners]
  | .assets => [.projects]
  | .processingJobs => [.projects, .assets]
  | .jobArtifacts => [.processingJobs, .assets]

/-- A table when it has been created. -/
def Table.initial : (t : Table) → t.Content
  | .developmentOwners => []
  | .projects => []
  | .assets => []
  | .processingJobs => ⟨[], [], none, []⟩
  | .jobArtifacts => ⟨[], some ["output", "debug"]⟩

/-! ## Statements -/

inductive SqlError
  | undefinedTable
  | duplicateObject
  | checkViolation
  | uniqueViolation
  deriving DecidableEq, Repr

/-- The statements of the files. -/
inductive Statement
  /-- `CREATE EXTENSION IF NOT EXISTS` -/
  | createExtension (name : String)
  /-- `CREATE TABLE IF NOT EXISTS` -/
  | createTable (table : Table)
  /-- `INSERT INTO development_owners … ON CONFLICT DO NOTHING` -/
  | insertOwner (id : String)
  /-- `ALTER TABLE processing_jobs ADD COLUMN IF NOT EXISTS` -/
  | addColumns (names : List String)
  /-- `ALTER TABLE processing_jobs ADD CONSTRAINT processing_jobs_stage_check`, where an existing
  constraint is no error -/
  | addStageCheck (stages : List String)
  /-- `CREATE INDEX IF NOT EXISTS … ON processing_jobs` -/
  | createIndex (name : String)
  /-- `ALTER TABLE job_artifacts DROP CONSTRAINT IF EXISTS job_artifacts_kind_check` -/
  | dropKindCheck
  /-- `ALTER TABLE job_artifacts ADD CONSTRAINT job_artifacts_kind_check` -/
  | addKindCheck (kinds : List String)
  /-- `UPDATE job_artifacts SET kind = … WHERE kind = …` -/
  | updateKind (old new : String)
  /-- `DELETE FROM job_artifacts WHERE kind IN …` -/
  | deleteKinds (kinds : List String)
  deriving DecidableEq, Repr

/-- The names are added, but for those that are there. -/
def addMissing (names : List String) (columns : List String) : List String :=
  columns ++ names.filter (· ∉ columns)

/-- The check of the stage is added if all rows pass it. -/
def JobsTable.addStageCheck (stages : List String) (table : JobsTable) :
    Except SqlError JobsTable :=
  if table.stageCheck.isSome then .error .duplicateObject
  else if table.rows.all (stages.contains ·.stage) then
    .ok { table with stageCheck := some stages }
  else .error .checkViolation

/-- The `DO` block: the constraint that exists is kept. -/
def JobsTable.ensureStageCheck (stages : List String) (table : JobsTable) :
    Except SqlError JobsTable :=
  match table.addStageCheck stages with
  | .error .duplicateObject => .ok table
  | result => result

/-- The check of the kind is added if all rows pass it. -/
def ArtifactsTable.addKindCheck (kinds : List String) (table : ArtifactsTable) :
    Except SqlError ArtifactsTable :=
  if table.kindCheck.isSome then .error .duplicateObject
  else if table.rows.all (kinds.contains ·.kind) then
    .ok { table with kindCheck := some kinds }
  else .error .checkViolation

/-- The rows are updated one after another. Each must pass the check of the kind, and no other row
of its job may have the kind. -/
def updateRows (check : Option (List String)) (old new : String) :
    List ArtifactRow → List ArtifactRow → Except SqlError (List ArtifactRow)
  | updated, [] => .ok updated
  | updated, row :: rows =>
    if row.kind = old then
      if check.any fun kinds => !kinds.contains new then .error .checkViolation
      else if (updated ++ rows).any fun other => other.jobId = row.jobId ∧ other.kind = new then
        .error .uniqueViolation
      else updateRows check old new (updated ++ [{ row with kind := new }]) rows
    else updateRows check old new (updated ++ [row]) rows

def ArtifactsTable.updateKind (old new : String) (table : ArtifactsTable) :
    Except SqlError ArtifactsTable := do
  let rows ← updateRows table.kindCheck old new [] table.rows
  return { table with rows }

/-! ## Transactions -/

/-- The tables as a transaction sees them, and those that it has locked. -/
structure Transaction where
  db : Database
  locked : List Table

/-- A table is locked, read and written. -/
def onTable (t : Table) (f : Option t.Content → Except SqlError (Option t.Content))
    (work : Transaction) : Except SqlError Transaction := do
  let content ← f (work.db t)
  return ⟨Function.update work.db t content, t :: work.locked⟩

/-- A table that exists is changed. -/
def existing {α : Type} (f : α → Except SqlError α) : Option α → Except SqlError (Option α)
  | none => .error .undefinedTable
  | some content => do
    let content ← f content
    return some content

/-- A table is created if it is missing; the tables to which it has foreign keys must exist. -/
def createTable (t : Table) (work : Transaction) : Except SqlError Transaction := do
  let work ← onTable t (fun content => .ok (some (content.getD t.initial))) work
  t.references.foldlM (fun work reference => onTable reference (existing .ok) work) work

/-- A statement is executed. -/
def execute : Statement → Transaction → Except SqlError Transaction
  | .createExtension _, work => .ok work
  | .createTable t, work => createTable t work
  | .insertOwner id, work => onTable .developmentOwners
      (existing fun owners => .ok (if id ∈ owners then owners else owners ++ [id])) work
  | .addColumns names, work => onTable .processingJobs
      (existing fun table => .ok { table with columns := addMissing names table.columns }) work
  | .addStageCheck stages, work => onTable .processingJobs
      (existing fun table => table.ensureStageCheck stages) work
  | .createIndex name, work => onTable .processingJobs
      (existing fun table => .ok { table with indexes := addMissing [name] table.indexes }) work
  | .dropKindCheck, work => onTable .jobArtifacts
      (existing fun table => .ok { table with kindCheck := none }) work
  | .addKindCheck kinds, work => onTable .jobArtifacts
      (existing fun table => table.addKindCheck kinds) work
  | .updateKind old new, work => onTable .jobArtifacts
      (existing fun table => table.updateKind old new) work
  | .deleteKinds kinds, work => onTable .jobArtifacts
      (existing fun table => .ok { table with rows := table.rows.filter (·.kind ∉ kinds) }) work

/-! ## The files -/

/-- The states of a job, which are its stages too. -/
def jobStages : List String :=
  ["queued", "validating", "analyzing", "rendering", "uploading", "completed", "failed",
    "cancelled"]

/-- The review roles that are retired. -/
def retiredKinds : List String :=
  ["debug_measurement", "debug_pose", "debug_tracking", "debug_planning"]

def init : List Statement := [
  .createExtension "pgcrypto",
  .createTable .developmentOwners,
  .insertOwner "development-owner",
  .createTable .projects,
  .createTable .assets,
  .createTable .processingJobs,
  .createTable .jobArtifacts]

def workerLeases : List Statement := [
  .addColumns ["lease_owner", "lease_expires_at"],
  .addStageCheck ["queued", "validating", "analyzing", "rendering", "uploading", "completed",
    "failed", "cancelled"],
  .createIndex "processing_jobs_claim_eligibility_idx"]

def phaseEvaluation : List Statement := [
  .dropKindCheck,
  .updateKind "debug" "debug_telemetry",
  .addKindCheck ["output", "debug_telemetry", "debug_manifest", "debug_measurement", "debug_pose",
    "debug_tracking", "debug_planning", "debug_render"]]

def detectorOnlyReviewRoles : List Statement := [
  .dropKindCheck,
  .deleteKinds ["debug_measurement", "debug_pose", "debug_tracking", "debug_planning"],
  .addKindCheck ["output", "debug_telemetry", "debug_manifest", "debug_detection", "debug_framing",
    "debug_render"]]

def jobReport : List Statement := [.addColumns ["report"]]

/-- An entry of a directory. -/
structure DirEntry where
  name : String
  isDir : Bool

/-- `migrationPaths`: the paths of the SQL files of a directory, sorted. -/
def migrationPaths (dir : String) (entries : List DirEntry) : List String :=
  let files := entries.filter fun entry =>
    !entry.isDir && ".sql".toList.isSuffixOf entry.name.toList
  (files.map fun entry => dir ++ "/" ++ entry.name).insertionSort (· ≤ ·)

/-- `filepath.Base` -/
def base (path : String) : String :=
  String.ofList (path.toList.reverse.takeWhile (· ≠ '/')).reverse

/-- The directory `migrations`, as it is read. -/
def migrationEntries : List DirEntry := [
  ⟨"001_init.sql", false⟩,
  ⟨"002_worker_leases.sql", false⟩,
  ⟨"003_phase_evaluation.sql", false⟩,
  ⟨"004_detector_only_review_roles.sql", false⟩,
  ⟨"005_job_report.sql", false⟩]

/-- The statements of a file. -/
def contents (path : String) : List Statement :=
  if path = "migrations/001_init.sql" then init
  else if path = "migrations/002_worker_leases.sql" then workerLeases
  else if path = "migrations/003_phase_evaluation.sql" then phaseEvaluation
  else if path = "migrations/004_detector_only_review_roles.sql" then detectorOnlyReviewRoles
  else if path = "migrations/005_job_report.sql" then jobReport
  else []

/-- The files in the order in which `migrate` applies them. -/
def migrationFiles : List (MigrationFile String Statement) :=
  (migrationPaths "migrations" migrationEntries).map fun path => ⟨base path, contents path⟩

/-- **The files** are applied in the order of their numbers. -/
theorem migrationFiles_eq : migrationFiles = [
    ⟨"001_init.sql", init⟩,
    ⟨"002_worker_leases.sql", workerLeases⟩,
    ⟨"003_phase_evaluation.sql", phaseEvaluation⟩,
    ⟨"004_detector_only_review_roles.sql", detectorOnlyReviewRoles⟩,
    ⟨"005_job_report.sql", jobReport⟩] := by
  decide +kernel

end Migrations

end BoulderFrame
