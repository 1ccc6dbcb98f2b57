import BoulderFrame.Domain.State
import BoulderFrame.Library.KeyedTable
import Mathlib.Data.Rat.Defs

/-!
# The job database

The tables `assets`, `processing_jobs` and `job_artifacts`. Their enumerations and unique keys are
in the types: a job has at most one artifact of a kind, and no two assets share a storage key.

## Main definitions

* `Asset`, `AssetTable`: the rows of `assets`, by their id and by their storage key
* `JobRow`: a row of `processing_jobs`
* `Database`: the three tables
* `Database.Consistent`: the foreign keys and the checks of the tables
* `sampleDatabase`: a database with one created job
-/

namespace BoulderFrame

inductive AssetKind
  | source
  | output
  | debug
  deriving DecidableEq, Repr

inductive UploadState
  | pending
  | uploaded
  | invalid
  deriving DecidableEq, Repr

/-- The roles of the review artifacts of a job. -/
inductive ReviewRole
  | debugTelemetry
  | debugManifest
  | debugDetection
  | debugFraming
  | debugRender
  deriving DecidableEq, Repr

/-- The kinds of a job's artifacts: its output, and one for each review role. -/
inductive ArtifactKind
  | output
  | review (role : ReviewRole)
  deriving DecidableEq, Repr

structure Asset where
  id : Uuid
  projectId : Uuid
  kind : AssetKind
  storageKey : String
  uploadState : UploadState
  contentType : Option String
  sizeBytes : ℤ
  width : Option ℤ
  height : Option ℤ
  frameRate : Option ℚ
  durationMs : Option ℤ
  deriving DecidableEq, Repr

abbrev AssetTable := KeyedTable Asset.id Asset.storageKey

structure JobRow where
  projectId : Uuid
  sourceAssetId : Uuid
  state : JobState
  stage : JobStage
  progress : ℤ
  configuration : JobConfiguration
  errorCode : Option ErrorCode
  errorMessage : Option String
  report : Option Report
  outputAssetId : Option Uuid
  startedAt : Option Time
  completedAt : Option Time
  leaseOwner : Option String
  leaseExpiresAt : Option Time
  deriving DecidableEq, Repr

namespace JobRow

/-- `lease_expires_at > now()` -/
def leaseLive (row : JobRow) (now : Time) : Bool :=
  row.leaseExpiresAt.any fun expires => decide (now < expires)

/-- `lease_owner = owner AND lease_expires_at > now()` -/
def HeldBy (row : JobRow) (owner : String) (now : Time) : Prop :=
  row.leaseOwner = some owner ∧ row.leaseLive now

instance (row : JobRow) (owner : String) (now : Time) : Decidable (row.HeldBy owner now) :=
  inferInstanceAs (Decidable (_ ∧ _))

variable {row : JobRow} {owner owner' : String} {now now' : Time}

/-- A live lease was live at every earlier time. -/
theorem leaseLive_earlier (h : row.leaseLive now') (hnow : now ≤ now') : row.leaseLive now := by
  rw [leaseLive, Option.any_eq_true] at h ⊢
  obtain ⟨expires, hexpires, hlt⟩ := h
  exact ⟨expires, hexpires, decide_eq_true (lt_of_le_of_lt hnow (of_decide_eq_true hlt))⟩

theorem HeldBy.earlier (h : row.HeldBy owner now') (hnow : now ≤ now') : row.HeldBy owner now :=
  ⟨h.1, leaseLive_earlier h.2 hnow⟩

end JobRow

structure Database where
  jobs : Uuid → Option JobRow
  assets : AssetTable
  /-- the asset of a job's artifact of a kind -/
  artifacts : Uuid → ArtifactKind → Option Uuid

namespace Database

/-- The row of a job is written. -/
def setJob (db : Database) (id : Uuid) (row : JobRow) : Database :=
  { db with jobs := Function.update db.jobs id (some row) }

@[simp] theorem setJob_jobs_self (db : Database) (id : Uuid) (row : JobRow) :
    (db.setJob id row).jobs id = some row := Function.update_self ..

theorem setJob_jobs_of_ne (db : Database) {id id' : Uuid} (row : JobRow) (h : id' ≠ id) :
    (db.setJob id row).jobs id' = db.jobs id' := Function.update_of_ne h ..

@[simp] theorem setJob_assets (db : Database) (id : Uuid) (row : JobRow) :
    (db.setJob id row).assets = db.assets := rfl

/-- The asset with the given id is in the table. -/
def HasAsset (db : Database) (id : Uuid) : Prop := ∃ a ∈ db.assets.rows, a.id = id

/-- **The constraints of the tables**: every reference has its row, and the checked columns are in
their ranges. -/
structure Consistent (db : Database) : Prop where
  source : ∀ id row, db.jobs id = some row → db.HasAsset row.sourceAssetId
  output : ∀ id row asset, db.jobs id = some row → row.outputAssetId = some asset →
    db.HasAsset asset
  progress : ∀ id row, db.jobs id = some row → 0 ≤ row.progress ∧ row.progress ≤ 100
  artifact : ∀ id kind asset, db.artifacts id kind = some asset →
    (db.jobs id).isSome ∧ db.HasAsset asset
  size : ∀ a ∈ db.assets.rows, 0 ≤ a.sizeBytes

end Database

/-! ## A created job -/

def sampleProject : Uuid := ⟨"6f0d2b5e-8f58-4c83-9a6b-0b6d7c1f7a10", by decide⟩

def sampleJob : Uuid := ⟨"a4c1f1de-3c0f-4d7e-8f4e-2f9d1f0f2b21", by decide⟩

/-- An uploaded source. -/
def sampleSource : Asset where
  id := ⟨"0c9fb8ad-5f0b-4f0c-b0c5-7e3d2a1b9c42", by decide⟩
  projectId := sampleProject
  kind := .source
  storageKey := "private/source/climb.mp4"
  uploadState := .uploaded
  contentType := some "video/mp4"
  sizeBytes := 1048576
  width := none
  height := none
  frameRate := none
  durationMs := none

def sampleRow : JobRow where
  projectId := sampleProject
  sourceAssetId := sampleSource.id
  state := .queued
  stage := .queued
  progress := 0
  configuration := ⟨"yolo26"⟩
  errorCode := none
  errorMessage := none
  report := none
  outputAssetId := none
  startedAt := none
  completedAt := none
  leaseOwner := none
  leaseExpiresAt := none

/-- A database with one created job, and its source. -/
def sampleDatabase : Database where
  jobs id := if id = sampleJob then some sampleRow else none
  assets := ⟨[sampleSource], List.nodup_singleton _, List.nodup_singleton _⟩
  artifacts _ _ := none

end BoulderFrame
