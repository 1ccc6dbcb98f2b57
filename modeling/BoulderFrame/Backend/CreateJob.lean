import BoulderFrame.Library.ThreadPool
import BoulderFrame.Library.WatchedStore
import BoulderFrame.Queue.Adapter
import BoulderFrame.Repository.Ownership

/-!
# Creating a job

A request for a job inserts a row, or finds the row with its configuration, and then publishes the
job to the stream. A key beside the stream, which is watched, records that it has been published.

## Main definitions

* `newJobConfig`, `publish`, `createJob`: `NewJobConfig`, `RedisStreamsPublisher.Publish` and
  `Handler.createJob`
* `BackendWorld`, `BackendWorld.Step`, `BackendWorld.Env`: the tables, the stream with its keys, the
  effects of a request, and the steps of the rest
* `createRequests`: the pool of the requests
-/

namespace BoulderFrame

structure TargetSelection where
  frameTimeMs : ℤ
  normalizedX : ℚ
  normalizedY : ℚ
  deriving DecidableEq

structure OutputSettings where
  aspectRatio : String
  profile : String
  deriving DecidableEq

/-- The entries of the planner map. -/
structure PlannerMap where
  controller : String
  seedController : String
  optimizer : String
  lookaheadScope : String
  containmentPolicy : String
  solverFeasibilityTolerance : ℚ
  detectionSampleFps : ℚ
  scaleEnterFraction : ℚ
  scaleExitFraction : ℚ
  centerEnterFraction : ℚ
  centerExitFraction : ℚ
  zoomMaxSpeed : ℚ
  zoomMaxAcceleration : ℚ
  panMaxSpeed : ℚ
  panMaxAcceleration : ℚ
  panDeadZoneFraction : ℚ
  deriving DecidableEq

structure JobConfig where
  sourceAssetId : Uuid
  targetSelection : TargetSelection
  output : OutputSettings
  pipelineVersion : String
  modelVersion : String
  planner : PlannerMap
  deriving DecidableEq

/-- The settings of the API, with the hash of a configuration. -/
structure Handler where
  owner : String
  pipelineVersion : String
  modelVersion : String
  detectionSampleFps : ℚ
  hash : JobConfig → String

/-- `NewJobConfig` -/
def newJobConfig (source : Uuid) (selection : TargetSelection) (output : OutputSettings)
    (pipeline model : String) (detectionSampleFps : ℚ) : Except String JobConfig :=
  if selection.frameTimeMs < 0 ∨ selection.normalizedX < 0 ∨ 1 < selection.normalizedX ∨
      selection.normalizedY < 0 ∨ 1 < selection.normalizedY then
    .error "target selection is outside supported bounds"
  else if output.aspectRatio ≠ "16:9" ∧ output.aspectRatio ≠ "9:16" then
    .error "aspect_ratio must be 16:9 or 9:16"
  else if output.profile ∉ ["tight", "balanced", "safe", "full_movement"] then
    .error "profile is unsupported"
  else if detectionSampleFps < 0 ∨ 1000 < detectionSampleFps then
    .error "detection_sample_fps must be a finite number between 0 and 1000"
  else .ok
    { sourceAssetId := source
      targetSelection := selection
      output := output
      pipelineVersion := pipeline
      modelVersion := model
      planner :=
        { controller := "lookahead-v2"
          seedController := "deterministic-v3"
          optimizer := "scipy-highs-ds"
          lookaheadScope := "full_shot"
          containmentPolicy := "sampled_detections"
          solverFeasibilityTolerance := 0.00000001
          detectionSampleFps := detectionSampleFps
          scaleEnterFraction := 0.05
          scaleExitFraction := 0.02
          centerEnterFraction := 0.01
          centerExitFraction := 0.004
          zoomMaxSpeed := 0.5
          zoomMaxAcceleration := 1.0
          panMaxSpeed := 0.25
          panMaxAcceleration := 0.5
          panDeadZoneFraction := 0.05 } }

/-- A row of `processing_jobs`, with its id, its configuration, and `configuration_hash`. -/
structure StoredJob where
  id : Uuid
  row : JobRow
  configuration : JobConfig
  configurationHash : String
  deriving DecidableEq

/-- `UNIQUE (project_id, configuration_hash)` -/
def StoredJob.key (job : StoredJob) : Uuid × String := (job.row.projectId, job.configurationHash)

abbrev JobTable := KeyedTable StoredJob.id StoredJob.key

/-- A change of a row that keeps its project. -/
def StoredJob.setRow (row : JobRow) : KeyedTable.Merge StoredJob.id StoredJob.key where
  apply job := { job with row := { row with projectId := job.row.projectId } }
  primary_apply _ := rfl
  unique_apply _ := rfl

/-- `DO UPDATE SET id = processing_jobs.id` -/
def StoredJob.keep : KeyedTable.Merge StoredJob.id StoredJob.key where
  apply job := job
  primary_apply _ := rfl
  unique_apply _ := rfl

inductive BackendError
  | notFound
  | failed (text : String)

/-- `PG.CreateOrGetJob`: the stored job, and whether it existed. -/
def JobTable.createOrGet (job : StoredJob) (jobs : JobTable) :
    Except BackendError (StoredJob × Bool) × JobTable :=
  match jobs.upsert job StoredJob.keep fun _ => true with
  | none => (.error (.failed "unique violation"), jobs)
  | some (jobs', none) => (.error (.failed "no rows in result set"), jobs')
  | some (jobs', some stored) => (.ok (stored, (jobs.lookup job.key).isSome), jobs')

/-- A request: the id in its path and its body, if they can be read, and its trace. -/
structure CreateJobRequest where
  projectId : Option Uuid
  body : Option (Uuid × TargetSelection × OutputSettings)
  traceId : Uuid

inductive Response
  | created (job : StoredJob)
  | error (status : ℕ) (code message : String)
  deriving DecidableEq

inductive BackendEffect
  | getProject (id : Uuid) (owner : String)
  | getAsset (id : Uuid)
  | createOrGetJob (job : StoredJob)
  /-- the commands of a transaction: `WATCH`, `GET`, and `MULTI` with `XADD` and `SET` -/
  | watch (key : String)
  | get (key : String)
  | exec (key : String) (watched : ℕ) (entry : StreamEntry) (value : String)
  | respond (response : Response)

abbrev BackendEffect.Answer : BackendEffect → Type
  | .getProject .. => Except BackendError Unit
  | .getAsset _ => Except BackendError Asset
  | .createOrGetJob _ => Except BackendError (StoredJob × Bool)
  | .watch _ => Except BackendError ℕ
  | .get _ => Except BackendError (Option String)
  | .exec .. => Except BackendError Unit
  | .respond _ => Unit

abbrev BackendProg (α : Type) := Prog BackendEffect BackendEffect.Answer α

open Prog (perform)
open BackendEffect

/-! ## The handler -/

def jobStream : String := "boulder-frame:jobs"

/-- The key that records the publication of a task. -/
def indexKey (jobId : String) : String := jobStream ++ ":task:" ++ jobId

/-- The published fields. -/
def publishedEntry (jobId : String) (traceId : Uuid) : StreamEntry where
  taskType := taskProcessJob
  taskId := jobId
  payload := ("\x7b\"job_id\":\"" ++ jobId ++ "\",\"trace_id\":\"" ++ traceId.text ++
    "\"\x7d").toUTF8.toList

/-- `RedisStreamsPublisher.Publish` -/
def publish (jobId : String) (traceId : Uuid) : BackendProg (Except BackendError Unit) :=
  if jobId = "" then pure (.error (.failed "job ID is required"))
  else do
    match ← perform (watch (indexKey jobId)) with
    | .error e => pure (.error e)
    | .ok watched =>
      match ← perform (get (indexKey jobId)) with
      | .error e => pure (.error e)
      | .ok (some _) => pure (.ok ())
      | .ok none =>
        perform (exec (indexKey jobId) watched (publishedEntry jobId traceId) jobId)

/-- `notFound`, which is also called without an error -/
def notFound : Option BackendError → Response
  | some .notFound => .error 404 "not_found" "resource not found"
  | _ => .error 500 "internal_error" "could not load resource"

/-- The row that a request inserts. -/
def queuedRow (projectId : Uuid) (config : JobConfig) : JobRow where
  projectId := projectId
  sourceAssetId := config.sourceAssetId
  state := .queued
  stage := .queued
  progress := 0
  configuration := ⟨config.modelVersion⟩
  errorCode := none
  errorMessage := none
  report := none
  outputAssetId := none
  startedAt := none
  completedAt := none
  leaseOwner := none
  leaseExpiresAt := none

/-- The end of `Handler.createJob`, from the job that a request asks for. -/
def createAndPublish (traceId : Uuid) (job : StoredJob) : BackendProg Unit := do
  match ← perform (createOrGetJob job) with
  | .error _ => perform (respond (.error 500 "internal_error" "could not create job"))
  | .ok (job, existing) =>
    if existing = false ∨ job.row.state = .queued then do
      match ← publish job.id.text traceId with
      | .error _ =>
        perform (respond (.error 503 "queue_unavailable" "processing could not be queued"))
      | .ok () => perform (respond (.created job))
    else perform (respond (.created job))

/-- `Handler.createJob`, with the new id of the job -/
def createJob (handler : Handler) (request : CreateJobRequest) (newId : Uuid) : BackendProg Unit :=
  match request.projectId with
  | none => perform (respond (.error 400 "invalid_id" "invalid UUID"))
  | some projectId => do
    match ← perform (getProject projectId handler.owner) with
    | .error e => perform (respond (notFound (some e)))
    | .ok () =>
      match request.body with
      | none => perform (respond (.error 400 "invalid_request" "invalid JSON"))
      | some (sourceAssetId, selection, output) =>
        match ← perform (getAsset sourceAssetId) with
        | .error e => perform (respond (notFound (some e)))
        | .ok asset =>
          if asset.projectId ≠ projectId then perform (respond (notFound none))
          else if asset.kind ≠ .source ∨ asset.uploadState ≠ .uploaded then
            perform (respond (.error 409 "asset_not_ready" "source asset must be uploaded"))
          else
            match newJobConfig asset.id selection output handler.pipelineVersion
              handler.modelVersion handler.detectionSampleFps with
            | .error message => perform (respond (.error 400 "invalid_request" message))
            | .ok config =>
              createAndPublish request.traceId
                ⟨newId, queuedRow projectId config, config, handler.hash config⟩

/-! ## The world of the requests -/

/-- The tables, the stream with the keys beside it, and the responses that have been written. -/
structure BackendWorld (ι : Type) where
  projects : Uuid → Option String
  assets : Uuid → Option Asset
  jobs : JobTable
  entries : List StreamEntry
  index : WatchedStore String String
  responses : ι → Option Response

namespace BackendWorld

variable {ι : Type} (w : BackendWorld ι)

/-- The stream has an entry for the job. -/
def Published (id : Uuid) : Prop :=
  ∃ entry ∈ w.entries, entry.taskType = taskProcessJob ∧ entry.taskId = id.text

/-- A committed transaction. -/
def commit (key : String) (entry : StreamEntry) (value : String) : BackendWorld ι :=
  { w with entries := w.entries ++ [entry], index := w.index.write key value }

/-- The effects of a request. Every call may raise before or after its effect; a transaction raises
if its watched key has been written since. -/
inductive Step [DecidableEq ι] (i : ι) (w : BackendWorld ι) :
    (e : BackendEffect) → e.Answer → BackendWorld ι → Prop
  | project {id owner} (h : w.projects id = some owner) : Step i w (.getProject id owner) (.ok ()) w
  | noProject {id owner e} : Step i w (.getProject id owner) (.error e) w
  | asset {id asset} (h : w.assets id = some asset) (hid : asset.id = id) :
    Step i w (.getAsset id) (.ok asset) w
  | noAsset {id e} : Step i w (.getAsset id) (.error e) w
  | createOrGet {job} : Step i w (.createOrGetJob job) (w.jobs.createOrGet job).1
      { w with jobs := (w.jobs.createOrGet job).2 }
  | notCreated {job e} : Step i w (.createOrGetJob job) (.error e) w
  | createdLate {job e} : Step i w (.createOrGetJob job) (.error e)
      { w with jobs := (w.jobs.createOrGet job).2 }
  | watch {key} : Step i w (.watch key) (.ok (w.index.writes key)) w
  | notWatched {key e} : Step i w (.watch key) (.error e) w
  | get {key} : Step i w (.get key) (.ok (w.index.value key)) w
  | notGot {key e} : Step i w (.get key) (.error e) w
  | commit {key watched entry value} (h : w.index.writes key = watched) :
    Step i w (.exec key watched entry value) (.ok ()) (w.commit key entry value)
  | committedLate {key watched entry value e} (h : w.index.writes key = watched) :
    Step i w (.exec key watched entry value) (.error e) (w.commit key entry value)
  | notCommitted {key watched entry value e} :
    Step i w (.exec key watched entry value) (.error e) w
  | respond {response} : Step i w (.respond response) ()
      { w with responses := Function.update w.responses i (some response) }

/-- The other tables change, and the workers change the rows of jobs that they have read from the
stream. -/
inductive Env (w : BackendWorld ι) : BackendWorld ι → Prop
  | tables {projects assets} : Env w { w with projects := projects, assets := assets }
  | worker {job row} (hjob : job ∈ w.jobs.rows) (hpublished : w.Published job.id) :
    Env w { w with jobs := w.jobs.modify job.key (StoredJob.setRow row) }

end BackendWorld

/-- Any number of requests, each with a new id for its job. -/
def createRequests {ι : Type} [DecidableEq ι] (handler : Handler) (requests : ι → CreateJobRequest) :
    Pool ι BackendEffect BackendEffect.Answer Unit (BackendWorld ι) where
  start i _ p := ∃ newId, p = createJob handler (requests i) newId
  sem i e w := BackendWorld.Step i w e
  env := BackendWorld.Env

end BoulderFrame
