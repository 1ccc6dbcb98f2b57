import BoulderFrame.Library.Routine
import BoulderFrame.Media.Metadata
import BoulderFrame.Repository.Postgres

/-!
# Processing one task

The worker claims the job of a task, runs its stages from the stored one on, and records where the
job ends: completed, failed, or released for a retry. Everything outside the worker's own control
flow is an effect: the calls on the repository and on object storage, the scratch directory, the
heartbeat, the media work of the stages. The wall-clock timings of a report are left out.

## Main definitions

* `Effect`, `Effect.Answer`: the effects of the worker
* `process`: `Worker.process`
* `uploading`, `pipelineHandlers`: the stage handlers of the pipeline
-/

namespace BoulderFrame

/-- The durable job of a queue payload, with the originating trace. -/
structure JobTask where
  jobId : Uuid
  traceId : String
  deriving DecidableEq, Repr

/-- The part of the worker's configuration that its control flow reads. -/
structure WorkerConfig where
  modelVersion : String
  leaseSeconds : ℤ
  debugCapture : Bool
  leaseSeconds_pos : 0 < leaseSeconds

inductive DeliveryAction
  | ack
  | retry
  deriving DecidableEq, Repr

/-- What `Worker.process` returns: an action for the delivery, or a flag. -/
inductive ProcessResult
  | action (action : DeliveryAction)
  | flag (done : Bool)
  deriving DecidableEq, Repr

structure StoredObject where
  key : String
  sizeBytes : ℤ
  contentType : Option String

inductive Effect
  /-- calls on the repository -/
  | claim (jobId : Uuid) (attemptId : String) (leaseSeconds : ℤ)
  | currentState (jobId : Uuid)
  | update (record : JobRecord)
  | release (jobId : Uuid) (attemptId : String)
  | finalizeOutput (record : JobRecord) (output : OutputAsset)
  /-- the directory of the attempt is made -/
  | makeScratch
  /-- whether the heartbeat has failed to renew the lease -/
  | heartbeatFailed
  /-- the media work of a stage -/
  | runHandler (stage : JobStage) (record : JobRecord)
  /-- the log entry of a completed stage -/
  | stageResponse (jobId : Uuid) (attemptId : String) (stage : JobStage)
  /-- the review is published, as far as that succeeds -/
  | publishReview (record : JobRecord)
  /-- parts of the upload: the source with its metadata, the rendered output with its own, the
  calls on object storage, the size of the rendered file, the report of the analysis -/
  | loadInputs (record : JobRecord)
  | render (record : JobRecord)
  | uploadFile (key contentType : String)
  | headObject (key : String)
  | outputFileSize
  | loadAnalysisReport

/-- Calls and media work answer or raise. -/
abbrev Effect.Answer : Effect → Type
  | .claim .. => Except Raised (Option JobRecord)
  | .currentState .. => Except Raised (Option JobState)
  | .update .. => Except Raised Unit
  | .release .. => Except Raised Bool
  | .finalizeOutput .. => Except Raised Uuid
  | .makeScratch => Except Raised Unit
  | .heartbeatFailed => Bool
  | .runHandler .. => Except Raised Report
  | .stageResponse .. => Unit
  | .publishReview .. => Unit
  | .loadInputs .. => Except Raised MediaMetadata
  | .render .. => Except Raised MediaMetadata
  | .uploadFile .. => Except Raised Unit
  | .headObject .. => Except Raised (ℤ × Option String)
  | .outputFileSize => Except Raised ℤ
  | .loadAnalysisReport => Except Raised Report

abbrev WorkerRoutine (ℓ α : Type) := Routine Effect Effect.Answer Raised ℓ α

/-- The variables of an attempt: `record` and `report`. -/
structure Attempt where
  record : JobRecord
  report : Report

/-- `report.update(new)` -/
def Report.merge (report new : Report) : Report :=
  report.map (fun field => (field.1, (new.lookup field.1).getD field.2)) ++
    new.filter fun field => (report.lookup field.1).isNone

/-- A stage handler, from the record of the attempt to its part of the report. -/
abbrev StageHandler := JobRecord → WorkerRoutine Unit Report

open Routine

/-! ## The pipeline's upload -/

def storageError : Raised :=
  .worker (.retryable .storageUnavailable "Object storage is temporarily unavailable.")

def invalidOutput : Raised :=
  .worker (.terminal .invalidOutput "Rendered video upload could not be verified." none)

/-- `S3Storage.head`; an empty content type is none. -/
def headStored (key : String) : WorkerRoutine Unit StoredObject := do
  let (sizeBytes, contentType) ← handle (call (.headObject key) rfl) fun _ => raise storageError
  pure ⟨key, sizeBytes, contentType.filter (· ≠ "")⟩

/-- `S3Storage.upload` -/
def uploadStored (key contentType : String) : WorkerRoutine Unit StoredObject := do
  handle (call (.uploadFile key contentType) rfl) fun _ => raise storageError
  headStored key

/-- `_source` -/
def sourceOf (record : JobRecord) : Except Raised SourceAsset :=
  match record.sourceAsset with
  | none => .error (.worker (.terminal .invalidMedia "The job source video is unavailable." none))
  | some source => .ok source

/-- `ProcessingPipeline.uploading` -/
def uploading (record : JobRecord) : WorkerRoutine Unit Report := do
  let inputs ← call (.loadInputs record) rfl
  let output ← call (.render record) rfl
  let source ← ofExcept (sourceOf record)
  let storageKey := outputStorageKey source.projectId record.id
  let stored ← uploadStored storageKey "video/mp4"
  let size ← call .outputFileSize rfl
  if stored.key ≠ storageKey ∨ stored.sizeBytes ≠ size ∨ stored.contentType ≠ some "video/mp4" then
    raise invalidOutput
  else do
    let asset ← ofExcept (OutputAsset.postInit stored.sizeBytes (stored.contentType.getD "")
      output.width output.height output.frameRate output.durationMs)
    let _ ← call (.finalizeOutput record asset) rfl
    let report ← call .loadAnalysisReport rfl
    pure (report.merge [("frames_processed", toString inputs.expectedFrameCount)])

/-- Every handler is its media work. -/
def plainHandlers (stage : JobStage) : StageHandler := fun record =>
  call (.runHandler stage record) rfl

/-- The handlers of the pipeline: the upload, and the media work of the stages before it. -/
def pipelineHandlers : JobStage → StageHandler
  | .uploading => uploading
  | stage => fun record => call (.runHandler stage record) rfl

/-! ## `Worker.process` -/

section Process

variable (config : WorkerConfig) (handlers : JobStage → StageHandler) (attemptId : String)

/-- `ensure_lease` -/
def ensureLease : WorkerRoutine Attempt Unit := do
  let failed ← perform Effect.heartbeatFailed
  if failed then
    raise (.worker (.retryable .databaseUnavailable "Processing was temporarily interrupted."))
  else pure ()

/-- `_publish_debug`: its failures are only logged -/
def publishDebug : WorkerRoutine Attempt Unit := do
  let attempt ← get
  if config.debugCapture then perform (Effect.publishReview attempt.record) else pure ()

/-- `record = transition(record, state, progress)`, then `update(record)` -/
def moveTo (state : JobState) (progress : ℤ) : WorkerRoutine Attempt Unit := do
  let attempt ← get
  let record ← ofExcept (transition attempt.record state progress)
  modify fun attempt => { attempt with record := record }
  call (.update record) rfl

/-- `update(with_report(fail(record, error)))` -/
def failWith (error : WorkerError) : WorkerRoutine Attempt Unit := do
  let attempt ← get
  let record ← ofExcept (fail attempt.record error)
  call (.update { record with report := some attempt.report }) rfl

/-- The handler of a stage, and what a failure in it leaves. -/
def runHandled (state : JobState) : WorkerRoutine Attempt Unit := do
  let attempt ← get
  handle (do
      let report ← scope () (handlers state attempt.record)
      modify fun attempt => { attempt with report := attempt.report.merge report }
      ensureLease)
    fun error => do
      publishDebug config
      raise error

/-- One iteration of the loop over the stages. -/
def runStage (state : JobState) (progress : ℤ) : WorkerRoutine Attempt Unit := do
  ensureLease
  let attempt ← get
  (if attempt.record.state ≠ state then moveTo state progress else pure ())
  runHandled config handlers state
  perform (Effect.stageResponse attempt.record.id attemptId state)

def runStages : List (JobState × ℤ) → WorkerRoutine Attempt Unit
  | [] => pure ()
  | (state, progress) :: stages => do
    runStage config handlers attemptId state progress
    runStages stages

/-- The stages with their progress. -/
def stages : List (JobState × ℤ) :=
  [(.validating, 10), (.analyzing, 45), (.rendering, 75), (.uploading, 90)]

/-- `stages[start_at:]`: a queued job starts with the first stage, any other resumes at its own. -/
def stagesFrom (state : JobState) : Except Raised (List (JobState × ℤ)) :=
  if state = .queued then .ok stages
  else match stages.dropWhile fun stage => stage.1 ≠ state with
    | [] => .error (.other "StopIteration")
    | rest => .ok rest

/-- The stages in the scratch directory of the attempt, and the completion of the job. -/
def runAttempt : WorkerRoutine Attempt Unit := do
  call .makeScratch rfl
  let attempt ← get
  let rest ← ofExcept (stagesFrom attempt.record.state)
  runStages config handlers attemptId rest
  publishDebug config
  let attempt ← get
  let record ← ofExcept (transition attempt.record .completed 100)
  modify fun attempt => { attempt with record := record }
  call (.update { record with report := some attempt.report }) rfl

/-- The handlers of the attempt's exceptions: a transient failure releases the lease, any other
one fails the job. -/
def recover (jobId : Uuid) : Raised → WorkerRoutine Attempt Unit
  | .worker error =>
    if error.transient then do
      let _ ← handle (call (.release jobId attemptId) rfl) fun _ => pure false
      raise (.worker error)
    else failWith error
  | _ => handle (failWith (.terminal .internal "Processing could not be completed." none))
      fun error => do
        let _ ← call (.release jobId attemptId) rfl
        raise error

/-- What the worker does with a claimed job. -/
def processClaimed (jobId : Uuid) : WorkerRoutine Attempt ProcessResult := do
  let attempt ← get
  if attempt.record.configuration.any fun c => c.modelVersion ≠ config.modelVersion then do
    (if attempt.record.state = .queued then moveTo .validating 10 else pure ())
    failWith (.terminal .modelUnavailable
      "This job requires a different model version than this worker provides." none)
    pure (.flag true)
  else do
    handle (runAttempt config handlers attemptId) (recover attemptId jobId)
    pure (.flag true)

/-- `Worker.process`, with the token that the attempt draws. -/
def process (task : JobTask) : WorkerRoutine Unit ProcessResult := do
  let claimed ← call (.claim task.jobId attemptId config.leaseSeconds) rfl
  match claimed with
  | none => do
    let state ← call (.currentState task.jobId) rfl
    match state with
    | none => pure (.action .ack)
    | some state => pure (if state.isTerminal then .action .ack else .flag false)
  | some record =>
    scope ⟨record, [("attempt_id", attemptId)]⟩
      (processClaimed config handlers attemptId task.jobId)

end Process

/-! ## The created job -/

def sampleConfig : WorkerConfig := ⟨"yolo26", 60, false, by decide⟩

def sampleTask : JobTask := ⟨sampleJob, "trace"⟩

end BoulderFrame
