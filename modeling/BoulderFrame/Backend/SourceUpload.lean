import BoulderFrame.Backend.CreateJob
import BoulderFrame.Domain.Protocol
import BoulderFrame.Worker.Process

/-!
# Uploading a source

A client asks for an asset and uploads its bytes through a presigned URL. A completion compares the
size of the stored object with the requested one and confirms the asset. An attempt claims a job
together with its asset, downloads the object once into its scratch directory, and processes it. The
URL stays usable until it expires.

## Main definitions

* `uploadAsset`, `completeAsset`: `Handler.uploadAsset` and `Handler.completeAsset`
* `inputs`, `attempt`: `ProcessingPipeline._inputs` and an attempt, as far as they read the source
* `SourceWorld`, `SourceWorld.Step`, `SourceWorld.Env`: the tables with the object storage, the
  effects of requests and attempts, and the steps of the clients and of the rest
* `sourceCalls`: the pool of the requests and attempts
-/

namespace BoulderFrame

/-- The settings of the API and of the workers. -/
structure SourceSettings where
  handler : Handler
  maxUploadBytes : ℤ
  worker : WorkerConfig
  normalizationMaxSourceBytes : ℤ

/-- An upload request: the id in its path, and its body with the filename, the content type and the
size, if they can be read. -/
structure UploadRequest where
  projectId : Option Uuid
  body : Option (String × String × ℤ)

inductive UploadResponse
  /-- the asset, with the key of its URL -/
  | upload (asset : Asset) (key : String)
  | asset (asset : Asset)
  | error (status : ℕ) (code message : String)

/-- An object of the storage, and what a HEAD request tells of it. -/
structure ObjectData where
  bytes : List UInt8
  contentType : String
  deriving DecidableEq

structure ObjectInfo where
  size : ℤ
  contentType : String

def ObjectData.info (data : ObjectData) : ObjectInfo := ⟨data.bytes.length, data.contentType⟩

/-- The video files of a scratch directory: `source-original` and `source-cfr.mp4`. -/
inductive SourceFile
  | original
  | normalized

inductive SourceEffect
  /-- calls of the API on the repository and on object storage -/
  | createSourceAsset (asset : Asset)
  | presignUpload (key contentType : String)
  | head (key : String)
  | updatePending (id : Uuid) (size : ℤ) (contentType : String)
  | reply (response : UploadResponse)
  /-- the claim of a job, which answers its row and its asset -/
  | claim (jobId : Uuid) (attemptId : String) (leaseSeconds : ℤ)
  | download (key : String)
  /-- media work on the scratch directory -/
  | inspect (file : SourceFile) (allowVariableFrameRate : Bool)
  | isNormalized
  | normalize (metadata : MediaMetadata)
  /-- what a handler does with its inputs -/
  | processSource (source : Uuid) (bytes : List UInt8)

abbrev SourceEffect.Answer : SourceEffect → Type
  | .createSourceAsset _ => Except BackendError Asset
  | .presignUpload .. => Except BackendError String
  | .head _ => Except BackendError ObjectInfo
  | .updatePending .. => Except BackendError (Option Asset)
  | .reply _ => Unit
  | .claim .. => Except Raised (Option (StoredJob × Asset))
  | .download _ => Except Raised (List UInt8)
  | .inspect .. => Except Raised MediaMetadata
  | .isNormalized => Bool
  | .normalize _ => Except Raised Unit
  | .processSource .. => Except Raised Unit

abbrev SourceProg (α : Type) :=
  Prog (BackendEffect ⊕ SourceEffect) (Sum.elim BackendEffect.Answer SourceEffect.Answer) α

/-- An effect of the other requests too. -/
def performBackend (e : BackendEffect) : SourceProg e.Answer := (Prog.perform e).inl

def performSource (e : SourceEffect) : SourceProg e.Answer := Prog.perform (Sum.inr e)

open BackendEffect SourceEffect

/-! ## The handlers -/

def hasExtension (extension filename : String) : Bool :=
  extension.toList.isSuffixOf (filename.toList.map Char.toLower)

/-- `ValidSourceFilename` -/
def validSourceFilename (filename : String) : Bool :=
  hasExtension ".mp4" filename || hasExtension ".mov" filename

/-- `ValidSourceContentType` -/
def validSourceContentType (filename contentType : String) : Bool :=
  if hasExtension ".mp4" filename then contentType = "video/mp4"
  else if hasExtension ".mov" filename then contentType = "video/quicktime"
  else false

/-- `SourceStorageKey` -/
def sourceStorageKey (projectId assetId : Uuid) (filename : String) : String :=
  "private/source/" ++ projectId.text ++ "/" ++ assetId.text ++
    if hasExtension ".mov" filename then ".mov" else ".mp4"

/-- The row that `CreateSourceAsset` inserts. -/
def pendingAsset (id projectId : Uuid) (filename contentType : String) (size : ℤ) : Asset where
  id := id
  projectId := projectId
  kind := .source
  storageKey := sourceStorageKey projectId id filename
  uploadState := .pending
  contentType := some contentType
  sizeBytes := size
  width := none
  height := none
  frameRate := none
  durationMs := none

/-- `notFound` -/
def assetNotFound (e : BackendError) : UploadResponse :=
  match e with
  | .notFound => .error 404 "not_found" "resource not found"
  | .failed _ => .error 500 "internal_error" "could not load resource"

/-- `Handler.uploadAsset`, with the new id of the asset -/
def uploadAsset (settings : SourceSettings) (request : UploadRequest) (newId : Uuid) :
    SourceProg Unit :=
  match request.projectId with
  | none => performSource (reply (.error 400 "invalid_id" "invalid UUID"))
  | some projectId => do
    match ← performBackend (getProject projectId settings.handler.owner) with
    | .error e => performSource (reply (assetNotFound e))
    | .ok () =>
      match request.body with
      | none => performSource (reply (.error 400 "invalid_upload"
          "an MP4 or MOV file within the configured size limit is required"))
      | some (filename, contentType, size) =>
        if ¬ validSourceFilename filename ∨ size ≤ 0 ∨ settings.maxUploadBytes < size then
          performSource (reply (.error 400 "invalid_upload"
            "an MP4 or MOV file within the configured size limit is required"))
        else if ¬ validSourceContentType filename contentType then
          performSource (reply (.error 400 "invalid_upload"
            "content_type must be video/mp4 or video/quicktime"))
        else do
          match ← performSource
            (createSourceAsset (pendingAsset newId projectId filename contentType size)) with
          | .error _ =>
            performSource (reply (.error 500 "internal_error" "could not create asset"))
          | .ok asset => do
            match ← performSource (presignUpload asset.storageKey contentType) with
            | .error _ =>
              performSource (reply (.error 502 "storage_unavailable" "could not create upload URL"))
            | .ok key => performSource (reply (.upload asset key))

/-- `PG.MarkAssetUploaded` -/
def markAssetUploaded (id : Uuid) (info : ObjectInfo) : SourceProg (Except BackendError Asset) := do
  match ← performSource (updatePending id info.size info.contentType) with
  | .error e => pure (.error e)
  | .ok (some asset) => pure (.ok asset)
  | .ok none => performBackend (getAsset id)

/-- `Handler.completeAsset` -/
def completeAsset (settings : SourceSettings) (assetId : Option Uuid) : SourceProg Unit :=
  match assetId with
  | none => performSource (reply (.error 400 "invalid_id" "invalid UUID"))
  | some id => do
    match ← performBackend (getAsset id) with
    | .error e => performSource (reply (assetNotFound e))
    | .ok asset => do
      match ← performBackend (getProject asset.projectId settings.handler.owner) with
      | .error e => performSource (reply (assetNotFound e))
      | .ok () =>
        if asset.uploadState = .invalid then
          performSource (reply (.error 409 "invalid_state" "asset is invalid"))
        else if asset.uploadState = .uploaded then performSource (reply (.asset asset))
        else do
          match ← performSource (head asset.storageKey) with
          | .error _ =>
            performSource (reply (.error 409 "upload_incomplete" "source object is not available"))
          | .ok info =>
            if info.size ≠ asset.sizeBytes then performSource (reply (.error 409
              "upload_size_mismatch" "uploaded object size does not match request"))
            else do
              match ← markAssetUploaded id info with
              | .error _ =>
                performSource (reply (.error 500 "internal_error" "could not confirm upload"))
              | .ok asset => performSource (reply (.asset asset))

/-! ## The attempts -/

def invalidMedia (message : String) : Raised := .worker (.terminal .invalidMedia message none)

/-- The planner map of a job's configuration that `_planner_configuration` expects, with the rate
that it reads. -/
def expectedPlanner (detectionSampleFps : ℚ) : PlannerMap where
  controller := "lookahead-v2"
  seedController := "deterministic-v3"
  optimizer := "scipy-highs-ds"
  lookaheadScope := "full_shot"
  containmentPolicy := "sampled_detections"
  solverFeasibilityTolerance := 0.00000001
  detectionSampleFps := detectionSampleFps
  scaleEnterFraction := 0.05
  scaleExitFraction := 0.02
  centerEnterFraction := 0.01
  centerExitFraction := 0.004
  zoomMaxSpeed := 0.5
  zoomMaxAcceleration := 1.0
  panMaxSpeed := 0.25
  panMaxAcceleration := 0.5
  panDeadZoneFraction := 0.05

/-- `_planner_configuration` -/
def plannerConfigurationOf (config : JobConfig) : Except Raised ℚ :=
  let fps := config.planner.detectionSampleFps
  if config.planner ≠ expectedPlanner fps ∨ ¬ (0 ≤ fps ∧ fps ≤ 1000) then
    .error (.worker (.terminal .internal "The job planner configuration is invalid." none))
  else .ok fps

/-- `_selection` -/
def selectionOf (config : JobConfig) : Except Raised (Protocol.TargetSelection ℚ) :=
  let selection := config.targetSelection
  if selection.frameTimeMs < 0 then .error (.worker (.terminal .invalidTargetSelection
    "Target frame time must not be negative." none))
  else if ¬ (0 ≤ selection.normalizedX ∧ selection.normalizedX ≤ 1) ∨
      ¬ (0 ≤ selection.normalizedY ∧ selection.normalizedY ≤ 1) then
    .error (.worker (.terminal .invalidTargetSelection
      "Target coordinates must be between zero and one." none))
  else .ok ⟨selection.frameTimeMs, selection.normalizedX, selection.normalizedY⟩

/-- `_output_settings` -/
def outputSettings (config : JobConfig) : Except Raised Protocol.OutputSettings :=
  match [AspectRatio.landscape, .portrait].find? (·.value = config.output.aspectRatio),
    [FramingProfile.tight, .balanced, .safe, .fullMovement].find?
      (·.value = config.output.profile) with
  | some ratio, some profile => .ok ⟨ratio, profile⟩
  | _, _ => .error
      (.worker (.terminal .invalidOutput "Requested output settings are invalid." none))

/-- What `_inputs` checks before it reads the source. -/
def checkedSelection (job : StoredJob) (source : Asset) :
    Except Raised (Protocol.TargetSelection ℚ) := do
  let _ ← plannerConfigurationOf job.configuration
  if source.uploadState ≠ .uploaded then
    .error (invalidMedia "The source video upload is not available.")
  else if job.configuration.sourceAssetId ≠ source.id then
    .error (invalidMedia "The job source video does not match its configuration.")
  else do
    let selection ← selectionOf job.configuration
    let _ ← outputSettings job.configuration
    pure selection

/-- `source-original`, which is downloaded if the scratch directory does not hold it yet. -/
def sourceOriginal (source : Asset) (scratch : Option (List UInt8)) :
    SourceProg (Except Raised (List UInt8)) :=
  match scratch with
  | some bytes => pure (.ok bytes)
  | none => performSource (download source.storageKey)

/-- The metadata of the source, or of its normalization if its frame rate varies. -/
def inspectSource (settings : SourceSettings) (source : Asset) :
    SourceProg (Except Raised MediaMetadata) := do
  match ← performSource (inspect .original false) with
  | .ok metadata => pure (.ok metadata)
  | .error (.worker error) =>
    if error.code ≠ .variableFrameRate then pure (.error (.worker error))
    else do
      match ← performSource (inspect .original true) with
      | .error e => pure (.error e)
      | .ok original =>
        if settings.normalizationMaxSourceBytes < source.sizeBytes then
          pure (.error (invalidMedia "This variable-frame-rate video is too large to normalize."))
        else do
          if ← performSource isNormalized then performSource (inspect .normalized false)
          else do
            match ← performSource (normalize original) with
            | .error e => pure (.error e)
            | .ok () => performSource (inspect .normalized false)
  | .error e => pure (.error e)

/-- `_inputs`: the metadata, and `source-original` as far as the scratch directory then holds it. -/
def inputs (settings : SourceSettings) (job : StoredJob) (source : Asset)
    (scratch : Option (List UInt8)) :
    SourceProg (Except Raised MediaMetadata × Option (List UInt8)) :=
  match checkedSelection job source with
  | .error e => pure (.error e, scratch)
  | .ok selection => do
    match ← sourceOriginal source scratch with
    | .error e => pure (.error e, scratch)
    | .ok bytes => do
      match ← inspectSource settings source with
      | .error e => pure (.error e, some bytes)
      | .ok metadata =>
        let inside := metadata.frameForTimeMs selection.frameTimeMs
        pure (inside.map fun _ => metadata, some bytes)

/-- A handler: its inputs, and what it does with them. -/
def handleSource (settings : SourceSettings) (job : StoredJob) (source : Asset)
    (scratch : Option (List UInt8)) : SourceProg (Except Raised Unit × Option (List UInt8)) := do
  match ← inputs settings job source scratch with
  | (.ok _, some bytes) =>
    let result ← performSource (processSource source.id bytes)
    pure (result, some bytes)
  | (.ok _, none) => pure (.ok (), none)
  | (.error e, scratch) => pure (.error e, scratch)

/-- The handlers of some stages, up to the first that fails. -/
def handleStages (settings : SourceSettings) (job : StoredJob) (source : Asset) :
    List (JobState × ℤ) → Option (List UInt8) → SourceProg (Option (List UInt8))
  | [], scratch => pure scratch
  | _ :: stages, scratch => do
    match ← handleSource settings job source scratch with
    | (.ok (), scratch) => handleStages settings job source stages scratch
    | (.error _, scratch) => pure scratch

/-- An attempt: the stages in a new scratch directory, and then the review. -/
def attempt (settings : SourceSettings) (jobId : Uuid) (attemptId : String) : SourceProg Unit := do
  match ← performSource (claim jobId attemptId settings.worker.leaseSeconds) with
  | .error _ | .ok none => pure ()
  | .ok (some (job, source)) =>
    if job.configuration.modelVersion ≠ settings.worker.modelVersion then pure ()
    else match stagesFrom job.row.state with
      | .error _ => pure ()
      | .ok stages => do
        let scratch ← handleStages settings job source stages none
        if settings.worker.debugCapture then do
          let _ ← handleSource settings job source scratch
          pure ()
        else pure ()

/-- A request, or an attempt. -/
inductive SourceCall
  | upload (request : UploadRequest)
  | complete (assetId : Option Uuid)
  | createJob (request : CreateJobRequest)
  | attempt (jobId : Uuid) (attemptId : String)

/-- The program of a call, with the id that it may draw. -/
def SourceCall.program (settings : SourceSettings) (newId : Uuid) : SourceCall → SourceProg Unit
  | .upload request => uploadAsset settings request newId
  | .complete assetId => completeAsset settings assetId
  | .createJob request => (BoulderFrame.createJob settings.handler request newId).inl
  | .attempt jobId attemptId => BoulderFrame.attempt settings jobId attemptId

/-! ## The world of the sources -/

/-- What an asset is confirmed with: the size that its row is given, and the bytes that its object
then has. -/
structure Confirmation where
  size : ℤ
  bytes : Option (List UInt8)
  deriving DecidableEq

/-- The tables, the objects, and the URLs that have not expired, by their keys and content types;
with the sizes that completions have been told, what assets have been confirmed with, and the sources
that attempts have processed. -/
structure SourceWorld (ι : Type) where
  backend : BackendWorld ι
  objects : String → Option ObjectData
  urls : List (String × String)
  heads : List (String × ℤ)
  confirmed : Uuid → Option Confirmation
  processed : List (Uuid × List UInt8)
  replies : ι → Option UploadResponse

namespace SourceWorld

variable {ι : Type} (w : SourceWorld ι)

abbrev assets : Uuid → Option Asset := w.backend.assets

abbrev jobs : JobTable := w.backend.jobs

def setAsset (id : Uuid) (asset : Asset) : SourceWorld ι :=
  { w with backend := { w.backend with
      assets := Function.update w.backend.assets id (some asset) } }

def setJobs (jobs : JobTable) : SourceWorld ι :=
  { w with backend := { w.backend with jobs := jobs } }

def setObject (key : String) (data : Option ObjectData) : SourceWorld ι :=
  { w with objects := Function.update w.objects key data }

/-- The bytes of an object. -/
def bytesAt (key : String) : Option (List UInt8) := (w.objects key).map ObjectData.bytes

/-- `SET upload_state='uploaded'`, with the size, and the content type if it is not empty. -/
def confirm (asset : Asset) (size : ℤ) (contentType : String) : Asset :=
  { asset with
    uploadState := .uploaded
    sizeBytes := size
    contentType := if contentType = "" then asset.contentType else some contentType }

/-- The row with the given id becomes uploaded, if it is pending. -/
def update (id : Uuid) (size : ℤ) (contentType : String) : Option Asset × SourceWorld ι :=
  match w.assets id with
  | none => (none, w)
  | some asset =>
    if asset.uploadState = .pending then
      let asset := confirm asset size contentType
      (some asset,
        { w.setAsset id asset with
          confirmed := Function.update w.confirmed id (some ⟨size, w.bytesAt asset.storageKey⟩) })
    else (none, w)

/-- The effects of the uploads and of the attempts. Every call may raise before or after its
effect. -/
inductive SourceStep [DecidableEq ι] (i : ι) (w : SourceWorld ι) :
    (e : SourceEffect) → e.Answer → SourceWorld ι → Prop
  | created {asset} (hid : w.assets asset.id = none)
      (hkey : ∀ id old, w.assets id = some old → old.storageKey ≠ asset.storageKey) :
    SourceStep i w (.createSourceAsset asset) (.ok asset) (w.setAsset asset.id asset)
  | createdLate {asset e} (hid : w.assets asset.id = none)
      (hkey : ∀ id old, w.assets id = some old → old.storageKey ≠ asset.storageKey) :
    SourceStep i w (.createSourceAsset asset) (.error e) (w.setAsset asset.id asset)
  | notCreated {asset e} : SourceStep i w (.createSourceAsset asset) (.error e) w
  | presigned {key contentType} : SourceStep i w (.presignUpload key contentType) (.ok key)
      { w with urls := (key, contentType) :: w.urls }
  | notPresigned {key contentType e} : SourceStep i w (.presignUpload key contentType) (.error e) w
  | head {key data} (h : w.objects key = some data) : SourceStep i w (.head key) (.ok data.info)
      { w with heads := (key, data.info.size) :: w.heads }
  | noHead {key e} : SourceStep i w (.head key) (.error e) w
  | updated {id size contentType} : SourceStep i w (.updatePending id size contentType)
      (.ok (w.update id size contentType).1) (w.update id size contentType).2
  | updatedLate {id size contentType e} : SourceStep i w (.updatePending id size contentType)
      (.error e) (w.update id size contentType).2
  | notUpdated {id size contentType e} :
    SourceStep i w (.updatePending id size contentType) (.error e) w
  | reply {response} : SourceStep i w (.reply response) ()
      { w with replies := Function.update w.replies i (some response) }
  | claimed {jobId attemptId leaseSeconds now job row source} (hjob : job ∈ w.jobs.rows)
      (hid : job.id = jobId) (hclaim : claimSql attemptId leaseSeconds now job.row = some row)
      (hsource : w.assets job.row.sourceAssetId = some source) :
    SourceStep i w (.claim jobId attemptId leaseSeconds) (.ok (some ({ job with row := row }, source)))
      (w.setJobs (w.jobs.modify job.key (StoredJob.setRow row)))
  | claimedLate {jobId attemptId leaseSeconds now job row e} (hjob : job ∈ w.jobs.rows)
      (hid : job.id = jobId) (hclaim : claimSql attemptId leaseSeconds now job.row = some row) :
    SourceStep i w (.claim jobId attemptId leaseSeconds) (.error e)
      (w.setJobs (w.jobs.modify job.key (StoredJob.setRow row)))
  | unclaimed {jobId attemptId leaseSeconds} :
    SourceStep i w (.claim jobId attemptId leaseSeconds) (.ok none) w
  | notClaimed {jobId attemptId leaseSeconds e} :
    SourceStep i w (.claim jobId attemptId leaseSeconds) (.error e) w
  | download {key data} (h : w.objects key = some data) :
    SourceStep i w (.download key) (.ok data.bytes) w
  | notDownloaded {key e} : SourceStep i w (.download key) (.error e) w
  | inspect {file allow a} : SourceStep i w (.inspect file allow) a w
  | isNormalized {a} : SourceStep i w .isNormalized a w
  | normalize {metadata a} : SourceStep i w (.normalize metadata) a w
  | processSource {source bytes a} : SourceStep i w (.processSource source bytes) a
      { w with processed := (source, bytes) :: w.processed }

/-- The effects of a call. -/
def Step [DecidableEq ι] (i : ι) (w : SourceWorld ι) : (e : BackendEffect ⊕ SourceEffect) →
    Sum.elim BackendEffect.Answer SourceEffect.Answer e → SourceWorld ι → Prop
  | .inl e, a, w' => ∃ backend, BackendWorld.Step i w.backend e a backend ∧
      w' = { w with backend := backend }
  | .inr e, a, w' => SourceStep i w e a w'

/-- The clients upload through URLs that have not expired, if `admits` does not exclude it. The
workers change the rows of jobs, and store outputs and reviews with their assets. -/
inductive Env (admits : SourceWorld ι → String → ObjectData → Prop) (w : SourceWorld ι) :
    SourceWorld ι → Prop
  | put {key data} (hurl : (key, data.contentType) ∈ w.urls) (h : admits w key data) :
    Env admits w (w.setObject key (some data))
  | expire {urls} (h : urls ⊆ w.urls) : Env admits w { w with urls := urls }
  | projects {projects} : Env admits w { w with backend := { w.backend with projects := projects } }
  | row {job row} (hjob : job ∈ w.jobs.rows) (hsource : row.sourceAssetId = job.row.sourceAssetId) :
    Env admits w (w.setJobs (w.jobs.modify job.key (StoredJob.setRow row)))
  | asset {id asset} (hid : asset.id = id) (hkind : asset.kind ≠ .source)
      (hstate : asset.uploadState = .uploaded)
      (hold : ∀ old, w.assets id = some old → old.kind ≠ .source) :
    Env admits w (w.setAsset id asset)
  | output {projectId jobId data} :
    Env admits w (w.setObject (outputStorageKey projectId jobId) (some data))
  | review {projectId jobId reviewId name data} :
    Env admits w (w.setObject (reviewStorageKey projectId jobId reviewId name) data)

/-- Nothing has been asked for or uploaded. -/
structure Initial (w : SourceWorld ι) : Prop where
  assets : ∀ id, w.assets id = none
  jobs : w.jobs.rows = []
  heads : w.heads = []
  confirmed : ∀ id, w.confirmed id = none
  processed : w.processed = []

end SourceWorld

/-- Any number of requests and attempts, whose clients upload what `admits` does not exclude. -/
def sourceCalls {ι : Type} [DecidableEq ι] (settings : SourceSettings) (calls : ι → SourceCall)
    (admits : SourceWorld ι → String → ObjectData → Prop) :
    Pool ι (BackendEffect ⊕ SourceEffect) (Sum.elim BackendEffect.Answer SourceEffect.Answer) Unit
      (SourceWorld ι) where
  start i _ p := ∃ newId, p = (calls i).program settings newId
  sem i e w := SourceWorld.Step i w e
  env := SourceWorld.Env admits

end BoulderFrame
