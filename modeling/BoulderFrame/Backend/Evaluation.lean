import BoulderFrame.Backend.CreateJob
import BoulderFrame.Backend.EvaluationManifest
import BoulderFrame.Repository.Review

/-!
# The evaluation of a job

The evaluation of a finished job shows the phases of its review to the client, with signed links to
the videos. The linked artifacts of a job must all be those of one review, and its manifest must
agree with the job.

## Main definitions

* `Evaluation`: the body of the answer
* `reviewArtifactsByRole`, `reviewIdForAsset`, `validReviewArtifactSet`: the checks of the artifacts
* `evaluation`: `Handler.evaluation`
* `EvaluationWorld`, `EvaluationWorld.Step`: the tables, the object storage, the accesses to it, and
  the effects of a request
-/

namespace BoulderFrame

open Prog (perform)

namespace Domain

structure EvaluationPhase (K : Type) where
  id : String
  label : String
  status : String
  detail : String
  summary : List (String × Value K)
  warningIntervals : List WarningInterval
  videoUrl : String

/-- A text that is empty, and a number that is zero, is left out of the answer. -/
structure Evaluation (K : Type) where
  available : Bool
  reviewId : String
  state : String
  pipelineVersion : String
  modelVersion : String
  timing : Option (EvaluationTiming K)
  phases : List (EvaluationPhase K)
  telemetryDownloadUrl : String
  expiresInSeconds : ℤ

/-- `Evaluation{Available: false}` -/
def Evaluation.unavailable {K : Type} : Evaluation K := ⟨false, "", "", "", "", none, [], "", 0⟩

/-- The columns of an asset that the handler reads. -/
structure ReviewAsset where
  kind : AssetKind
  storageKey : String
  uploadState : UploadState
  contentType : String
  sizeBytes : ℤ
  deriving DecidableEq

/-- A linked artifact of a job. -/
structure ReviewArtifact where
  role : String
  asset : ReviewAsset
  deriving DecidableEq

def validReviewArtifactRole (role : String) : Bool :=
  role == "debug_telemetry" || role == "debug_manifest" || role == "debug_detection" ||
    role == "debug_framing" || role == "debug_render"

def reviewArtifactRoleForPhase (phase : String) : String := "debug_" ++ phase

def reviewPhaseLabel (phase : String) : String :=
  if phase = "detection" then "Detection"
  else if phase = "framing" then "Framing"
  else if phase = "render" then "Render"
  else ""

def validReviewStorageKey (key : String) (projectId jobId reviewId : Uuid) (name : String) : Bool :=
  key == reviewStorageKey projectId jobId reviewId name

/-! ## The artifacts -/

/-- The loop over the artifacts, with those that have been found. -/
def addByRole (byRole : List (String × ReviewAsset)) :
    List ReviewArtifact → Option (List (String × ReviewAsset))
  | [] => some byRole
  | artifact :: artifacts =>
    if validReviewArtifactRole artifact.role = false then none
    else if artifact.role ∈ byRole.map Prod.fst then none
    else addByRole (byRole ++ [(artifact.role, artifact.asset)]) artifacts

/-- `reviewArtifactsByRole` -/
def reviewArtifactsByRole (artifacts : List ReviewArtifact) : Option (List (String × ReviewAsset)) :=
  addByRole [] artifacts

/-- The name and the content type of the artifact with a role. -/
def reviewArtifactSpec (role : String) : Option (String × String) :=
  if role = "debug_telemetry" then some ("telemetry.jsonl.gz", "application/gzip")
  else if role = "debug_manifest" then some ("manifest.json", "application/json")
  else if role = "debug_detection" then some ("detection.mp4", "video/mp4")
  else if role = "debug_framing" then some ("framing.mp4", "video/mp4")
  else if role = "debug_render" then some ("render.mp4", "video/mp4")
  else none

/-- `path.Base` -/
def pathBase (path : String) : String :=
  if path = "" then "."
  else
    let base := ((path.toList.reverse.dropWhile (· == '/')).takeWhile (· != '/')).reverse
    if base = [] then "/" else String.ofList base

/-- `strings.TrimPrefix` -/
def trimPrefix (text part : String) : String :=
  if part.toList.isPrefixOf text.toList then String.ofList (text.toList.drop part.toList.length)
  else text

/-- `strings.TrimSuffix` -/
def trimSuffix (text part : String) : String :=
  if part.toList.isSuffixOf text.toList then
    String.ofList (text.toList.take (text.toList.length - part.toList.length))
  else text

/-- `reviewIDForAsset`, with the parser of UUIDs -/
def reviewIdForAsset (parseUuid : String → Option Uuid) (asset : ReviewAsset)
    (projectId jobId : Uuid) (name : String) : Option Uuid :=
  let scope := "private/debug/" ++ projectId.text ++ "/" ++ jobId.text ++ "/"
  if scope.toList.isPrefixOf asset.storageKey.toList = false ∨ pathBase asset.storageKey ≠ name then
    none
  else
    match parseUuid (trimSuffix (trimPrefix asset.storageKey scope) ("/" ++ name)) with
    | none => none
    | some reviewId =>
      if validReviewStorageKey asset.storageKey projectId jobId reviewId name then some reviewId
      else none

/-- `validReviewAsset` -/
def validReviewAsset (asset : ReviewAsset) (projectId jobId reviewId : Uuid)
    (name contentType : String) : Bool :=
  decide (asset.uploadState = .uploaded) && decide (asset.kind = .debug) &&
    decide (0 < asset.sizeBytes) && asset.contentType == contentType &&
    validReviewStorageKey asset.storageKey projectId jobId reviewId name

/-- `validReviewArtifactSet` -/
def validReviewArtifactSet (artifacts : List (String × ReviewAsset))
    (projectId jobId reviewId : Uuid) : Bool :=
  artifacts.all fun (role, asset) =>
    match reviewArtifactSpec role with
    | none => false
    | some (name, contentType) =>
      validReviewAsset asset projectId jobId reviewId name contentType

end Domain

open Domain

/-! ## The effects of a request -/

/-- An object of the storage: the JSON value of its text, if it is exactly one, and its size and
content type. -/
structure StoredText (K : Type) where
  json : Option (Value K)
  size : ℤ
  contentType : String

inductive EvaluationResponse (K : Type)
  | evaluation (body : Evaluation K)
  | other (response : Response)

inductive EvaluationEffect (K : Type)
  | getJob (id : Uuid)
  | getProject (id : Uuid) (owner : String)
  | listReviewArtifacts (jobId : Uuid)
  | read (key : String) (maxBytes : ℤ)
  | presignDownload (key : String) (ttl : ℤ)
  | respond (response : EvaluationResponse K)

abbrev EvaluationEffect.Answer {K : Type} : EvaluationEffect K → Type
  | .getJob _ => Except BackendError StoredJob
  | .getProject .. => Except BackendError Unit
  | .listReviewArtifacts _ => Except BackendError (List Domain.ReviewArtifact)
  | .read .. => Except BackendError (StoredText K)
  | .presignDownload .. => Except BackendError String
  | .respond _ => Unit

abbrev EvaluationProg (K α : Type) := Prog (EvaluationEffect K) EvaluationEffect.Answer α

/-- The settings of the API for evaluations; the times are nanoseconds. The parsers are those of the
libraries. -/
structure EvaluationHandler where
  owner : String
  urlTtl : ℤ
  urlTtl_pos : 0 < urlTtl
  parseUuid : String → Option Uuid
  /-- the media type, if it can be read -/
  parseMediaType : String → Option String

/-! ## The handler -/

section Handle

variable {K : Type}

open EvaluationEffect

def maxEvaluationManifestBytes : ℤ := 256 * 1024

def second : ℤ := 1000000000

/-- `jsonContentType` -/
def EvaluationHandler.jsonContentType (handler : EvaluationHandler) (contentType : String) : Bool :=
  handler.parseMediaType contentType == some "application/json"

/-- A phase as the client sees it, without its video. -/
def projectPhase (byRole : List (String × ReviewAsset)) (projectId jobId reviewId : Uuid)
    (phase : ManifestPhase K) : EvaluationPhase K where
  id := phase.id
  label := reviewPhaseLabel phase.id
  status :=
    if phase.status = "ready" ∨ phase.status = "partial" ∨ phase.status = "warning" then
      match byRole.lookup (reviewArtifactRoleForPhase phase.id) with
      | none => "unavailable"
      | some asset =>
        if validReviewAsset asset projectId jobId reviewId (phase.id ++ ".mp4") "video/mp4" then
          phase.status
        else "unavailable"
    else phase.status
  detail := phase.detail
  summary := phase.summary
  warningIntervals := phase.warningIntervals
  videoUrl := ""

/-- The loop over the phases, with a signed link for each that is available. -/
def presignPhases (handler : EvaluationHandler) (byRole : List (String × ReviewAsset)) :
    List (EvaluationPhase K) →
      EvaluationProg K (Except BackendError (List (EvaluationPhase K)))
  | [] => pure (.ok [])
  | phase :: phases =>
    if phase.status = "unavailable" then do
      match ← presignPhases handler byRole phases with
      | .error e => pure (.error e)
      | .ok rest => pure (.ok (phase :: rest))
    else
      let storageKey :=
        ((byRole.lookup (reviewArtifactRoleForPhase phase.id)).map (·.storageKey)).getD ""
      do
        match ← perform (presignDownload storageKey handler.urlTtl) with
        | .error e => pure (.error e)
        | .ok url =>
          match ← presignPhases handler byRole phases with
          | .error e => pure (.error e)
          | .ok rest => pure (.ok ({ phase with videoUrl := url } :: rest))

def noEvaluationUrl : EvaluationResponse K :=
  .other (.error 502 "storage_unavailable" "could not create evaluation URL")

/-- The end of the handler: the link to the telemetry, and the answer. -/
def respondEvaluation (handler : EvaluationHandler) (job : StoredJob)
    (byRole : List (String × ReviewAsset)) (reviewId : Uuid) (telemetryReady : Bool)
    (body : Evaluation K) : EvaluationProg K Unit :=
  let telemetry := (byRole.lookup "debug_telemetry").filter fun asset => telemetryReady &&
    validReviewAsset asset job.row.projectId job.id reviewId "telemetry.jsonl.gz" "application/gzip"
  match telemetry with
  | none => perform (respond (.evaluation body))
  | some asset => do
    match ← perform (presignDownload asset.storageKey handler.urlTtl) with
    | .error _ => perform (respond noEvaluationUrl)
    | .ok url => perform (respond (.evaluation { body with telemetryDownloadUrl := url }))

/-- The handler from an accepted manifest on. -/
def presentManifest (handler : EvaluationHandler) (job : StoredJob)
    (byRole : List (String × ReviewAsset)) (reviewId : Uuid) (manifest : EvaluationManifest K) :
    EvaluationProg K Unit :=
  let phases := manifest.phases.map (projectPhase byRole job.row.projectId job.id reviewId)
  let seconds := Int.tdiv handler.urlTtl second
  if phases.any (·.status != "unavailable") then do
    match ← presignPhases handler byRole phases with
    | .error _ => perform (respond noEvaluationUrl)
    | .ok phases =>
      respondEvaluation handler job byRole reviewId manifest.telemetryReady
        { available := true
          reviewId := reviewId.text
          state := job.row.state.value
          pipelineVersion := manifest.pipelineVersion
          modelVersion := manifest.modelVersion
          timing := some manifest.timing
          phases := phases
          telemetryDownloadUrl := ""
          expiresInSeconds := seconds }
  else
    respondEvaluation handler job byRole reviewId manifest.telemetryReady
      { Evaluation.unavailable with expiresInSeconds := seconds }

variable [Field K] [LinearOrder K]

/-- The handler from the linked artifacts on. -/
def evaluateArtifacts (handler : EvaluationHandler) (job : StoredJob)
    (artifacts : List Domain.ReviewArtifact) : EvaluationProg K Unit :=
  let unavailable := perform (respond (.evaluation (K := K) .unavailable))
  match reviewArtifactsByRole artifacts with
  | none => unavailable
  | some byRole =>
    match byRole.lookup "debug_manifest" with
    | none => unavailable
    | some asset =>
      match reviewIdForAsset handler.parseUuid asset job.row.projectId job.id "manifest.json" with
      | none => unavailable
      | some reviewId =>
        if handler.jsonContentType asset.contentType = false ∨ asset.sizeBytes ≤ 0 ∨
            maxEvaluationManifestBytes < asset.sizeBytes then unavailable
        else do
          match ← perform (read asset.storageKey maxEvaluationManifestBytes) with
          | .error _ =>
            perform (respond (.other (.error 502 "storage_unavailable" "could not load evaluation")))
          | .ok text =>
            if handler.jsonContentType text.contentType = false ∨ text.size ≠ asset.sizeBytes then
              unavailable
            else
              match parseEvaluationManifest handler.parseUuid text.json with
              | .error _ => unavailable
              | .ok manifest =>
                if manifest.reviewId ≠ reviewId ∨
                    manifest.pipelineVersion ≠ job.configuration.pipelineVersion ∨
                    manifest.modelVersion ≠ job.configuration.modelVersion ∨
                    validReviewArtifactSet byRole job.row.projectId job.id reviewId = false then
                  unavailable
                else presentManifest handler job byRole reviewId manifest

/-- `Handler.evaluation`, with the id of the path, if it can be read -/
def evaluation (handler : EvaluationHandler) (request : Option Uuid) : EvaluationProg K Unit :=
  match request with
  | none => perform (respond (.other (.error 400 "invalid_id" "invalid UUID")))
  | some id => do
    match ← perform (getJob id) with
    | .error e => perform (respond (.other (notFound (some e))))
    | .ok job =>
      match ← perform (getProject job.row.projectId handler.owner) with
      | .error e => perform (respond (.other (notFound (some e))))
      | .ok () =>
        if job.row.state ≠ .completed ∧ job.row.state ≠ .failed then
          perform (respond (.other (.error 409 "evaluation_unavailable"
            "evaluation is available only after completion or failure")))
        else do
          match ← perform (listReviewArtifacts job.id) with
          | .error _ =>
            perform (respond (.other (.error 500 "internal_error" "could not load evaluation")))
          | .ok artifacts => evaluateArtifacts handler job artifacts

end Handle

/-! ## The world of a request -/

/-- An access to the object storage, by its key. -/
inductive StoreAccess
  | read (key : String)
  | presign (key : String)
  deriving DecidableEq

def StoreAccess.key : StoreAccess → String
  | .read key => key
  | .presign key => key

/-- The tables, as far as the handler reads them, and the object storage; the accesses to it, and
the response. -/
structure EvaluationWorld (K : Type) where
  jobs : Uuid → Option StoredJob
  projects : Uuid → Option String
  /-- what `PG.ListReviewArtifacts` returns for a job; its query selects the five review roles, and
  here the roles are arbitrary -/
  reviewArtifacts : Uuid → List Domain.ReviewArtifact
  objects : String → Option (StoredText K)
  accesses : List StoreAccess
  response : Option (EvaluationResponse K)

namespace EvaluationWorld

variable {K : Type} (w : EvaluationWorld K)

def access (a : StoreAccess) : EvaluationWorld K := { w with accesses := w.accesses ++ [a] }

/-- The effects of a request. Every call may fail; the artifacts are those that
`PG.ListReviewArtifacts` returns, and the signed links are among the given ones. -/
inductive Step (urls : Set String) (w : EvaluationWorld K) :
    (e : EvaluationEffect K) → e.Answer → EvaluationWorld K → Prop
  | job {id job} (h : w.jobs id = some job) (hid : job.id = id) :
    Step urls w (.getJob id) (.ok job) w
  | noJob {id e} : Step urls w (.getJob id) (.error e) w
  | project {id owner} (h : w.projects id = some owner) :
    Step urls w (.getProject id owner) (.ok ()) w
  | noProject {id owner e} : Step urls w (.getProject id owner) (.error e) w
  | artifacts {jobId} : Step urls w (.listReviewArtifacts jobId) (.ok (w.reviewArtifacts jobId)) w
  | noArtifacts {jobId e} : Step urls w (.listReviewArtifacts jobId) (.error e) w
  | read {key maxBytes text} (h : w.objects key = some text) (hsize : text.size ≤ maxBytes) :
    Step urls w (.read key maxBytes) (.ok text) (w.access (.read key))
  | unread {key maxBytes e} :
    Step urls w (.read key maxBytes) (.error e) (w.access (.read key))
  | presign {key ttl url} (h : url ∈ urls) :
    Step urls w (.presignDownload key ttl) (.ok url) (w.access (.presign key))
  | unsigned {key ttl e} :
    Step urls w (.presignDownload key ttl) (.error e) (w.access (.presign key))
  | respond {response} : Step urls w (.respond response) () { w with response := some response }

end EvaluationWorld

/-- A request on its own. -/
def evaluationSetting {K : Type} (urls : Set String) :
    Setting (EvaluationEffect K) EvaluationEffect.Answer (EvaluationWorld K) where
  rely := Eq
  sem e w a w' := w.Step urls e a w'
  guar _ _ := True

end BoulderFrame
