import BoulderFrame.Repository.Database

/-!
# The PostgreSQL job repository

Each call runs one statement at one reading of the database clock. A statement is modelled by the
rows it writes; what the caller checks before it, and concludes from the rows it got back, follows
the repository's methods.

## Main definitions

* `claimSql`, `renewSql`, `releaseSql`, `updateSql`: what the statements on one row of
  `processing_jobs` write, if their condition holds
* `PostgresJobRepository.claim`, `renew`, `release`, `update`, `currentState`: the calls with them
* `OutputAsset`, `PostgresJobRepository.finalizeOutput`: the link of the rendered output
* `ReviewArtifact`, `PostgresJobRepository.finalizeReview`: the links of one review
-/

namespace BoulderFrame

/-- A call on the repository, at a time of the database clock: its outcome, and the database
after it. -/
abbrev Call (α : Type) := Time → Database → Except Raised α × Database

/-! ## Statements on one job -/

def claimSql (workerId : String) (leaseSeconds : ℤ) (now : Time) (row : JobRow) : Option JobRow :=
  if row.state.isTerminal = false ∧ row.leaseLive now = false then
    some { row with
      leaseOwner := some workerId
      leaseExpiresAt := some (now + seconds leaseSeconds)
      startedAt := row.startedAt <|> some now }
  else none

def renewSql (workerId : String) (leaseSeconds : ℤ) (now : Time) (row : JobRow) : Option JobRow :=
  if row.HeldBy workerId now ∧ row.state.isTerminal = false then
    some { row with leaseExpiresAt := some (now + seconds leaseSeconds) }
  else none

def releaseSql (workerId : String) (row : JobRow) : Option JobRow :=
  if row.leaseOwner = some workerId ∧ row.state.isTerminal = false then
    some { row with leaseOwner := none, leaseExpiresAt := none }
  else none

/-- The pairs of a stored and a requested state that an update admits. -/
def updateAdmits (stored requested : JobState) : Prop :=
  (stored = .queued ∧ requested = .validating) ∨
  (stored = .validating ∧ requested ∈ [.validating, .analyzing, .failed]) ∨
  (stored = .analyzing ∧ requested ∈ [.analyzing, .rendering, .failed]) ∨
  (stored = .rendering ∧ requested ∈ [.rendering, .uploading, .failed]) ∨
  (stored = .uploading ∧ requested ∈ [.uploading, .completed, .failed])

instance (stored requested : JobState) : Decidable (updateAdmits stored requested) :=
  inferInstanceAs (Decidable (_ ∨ _))

def updateSql (requested : JobRecord) (leaseOwner : String) (now : Time) (row : JobRow) :
    Option JobRow :=
  if row.HeldBy leaseOwner now ∧ row.state ≠ .cancelled ∧ row.progress ≤ requested.progress ∧
      (requested.state ≠ .completed ∨ requested.progress = 100) ∧
      requested.stage = requested.state ∧ updateAdmits row.state requested.state then
    some { row with
      state := requested.state
      stage := requested.stage
      progress := requested.progress
      errorCode := requested.error.map (·.code)
      errorMessage := requested.error.map (·.message)
      report := requested.report
      completedAt := if requested.state.isTerminal then some now else row.completedAt
      leaseOwner := if requested.state.isTerminal then none else row.leaseOwner
      leaseExpiresAt := if requested.state.isTerminal then none else row.leaseExpiresAt }
  else none

/-- `processing_jobs.progress` is checked to be `BETWEEN 0 AND 100`. -/
def progressCheck (row : JobRow) : Prop := 0 ≤ row.progress ∧ row.progress ≤ 100

instance (row : JobRow) : Decidable (progressCheck row) := inferInstanceAs (Decidable (_ ∧ _))

/-- What PostgreSQL raises when a row breaks a check, when a number is outside its column's range,
and when a primary key is taken. -/
def checkViolation : Raised := .other "CheckViolation"

def numericValueOutOfRange : Raised := .other "NumericValueOutOfRange"

def uniqueViolation : Raised := .other "UniqueViolation"

/-- What a guarded write raises when it changed no row. -/
def jobStateChanged : Raised := .leaseLost "job state was changed, cancelled, or lease expired"

/-- `_record_from_row` -/
def recordFromRow (id : Uuid) (row : JobRow) (source : Asset) : JobRecord where
  id := id
  state := row.state
  stage := row.stage
  progress := row.progress
  leaseOwner := row.leaseOwner
  leaseExpiresAt := row.leaseExpiresAt
  error := row.errorCode.map fun code => .terminal code (row.errorMessage.getD "None") none
  configuration := some row.configuration
  sourceAsset := some ⟨source.id, source.projectId⟩
  startedAt := row.startedAt
  completedAt := row.completedAt
  report := row.report

/-! ## Output and review assets -/

structure OutputAsset where
  sizeBytes : ℤ
  contentType : String
  width : ℤ
  height : ℤ
  frameRate : ℚ
  durationMs : ℤ
  sizeBytes_pos : 0 < sizeBytes
  contentType_eq : contentType = "video/mp4"
  media_pos : 0 < width ∧ 0 < height ∧ 0 < frameRate ∧ 0 < durationMs

/-- `OutputAsset.__post_init__` -/
def OutputAsset.postInit (sizeBytes : ℤ) (contentType : String) (width height : ℤ)
    (frameRate : ℚ) (durationMs : ℤ) : Except Raised OutputAsset :=
  if hsize : ¬ 0 < sizeBytes then
    .error (.valueError "output asset size must be greater than zero")
  else if htype : ¬ contentType = "video/mp4" then
    .error (.valueError "output asset must be video/mp4")
  else if hmedia : ¬ (0 < width ∧ 0 < height ∧ 0 < frameRate ∧ 0 < durationMs) then
    .error (.valueError "output asset media metadata must be positive")
  else .ok ⟨sizeBytes, contentType, width, height, frameRate, durationMs,
    not_not.mp hsize, not_not.mp htype, not_not.mp hmedia⟩

namespace ReviewRole

def value : ReviewRole → String
  | .debugTelemetry => "debug_telemetry"
  | .debugManifest => "debug_manifest"
  | .debugDetection => "debug_detection"
  | .debugFraming => "debug_framing"
  | .debugRender => "debug_render"

/-- The role with the given text, if it is supported. -/
def ofValue (text : String) : Option ReviewRole :=
  [debugTelemetry, debugManifest, debugDetection, debugFraming, debugRender].find?
    fun role => role.value = text

/-- The content type that a review artifact of the role must have. -/
def expectedType : ReviewRole → String
  | .debugTelemetry => "application/gzip"
  | .debugManifest => "application/json"
  | _ => "video/mp4"

/-- `_review_name_for_role` -/
def reviewName : ReviewRole → String
  | .debugTelemetry => "telemetry.jsonl.gz"
  | .debugManifest => "manifest.json"
  | .debugDetection => "detection.mp4"
  | .debugFraming => "framing.mp4"
  | .debugRender => "render.mp4"

end ReviewRole

structure ReviewArtifact where
  role : ReviewRole
  storageKey : String
  sizeBytes : ℤ
  contentType : String
  sizeBytes_pos : 0 < sizeBytes
  contentType_eq : contentType = role.expectedType

/-- `ReviewArtifact.__post_init__` -/
def ReviewArtifact.postInit (role storageKey : String) (sizeBytes : ℤ) (contentType : String) :
    Except Raised ReviewArtifact :=
  match ReviewRole.ofValue role with
  | none => .error (.valueError "review artifact role is unsupported")
  | some role =>
    if hsize : ¬ 0 < sizeBytes then
      .error (.valueError "review artifact size must be greater than zero")
    else if htype : ¬ contentType = role.expectedType then
      .error (.valueError "review artifact content type is invalid")
    else .ok ⟨role, storageKey, sizeBytes, contentType, not_not.mp hsize, not_not.mp htype⟩

def outputStorageKey (projectId jobId : Uuid) : String :=
  "private/output/" ++ projectId.text ++ "/" ++ jobId.text ++ ".mp4"

def reviewStorageKey (projectId jobId reviewId : Uuid) (name : String) : String :=
  "private/debug/" ++ projectId.text ++ "/" ++ jobId.text ++ "/" ++ reviewId.text ++ "/" ++ name

/-- The ranges of the columns of type `integer` and `bigint`. -/
def integerMax : ℤ := 2147483647

def bigintMax : ℤ := 9223372036854775807

namespace OutputAsset

variable (output : OutputAsset)

/-- The columns of an output asset fit. -/
def Fits : Prop :=
  output.sizeBytes ≤ bigintMax ∧ output.width ≤ integerMax ∧ output.height ≤ integerMax ∧
    output.durationMs ≤ bigintMax

instance : Decidable output.Fits := inferInstanceAs (Decidable (_ ∧ _))

/-- The row that the output statement inserts. -/
def row (id projectId : Uuid) (storageKey : String) : Asset where
  id := id
  projectId := projectId
  kind := .output
  storageKey := storageKey
  uploadState := .uploaded
  contentType := some output.contentType
  sizeBytes := output.sizeBytes
  width := some output.width
  height := some output.height
  frameRate := some output.frameRate
  durationMs := some output.durationMs

/-- `ON CONFLICT (storage_key) DO UPDATE`, of the output statement -/
def merge : KeyedTable.Merge Asset.id Asset.storageKey where
  apply a := { a with
    contentType := some output.contentType
    sizeBytes := output.sizeBytes
    width := some output.width
    height := some output.height
    frameRate := some output.frameRate
    durationMs := some output.durationMs }
  primary_apply _ := rfl
  unique_apply _ := rfl

end OutputAsset

namespace ReviewArtifact

variable (artifact : ReviewArtifact)

/-- The row that the review statement inserts. -/
def row (id projectId : Uuid) : Asset where
  id := id
  projectId := projectId
  kind := .debug
  storageKey := artifact.storageKey
  uploadState := .uploaded
  contentType := some artifact.contentType
  sizeBytes := artifact.sizeBytes
  width := none
  height := none
  frameRate := none
  durationMs := none

/-- `ON CONFLICT (storage_key) DO UPDATE`, of the review statement -/
def merge : KeyedTable.Merge Asset.id Asset.storageKey where
  apply a := { a with contentType := some artifact.contentType, sizeBytes := artifact.sizeBytes }
  primary_apply _ := rfl
  unique_apply _ := rfl

end ReviewArtifact

/-- The `WHERE` of both conflict clauses: an asset of the same project and kind, uploaded. -/
def Asset.overwritable (projectId : Uuid) (kind : AssetKind) (a : Asset) : Bool :=
  a.projectId = projectId ∧ a.kind = kind ∧ a.uploadState = .uploaded

/-! ## Statements of finalization -/

/-- The `owned_job` of the output statement. -/
def ownsUploading (projectId : Uuid) (leaseOwner : String) (now : Time) (row : JobRow) : Prop :=
  row.projectId = projectId ∧ row.state = .uploading ∧ row.HeldBy leaseOwner now

instance (projectId : Uuid) (leaseOwner : String) (now : Time) (row : JobRow) :
    Decidable (ownsUploading projectId leaseOwner now row) :=
  inferInstanceAs (Decidable (_ ∧ _))

/-- The output statement, with the id that is drawn for a new asset: the linked asset, if any. -/
def finalizeOutputSql (jobId projectId : Uuid) (leaseOwner storageKey : String)
    (output : OutputAsset) (newId : Uuid) (now : Time) (db : Database) :
    Except Raised (Option Uuid × Database) :=
  match db.jobs jobId with
  | none => .ok (none, db)
  | some row =>
    if ¬ ownsUploading projectId leaseOwner now row then .ok (none, db)
    else if ¬ output.Fits then .error numericValueOutOfRange
    else match db.assets.upsert (output.row newId row.projectId storageKey) output.merge
        (Asset.overwritable row.projectId .output) with
      | none => .error uniqueViolation
      | some (_, none) => .ok (none, db)
      | some (assets, some asset) => .ok (some asset.id,
          { db.setJob jobId { row with outputAssetId := some asset.id } with
            assets := assets
            artifacts := Function.update db.artifacts jobId
              (Function.update (db.artifacts jobId) .output (some asset.id)) })

/-- The `owned_job` of the review statement. -/
def ownsUnfinished (projectId : Uuid) (leaseOwner : String) (now : Time) (row : JobRow) : Prop :=
  row.projectId = projectId ∧ row.state.isTerminal = false ∧ row.HeldBy leaseOwner now

instance (projectId : Uuid) (leaseOwner : String) (now : Time) (row : JobRow) :
    Decidable (ownsUnfinished projectId leaseOwner now row) :=
  inferInstanceAs (Decidable (_ ∧ _))

/-- The `review_assets`, with the ids that are drawn for new assets: the roles of the artifacts
whose asset was inserted or overwritten, each with its asset. -/
def reviewAssets (projectId : Uuid) (newId : ReviewRole → Uuid) :
    List ReviewArtifact → AssetTable → Option (AssetTable × List (ReviewRole × Uuid))
  | [], assets => some (assets, [])
  | artifact :: artifacts, assets => do
    let (assets, asset) ← assets.upsert (artifact.row (newId artifact.role) projectId)
      artifact.merge (Asset.overwritable projectId .debug)
    let (assets, linked) ← reviewAssets projectId newId artifacts assets
    match asset with
    | none => some (assets, linked)
    | some asset => some (assets, (artifact.role, asset.id) :: linked)

/-- The artifacts of a job after the review statement: the linked roles are written, and the
review roles that the input does not have are deleted. -/
def reviewLinks (roles : List ReviewRole) (linked : List (ReviewRole × Uuid))
    (links : ArtifactKind → Option Uuid) : ArtifactKind → Option Uuid
  | .output => links .output
  | .review role =>
    match linked.lookup role with
    | some asset => some asset
    | none => if role ∈ roles then links (.review role) else none

/-- The review statement: the number of its linked artifacts. -/
def finalizeReviewSql (jobId projectId : Uuid) (leaseOwner : String)
    (artifacts : List ReviewArtifact) (newId : ReviewRole → Uuid) (now : Time) (db : Database) :
    Except Raised (ℕ × Database) :=
  match db.jobs jobId with
  | none => .ok (0, db)
  | some row =>
    if ¬ ownsUnfinished projectId leaseOwner now row then .ok (0, db)
    else if ¬ ∀ artifact ∈ artifacts, artifact.sizeBytes ≤ bigintMax then
      .error numericValueOutOfRange
    else match reviewAssets row.projectId newId artifacts db.assets with
      | none => .error uniqueViolation
      | some (assets, linked) => .ok (linked.length,
          { db with
            assets := assets
            artifacts := Function.update db.artifacts jobId
              (reviewLinks (artifacts.map (·.role)) linked (db.artifacts jobId)) })

/-! ## The calls -/

namespace PostgresJobRepository

def claim (jobId : Uuid) (workerId : String) (leaseSeconds : ℤ) : Call (Option JobRecord) :=
  fun now db =>
    match db.jobs jobId with
    | none => (.ok none, db)
    | some row =>
      match db.assets.find row.sourceAssetId, claimSql workerId leaseSeconds now row with
      | some source, some row' => (.ok (some (recordFromRow jobId row' source)), db.setJob jobId row')
      | _, _ => (.ok none, db)

/-- A statement on the row of one job: whether it changed the row. -/
def executeOn (jobId : Uuid) (statement : Time → JobRow → Option JobRow) : Call Bool :=
  fun now db =>
    match (db.jobs jobId).bind (statement now) with
    | none => (.ok false, db)
    | some row' => if progressCheck row' then (.ok true, db.setJob jobId row')
        else (.error checkViolation, db)

def renew (jobId : Uuid) (workerId : String) (leaseSeconds : ℤ) : Call Bool :=
  executeOn jobId (renewSql workerId leaseSeconds)

def release (jobId : Uuid) (workerId : String) : Call Bool :=
  executeOn jobId fun _ => releaseSql workerId

def currentState (jobId : Uuid) : Call (Option JobState) := fun _ db =>
  (.ok ((db.jobs jobId).map (·.state)), db)

def update (record : JobRecord) : Call Unit := fun now db =>
  match record.leaseOwner with
  | none => (.error (.leaseLost "job update requires a worker lease owner"), db)
  | some leaseOwner =>
    match executeOn record.id (updateSql record leaseOwner) now db with
    | (.error e, db) => (.error e, db)
    | (.ok true, db) => (.ok (), db)
    | (.ok false, db) => (.error jobStateChanged, db)

def finalizeOutput (record : JobRecord) (output : OutputAsset) (newId : Uuid) : Call Uuid :=
  fun now db =>
    match record.leaseOwner, record.sourceAsset with
    | some leaseOwner, some source =>
      if record.state ≠ .uploading then
        (.error (.valueError "output finalization requires the uploading state"), db)
      else
        match finalizeOutputSql record.id source.projectId leaseOwner
          (outputStorageKey source.projectId record.id) output newId now db with
        | .error e => (.error e, db)
        | .ok (some asset, db) => (.ok asset, db)
        | .ok (none, db) => (.error jobStateChanged, db)
    | _, _ =>
      (.error (.leaseLost "output finalization requires a claimed job with a source asset"), db)

/-- The loop of `finalize_review` over its artifacts, after those with the given roles: every role
once, and every storage key canonical. -/
def checkReview (projectId jobId reviewId : Uuid) :
    List ReviewRole → List ReviewArtifact → Except Raised Unit
  | _, [] => .ok ()
  | roles, artifact :: artifacts =>
    if artifact.role ∈ roles then .error (.valueError "review artifact roles must be unique")
    else if artifact.storageKey ≠
        reviewStorageKey projectId jobId reviewId artifact.role.reviewName then
      .error (.valueError "review storage key must use the canonical UUID-scoped format")
    else checkReview projectId jobId reviewId (artifact.role :: roles) artifacts

/-- The checks of `finalize_review` on its own arguments: the owner and the source that it goes on
with. -/
def reviewChecks (record : JobRecord) (reviewId : Uuid) (artifacts : List ReviewArtifact) :
    Except Raised (String × SourceAsset) :=
  match record.leaseOwner, record.sourceAsset with
  | some leaseOwner, some source =>
    if record.state.isTerminal then
      .error (.valueError "review finalization requires a nonterminal job")
    else if ¬ (.debugTelemetry ∈ artifacts.map (·.role) ∧
        .debugManifest ∈ artifacts.map (·.role)) then
      .error (.valueError "review must include telemetry and manifest artifacts")
    else do
      checkReview source.projectId record.id reviewId [] artifacts
      .ok (leaseOwner, source)
  | _, _ =>
    .error (.leaseLost "review finalization requires a claimed job with a source asset")

def finalizeReview (record : JobRecord) (reviewId : Uuid) (artifacts : List ReviewArtifact)
    (newId : ReviewRole → Uuid) : Call Unit := fun now db =>
  match reviewChecks record reviewId artifacts with
  | .error e => (.error e, db)
  | .ok (leaseOwner, source) =>
    match finalizeReviewSql record.id source.projectId leaseOwner artifacts newId now db with
    | .error e => (.error e, db)
    -- the count is compared after the commit
    | .ok (count, db) => (if count = artifacts.length then .ok () else .error jobStateChanged, db)

end PostgresJobRepository

end BoulderFrame
