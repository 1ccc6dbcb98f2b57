import BoulderFrame.Domain.Errors
import BoulderFrame.Framing.Crop
import BoulderFrame.Library.Value

/-!
# Loading a telemetry bundle

The offline evaluation reads the header and the frames of a telemetry bundle, and accepts no other
values than it expects. Records of other types are passed over.

## Main definitions

* `DebugHeader`, `DebugFrame`, `DebugBundle`: what is read of a bundle
* `debugFrame`, `debugHeader`: the frame and the header of a record
* `loadDebugBundle`: the loader
-/

namespace BoulderFrame

namespace Evaluation

structure SourceMetadata (K : Type) where
  sourceId : Option String
  width : ℤ
  height : ℤ
  frameRate : K
  variableFrameRate : Bool
  sha256 : Option String

structure DebugHeader (K : Type) where
  source : SourceMetadata K
  pipelineVersion : String
  modelVersion : String
  plannerConfig : Value K
  modelManifest : Value K

structure DebugFrame (K : Type) where
  frameIndex : ℤ
  timestampMs : ℤ
  detection : Option (Rect K)
  selected : Option Bool
  crop : Option (Rect K)
  renderedCrop : Option (Rect K)
  renderedTimestampMs : Option ℤ
  renderMappingIndependentlyVerified : Bool
  sourceAspectLimited : Bool
  detectionSampled : Bool

structure DebugBundle (K : Type) where
  header : DebugHeader K
  frames : List (DebugFrame K)

/-- `EvaluationValidationError` -/
def validationError (message : String) : Raised := .valueError message

/-! ## Checked values -/

section Checked

variable {K : Type}

/-- `_mapping` -/
def mapping (v : Value K) (name : String) : Except Raised (Value K) :=
  match v with
  | .dict fields => .ok (.dict fields)
  | _ => .error (validationError (name ++ " must be an object"))

/-- `_optional_mapping` -/
def optionalMapping (v : Value K) (name : String) : Except Raised (Option (Value K)) :=
  match v with
  | .none => .ok none
  | v => some <$> mapping v name

/-- `_required_mapping` -/
def requiredMapping (data : Value K) (key : String) : Except Raised (Value K) :=
  match data.field key with
  | none => .error (validationError ("debug frame requires " ++ key))
  | some v => mapping v key

/-- `_require_keys` -/
def requireKeys (data : Value K) (name : String) (keys : List String) : Except Raised Unit :=
  let missing := keys.filter fun key => (data.field key).isNone
  if missing ≠ [] then
    .error (validationError (name ++ " requires " ++ ", ".intercalate missing))
  else .ok ()

/-- `_string` -/
def string (v : Value K) (name : String) : Except Raised String :=
  match v with
  | .str text =>
    if text = "" then .error (validationError (name ++ " must be a non-empty string"))
    else .ok text
  | _ => .error (validationError (name ++ " must be a non-empty string"))

/-- `_boolean` -/
def boolean (v : Value K) (name : String) : Except Raised Bool :=
  match v with
  | .bool value => .ok value
  | _ => .error (validationError (name ++ " must be a boolean"))

/-- `_non_negative_int` -/
def nonNegativeInt (v : Value K) (name : String) : Except Raised ℤ :=
  match v with
  | .int value =>
    if value < 0 then .error (validationError (name ++ " must be a non-negative integer"))
    else .ok value
  | _ => .error (validationError (name ++ " must be a non-negative integer"))

/-- `_positive_int` -/
def positiveInt (v : Value K) (name : String) : Except Raised ℤ := do
  let result ← nonNegativeInt v name
  if result = 0 then .error (validationError (name ++ " must be positive")) else .ok result

/-- A value that may be missing. -/
def optional {α : Type} (v : Value K) (read : Value K → Except Raised α) :
    Except Raised (Option α) :=
  match v with
  | .none => .ok none
  | v => some <$> read v

variable [IntCast K]

/-- `_finite`; `isfinite` raises on an integer that has no float. -/
def finite (v : Value K) (name : String) : Except Raised K :=
  match v with
  | .int value =>
    if value.natAbs < floatOverflow then .ok value else .error (.other "OverflowError")
  | .float (.finite value) => .ok value
  | _ => .error (validationError (name ++ " must be finite"))

variable [LinearOrder K] [Zero K]

/-- `_positive_float` -/
def positiveFloat (v : Value K) (name : String) : Except Raised K := do
  let result ← finite v name
  if result ≤ 0 then .error (validationError (name ++ " must be positive")) else .ok result

/-- `_rect` -/
def rect (v : Value K) (name : String) : Except Raised (Rect K) := do
  let data ← mapping v name
  let x ← finite (data.get "x") (name ++ ".x")
  let y ← finite (data.get "y") (name ++ ".y")
  let width ← positiveFloat (data.get "width") (name ++ ".width")
  let height ← positiveFloat (data.get "height") (name ++ ".height")
  .ok ⟨x, y, width, height⟩

/-- `_nested_rect` -/
def nestedRect (data : Value K) (key : String) : Except Raised (Option (Rect K)) := do
  let nested ← optionalMapping (data.get key) key
  match nested with
  | none => .ok none
  | some nested => optional (nested.get "bounds") (rect · (key ++ ".bounds"))

end Checked

section Load

variable {K : Type} [IntCast K] [LinearOrder K] [Zero K]

/-- `_schema_version` -/
def schemaVersion (data : Value K) (name : String) : Except Raised Unit :=
  if (data.get "schema_version").equalsInt 1 then .ok ()
  else .error (validationError ("unsupported " ++ name ++ " schema_version"))

/-! ## Frames -/

/-- `_debug_frame` -/
def debugFrame (record : Value K) : Except Raised (DebugFrame K) := do
  let data ← mapping record "debug frame"
  if ¬ (data.get "record_type").isText "frame" then
    .error (validationError "debug records after header must be frames")
  else do
    schemaVersion data "debug frame"
    let detectionSection ← requiredMapping data "detection"
    let framing ← requiredMapping data "framing"
    let render ← requiredMapping data "render"
    requireKeys detectionSection "detection" ["detection"]
    requireKeys framing "framing" ["input", "crop"]
    requireKeys render "render" ["crop", "timestamp_ms"]
    let detection ← nestedRect detectionSection "detection"
    let selection ← optionalMapping (detectionSection.get "selection") "selection"
    let decision ← optionalMapping (framing.get "decision") "framing.decision"
    let frameIndex ← nonNegativeInt (data.get "frame_index") "frame_index"
    let timestampMs ← nonNegativeInt (data.get "timestamp_ms") "timestamp_ms"
    let selected ← match selection with
      | none => .ok none
      | some selection => some <$> boolean (selection.get "selected") "selection.selected"
    let crop ← optional (framing.get "crop") (rect · "framing.crop")
    let renderedCrop ← optional (render.get "crop") (rect · "render.crop")
    let renderedTimestampMs ←
      optional (render.get "timestamp_ms") (nonNegativeInt · "render.timestamp_ms")
    let verified ← boolean ((render.field "mapping_independently_verified").getD (.bool false))
      "render.mapping_independently_verified"
    let sourceAspectLimited ← match decision with
      | none => .ok false
      | some decision =>
        boolean ((decision.field "source_aspect_limited").getD (.bool false))
          "framing.source_aspect_limited"
    .ok
      { frameIndex := frameIndex
        timestampMs := timestampMs
        detection := detection
        selected := selected
        crop := crop
        renderedCrop := renderedCrop
        renderedTimestampMs := renderedTimestampMs
        renderMappingIndependentlyVerified := verified
        sourceAspectLimited := sourceAspectLimited
        detectionSampled :=
          !(detectionSection.get "selection_outcome").isText "detection_skipped" }

/-- `_strictly_increasing_frames`, after a frame with the given index and timestamp. -/
def strictlyIncreasingFrames (name : String) (previousIndex previousTimestamp : ℤ) :
    List (DebugFrame K) → Except Raised Unit
  | [] => .ok ()
  | frame :: frames =>
    if frame.frameIndex ≤ previousIndex then
      .error (validationError (name ++ " frame indices must be unique and increasing"))
    else if frame.timestampMs ≤ previousTimestamp then
      .error (validationError (name ++ " timestamps must be strictly increasing"))
    else strictlyIncreasingFrames name frame.frameIndex frame.timestampMs frames

/-! ## The header -/

/-- `_source_metadata` -/
def sourceMetadata (data : Value K) : Except Raised (SourceMetadata K) := do
  let sourceId := data.get "source_id"
  let sha256 := data.get "sha256"
  if sourceId.isNone ∧ sha256.isNone then
    .error (validationError "source metadata requires source_id or sha256")
  else do
    let sourceId ← optional sourceId (string · "source_id")
    let width ← positiveInt ((data.field "display_width").getD (data.get "width"))
      "source display_width"
    let height ← positiveInt ((data.field "display_height").getD (data.get "height"))
      "source display_height"
    let frameRate ← positiveFloat (data.get "frame_rate") "source frame_rate"
    let variableFrameRate ←
      boolean (data.get "variable_frame_rate") "source variable_frame_rate"
    let sha256 ← optional sha256 (string · "sha256")
    if variableFrameRate then
      .error (validationError "variable-frame-rate sources are not supported")
    else .ok ⟨sourceId, width, height, frameRate, variableFrameRate, sha256⟩

/-- The header of the first record. -/
def debugHeader (record : Value K) : Except Raised (DebugHeader K) := do
  let header ← mapping record "debug header"
  if ¬ (header.get "record_type").isText "header" then
    .error (validationError "first debug record must be a header")
  else do
    schemaVersion header "debug bundle"
    let metadata ← mapping (header.get "source_metadata") "header source_metadata"
    let source ← sourceMetadata metadata
    let pipelineVersion ← string (header.get "pipeline_version") "pipeline_version"
    let modelVersion ← string (header.get "model_version") "model_version"
    let plannerConfig ← mapping (header.get "planner_config") "planner_config"
    let modelManifest ← mapping (header.get "model_manifest") "model_manifest"
    .ok ⟨source, pipelineVersion, modelVersion, plannerConfig, modelManifest⟩

/-! ## The loader -/

/-- The record is one of a frame. -/
def isFrame (record : Value K) : Bool := (record.get "record_type").isText "frame"

/-- The loop over the records after the header. -/
def loadFrames (maxFrames : ℤ) (frames : List (DebugFrame K)) :
    List (Value K) → Except Raised (List (DebugFrame K))
  | [] => .ok frames
  | record :: records =>
    if isFrame record then
      if maxFrames ≤ frames.length then
        .error (validationError ("debug bundle exceeds max_frames: " ++ toString maxFrames))
      else do
        let frame ← debugFrame record
        loadFrames maxFrames (frames ++ [frame]) records
    else loadFrames maxFrames frames records

/-- `load_debug_bundle` -/
def loadDebugBundle (records : List (Value K)) (maxFrames : ℤ) :
    Except Raised (DebugBundle K) := do
  let _ ← positiveInt (Value.int maxFrames : Value K) "max_frames"
  match records with
  | [] => .error (validationError "debug bundle is empty")
  | first :: records => do
    let header ← debugHeader first
    let frames ← loadFrames maxFrames [] records
    strictlyIncreasingFrames "debug" (-1) (-1) frames
    .ok ⟨header, frames⟩

end Load

end Evaluation

end BoulderFrame
