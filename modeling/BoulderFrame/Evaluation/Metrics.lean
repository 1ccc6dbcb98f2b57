import BoulderFrame.Analysis.ShotAnalysis
import BoulderFrame.Evaluation.Annotations
import BoulderFrame.Library.KeyedList

/-!
# Comparing a bundle with annotations

The evaluation compares the detections and crops of a telemetry bundle with annotated boxes, frame by
frame, and classifies the first thing that has failed on a frame. Rates and means summarize the
frames of one report, or of all reports with the same versions. All of them are exact numbers, which
the code rounds to doubles.

## Main definitions

* `iou`, `edgeRisk`, `sameRect`: the comparisons of rectangles
* `motionMetrics`: how fast the camera moves
* `frameMetrics`, `failure`: the metrics of a frame, and what has failed on it
* `evaluate`, `aggregateReports`: the report of a bundle, and the summary of reports
-/

namespace BoulderFrame

namespace Rect

variable {K : Type} [Field K] [LinearOrder K]

def area (r : Rect K) : K := r.width * r.height

/-- `contains_rect` -/
def containsRect (r other : Rect K) : Bool :=
  decide (r.x ≤ other.x) && decide (r.y ≤ other.y) && decide (r.right ≥ other.right) &&
    decide (r.bottom ≥ other.bottom)

end Rect

namespace Evaluation

inductive FailureClass
  | detection
  | selection
  | framing
  | renderMapping
  | insufficientAnnotation
  deriving DecidableEq, Repr

/-- How fast the camera pans and zooms on a frame. -/
structure Motion (K : Type) where
  panVelocity : Option K
  panAcceleration : Option K
  panJerk : Option K
  zoomVelocity : Option K
  zoomAcceleration : Option K
  zoomJerk : Option K

structure FrameMetrics (K : Type) extends Motion K where
  frameIndex : ℤ
  timestampMs : ℤ
  detectionAvailable : Option Bool
  detectionIou : Option K
  selectionCorrect : Option Bool
  cropContainsSubject : Option Bool
  sourceAspectLimited : Bool
  edgeRisk : Option Bool
  subjectScale : Option K
  failure : Option FailureClass

/-- The summary of some frames. -/
structure Aggregate (K : Type) where
  annotatedFrames : ℕ
  detectionAvailability : Option K
  meanDetectionIou : Option K
  selectionPrecision : Option K
  selectionRecall : Option K
  cropContainment : Option K
  sourceAspectLimitedRate : Option K
  edgeRiskRate : Option K
  meanSubjectScale : Option K
  meanPanVelocity : Option K
  meanPanAcceleration : Option K
  meanPanJerk : Option K
  meanZoomVelocity : Option K
  meanZoomAcceleration : Option K
  meanZoomJerk : Option K

structure EvaluationReport (K : Type) where
  caseId : String
  segment : List (String × String)
  frames : List (FrameMetrics K)
  aggregate : Aggregate K
  firstFailureFrame : Option ℤ
  firstFailure : Option FailureClass

section Rects

variable {K : Type} [Field K] [LinearOrder K]

/-- `SELECTION_IOU_THRESHOLD` -/
def selectionIouThreshold : K := 0.5

/-- `EDGE_RISK_FRACTION` -/
def edgeRiskFraction : K := 0.05

/-- `a / b` on Python floats -/
def quotient (a b : K) : Except Raised K := (divide a b).mapError PlanError.raised

/-- The area that two rectangles share. -/
def intersection (left right : Rect K) : K :=
  max 0 (min left.right right.right - max left.x right.x) *
    max 0 (min left.bottom right.bottom - max left.y right.y)

/-- `_iou`, of exact areas -/
def iou (left right : Rect K) : Except Raised K :=
  quotient (intersection left right) (left.area + right.area - intersection left right)

/-- `_edge_risk` -/
def edgeRisk (crop bounds : Rect K) : Except Raised Bool := do
  let margin := min (min (min (bounds.x - crop.x) (bounds.y - crop.y)) (crop.right - bounds.right))
    (crop.bottom - bounds.bottom)
  let fraction ← quotient margin (min crop.width crop.height)
  .ok (decide (fraction ≤ edgeRiskFraction))

/-- `_same_rect` -/
def sameRect (left right : Rect K) : Bool :=
  isclose left.x right.x 1e-9 1e-6 && isclose left.y right.y 1e-9 1e-6 &&
    isclose left.width right.width 1e-9 1e-6 && isclose left.height right.height 1e-9 1e-6

end Rects

/-! ## The motion of the camera -/

section Motion

variable {K : Type} [Field K] [LinearOrder K] [Elementary K] (hypot : K → K → K)

/-- What the loop over the frames remembers. -/
structure MotionState (K : Type) where
  previous : Option (DebugFrame K)
  previousPanVelocity : Option K
  previousZoomVelocity : Option K
  previousPanAcceleration : Option K
  previousZoomAcceleration : Option K

def MotionState.initial : MotionState K := ⟨none, none, none, none, none⟩

/-- A frame that is not compared with an earlier one. -/
def Motion.none : Motion K := ⟨.none, .none, .none, .none, .none, .none⟩

/-- The state after a frame; what the frame lacks stays. -/
def MotionState.after (state : MotionState K) (frame : DebugFrame K) (motion : Motion K) :
    MotionState K where
  previous := some frame
  previousPanVelocity := motion.panVelocity.or state.previousPanVelocity
  previousZoomVelocity := motion.zoomVelocity.or state.previousZoomVelocity
  previousPanAcceleration := motion.panAcceleration.or state.previousPanAcceleration
  previousZoomAcceleration := motion.zoomAcceleration.or state.previousZoomAcceleration

/-- A change of a rate, if there was an earlier one. -/
def rateChange (rate previous : Option K) (elapsed : K) : Option K :=
  rate.bind fun rate => previous.map fun previous => |rate - previous| / elapsed

/-- One iteration of the loop over the frames. -/
def motionStep (diagonal : K) (state : MotionState K) (frame : DebugFrame K) :
    Except Raised (Motion K) :=
  match state.previous with
  | none => .ok .none
  | some previous =>
    match frame.crop, previous.crop with
    | some crop, some previousCrop =>
      let elapsed : K := ((frame.timestampMs - previous.timestampMs : ℤ) : K) / 1000
      if 0 < elapsed then do
        let distance := hypot
          (crop.x + crop.width / 2 - previousCrop.x - previousCrop.width / 2)
          (crop.y + crop.height / 2 - previousCrop.y - previousCrop.height / 2)
        let fraction ← quotient distance diagonal
        let panVelocity := fraction / elapsed
        let ratio ← quotient crop.height previousCrop.height
        let zoom ← (checkedLog ratio).mapError PlanError.raised
        let zoomVelocity := |zoom| / elapsed
        let panAcceleration := rateChange (some panVelocity) state.previousPanVelocity elapsed
        let zoomAcceleration := rateChange (some zoomVelocity) state.previousZoomVelocity elapsed
        .ok
          { panVelocity := some panVelocity
            panAcceleration := panAcceleration
            panJerk := rateChange panAcceleration state.previousPanAcceleration elapsed
            zoomVelocity := some zoomVelocity
            zoomAcceleration := zoomAcceleration
            zoomJerk := rateChange zoomAcceleration state.previousZoomAcceleration elapsed }
      else .ok .none
    | _, _ => .ok .none

/-- The loop over the frames. -/
def motionLoop (diagonal : K) (state : MotionState K) :
    List (DebugFrame K) → Except Raised (List (ℤ × Motion K))
  | [] => .ok []
  | frame :: frames => do
    let motion ← motionStep hypot diagonal state frame
    let rest ← motionLoop diagonal (state.after frame motion) frames
    .ok ((frame.frameIndex, motion) :: rest)

/-- `_motion_metrics`; a later frame of an index counts -/
def motionMetrics (frames : List (DebugFrame K)) (source : SourceMetadata K) :
    Except Raised (ℤ → Option (Motion K)) := do
  let result ← motionLoop hypot (hypot source.width source.height) .initial frames
  .ok fun index => result.reverse.lookup index

end Motion

/-! ## The metrics of a frame -/

section Frames

variable {K : Type} [Field K] [LinearOrder K]

/-- `_failure` -/
def failure (detectionAvailable selectionCorrect contained : Option Bool) (debug : DebugFrame K) :
    Option FailureClass :=
  if detectionAvailable = some false then some .detection
  else if selectionCorrect = some false then some .selection
  else if contained = some false then some .framing
  else if debug.renderMappingIndependentlyVerified &&
      ((debug.renderedCrop.any fun rendered => !debug.crop.any (sameRect · rendered)) ||
        debug.renderedTimestampMs.any fun timestamp => decide (timestamp ≠ debug.timestampMs)) then
    some .renderMapping
  else none

/-- `_empty_metrics` -/
def emptyMetrics (debug : DebugFrame K) (motion : Option (Motion K))
    (failure : Option FailureClass) : FrameMetrics K where
  toMotion := motion.getD .none
  frameIndex := debug.frameIndex
  timestampMs := debug.timestampMs
  detectionAvailable := none
  detectionIou := none
  selectionCorrect := none
  cropContainsSubject := none
  sourceAspectLimited := debug.sourceAspectLimited
  edgeRisk := none
  subjectScale := none
  failure := failure

/-- How far a sampled detection is the annotated box. -/
def sampledIou (debug : DebugFrame K) (bounds : Rect K) : Except Raised (Option K) :=
  if debug.detectionSampled then debug.detection.mapM (iou · bounds) else .ok none

/-- The metrics of a frame with an annotated box. -/
def boxMetrics (debug : DebugFrame K) (bounds : Rect K) (motion : Option (Motion K)) :
    Except Raised (FrameMetrics K) := do
  let detectionIou ← sampledIou debug bounds
  let detectionAvailable := if debug.detectionSampled then some debug.detection.isSome else none
  let selectionCorrect :=
    if detectionAvailable = some true then
      some (debug.selected.getD true && detectionIou.any fun value =>
        decide (value ≥ selectionIouThreshold))
    else none
  let contained := debug.crop.map (·.containsRect bounds)
  let edgeRisk ← debug.crop.mapM (edgeRisk · bounds)
  let scale ← debug.crop.mapM fun crop => quotient bounds.area crop.area
  .ok
    { toMotion := motion.getD .none
      frameIndex := debug.frameIndex
      timestampMs := debug.timestampMs
      detectionAvailable := detectionAvailable
      detectionIou := detectionIou
      selectionCorrect := selectionCorrect
      cropContainsSubject := contained
      sourceAspectLimited := debug.sourceAspectLimited
      edgeRisk := edgeRisk
      subjectScale := scale
      failure := failure detectionAvailable selectionCorrect contained debug }

/-- `_frame_metrics` -/
def frameMetrics (debug : DebugFrame K) (annotated : Option (AnnotationFrame K))
    (motion : Option (Motion K)) : Except Raised (FrameMetrics K) :=
  match annotated with
  | none => .ok (emptyMetrics debug motion (some FailureClass.insufficientAnnotation))
  | some annotation =>
    if annotation.ambiguous then .ok (emptyMetrics debug motion (some FailureClass.insufficientAnnotation))
    else if annotation.visible then
      match annotation.bounds with
      | none => .ok (emptyMetrics debug motion none)
      | some bounds => boxMetrics debug bounds motion
    else .ok (emptyMetrics debug motion none)

/-- An annotated frame that has not been recorded. -/
def missingFrame (annotated : AnnotationFrame K) : DebugFrame K where
  frameIndex := annotated.frameIndex
  timestampMs := annotated.timestampMs
  detection := none
  selected := none
  crop := none
  renderedCrop := none
  renderedTimestampMs := none
  renderMappingIndependentlyVerified := false
  sourceAspectLimited := false
  detectionSampled := true

/-! ## Summaries -/

/-- `_rate` -/
def rate (numerator denominator : ℕ) : Option K :=
  if denominator = 0 then none else some (numerator / denominator)

/-- `_mean` -/
def mean (values : List (Option K)) : Option K :=
  let numeric := values.reduceOption
  if numeric.isEmpty then none else some (numeric.sum / numeric.length)

/-- `_aggregate` -/
def aggregate (values : List (FrameMetrics K)) : Aggregate K :=
  let sampled := values.filter fun frame => frame.detectionAvailable.isSome
  let visible := values.filter fun frame =>
    frame.detectionAvailable.isSome || frame.cropContainsSubject.isSome
  let selectionEvaluated := visible.filter fun frame => frame.selectionCorrect.isSome
  let truePositives := selectionEvaluated.countP fun frame => frame.selectionCorrect = some true
  let falsePositives := selectionEvaluated.countP fun frame => frame.selectionCorrect = some false
  let falseNegatives := selectionEvaluated.length - truePositives
  { annotatedFrames := visible.length
    detectionAvailability :=
      rate (sampled.countP fun frame => frame.detectionAvailable = some true) sampled.length
    meanDetectionIou := mean (sampled.map (·.detectionIou))
    selectionPrecision := rate truePositives (truePositives + falsePositives)
    selectionRecall := rate truePositives (truePositives + falseNegatives)
    cropContainment :=
      rate (visible.countP fun frame => frame.cropContainsSubject = some true) visible.length
    sourceAspectLimitedRate :=
      rate (visible.countP fun frame => frame.sourceAspectLimited) visible.length
    edgeRiskRate := rate (visible.countP fun frame => frame.edgeRisk = some true) visible.length
    meanSubjectScale := mean (visible.map (·.subjectScale))
    meanPanVelocity := mean (values.map (·.panVelocity))
    meanPanAcceleration := mean (values.map (·.panAcceleration))
    meanPanJerk := mean (values.map (·.panJerk))
    meanZoomVelocity := mean (values.map (·.zoomVelocity))
    meanZoomAcceleration := mean (values.map (·.zoomAcceleration))
    meanZoomJerk := mean (values.map (·.zoomJerk)) }

/-! ## Reports -/

/-- `_source_matches` -/
def sourceMatches (left right : SourceMetadata K) : Bool :=
  if left.width ≠ right.width ∨ left.height ≠ right.height ∨ left.frameRate ≠ right.frameRate ∨
      left.variableFrameRate ≠ right.variableFrameRate then false
  else (left.sourceId.isSome && decide (left.sourceId = right.sourceId)) ||
    (left.sha256.isSome && decide (left.sha256 = right.sha256))

/-- `_configuration_label` -/
def configurationLabel (config : Value K) (key : String) : String :=
  match (config.field key).getD (if key = "planner_version" then config.get "version" else .none) with
  | .str text => if text = "" then "unknown" else text
  | _ => "unknown"

/-- `DebugHeader.planner_version` -/
def DebugHeader.plannerVersion (header : DebugHeader K) : String :=
  configurationLabel header.plannerConfig "planner_version"

/-- `DebugHeader.profile` -/
def DebugHeader.profile (header : DebugHeader K) : String :=
  configurationLabel header.plannerConfig "profile"

/-- The versions and the format that a report is for. -/
def segmentOf (header : DebugHeader K) : List (String × String) :=
  [("model_version", header.modelVersion), ("planner_version", header.plannerVersion),
    ("pipeline_version", header.pipelineVersion), ("profile", header.profile),
    ("resolution", toString header.source.width ++ "x" ++ toString header.source.height)]

/-- The annotation of an index; a later one counts. -/
def annotationByIndex (annotations : List (AnnotationFrame K)) (index : ℤ) :
    Option (AnnotationFrame K) := annotations.reverse.find? fun f => f.frameIndex = index

/-- `evaluate` -/
def evaluate [Elementary K] (hypot : K → K → K) (bundle : DebugBundle K)
    (annotations : AnnotationSet K) : Except Raised (EvaluationReport K) :=
  if sourceMatches bundle.header.source annotations.source = false then
    .error (validationError "debug and annotation source metadata do not match")
  else do
    let motion ← motionMetrics hypot bundle.frames bundle.header.source
    let recorded ← bundle.frames.mapM fun debug =>
      frameMetrics debug (annotationByIndex annotations.frames debug.frameIndex)
        (motion debug.frameIndex)
    let missing := (annotations.frames.filter fun annotation =>
      annotation.frameIndex ∉ bundle.frames.map (·.frameIndex)).map fun annotation =>
        emptyMetrics (missingFrame annotation) none (some FailureClass.insufficientAnnotation)
    let frames := (recorded ++ missing).mergeSort fun a b => a.frameIndex ≤ b.frameIndex
    let first := frames.find? fun frame => frame.failure.isSome
    .ok
      { caseId := annotations.caseId
        segment := segmentOf bundle.header
        frames := frames
        aggregate := aggregate frames
        firstFailureFrame := first.map (·.frameIndex)
        firstFailure := first.bind (·.failure) }

/-- The items of a segment, in order. -/
def segmentKey (report : EvaluationReport K) : List (String × String) :=
  report.segment.mergeSort fun a b => decide (a.1 < b.1 ∨ a.1 = b.1 ∧ a.2 ≤ b.2)

/-- `aggregate_reports` -/
def aggregateReports (reports : List (EvaluationReport K)) :
    List (List (String × String) × Aggregate K) :=
  (groupBy segmentKey reports).map fun group =>
    (group.1, aggregate (group.2.flatMap (·.frames)))

end Frames

end Evaluation

end BoulderFrame
