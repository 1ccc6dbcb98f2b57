import BoulderFrame.Analysis.Measurement
import BoulderFrame.Debug.Sanitize
import BoulderFrame.Media.Metadata
import BoulderFrame.Pipeline.PublishDebug

/-!
# The manifest of a review

The manifest sums up the analysis trace for each phase of a review, and names the intervals of the
shot that call for attention. A phase without a video says why.

## Main definitions

* `ReviewRenderer.render`: the phases that the renderer of the review reports
* `loadAnalysisRecords`: the records of a trace, checked against the frame clock
* `reviewSummary`, `reviewWarningIntervals`: the counts of a phase and its intervals
* `writeReviewManifest`: the manifest
-/

namespace BoulderFrame

variable {K : Type}

/-! ## The videos of a review -/

/-- What the rendering of a phase may raise. -/
inductive ReviewFailure
  | timeout
  | encoder
  | other (message : String)
  deriving DecidableEq, Repr

/-- The messages that a review shows. -/
def shownReasons : List String :=
  ["aggregate_size_limit", "decode_unavailable", "encode_unavailable", "output_frame_alignment",
    "source_frame_alignment"]

/-- `_reason` -/
def ReviewFailure.reason : ReviewFailure → String
  | .timeout => "timeout"
  | .encoder => "encode_failed"
  | .other message => if message ∈ shownReasons then message else "unavailable"

/-- A phase without a video. -/
def unavailablePhase (detail : String) : Value K :=
  .dict [("status", .str "unavailable"), ("detail", .str detail)]

/-- `ReviewRenderer.render`, with the outcome of each phase. -/
def ReviewRenderer.render (maxDurationMs : ℤ) (renderPhase : String → Except ReviewFailure Unit)
    (metadata : MediaMetadata) (trace : List (Value K)) : List (String × Value K) :=
  if maxDurationMs < metadata.durationMs then
    phases.map fun phase => (phase, unavailablePhase "duration_limit")
  else
    phases.map fun phase => (phase, match renderPhase phase with
      | .error failure => unavailablePhase failure.reason
      | .ok () => .dict [("status", .str "ready"), ("path", .str (phase ++ ".mp4")),
          ("frame_count", .int trace.length)])

namespace ProcessingPipeline

/-! ## The records of the trace -/

section Records

variable [IntCast K] [DecidableEq K] (metadata : MediaMetadata)

def inconsistentTrace : Raised :=
  .worker (.terminal .invalidMedia "Video analysis trace is inconsistent." none)

/-- The record of a frame is a frame record with its index and time. -/
def checkedRecord (index : ℤ) (record : Value K) : Except Raised (Value K) := do
  match record with
  | .dict _ =>
    let timestampMs ← metadata.timestampForFrame index
    if ¬ ((record.get "record_type").isText "frame" ∧
        (record.get "frame_index").equalsInt index ∧
        (record.get "timestamp_ms").equalsInt timestampMs) then .error inconsistentTrace
    else .ok record
  | _ => .error inconsistentTrace

/-- `_load_analysis_records` -/
def loadAnalysisRecords (trace : List (Value K)) : Except Raised (List (Value K)) := do
  let records ← trace.zipIdx.mapM fun record => checkedRecord metadata record.2 record.1
  if (records.length : ℤ) ≠ metadata.expectedFrameCount then
    .error (.worker (.terminal .invalidMedia "Video analysis trace is incomplete." none))
  else .ok records

end Records

/-! ## Summaries -/

section Summary

variable [Zero K] [DecidableEq K]

/-- The number of records for which a test holds. -/
def countRecords (trace : List (Value K)) (test : Value K → Bool) : ℤ :=
  (trace.countP test : ℤ)

def skippedRecord (record : Value K) : Bool :=
  ((record.get "detection").get "selection_outcome").isText SelectionOutcome.detectionSkipped.value

/-- The record has detector bounds. -/
def detectedRecord (record : Value K) : Bool :=
  match ((record.get "detection").get "detection").get "bounds" with
  | .none => false
  | _ => true

def decisionOf (record : Value K) : Value K := (record.get "framing").get "decision"

/-- `_review_summary` -/
def reviewSummary (trace : List (Value K)) (phase : String) : List (String × Value K) :=
  let frames : ℤ := trace.length
  if phase = "detection" then
    let detected := countRecords trace detectedRecord
    let skipped := countRecords trace skippedRecord
    [("frames", .int frames), ("sampled_frames", .int (frames - skipped)),
      ("skipped_frames", .int skipped), ("detected_frames", .int detected),
      ("missed_frames", .int (frames - skipped - detected))]
  else if phase = "framing" then
    let count (name key : String) (test : Value K → Bool) : String × Value K :=
      (name, .int (countRecords trace fun record => test ((decisionOf record).get key)))
    [count "sampled_detection_constraint_frames" "sampled_detection_constraint" (·.isBool true),
      count "sampled_detection_uncontained_frames" "sampled_detection_contained" (·.isBool false),
      count "held_target_outside_crop_frames" "held_target_contained" (·.isBool false),
      count "pan_speed_limit_exceeded_frames" "pan_speed_limit_exceeded" (·.isBool true),
      count "pan_acceleration_limit_exceeded_frames" "pan_acceleration_limit_exceeded"
        (·.isBool true),
      ("frames", .int frames),
      count "containment_override_frames" "containment_override" (·.truthy),
      count "unavailable_detection_frames" "detection_missed" (·.truthy),
      count "source_aspect_limited_frames" "source_aspect_limited" (·.truthy)]
  else
    [("frames", .int frames),
      ("mapping_verified_frames", .int (countRecords trace fun record =>
        ((record.get "render").get "mapping_independently_verified").truthy))]

/-! ## Warning intervals -/

/-- The warnings of a record, by their labels. -/
def reviewWarnings (phase : String) (record : Value K) : List (String × String) :=
  let decision := decisionOf record
  let warning (active : Bool) (label detail : String) : List (String × String) :=
    if active then [(label, detail)] else []
  if phase = "detection" then
    warning (!skippedRecord record && !detectedRecord record) "Detection unavailable"
      "No detector bounds were recorded."
  else if phase = "framing" then
    warning (decision.get "detection_missed").truthy "Held detection unavailable"
        "Crop widened until a successful detection sample." ++
      warning (decision.get "source_aspect_limited").truthy "Source/aspect limited"
        "The largest valid crop cannot contain this detector box." ++
      warning (decision.get "pan_speed_limit_exceeded").truthy "Pan speed limit exceeded"
        "Sampled detection containment requires motion above the pan speed limit." ++
      warning (decision.get "pan_acceleration_limit_exceeded").truthy
        "Pan acceleration limit exceeded"
        "Sampled detection containment requires motion above the pan acceleration limit." ++
      warning ((decision.get "held_target_contained").isBool false) "Held target outside crop"
        "A stale held target is guidance, not a fresh sampled containment constraint."
  else []

/-- An interval; its times are the timestamps of two records. -/
structure ReviewInterval (K : Type) where
  startMs : Value K
  endMs : Value K
  label : String
  detail : String

/-- The variables of the loop over the records. -/
structure IntervalState (K : Type) where
  intervals : List (ReviewInterval K)
  active : List (String × Value K × String)
  endMs : Value K

/-- One record at a timestamp: the warnings that it lacks end there, its new ones start. -/
def advanceIntervals (st : IntervalState K) (timestamp : Value K)
    (current : List (String × String)) : IntervalState K where
  intervals := st.intervals ++
    (st.active.filter fun a => decide (a.1 ∉ current.map Prod.fst)).map fun a =>
      ⟨a.2.1, timestamp, a.1, a.2.2⟩
  active := (st.active.filter fun a => decide (a.1 ∈ current.map Prod.fst)) ++
    (current.filter fun c => decide (c.1 ∉ st.active.map Prod.fst)).map fun c =>
      (c.1, timestamp, c.2)
  endMs := timestamp

/-- One iteration: a record whose timestamp is no integer is passed over. -/
def stepIntervals (phase : String) (st : IntervalState K) (record : Value K) : IntervalState K :=
  match record.get "timestamp_ms" with
  | .int timestamp => advanceIntervals st (.int timestamp) (reviewWarnings phase record)
  | .bool timestamp => advanceIntervals st (.bool timestamp) (reviewWarnings phase record)
  | _ => st

/-- All intervals, those that are still active at the end included. -/
def collectIntervals (trace : List (Value K)) (phase : String) : List (ReviewInterval K) :=
  let st := trace.foldl (stepIntervals phase) ⟨[], [], .int 0⟩
  st.intervals ++ st.active.map fun a => ⟨a.2.1, st.endMs, a.1, a.2.2⟩

/-- `int(str(start_ms))` -/
def ReviewInterval.startKey (interval : ReviewInterval K) : Except Raised ℤ :=
  match interval.startMs with
  | .int start => .ok start
  | _ => .error (.valueError "invalid literal for int() with base 10")

/-- The order of two intervals with their starts. -/
def intervalOrder (i j : ℤ × ReviewInterval K) : Bool :=
  decide (i.1 < j.1) || (decide (i.1 = j.1) && decide (i.2.label ≤ j.2.label))

/-- `_review_warning_intervals` -/
def reviewWarningIntervals (trace : List (Value K)) (phase : String) :
    Except Raised (List (ReviewInterval K)) := do
  let keyed ← (collectIntervals trace phase).mapM fun interval => do
    let start ← interval.startKey
    .ok (start, interval)
  .ok (((keyed.insertionSort fun i j => intervalOrder i j).map Prod.snd).take 100)

end Summary

/-! ## The manifest -/

def ReviewInterval.toValue (interval : ReviewInterval K) : Value K :=
  .dict [("start_ms", interval.startMs), ("end_ms", interval.endMs),
    ("label", .str interval.label), ("detail", .str interval.detail)]

/-- `" ".join(value.split())` -/
def joinWords (text : List Char) : List Char :=
  List.intercalate [' '] ((text.splitOnP isSpace).filter (· ≠ []))

/-- `_review_unavailable_detail` -/
def reviewUnavailableDetail : Value K → String
  | .str text =>
    let safe := (joinWords text.toList).take 80
    if safe = [] then "unavailable" else String.ofList safe
  | _ => "unavailable"

/-- A character of a version. -/
def isVersionChar (c : Char) : Bool := c.isAlphanum || c ∈ ['.', '_', '-']

/-- `_manifest_version` -/
def manifestVersion (value : String) : Except Raised String :=
  let chars := value.toList
  if 1 ≤ chars.length ∧ chars.length ≤ 128 ∧ chars.all isVersionChar then .ok value
  else .error (.valueError "manifest version is invalid")

/-- `float`, of a fraction, without rounding. -/
def exactFloat [DivisionRing K] (q : ℚ) : Option K := some q

section Manifest

variable [Field K] [LinearOrder K] (floatOf : ℚ → Option K)

/-- `_manifest_timing`; fractions are converted by `floatOf`, which has no result if `float`
overflows. -/
def manifestTiming (metadata : Option MediaMetadata) : Except Raised (List (String × Value K)) :=
  match metadata with
  | none => .error (.valueError "manifest timing is unavailable")
  | some metadata =>
    let frameCount := metadata.expectedFrameCount
    match floatOf metadata.frameRate with
    | none => .error (.other "OverflowError")
    | some frameRate =>
      if ¬ (0 < frameRate ∧ frameRate ≤ 1000) then
        .error (.valueError "manifest frame rate is invalid")
      else if ¬ (0 < metadata.durationMs ∧ metadata.durationMs ≤ 7 * 24 * 60 * 60 * 1000) then
        .error (.valueError "manifest duration is invalid")
      else if ¬ (0 < frameCount ∧ frameCount ≤ 10000000) then
        .error (.valueError "manifest frame count is invalid")
      else .ok [("frame_rate", .number frameRate), ("duration_ms", .int metadata.durationMs),
        ("frame_count", .int frameCount)]

/-- A phase of the manifest. -/
def manifestPhase (trace : List (Value K)) (visualPhases : List (String × Value K))
    (phase : String) : Except Raised (Value K) := do
  let visual := (visualPhases.lookup phase).getD (.dict [])
  let ready := (visual.get "status").isText "ready"
  let intervals ← reviewWarningIntervals trace phase
  .ok (.dict
    ([("id", .str phase), ("status", .str (if ready then "ready" else "unavailable"))] ++
      (if ready then [] else [("detail", .str (reviewUnavailableDetail (visual.get "detail")))]) ++
      [("summary", .dict (("trace_frame_count", .int trace.length) :: reviewSummary trace phase)),
        ("warning_intervals", .list (intervals.map (·.toValue)))]))

/-- `_write_review_manifest` -/
def writeReviewManifest (reviewId : Uuid) (trace : List (Value K))
    (visualPhases : List (String × Value K)) (pipelineVersion modelVersion : String)
    (metadata : Option MediaMetadata) : Except Raised (Value K) := do
  let phases ← phases.mapM (manifestPhase trace visualPhases)
  let pipelineVersion ← manifestVersion pipelineVersion
  let modelVersion ← manifestVersion modelVersion
  let timing ← manifestTiming floatOf metadata
  .ok (Value.dict
    [("schema_version", .int 1), ("review_id", .str reviewId.text),
      ("pipeline_version", .str pipelineVersion), ("model_version", .str modelVersion),
      ("timing", .dict timing), ("telemetry", .dict [("status", .str "ready")]),
      ("phases", .list phases)]).sortKeys

end Manifest

end ProcessingPipeline

end BoulderFrame
