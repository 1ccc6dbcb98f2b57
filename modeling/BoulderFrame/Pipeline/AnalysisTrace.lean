import BoulderFrame.Analysis.ShotAnalysis
import BoulderFrame.Debug.Telemetry
import BoulderFrame.Pipeline.Configuration

/-!
# The analysis trace and the telemetry of a job

An analysis leaves a trace with one record for each frame. Rendering marks its records, and the
publication of a review copies them, after the trace of the stages, into the telemetry bundle. The
lines of a trace are JSON values with sorted keys.

## Main definitions

* `frameTraceRecord`, `writeAnalysisTrace`: the record of a frame, and the trace
* `markRenderValidated`: the trace after a validated rendering
* `stageLine`: a record of the trace of the stages
* `copyTrace`, `writeTelemetry`: the telemetry bundle
-/

namespace BoulderFrame

/-- The size of a text of JSON lines, or of a compressed one. -/
abbrev LinesSize (K : Type) := List (Value K) → ℤ

namespace ProcessingPipeline

variable {K : Type}

/-! ## The analysis trace -/

/-- `_planner_decision` -/
def plannerDecision : Option (PlannerTrace K) → List (String × Value K)
  | none => []
  | some trace => [("decision", serializePlannerTrace trace)]

/-- The record of a frame. -/
def frameTraceRecord (observation : RawFrameObservation K) (measurement : FrameMeasurement K)
    (crop : CropRect K) (plannerTrace : Option (PlannerTrace K)) : Value K :=
  .dict
    [("record_type", .str "frame"),
      ("schema_version", .int 1),
      ("frame_index", .int observation.frameIndex),
      ("timestamp_ms", .int observation.timestampMs),
      ("detection", .dict (serializeRawFrameObservation observation)),
      ("framing", .dict
        ([("input", serializeFrameMeasurement measurement), ("crop", serializeCropRect crop)] ++
          plannerDecision plannerTrace)),
      ("render", .dict
        [("crop", serializeCropRect crop),
          ("timestamp_ms", .int observation.timestampMs),
          ("mapping_independently_verified", .bool false),
          ("output_validated", .bool false)])]

variable (textSize : LinesSize K)

/-- The lines of some records, after those that are written. -/
def writeLines (maxBytes : ℤ) (written : List (Value K)) :
    List (Value K) → Except Raised (List (Value K))
  | [] => .ok written
  | record :: records =>
    let lines := written ++ [record.sortKeys]
    if maxBytes < textSize lines then
      .error (.valueError "debug analysis records exceed max_bytes")
    else writeLines maxBytes lines records

/-- The records of all frames. -/
def frameTraceRecords (observations : List (RawFrameObservation K))
    (measurements : List (FrameMeasurement K)) (crops : List (CropRect K))
    (trace : List (Option (PlannerTrace K))) : List (Value K) :=
  (observations.zip (measurements.zip (crops.zip trace))).map
    fun (observation, measurement, crop, plannerTrace) =>
      frameTraceRecord observation measurement crop plannerTrace

/-- `_write_analysis_trace` -/
def writeAnalysisTrace (observations : List (RawFrameObservation K))
    (measurements : List (FrameMeasurement K)) (crops : List (CropRect K))
    (trace : List (Option (PlannerTrace K))) (maxFrames maxBytes : ℤ) :
    Except Raised (List (Value K)) :=
  if ¬ (observations.length = measurements.length ∧ measurements.length = crops.length ∧
      crops.length = trace.length) then
    .error (.valueError "debug analysis records must have matching frame counts")
  else if maxFrames < observations.length then
    .error (.valueError "debug analysis records exceed max_frames")
  else writeLines textSize maxBytes [] (frameTraceRecords observations measurements crops trace)

/-- A record with its rendering marked. -/
def markRecord : Value K → Value K
  | .dict fields =>
    match fields.lookup "render" with
    | some (.dict render) =>
      .dict (Value.setField fields "render"
        (.dict (Value.setField render "output_validated" (.bool true))))
    | _ => .dict fields
  | record => record

/-- `_mark_render_validated`: a failure leaves the trace as it is. -/
def markRenderValidated (trace : List (Value K)) (maxBytes : ℤ) : List (Value K) :=
  match writeLines textSize maxBytes [] (trace.map markRecord) with
  | .ok lines => lines
  | .error _ => trace

/-! ## The telemetry bundle -/

/-- The records of the stages are started and ended. -/
inductive StageRecordType
  | stageStart
  | stageEnd
  deriving DecidableEq, Repr

def StageRecordType.value : StageRecordType → String
  | .stageStart => "stage_start"
  | .stageEnd => "stage_end"

/-- A record of a stage; its fields have different names. -/
structure StageRecord (K : Type) where
  recordType : StageRecordType
  fields : List (String × Value K)
  nodup_keys : (fields.map Prod.fst).Nodup

/-- `append_debug_record`, for a record of a stage. -/
def stageLine (record : StageRecord K) : Value K :=
  canonicalJson (DebugBundleWriter.typedRecord record.recordType.value record.fields)

variable (bundleSize : LinesSize K)

/-- `_copy_trace`, for one line. -/
def copyLine (writer : DebugBundleWriter K) : Value K → Except Raised (DebugBundleWriter K)
  | .dict record =>
    match record.lookup "record_type" with
    | some (.str recordType) =>
      writer.write bundleSize recordType
        (record.filter fun f => decide (f.1 ∉ DebugBundleWriter.reservedRecordFields))
    | _ => .ok writer
  | _ => .error (.other "AttributeError")

/-- `_copy_trace` -/
def copyTrace (writer : DebugBundleWriter K) :
    List (Value K) → Except Raised (DebugBundleWriter K)
  | [] => .ok writer
  | line :: lines => do
    let writer ← copyLine bundleSize writer line
    copyTrace writer lines

/-- What `publish_debug` reads of valid inputs: the digest of the source, and the rest. -/
structure PublishInputs where
  sha256 : HexDigest
  metadata : MediaMetadata
  outputSettings : Protocol.OutputSettings

/-- The `source_metadata` of the header. -/
def sourceMetadata [DivisionRing K] (sourceId : Uuid) (inputs : Option PublishInputs) :
    List (String × Value K) :=
  ("source_id", .str sourceId.text) ::
    match inputs with
    | none => []
    | some inputs =>
      [("sha256", .str inputs.sha256.text),
        ("display_width", .int inputs.metadata.displayDimensions.1),
        ("display_height", .int inputs.metadata.displayDimensions.2),
        ("frame_rate", .number (inputs.metadata.frameRate : K)),
        ("variable_frame_rate", .bool false)]

/-- `dict.setdefault` -/
def setDefault (fields : List (String × Value K)) (key : String) (v : Value K) :
    List (String × Value K) :=
  if key ∈ fields.map Prod.fst then fields else fields ++ [(key, v)]

/-- The `planner_config` of the header. -/
def plannerConfig [Field K] [LinearOrder K] (planner : List (String × Value K))
    (inputs : Option PublishInputs) : List (String × Value K) :=
  let config := match plannerConfiguration planner with
    | .error _ => [("planner_version", .str "unavailable")]
    | .ok _ =>
      Value.setField planner "planner_version" ((Value.dict planner).get "controller")
  match inputs with
  | none => config
  | some inputs =>
    setDefault (setDefault config "profile" (.str inputs.outputSettings.profile.value))
      "aspect_ratio" (.str inputs.outputSettings.aspectRatio.value)

/-- The bundle that `publish_debug` writes: the header, both traces, and the size of the output. -/
def writeTelemetry [Field K] [LinearOrder K] (jobId sourceId : Uuid) (configuration : Snapshot K)
    (inputs : Option PublishInputs) (stageTrace analysisTrace : List (Value K))
    (maxFrames maxBytes : ℤ) : Except Raised (List (Value K)) := do
  let header := debugBundleHeader jobId (sourceMetadata sourceId inputs)
    configuration.pipelineVersion configuration.modelVersion
    (plannerConfig configuration.planner inputs)
    [("model_version", .str configuration.modelVersion)] (inputs.map (·.sha256.text))
  let writer ← DebugBundleWriter.init bundleSize header maxFrames maxBytes
  let writer ← copyTrace bundleSize writer stageTrace
  let writer ← copyTrace bundleSize writer analysisTrace
  let writer ← match inputs with
    | none => .ok writer
    | some inputs =>
      let (width, height) := outputDimensions inputs.outputSettings.aspectRatio
      writer.write bundleSize "render_summary"
        [("output", .dict [("width", .int width), ("height", .int height)])]
  writer.close bundleSize

end ProcessingPipeline

end BoulderFrame
