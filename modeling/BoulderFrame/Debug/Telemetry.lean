import BoulderFrame.Analysis.Measurement
import BoulderFrame.Debug.Sanitize
import BoulderFrame.Domain.Uuid
import BoulderFrame.Framing.Lookahead

/-!
# The telemetry bundle

The serializers of what the analysis knows of a frame, and the writer of a bundle: a header, then
any number of records, of which a bounded number are frames, in a bounded size.

## Main definitions

* `serializeRawFrameObservation`, `serializeFrameMeasurement`, `serializePlannerTrace`,
  `serializeCropRect`: the serializers
* `debugBundleHeader`: the first record of a bundle
* `DebugBundleWriter.init`, `DebugBundleWriter.write`, `DebugBundleWriter.close`: the writer
-/

namespace BoulderFrame

variable {K : Type}

/-- The trace records of the two planners. -/
abbrev PlannerTrace (K : Type) := PlannerFrameTrace K ⊕ LookaheadPlannerFrameTrace K

def FrameAction.value : FrameAction → String
  | .fullFrame => "full_frame"
  | .widenOnMiss => "widen_on_miss"
  | .smoothed => "smoothed"
  | .deadbandHold => "deadband_hold"
  | .initial => "initial"
  | .sourceAspectLimited => "source_aspect_limited"
  | .containmentOverride => "containment_override"
  | .lookaheadPan => "lookahead_pan"
  | .lookaheadHold => "lookahead_hold"

/-! ## Serializers -/

/-- An optional number. -/
def serializeNumber (x : Option K) : Value K := x.elim .none .number

/-- An optional flag. -/
def serializeFlag (flag : Option Bool) : Value K := flag.elim .none .bool

def serializePoint (point : Point K) : Value K :=
  .dict [("x", .number point.x), ("y", .number point.y)]

def serializeRect (rect : Rect K) : Value K :=
  .dict [("x", .number rect.x), ("y", .number rect.y), ("width", .number rect.width),
    ("height", .number rect.height)]

def serializeCropRect (crop : CropRect K) : Value K :=
  .dict [("x", .number crop.x), ("y", .number crop.y), ("width", .number crop.width),
    ("height", .number crop.height)]

def serializeAssociationEvidence (evidence : AssociationEvidence K) : Value K :=
  .dict
    [("selected", .bool (evidence.candidates.any (·.selected))),
      ("reference", serializePoint evidence.reference),
      ("reference_kind", .str evidence.referenceKind.value),
      ("strategy", .str evidence.strategy.value),
      ("outcome", .str evidence.outcome.value),
      ("candidate_count", .int evidence.candidateCount),
      ("candidates_truncated", .bool evidence.candidatesTruncated),
      ("candidates", .list (evidence.candidates.map fun candidate => .dict
        [("original_index", .int candidate.originalIndex),
          ("bounds", serializeRect candidate.detection.bounds),
          ("confidence", .number candidate.detection.confidence),
          ("contains_reference", .bool candidate.containsReference),
          ("center_distance", .number candidate.centerDistance),
          ("selected", .bool candidate.selected)]))]

def serializeRawFrameObservation (observation : RawFrameObservation K) :
    List (String × Value K) :=
  [("frame_index", .int observation.frameIndex),
    ("timestamp_ms", .int observation.timestampMs),
    ("detection", match observation.detection with
      | none => .none
      | some detection => .dict
        [("bounds", serializeRect detection.bounds),
          ("confidence", .number detection.confidence)]),
    ("selection_outcome", .str observation.selectionOutcome.value)] ++
  match observation.association with
  | none => []
  | some association => [("selection", serializeAssociationEvidence association)]

def serializeFrameMeasurement (measurement : FrameMeasurement K) : Value K :=
  .dict
    [("detector_bounds", measurement.detectorBounds.elim .none serializeRect),
      ("confidence", .number measurement.confidence),
      ("detection_missed", .bool measurement.detectorBounds.isNone),
      ("detection_sampled", .bool measurement.detectionSampled)]

def serializePlannerTrace : PlannerTrace K → Value K
  | .inl trace => .dict
    [("target_height_fraction", .number trace.targetHeightFraction),
      ("desired_crop", serializeCropRect trace.desiredCrop),
      ("detection_missed", .bool trace.detectionMissed),
      ("smoothing_applied", .bool trace.smoothingApplied),
      ("containment_override", .bool trace.containmentOverride),
      ("source_aspect_limited", .bool trace.sourceAspectLimited),
      ("observed_height_fraction", serializeNumber trace.observedHeightFraction),
      ("scale_relative_error", serializeNumber trace.scaleRelativeError),
      ("scale_deadband_applied", .bool trace.scaleDeadbandApplied),
      ("scale_adjusting", .bool trace.scaleAdjusting),
      ("action", .str trace.action.value),
      ("center_error_x_fraction", serializeNumber trace.centerErrorXFraction),
      ("center_error_y_fraction", serializeNumber trace.centerErrorYFraction),
      ("center_deadband_applied", .bool trace.centerDeadbandApplied),
      ("center_adjusting", .bool trace.centerAdjusting)]
  | .inr trace => .dict
    [("target_height_fraction", .number trace.targetHeightFraction),
      ("desired_crop", serializeCropRect trace.desiredCrop),
      ("detection_missed", .bool trace.detectionMissed),
      ("smoothing_applied", .bool trace.smoothingApplied),
      ("containment_override", .bool trace.containmentOverride),
      ("source_aspect_limited", .bool trace.sourceAspectLimited),
      ("observed_height_fraction", serializeNumber trace.observedHeightFraction),
      ("scale_relative_error", serializeNumber trace.scaleRelativeError),
      ("scale_deadband_applied", .bool trace.scaleDeadbandApplied),
      ("scale_adjusting", .bool trace.scaleAdjusting),
      ("action", .str trace.action.value),
      ("lookahead_center_adjusted", .bool trace.lookaheadCenterAdjusted),
      ("sampled_detection_constraint", .bool trace.sampledDetectionConstraint),
      ("sampled_detection_contained", serializeFlag trace.sampledDetectionContained),
      ("held_target_contained", serializeFlag trace.heldTargetContained),
      ("pan_velocity_x_source_per_second", serializeNumber trace.panVelocityXSourcePerSecond),
      ("pan_velocity_y_source_per_second", serializeNumber trace.panVelocityYSourcePerSecond),
      ("pan_acceleration_x_source_per_second2",
        serializeNumber trace.panAccelerationXSourcePerSecond2),
      ("pan_acceleration_y_source_per_second2",
        serializeNumber trace.panAccelerationYSourcePerSecond2),
      ("pan_speed_limit_exceeded", .bool trace.panSpeedLimitExceeded),
      ("pan_acceleration_limit_exceeded", .bool trace.panAccelerationLimitExceeded)]

/-! ## The bundle -/

/-- `DEBUG_BUNDLE_SCHEMA_VERSION` -/
def debugBundleSchemaVersion : ℤ := 1

/-- `debug_bundle_header` -/
def debugBundleHeader (jobId : Uuid) (sourceMetadata : List (String × Value K))
    (pipelineVersion modelVersion : String) (plannerConfig modelManifest : List (String × Value K))
    (sourceChecksum : Option String) : List (String × Value K) :=
  sanitizeRecord
    [("record_type", .str "header"),
      ("schema_version", .int debugBundleSchemaVersion),
      ("job_id", .str jobId.text),
      ("source_metadata", .dict (sanitizeRecord sourceMetadata)),
      ("pipeline_version", .str pipelineVersion),
      ("model_version", .str modelVersion),
      ("planner_config", .dict (sanitizeRecord plannerConfig)),
      ("model_manifest", .dict (sanitizeRecord modelManifest)),
      ("source_object_version", .none),
      ("source_checksum", sourceChecksum.elim .none .str)]

/-- A writer: its limits, and the records and frames that it has written. -/
structure DebugBundleWriter (K : Type) where
  maxFrames : ℤ
  maxBytes : ℤ
  records : List (Value K)
  frameCount : ℤ

namespace DebugBundleWriter

-- the size of the flushed file after some records
variable (fileSize : List (Value K) → ℤ)

/-- What a closed file has more than the flushed one: an empty last block of two bytes, and the
trailer of gzip. -/
def closingBytes : ℤ := 10

/-- `DebugBundleWriter._write` -/
def writeRecord (writer : DebugBundleWriter K) (record : Value K) :
    Except Raised (DebugBundleWriter K) :=
  let records := writer.records ++ [canonicalJson record]
  -- the trailer of eight bytes is reserved, the last block is not
  if writer.maxBytes < fileSize records + 8 then
    .error (.valueError
      ("debug bundle exceeds max_bytes limit of " ++ toString writer.maxBytes))
  else .ok { writer with records := records }

/-- `DebugBundleWriter.__init__` -/
def init (header : List (String × Value K)) (maxFrames maxBytes : ℤ) :
    Except Raised (DebugBundleWriter K) :=
  match header.lookup "record_type" with
  | some (.str "header") =>
    if maxFrames ≤ 0 then .error (.valueError "max_frames must be a positive integer")
    else if maxBytes ≤ 0 then .error (.valueError "max_bytes must be a positive integer")
    else writeRecord fileSize ⟨maxFrames, maxBytes, [], 0⟩ (.dict (sanitizeRecord header))
  | _ => .error (.valueError "debug bundle header must have record_type 'header'")

/-- The fields that the writer itself sets. -/
def reservedRecordFields : List String := ["record_type", "schema_version"]

/-- The fields of a record of a type. -/
def typedFields (recordType : String) (fields : List (String × Value K)) :
    List (String × Value K) :=
  [("record_type", .str recordType), ("schema_version", .int debugBundleSchemaVersion)] ++
    (sanitizeRecord fields).filter fun f => decide (f.1 ∉ reservedRecordFields)

/-- The record of a type with the given fields. -/
def typedRecord (recordType : String) (fields : List (String × Value K)) : Value K :=
  .dict (typedFields recordType fields)

/-- `DebugBundleWriter.write` -/
def write (writer : DebugBundleWriter K) (recordType : String)
    (fields : List (String × Value K)) : Except Raised (DebugBundleWriter K) :=
  if recordType = "" then .error (.valueError "debug record type must not be empty")
  else if recordType = "frame" ∧ writer.maxFrames ≤ writer.frameCount then
    .error (.valueError
      ("debug bundle exceeds max_frames limit of " ++ toString writer.maxFrames))
  else do
    let writer ← writeRecord fileSize writer (typedRecord recordType fields)
    .ok (if recordType = "frame" then { writer with frameCount := writer.frameCount + 1 }
      else writer)

/-- `DebugBundleWriter.close`: the records of the finished bundle. -/
def close (writer : DebugBundleWriter K) : Except Raised (List (Value K)) :=
  if writer.maxBytes < fileSize writer.records + closingBytes then
    .error (.valueError
      ("debug bundle exceeds max_bytes limit of " ++ toString writer.maxBytes))
  else .ok writer.records

/-! ## The records of a writer -/

variable {fileSize}

theorem init_eq_ok {header : List (String × Value K)} {maxFrames maxBytes : ℤ}
    {writer : DebugBundleWriter K} (h : init fileSize header maxFrames maxBytes = .ok writer) :
    writer.records = [canonicalJson (.dict (sanitizeRecord header))] := by
  unfold init at h
  split at h
  · obtain ⟨-, h⟩ := Except.ok_of_guard h
    obtain ⟨-, h⟩ := Except.ok_of_guard h
    obtain ⟨-, h⟩ := Except.ok_of_guard h
    rw [← Except.ok.inj h]
    rfl
  · cases h

/-- A write appends the record of its type. -/
theorem write_eq_ok {writer writer' : DebugBundleWriter K} {recordType : String}
    {fields : List (String × Value K)}
    (h : write fileSize writer recordType fields = .ok writer') :
    writer'.records = writer.records ++ [canonicalJson (typedRecord recordType fields)] := by
  obtain ⟨-, h⟩ := Except.ok_of_guard h
  obtain ⟨-, h⟩ := Except.ok_of_guard h
  obtain ⟨written, hwritten, h⟩ := Except.bind_eq_ok.mp h
  obtain ⟨-, hwritten⟩ := Except.ok_of_guard hwritten
  obtain rfl := Except.ok.inj hwritten
  rw [← Except.ok.inj h]
  split_ifs <;> rfl

theorem close_eq_ok {writer : DebugBundleWriter K} {records : List (Value K)}
    (h : close fileSize writer = .ok records) : records = writer.records :=
  (Except.ok.inj (Except.ok_of_guard h).2).symm

/-! ## The fields of a record -/

theorem nodup_typedFields (recordType : String) {fields : List (String × Value K)}
    (h : (fields.map Prod.fst).Nodup) :
    ((typedFields recordType fields).map Prod.fst).Nodup := by
  rw [typedFields, List.map_append, List.nodup_append]
  refine ⟨by simp, (nodup_sanitizeRecord h).sublist (List.filter_sublist.map _),
    fun a ha b hb => ?_⟩
  obtain ⟨f, hf, rfl⟩ := List.mem_map.mp hb
  rintro rfl
  exact of_decide_eq_true (List.mem_filter.mp hf).2 ha

theorem lookup_typedFields (recordType : String) {fields : List (String × Value K)}
    (h : (fields.map Prod.fst).Nodup) {key : String} (hkey : unsafeField key = false)
    (hreserved : key ∉ reservedRecordFields) :
    (typedFields recordType fields).lookup key = (fields.lookup key).map sanitizeValue := by
  have hne : key ≠ "record_type" ∧ key ≠ "schema_version" := by
    simpa [reservedRecordFields] using hreserved
  rw [typedFields, List.lookup_append, List.lookup_cons, beq_eq_false_iff_ne.mpr hne.1,
    List.lookup_cons, beq_eq_false_iff_ne.mpr hne.2,
    List.lookup_filter_key fun key => decide (key ∉ reservedRecordFields),
    if_pos (decide_eq_true hreserved), lookup_sanitizeRecord h hkey]
  rfl

theorem wellFormed_typedFields (recordType : String) {fields : List (String × Value K)}
    (h : (Value.dict fields).WellFormed) :
    (Value.dict (typedFields recordType fields)).WellFormed := by
  refine .dict (nodup_typedFields recordType h.keys) fun f hf => ?_
  have hsanitized := wellFormed_sanitizeValue h
  rw [sanitizeValue_dict] at hsanitized
  obtain hf | hf := List.mem_append.mp hf
  · simp only [List.mem_cons, List.not_mem_nil, or_false] at hf
    obtain rfl | rfl := hf
    · exact .str _
    · exact .int _
  · exact hsanitized.fields f (List.mem_filter.mp hf).1

end DebugBundleWriter

end BoulderFrame
