import BoulderFrame.Evaluation.CarriedTrace

/-!
# The room of the telemetry

The writer of a bundle checks its size after each record, with a trailer that is shorter than what
the file ends with, and once more after the end. So the telemetry of a job is written exactly if
there is room for all its records and for the end, and it then holds a copy of each line of both
traces.

## Main definitions

* `Room`: the file stays within its limit after each further record
* `stageCopy`, `frameCopy`: what the lines of the two traces become
* `TraceFile`: the analysis trace that an attempt has left
* `telemetryRecords`: the records of the bundle

## Main results

* `copyTrace_iff`: lines are copied exactly if there is room for the copies
* `writeTelemetry_iff`: the telemetry is written exactly if there is room for its records
-/

namespace BoulderFrame

open DebugBundleWriter Evaluation

namespace ProcessingPipeline

variable {K : Type} {fileSize : LinesSize K}

/-! ## The writer -/

/-- With the reserved trailer the file stays within its limit after each further record. -/
def Room (fileSize : LinesSize K) (maxBytes : ℤ) : List (Value K) → List (Value K) → Prop
  | _, [] => True
  | written, record :: records =>
    fileSize (written ++ [record]) + 8 ≤ maxBytes ∧
      Room fileSize maxBytes (written ++ [record]) records

theorem room_append {maxBytes : ℤ} {written records more : List (Value K)} :
    Room fileSize maxBytes written (records ++ more) ↔
      Room fileSize maxBytes written records ∧
        Room fileSize maxBytes (written ++ records) more := by
  induction records generalizing written with
  | nil => simp [Room]
  | cons record records ih =>
    rw [List.cons_append, Room, Room, ih, and_assoc, List.append_assoc, List.singleton_append]

/-- The writer after some records, of which some are frames. -/
def advanced (writer : DebugBundleWriter K) (records : List (Value K)) (frames : ℤ) :
    DebugBundleWriter K :=
  { writer with records := writer.records ++ records, frameCount := writer.frameCount + frames }

theorem advanced_advanced (writer : DebugBundleWriter K) (records more : List (Value K))
    (frames frames' : ℤ) : advanced (advanced writer records frames) more frames' =
      advanced writer (records ++ more) (frames + frames') := by
  simp only [advanced, List.append_assoc, add_assoc]

theorem write_iff {writer writer' : DebugBundleWriter K} {recordType : String}
    {fields : List (String × Value K)} (htype : recordType ≠ "")
    (hframes : recordType = "frame" → writer.frameCount < writer.maxFrames) :
    write fileSize writer recordType fields = .ok writer' ↔
      Room fileSize writer.maxBytes writer.records [canonicalJson (typedRecord recordType fields)] ∧
        writer' = advanced writer [canonicalJson (typedRecord recordType fields)]
          (if recordType = "frame" then 1 else 0) := by
  rw [write, if_neg htype, if_neg fun h => (hframes h.1).not_ge h.2, writeRecord, Room, Room,
    and_true]
  by_cases hroom : writer.maxBytes <
      fileSize (writer.records ++ [canonicalJson (typedRecord recordType fields)]) + 8
  · rw [if_pos hroom, Except.error_bind]
    exact iff_of_false nofun fun h => hroom.not_ge h.1
  · rw [if_neg hroom, Except.ok_bind, Except.ok.injEq, and_iff_right (not_lt.mp hroom), eq_comm]
    split_ifs
    · rfl
    · rw [advanced, add_zero]

/-- The writer after its header. -/
theorem init_iff {header : List (String × Value K)} {maxFrames maxBytes : ℤ}
    {writer : DebugBundleWriter K} (htype : header.lookup "record_type" = some (.str "header")) :
    DebugBundleWriter.init fileSize header maxFrames maxBytes = .ok writer ↔
      (0 < maxFrames ∧ 0 < maxBytes) ∧
        Room fileSize maxBytes [] [canonicalJson (.dict (sanitizeRecord header))] ∧
        writer = ⟨maxFrames, maxBytes, [canonicalJson (.dict (sanitizeRecord header))], 0⟩ := by
  simp only [DebugBundleWriter.init, htype, writeRecord, Room, List.nil_append, and_true]
  by_cases hframes : maxFrames ≤ 0
  · rw [if_pos hframes]
    exact iff_of_false nofun fun h => hframes.not_gt h.1.1
  rw [if_neg hframes]
  by_cases hbytes : maxBytes ≤ 0
  · rw [if_pos hbytes]
    exact iff_of_false nofun fun h => hbytes.not_gt h.1.2
  rw [if_neg hbytes]
  split_ifs with hroom
  · exact iff_of_false nofun fun h => hroom.not_ge h.2.1
  · rw [Except.ok.injEq, eq_comm]
    exact ⟨fun h => ⟨⟨not_le.mp hframes, not_le.mp hbytes⟩, not_lt.mp hroom, h⟩, fun h => h.2.2⟩

/-! ## The lines of the traces -/

/-- The type of a line, no text if it has none. -/
def lineType (line : Value K) : String :=
  match line.get "record_type" with
  | .str recordType => recordType
  | _ => ""

/-- The copy of a line under its type. -/
def lineCopy : Value K → Value K
  | .dict record => canonicalJson (typedRecord (lineType (.dict record))
      (record.filter fun f => decide (f.1 ∉ reservedRecordFields)))
  | line => line

/-- The number of frames among some lines. -/
def frameCount (lines : List (Value K)) : ℤ := lines.countP fun line => lineType line = "frame"

theorem copyLine_iff {writer writer' : DebugBundleWriter K} {line : Value K}
    (htype : lineType line ≠ "")
    (hframes : lineType line = "frame" → writer.frameCount < writer.maxFrames) :
    copyLine fileSize writer line = .ok writer' ↔
      Room fileSize writer.maxBytes writer.records [lineCopy line] ∧
        writer' = advanced writer [lineCopy line] (if lineType line = "frame" then 1 else 0) := by
  cases line with
  | dict record =>
    cases hlookup : record.lookup "record_type" with
    | none =>
      rw [lineType, Value.get, Value.field_dict, hlookup] at htype
      exact absurd rfl htype
    | some recordType =>
      cases recordType with
      | str recordType =>
        have hline : lineType (.dict record) = recordType := by
          rw [lineType, Value.get, Value.field_dict, hlookup]
          rfl
        simp only [copyLine, hlookup, lineCopy]
        rw [hline] at htype hframes ⊢
        exact write_iff htype hframes
      | _ =>
        rw [lineType, Value.get, Value.field_dict, hlookup] at htype
        exact absurd rfl htype
  | _ => exact absurd rfl htype

/-- **The lines of a trace** are copied exactly if there is room for the copies. -/
theorem copyTrace_iff {writer writer' : DebugBundleWriter K} {lines : List (Value K)}
    (htypes : ∀ line ∈ lines, lineType line ≠ "")
    (hframes : writer.frameCount + frameCount lines ≤ writer.maxFrames) :
    copyTrace fileSize writer lines = .ok writer' ↔
      Room fileSize writer.maxBytes writer.records (lines.map lineCopy) ∧
        writer' = advanced writer (lines.map lineCopy) (frameCount lines) := by
  induction lines generalizing writer with
  | nil =>
    rw [copyTrace, Except.ok.injEq, List.map_nil, Room, true_and, eq_comm]
    simp [advanced, frameCount]
  | cons line lines ih =>
    obtain ⟨htype, htypes⟩ := List.forall_mem_cons.mp htypes
    obtain ⟨one, hone⟩ : ∃ one : ℤ, one = if lineType line = "frame" then 1 else 0 := ⟨_, rfl⟩
    have hcount : frameCount (line :: lines) = one + frameCount lines := by
      rw [hone]
      simp [frameCount, List.countP_cons, add_comm]
    have hnonneg : 0 ≤ frameCount lines := Int.natCast_nonneg _
    rw [hcount] at hframes ⊢
    have hlimit : lineType line = "frame" → writer.frameCount < writer.maxFrames := fun h => by
      rw [if_pos h] at hone
      omega
    have hnext : (advanced writer [lineCopy line] one).frameCount + frameCount lines ≤
        (advanced writer [lineCopy line] one).maxFrames := by
      change writer.frameCount + one + frameCount lines ≤ writer.maxFrames
      omega
    rw [copyTrace, Except.bind_eq_ok]
    simp only [copyLine_iff htype hlimit, ← hone]
    rw [List.map_cons, Room]
    constructor
    · rintro ⟨next, ⟨hroom, rfl⟩, hrest⟩
      obtain ⟨hrooms, rfl⟩ := (ih htypes hnext).mp hrest
      exact ⟨⟨hroom.1, hrooms⟩, advanced_advanced ..⟩
    · rintro ⟨⟨hroom, hrooms⟩, rfl⟩
      exact ⟨_, ⟨⟨hroom, trivial⟩, rfl⟩,
        (ih htypes hnext).mpr ⟨hrooms, by rw [advanced_advanced]; rfl⟩⟩

/-- The line of a stage has the type of its record. -/
theorem lineType_stageLine (stage : StageRecord K) :
    lineType (stageLine stage) = stage.recordType.value := by
  have htype : matchesUrl stage.recordType.value = false := by
    cases stage.recordType <;> decide
  obtain ⟨fields, heq, -, hlookup⟩ := canonicalJson_typedRecord htype stage.nodup_keys
  rw [stageLine, heq, lineType, Value.get, Value.field_dict, hlookup]
  rfl

theorem frameCount_stages (stages : List (StageRecord K)) :
    frameCount (stages.map stageLine) = 0 := by
  have hnone : ((stages.map stageLine).countP fun line => lineType line = "frame") = 0 := by
    refine List.countP_eq_zero.mpr fun line hline => ?_
    obtain ⟨stage, -, rfl⟩ := List.mem_map.mp hline
    rw [lineType_stageLine]
    cases stage.recordType <;> decide
  rw [frameCount, hnone]
  rfl

/-! ## The analysis trace of an attempt -/

/-- What an attempt has left of its analysis trace: nothing, or the written trace, whose rendering
may have been marked. -/
inductive TraceFile (textSize : LinesSize K) (maxFrames maxBytes : ℤ) :
    Option (List (Value K)) → Prop
  | absent : TraceFile textSize maxFrames maxBytes none
  | written {observations measurements crops trace lines}
    (h : writeAnalysisTrace textSize observations measurements crops trace maxFrames maxBytes =
      .ok lines) : TraceFile textSize maxFrames maxBytes (some lines)
  | marked {lines} (h : TraceFile textSize maxFrames maxBytes (some lines)) :
    TraceFile textSize maxFrames maxBytes (some (markRenderValidated textSize lines maxBytes))

/-- The records of a trace, which are those of frames with times. -/
structure FrameRecords (maxFrames : ℤ) (records : List (Value K)) : Prop where
  length_le : (records.length : ℤ) ≤ maxFrames
  timed : ∀ record ∈ records, record.get "record_type" = .str "frame" ∧
    ∃ t, record.get "timestamp_ms" = .int t

theorem TraceFile.traceOf {textSize : LinesSize K} {maxFrames maxBytes : ℤ}
    {file : Option (List (Value K))} (h : TraceFile textSize maxFrames maxBytes file) :
    ∀ lines ∈ file, ∃ records, FrameRecords maxFrames records ∧ TraceOf records lines := by
  induction h with
  | absent => exact fun _ => nofun
  | @written observations measurements crops trace lines h =>
    rintro _ ⟨⟩
    obtain ⟨hlengths, h⟩ := Except.ok_of_guard h
    obtain ⟨hframes, h⟩ := Except.ok_of_guard h
    obtain ⟨hm, hc, ht⟩ := not_not.mp hlengths
    refine ⟨frameTraceRecords observations measurements crops trace, ⟨?_, ?_⟩, ?_⟩
    · rw [frameTraceRecords, List.length_map]
      have : (observations.zip (measurements.zip (crops.zip trace))).length =
          min observations.length (measurements.zip (crops.zip trace)).length := List.length_zip
      omega
    · intro record hrecord
      obtain ⟨⟨observation, measurement, crop, plannerTrace⟩, -, rfl⟩ := List.mem_map.mp hrecord
      exact ⟨rfl, _, rfl⟩
    · refine TraceOf.written (List.forall₂_same.mpr fun record hrecord => ?_) h
      obtain ⟨⟨observation, measurement, crop, plannerTrace⟩, -, rfl⟩ := List.mem_map.mp hrecord
      have hlegible := legible_frameTraceRecord observation measurement crop plannerTrace
      exact ⟨.refl hlegible, hlegible.wellFormed, rfl, rfl⟩
  | marked _ ih =>
    rintro _ ⟨⟩
    obtain ⟨records, hrecords, htrace⟩ := ih _ rfl
    exact ⟨records, hrecords, htrace.markRenderValidated⟩

/-- The lines of a trace are frames with times, no more of them than its records. -/
theorem TraceOf.lines {maxFrames : ℤ} {records lines : List (Value K)}
    (hrecords : FrameRecords maxFrames records) (h : TraceOf records lines) :
    frameCount lines ≤ maxFrames ∧ ∀ line ∈ lines, lineType line = "frame" ∧
      ∃ t, line.get "timestamp_ms" = .int t := by
  have hlines : ∀ line ∈ lines, lineType line = "frame" ∧
      ∃ t, line.get "timestamp_ms" = .int t := by
    intro line hline
    obtain ⟨record, hrecord, hcarries⟩ := List.Forall₂.exists_left h hline
    obtain ⟨htype, t, ht⟩ := hrecords.timed record hrecord
    have hkept := get_kept hcarries.kept "record_type" (by decide)
    have hkept' := get_kept hcarries.kept "timestamp_ms" (by decide)
    rw [htype] at hkept
    rw [ht] at hkept'
    rw [lineType]
    generalize line.get "record_type" = v at hkept
    generalize line.get "timestamp_ms" = w at hkept'
    cases hkept
    cases hkept'
    exact ⟨rfl, t, rfl⟩
  refine ⟨?_, hlines⟩
  have hle : frameCount lines ≤ lines.length := Int.ofNat_le.mpr List.countP_le_length
  have hlength := h.length_eq
  have := hrecords.length_le
  omega

/-! ## The telemetry -/

section Telemetry

variable [Field K] [LinearOrder K]

/-- The header of the telemetry of a job. -/
def telemetryHeader (jobId sourceId : Uuid) (configuration : Snapshot K)
    (inputs : Option PublishInputs) : List (String × Value K) :=
  debugBundleHeader jobId (ProcessingPipeline.sourceMetadata sourceId inputs)
    configuration.pipelineVersion configuration.modelVersion
    (plannerConfig configuration.planner inputs)
    [("model_version", .str configuration.modelVersion)] (inputs.map (·.sha256.text))

/-- The last record of the telemetry of valid inputs: the size of the output. -/
def renderSummary (inputs : PublishInputs) : Value K :=
  canonicalJson (typedRecord "render_summary"
    [("output", .dict [("width", .int (outputDimensions inputs.outputSettings.aspectRatio).1),
      ("height", .int (outputDimensions inputs.outputSettings.aspectRatio).2)])])

/-- The records of the telemetry: the header, the copies of both traces, and the size of the
output. -/
def telemetryRecords (jobId sourceId : Uuid) (configuration : Snapshot K)
    (inputs : Option PublishInputs) (stages : List (StageRecord K)) (lines : List (Value K)) :
    List (Value K) :=
  [canonicalJson (.dict (sanitizeRecord (telemetryHeader jobId sourceId configuration inputs)))] ++
    (stages.map stageLine).map lineCopy ++ lines.map lineCopy ++
    (inputs.map renderSummary).toList

theorem telemetryHeader_type (jobId sourceId : Uuid) (configuration : Snapshot K)
    (inputs : Option PublishInputs) :
    (telemetryHeader jobId sourceId configuration inputs).lookup "record_type" =
      some (.str "header") := by
  have hkeys : ["record_type", "schema_version", "job_id", "source_metadata", "pipeline_version",
    "model_version", "planner_config", "model_manifest", "source_object_version",
    "source_checksum"].Nodup := by decide
  have htext : matchesUrl "header" = false := by decide
  rw [telemetryHeader, debugBundleHeader, lookup_sanitizeRecord]
  · change some (sanitizeValue (.str "header")) = _
    rw [sanitizeValue, htext]
    rfl
  · exact hkeys
  · decide +kernel

/-- The end of `writeTelemetry`: the last record, if the inputs are valid. -/
def writeSummary (fileSize : LinesSize K) (writer : DebugBundleWriter K) :
    Option PublishInputs → Except Raised (DebugBundleWriter K)
  | none => .ok writer
  | some inputs => write fileSize writer "render_summary"
      [("output", .dict [("width", .int (outputDimensions inputs.outputSettings.aspectRatio).1),
        ("height", .int (outputDimensions inputs.outputSettings.aspectRatio).2)])]

theorem writeTelemetry_eq (jobId sourceId : Uuid) (configuration : Snapshot K)
    (inputs : Option PublishInputs) (stageTrace lines : List (Value K)) (maxFrames maxBytes : ℤ) :
    writeTelemetry fileSize jobId sourceId configuration inputs stageTrace lines maxFrames
        maxBytes = (do
      let writer ← DebugBundleWriter.init fileSize
        (telemetryHeader jobId sourceId configuration inputs) maxFrames maxBytes
      let writer ← copyTrace fileSize writer stageTrace
      let writer ← copyTrace fileSize writer lines
      let writer ← writeSummary fileSize writer inputs
      writer.close fileSize) := by
  cases inputs <;> rfl

omit [Field K] [LinearOrder K] in
theorem writeSummary_iff {writer writer' : DebugBundleWriter K} {inputs : Option PublishInputs} :
    writeSummary fileSize writer inputs = .ok writer' ↔
      Room fileSize writer.maxBytes writer.records (inputs.map renderSummary).toList ∧
        writer' = advanced writer (inputs.map renderSummary).toList 0 := by
  cases inputs with
  | none =>
    rw [writeSummary, Option.map_none, Option.toList_none, Room, true_and, Except.ok.injEq, eq_comm]
    simp [advanced]
  | some inputs => exact write_iff (by decide) fun h => absurd h (by decide)

omit [Field K] [LinearOrder K] in
theorem close_iff {writer : DebugBundleWriter K} {records : List (Value K)} :
    writer.close fileSize = .ok records ↔
      fileSize writer.records + closingBytes ≤ writer.maxBytes ∧ records = writer.records := by
  rw [close]
  split_ifs with hroom
  · exact iff_of_false nofun fun h => hroom.not_ge h.1
  · rw [Except.ok.injEq, and_iff_right (not_lt.mp hroom), eq_comm]

/-- **The telemetry** is written exactly if there is room for its records, and for the end of the
file. -/
theorem writeTelemetry_iff {jobId sourceId : Uuid} {configuration : Snapshot K}
    {inputs : Option PublishInputs} {stages : List (StageRecord K)} {lines bundle : List (Value K)}
    {maxFrames maxBytes : ℤ} (hlines : ∀ line ∈ lines, lineType line = "frame")
    (hframes : 0 < maxFrames → frameCount lines ≤ maxFrames) :
    writeTelemetry fileSize jobId sourceId configuration inputs (stages.map stageLine) lines
        maxFrames maxBytes = .ok bundle ↔
      ((0 < maxFrames ∧ 0 < maxBytes) ∧
        Room fileSize maxBytes []
          (telemetryRecords jobId sourceId configuration inputs stages lines) ∧
        fileSize (telemetryRecords jobId sourceId configuration inputs stages lines) +
          closingBytes ≤ maxBytes) ∧
        bundle = telemetryRecords jobId sourceId configuration inputs stages lines := by
  have hstages : ∀ line ∈ stages.map stageLine, lineType line ≠ "" := by
    intro line hline
    obtain ⟨stage, -, rfl⟩ := List.mem_map.mp hline
    rw [lineType_stageLine]
    cases stage.recordType <;> decide
  have hlines' : ∀ line ∈ lines, lineType line ≠ "" := fun line hline h =>
    absurd ((hlines line hline).symm.trans h) (by decide)
  have htype := telemetryHeader_type jobId sourceId configuration inputs
  have hnone : ∀ writer : DebugBundleWriter K, writer.frameCount = 0 → 0 < writer.maxFrames →
      writer.frameCount + frameCount (stages.map stageLine) ≤ writer.maxFrames := by
    intro writer hzero hpos
    rw [frameCount_stages]
    omega
  have hcount : ∀ writer : DebugBundleWriter K, 0 < maxFrames → writer.maxFrames = maxFrames →
      writer.frameCount = 0 + frameCount (stages.map stageLine) →
      writer.frameCount + frameCount lines ≤ writer.maxFrames := by
    intro writer hpos hmax hzero
    have := hframes hpos
    rw [frameCount_stages] at hzero
    omega
  simp only [telemetryRecords, room_append, writeTelemetry_eq]
  constructor
  · intro h
    obtain ⟨writer₀, h₀, h⟩ := Except.bind_eq_ok.mp h
    obtain ⟨hlimits, hroom₀, rfl⟩ := (init_iff htype).mp h₀
    obtain ⟨writer₁, h₁, h⟩ := Except.bind_eq_ok.mp h
    obtain ⟨hroom₁, rfl⟩ := (copyTrace_iff hstages (hnone _ rfl hlimits.1)).mp h₁
    obtain ⟨writer₂, h₂, h⟩ := Except.bind_eq_ok.mp h
    obtain ⟨hroom₂, rfl⟩ := (copyTrace_iff hlines' (hcount _ hlimits.1 rfl rfl)).mp h₂
    obtain ⟨writer₃, h₃, h⟩ := Except.bind_eq_ok.mp h
    obtain ⟨hroom₃, rfl⟩ := writeSummary_iff.mp h₃
    obtain ⟨hclosed, rfl⟩ := close_iff.mp h
    exact ⟨⟨hlimits, ⟨⟨⟨hroom₀, hroom₁⟩, hroom₂⟩, hroom₃⟩, hclosed⟩, rfl⟩
  · rintro ⟨⟨hlimits, ⟨⟨⟨hroom₀, hroom₁⟩, hroom₂⟩, hroom₃⟩, hclosed⟩, rfl⟩
    refine Except.bind_eq_ok.mpr ⟨_, (init_iff htype).mpr ⟨hlimits, hroom₀, rfl⟩, ?_⟩
    refine Except.bind_eq_ok.mpr ⟨_,
      (copyTrace_iff hstages (hnone _ rfl hlimits.1)).mpr ⟨hroom₁, rfl⟩, ?_⟩
    refine Except.bind_eq_ok.mpr ⟨_,
      (copyTrace_iff hlines' (hcount _ hlimits.1 rfl rfl)).mpr ⟨hroom₂, rfl⟩, ?_⟩
    exact Except.bind_eq_ok.mpr
      ⟨_, writeSummary_iff.mpr ⟨hroom₃, rfl⟩, close_iff.mpr ⟨hclosed, rfl⟩⟩

end Telemetry

end ProcessingPipeline

end BoulderFrame
