import BoulderFrame.Evaluation.AcceptedFiles
import BoulderFrame.Pipeline.DebugFiles

/-!
# The evaluation reads back the analysis

A published bundle starts with a header that the loader accepts, and its frames are loaded as they
were analyzed, one for each analyzed frame, in their order.

## Main definitions

* `analyzedFrames`: what the evaluation is to know of an analysis

## Main results

* `debugHeader_eq_ok`: the header of valid inputs is accepted
* `loadDebugBundle_debugFiles`: the loaded frames are the analyzed ones
-/

namespace BoulderFrame

open DebugBundleWriter ProcessingPipeline

namespace Evaluation

variable {K : Type} {textSize bundleSize : LinesSize K} {records lines : List (Value K)}

/-! ## The loaded header -/

section Header

variable [Field K] [LinearOrder K]

/-- The metadata of the source is read alike in a copy. -/
theorem sourceMetadata_kept {v w : Value K} (h : Kept loadedFields v w) :
    Evaluation.sourceMetadata v = Evaluation.sourceMetadata w := by
  have hid := get_kept h "source_id" (by decide)
  have hsha := get_kept h "sha256" (by decide)
  have hnone : ∀ u u' : Value K, Kept loadedFields u u' → u.isNone = u'.isNone := by
    intro u u' hu
    cases hu <;> rfl
  have hsize : ∀ (key other : String), key ∈ loadedFields → other ∈ loadedFields → ∀ name,
      positiveInt ((v.field key).getD (v.get other)) name =
        positiveInt ((w.field key).getD (w.get other)) name := by
    intro key other hkey hother name
    unfold positiveInt
    rw [nonNegativeInt_kept (getD_kept h hkey (get_kept h _ hother))]
  unfold Evaluation.sourceMetadata
  dsimp only
  rw [hnone _ _ hid, hnone _ _ hsha, optional_kept hid (string_kept hid _),
    optional_kept hsha (string_kept hsha _), hsize _ _ (by decide) (by decide),
    hsize _ _ (by decide) (by decide), positiveFloat_kept (get_kept h _ (by decide)),
    boolean_kept (get_kept h _ (by decide))]

omit [LinearOrder K] in
theorem legible_sourceMetadata (sourceId : Uuid) (inputs : Option PublishInputs) :
    Legible (K := K) (.dict (ProcessingPipeline.sourceMetadata sourceId inputs)) := by
  have hid : Legible (K := K) (.str sourceId.text) :=
    .str (matchesUrl_eq_false fun h => by simpa [isHexDigit] using sourceId.mem_text h)
  cases inputs with
  | none => exact .fields (List.nodup_singleton _) hid
  | some inputs =>
    exact .fields (by decide : ["source_id", "sha256", "display_width", "display_height",
      "frame_rate", "variable_frame_rate"].Nodup)
      ⟨hid, .str (matchesUrl_eq_false fun h => by simpa [isHexDigit] using inputs.sha256.mem_text h),
        .int _, .int _, .number _, .bool _⟩

variable [IsStrictOrderedRing K]

/-- The source in the header of a bundle. -/
def publishedSource (sourceId : Uuid) (inputs : PublishInputs) : SourceMetadata K :=
  ⟨some sourceId.text, inputs.metadata.displayDimensions.1, inputs.metadata.displayDimensions.2,
    inputs.metadata.frameRate, false, some inputs.sha256.text⟩

/-- The metadata of valid inputs is read back. -/
theorem sourceMetadata_inputs (sourceId : Uuid) {inputs : PublishInputs}
    (h : inputs.metadata.Valid) :
    Evaluation.sourceMetadata
      (.dict (ProcessingPipeline.sourceMetadata sourceId (some inputs)) : Value K) =
        .ok (publishedSource sourceId inputs) := by
  have hrate : (0 : K) < (inputs.metadata.frameRate : K) := by exact_mod_cast h.frameRate_pos
  have hid : sourceId.text ≠ "" := fun hempty => by
    have := sourceId.length_text
    rw [hempty] at this
    cases this
  have hsha : inputs.sha256.text ≠ "" := fun hempty => by
    have := inputs.sha256.canonical.1
    rw [hempty] at this
    cases this
  have htext : ∀ text : String, OptionalOf TextOf (.str text : Value K) (some text) :=
    fun text => optionalOf_text (some text)
  have hholds : SourceOf (.dict (ProcessingPipeline.sourceMetadata sourceId (some inputs)))
      (publishedSource sourceId inputs : SourceMetadata K) :=
    ⟨htext _, htext _, rfl, rfl, numberOf_number _, rfl⟩
  exact sourceMetadata_eq_ok.mpr ⟨hholds, .inl rfl, by simpa [publishedSource] using hid,
    by simpa [publishedSource] using hsha, h.display_pos, hrate, rfl⟩

theorem manifestVersion_eq_ok {version value : String} (h : manifestVersion version = .ok value) :
    value = version ∧ version ≠ "" ∧ matchesUrl version = false := by
  unfold manifestVersion at h
  dsimp only at h
  split_ifs at h with hvalid
  refine ⟨(Except.ok.inj h).symm, ?_, matchesUrl_eq_false fun hcolon => ?_⟩
  · rintro rfl
    exact absurd hvalid.1 (by decide)
  · exact absurd (List.all_eq_true.mp hvalid.2.2 ':' hcolon) (by decide)

/-- **The header** of valid inputs with valid versions is accepted, with their source. -/
theorem debugHeader_eq_ok (jobId sourceId : Uuid) (plannerConfig : List (String × Value K))
    {inputs : PublishInputs} {pipelineVersion modelVersion : String}
    (h : inputs.metadata.Valid)
    (hpipeline : pipelineVersion ≠ "" ∧ matchesUrl pipelineVersion = false)
    (hmodel : modelVersion ≠ "" ∧ matchesUrl modelVersion = false) :
    ∃ header, debugHeader (canonicalJson (.dict (sanitizeRecord (debugBundleHeader jobId
      (ProcessingPipeline.sourceMetadata sourceId (some inputs)) pipelineVersion modelVersion
      plannerConfig [("model_version", .str modelVersion)] (some inputs.sha256.text))))) =
      .ok header ∧ header.source = publishedSource sourceId inputs := by
  set metadata : List (String × Value K) :=
    ProcessingPipeline.sourceMetadata sourceId (some inputs) with hmetadata
  set fields : List (String × Value K) :=
    [("record_type", .str "header"), ("schema_version", .int debugBundleSchemaVersion),
      ("job_id", .str jobId.text), ("source_metadata", .dict (sanitizeRecord metadata)),
      ("pipeline_version", .str pipelineVersion), ("model_version", .str modelVersion),
      ("planner_config", .dict (sanitizeRecord plannerConfig)),
      ("model_manifest", .dict (sanitizeRecord [("model_version", .str modelVersion)])),
      ("source_object_version", .none), ("source_checksum", .str inputs.sha256.text)] with hfields
  have hnodup : (fields.map Prod.fst).Nodup :=
    (by decide : ["record_type", "schema_version", "job_id", "source_metadata",
      "pipeline_version", "model_version", "planner_config", "model_manifest",
      "source_object_version", "source_checksum"].Nodup)
  obtain ⟨written, hwritten, -, hlookup⟩ :=
    canonicalJson_dict (nodup_sanitizeRecord (nodup_sanitizeRecord hnodup))
  -- the header is sanitized three times before its keys are sorted
  have hfield : ∀ key, unsafeField key = false → (Value.dict written).get key =
      ((fields.lookup key).map fun v =>
        canonicalJson (sanitizeValue (sanitizeValue v))).getD .none := by
    intro key hkey
    rw [Value.get, Value.field_dict, hlookup key hkey,
      lookup_sanitizeRecord (nodup_sanitizeRecord hnodup) hkey, lookup_sanitizeRecord hnodup hkey,
      Option.map_map, Option.map_map]
    rfl
  have htext : ∀ text : String, matchesUrl text = false →
      canonicalJson (sanitizeValue (sanitizeValue (.str text : Value K))) = .str text := by
    intro text hsafe
    simp only [canonicalJson, sanitizeValue, hsafe, Bool.false_eq_true, if_false, Value.sortKeys]
  have hobject : ∀ fields : List (String × Value K), ∃ fields',
      canonicalJson (sanitizeValue (sanitizeValue (.dict fields))) = .dict fields' := by
    intro fields
    exact ⟨_, by simp only [canonicalJson, sanitizeValue, Value.sortKeys]; rfl⟩
  have hkept : Kept loadedFields (.dict metadata)
      (canonicalJson (sanitizeValue (sanitizeValue (.dict (sanitizeRecord metadata))))) := by
    have hlegible : Legible (.dict metadata) := legible_sourceMetadata sourceId (some inputs)
    have hwf := hlegible.wellFormed
    rw [← sanitizeValue_dict]
    have h₁ := wellFormed_sanitizeValue hwf
    have h₂ := wellFormed_sanitizeValue h₁
    have h₃ := wellFormed_sanitizeValue h₂
    exact ((((Kept.refl hlegible).sanitizeValue loadedFields_safe hwf).sanitizeValue
      loadedFields_safe h₁).sanitizeValue loadedFields_safe h₂ |>.sanitizeValue
      loadedFields_safe h₃).sortKeys (wellFormed_sanitizeValue h₃)
  obtain ⟨metadata', hmetadata'⟩ := hobject (sanitizeRecord metadata)
  obtain ⟨planner, hplanner⟩ := hobject (sanitizeRecord plannerConfig)
  obtain ⟨manifest, hmanifest⟩ :=
    hobject (sanitizeRecord [("model_version", .str modelVersion)])
  rw [hmetadata'] at hkept
  have hsource : Evaluation.sourceMetadata (.dict metadata') = .ok (publishedSource sourceId inputs) :=
    (sourceMetadata_kept hkept).symm.trans (sourceMetadata_inputs sourceId h)
  have htype : (Value.dict written).get "record_type" = .str "header" :=
    (hfield _ (by decide +kernel)).trans (htext "header" (by decide))
  have hversion : (Value.dict written).get "schema_version" = .int 1 :=
    (hfield _ (by decide +kernel)).trans rfl
  have hmetadataField : (Value.dict written).get "source_metadata" = .dict metadata' :=
    (hfield _ (by decide +kernel)).trans hmetadata'
  have hpipelineField : (Value.dict written).get "pipeline_version" = .str pipelineVersion :=
    (hfield _ (by decide +kernel)).trans (htext _ hpipeline.2)
  have hmodelField : (Value.dict written).get "model_version" = .str modelVersion :=
    (hfield _ (by decide +kernel)).trans (htext _ hmodel.2)
  have hplannerField : (Value.dict written).get "planner_config" = .dict planner :=
    (hfield _ (by decide +kernel)).trans hplanner
  have hmanifestField : (Value.dict written).get "model_manifest" = .dict manifest :=
    (hfield _ (by decide +kernel)).trans hmanifest
  refine ⟨⟨publishedSource sourceId inputs, pipelineVersion, modelVersion, .dict planner,
    .dict manifest⟩, ?_, rfl⟩
  change debugHeader (canonicalJson (.dict (sanitizeRecord (sanitizeRecord fields)))) = _
  rw [hwritten]
  simp only [debugHeader, mapping, Except.ok_bind, htype, schemaVersion, hversion, hmetadataField,
    hsource, hpipelineField, hmodelField, hplannerField, hmanifestField, string, hpipeline.1,
    hmodel.1, Value.isText, Value.equalsInt, decide_true, not_true_eq_false, if_false, if_true]

end Header

/-! ## The published bundle -/

section Bundle

variable [Field K] [LinearOrder K]

/-- The records of a bundle for valid inputs: the header, the stages, the frames and the summary. -/
theorem writeTelemetry_eq_ok {jobId sourceId : Uuid} {configuration : Snapshot K}
    {inputs : PublishInputs} {stages : List (StageRecord K)} {maxFrames maxBytes : ℤ}
    {bundle : List (Value K)} (htrace : TraceOf records lines)
    (h : writeTelemetry bundleSize jobId sourceId configuration (some inputs)
      (stages.map stageLine) lines maxFrames maxBytes = .ok bundle) :
    ∃ stageCopies copies summary,
      bundle = canonicalJson (.dict (sanitizeRecord (debugBundleHeader jobId
          (ProcessingPipeline.sourceMetadata sourceId (some inputs)) configuration.pipelineVersion
          configuration.modelVersion (plannerConfig configuration.planner (some inputs))
          [("model_version", .str configuration.modelVersion)] (some inputs.sha256.text)))) ::
        (stageCopies ++ (copies ++ [summary])) ∧
      (∀ copy ∈ stageCopies, isFrame copy = false) ∧ TraceOf records copies ∧
      isFrame summary = false := by
  obtain ⟨writer₀, h₀, h⟩ := Except.bind_eq_ok.mp h
  obtain ⟨writer₁, h₁, h⟩ := Except.bind_eq_ok.mp h
  obtain ⟨writer₂, h₂, h⟩ := Except.bind_eq_ok.mp h
  obtain ⟨writer₃, h₃, h⟩ := Except.bind_eq_ok.mp h
  obtain ⟨stageCopies, hstages, hnoframe⟩ := copyTrace_stages h₁
  obtain ⟨copies, hcopies, hcarried⟩ := copyTrace_frames htrace h₂
  set dimensions := outputDimensions inputs.outputSettings.aspectRatio
  set summary : List (String × Value K) :=
    [("output", .dict [("width", .int dimensions.1), ("height", .int dimensions.2)])]
  refine ⟨stageCopies, copies, canonicalJson (typedRecord "render_summary" summary), ?_, hnoframe,
    hcarried, isFrame_typedRecord (by decide) (by decide) (List.nodup_singleton "output")⟩
  rw [close_eq_ok h, write_eq_ok h₃, hcopies, hstages, init_eq_ok h₀]
  simp only [List.cons_append, List.append_assoc]
  rfl

/-- A manifest has valid inputs and versions. -/
theorem writeReviewManifest_inputs {floatOf : ℚ → Option K} {reviewId : Uuid} {trace : List (Value K)}
    {visualPhases : List (String × Value K)} {pipelineVersion modelVersion : String}
    {metadata : Option MediaMetadata} {manifest : Value K}
    (h : writeReviewManifest floatOf reviewId trace visualPhases pipelineVersion modelVersion
      metadata = .ok manifest) :
    metadata.isSome ∧ (pipelineVersion ≠ "" ∧ matchesUrl pipelineVersion = false) ∧
      (modelVersion ≠ "" ∧ matchesUrl modelVersion = false) := by
  obtain ⟨phases, -, h⟩ := Except.bind_eq_ok.mp h
  obtain ⟨pipeline, hpipeline, h⟩ := Except.bind_eq_ok.mp h
  obtain ⟨model, hmodel, h⟩ := Except.bind_eq_ok.mp h
  obtain ⟨timing, htiming, h⟩ := Except.bind_eq_ok.mp h
  refine ⟨?_, (manifestVersion_eq_ok hpipeline).2, (manifestVersion_eq_ok hmodel).2⟩
  cases metadata with
  | none => cases htiming
  | some metadata => rfl

/-- What the evaluation is to know of an analysis. -/
def analyzedFrames (analysis : ShotAnalysis K) : List (DebugFrame K) :=
  (analysis.observations.zip (analysis.measurements.zip
    (analysis.plan.crops.zip analysis.plan.trace))).map fun (observation, _, crop, trace) =>
      .ofAnalysis observation crop trace

/-- The records of an analysis. -/
def analysisRecords (analysis : ShotAnalysis K) : List (Value K) :=
  frameTraceRecords analysis.observations analysis.measurements analysis.plan.crops
    (analysis.plan.trace.map fun trace => some (.inr trace))

omit [Field K] [LinearOrder K] in
theorem analysisRecords_eq (analysis : ShotAnalysis K) :
    analysisRecords analysis = (analysis.observations.zip (analysis.measurements.zip
      (analysis.plan.crops.zip analysis.plan.trace))).map fun (observation, measurement, crop, trace) =>
        frameTraceRecord observation measurement crop (some (.inr trace)) := by
  rw [analysisRecords, frameTraceRecords, List.zip_map_right, List.zip_map_right,
    List.zip_map_right, List.map_map]
  rfl

omit [Field K] [LinearOrder K] in
/-- A written trace has the records of its analysis, one for each frame. -/
theorem writeAnalysisTrace_eq_ok {analysis : ShotAnalysis K} {maxFrames maxBytes : ℤ}
    {trace : List (Value K)}
    (h : writeAnalysisTrace textSize analysis.observations analysis.measurements
      analysis.plan.crops (analysis.plan.trace.map fun trace => some (.inr trace)) maxFrames
      maxBytes = .ok trace) :
    (analysis.measurements.length = analysis.observations.length ∧
      analysis.plan.crops.length = analysis.observations.length ∧
      analysis.plan.trace.length = analysis.observations.length) ∧
      TraceOf (analysisRecords analysis) trace := by
  obtain ⟨hlengths, h⟩ := Except.ok_of_guard h
  obtain ⟨-, h⟩ := Except.ok_of_guard h
  obtain ⟨hm, hc, ht⟩ := not_not.mp hlengths
  rw [List.length_map] at ht
  refine ⟨⟨hm.symm, hc.symm.trans hm.symm, ht.symm.trans (hc.symm.trans hm.symm)⟩, ?_⟩
  have hrecords : TraceOf (analysisRecords analysis) (analysisRecords analysis) := by
    refine List.forall₂_same.mpr fun record hrecord => ?_
    obtain ⟨⟨observation, measurement, crop, plannerTrace⟩, -, rfl⟩ := List.mem_map.mp hrecord
    have hlegible := legible_frameTraceRecord observation measurement crop plannerTrace
    exact ⟨.refl hlegible, hlegible.wellFormed, rfl, rfl⟩
  exact hrecords.written h

end Bundle

section Main

variable [Field K] [LinearOrder K] [IsStrictOrderedRing K] [Elementary K] {Pixels : Type}
  {hypot : K → K → K} {linprog : Linprog K} {captureEvidence : Bool}
  {detect : Pixels → Except Raised (List (Detection K))} {shot : ShotInputs K}
  {stream : FrameStream Pixels} {analysis : ShotAnalysis K}

omit [IsStrictOrderedRing K] in
/-- The records of an analysis are read as its frames. -/
theorem debugFrame_analysisRecords (hshot : shot.metadata.Valid)
    (hboxes : ∀ pixels sample, detect pixels = .ok sample →
      ∀ d ∈ sample, 0 < d.bounds.width ∧ 0 < d.bounds.height)
    (h : analyzeShot hypot linprog captureEvidence detect shot stream = .ok analysis) :
    List.Forall₂ (fun record frame => debugFrame record = .ok frame) (analysisRecords analysis)
      (analyzedFrames analysis) := by
  obtain ⟨-, hobserved, -, -, hcrops⟩ := analyzeShot_eq_ok hshot.frameRate_pos.le h
  rw [analysisRecords_eq, analyzedFrames, List.forall₂_map_left_iff, List.forall₂_map_right_iff]
  refine List.forall₂_same.mpr fun frame hframe => ?_
  obtain ⟨observation, measurement, crop, plannerTrace⟩ := frame
  have hobservation := (List.of_mem_zip hframe).1
  have hcrop := (List.of_mem_zip (List.of_mem_zip (List.of_mem_zip hframe).2).2).1
  obtain ⟨i, hi⟩ := List.mem_iff_getElem?.mp hobservation
  obtain ⟨hindex, -, htimestamp, hdetection⟩ := hobserved i observation hi
  refine debugFrame_frameTraceRecord (by omega) htimestamp (fun d hd => ?_) (hcrops crop hcrop)
  obtain ⟨frame, -, sample, hsample, hmem⟩ := hdetection d hd
  exact hboxes _ _ hsample d hmem

omit [Field K] [LinearOrder K] [IsStrictOrderedRing K] [Elementary K] in
/-- What a frame has of its observation, the frames have of the observations. -/
theorem map_analyzedFrames {α : Type} {f : DebugFrame K → α} {g : RawFrameObservation K → α}
    (hfg : ∀ observation crop trace, f (.ofAnalysis observation crop trace) = g observation)
    (hmeasurements : analysis.measurements.length = analysis.observations.length)
    (hcrops : analysis.plan.crops.length = analysis.observations.length)
    (htrace : analysis.plan.trace.length = analysis.observations.length) :
    (analyzedFrames analysis).map f = analysis.observations.map g := by
  have hzip : (analysis.observations.zip (analysis.measurements.zip
      (analysis.plan.crops.zip analysis.plan.trace))).map Prod.fst = analysis.observations :=
    List.map_fst_zip (by simp [List.length_zip, hmeasurements, hcrops, htrace])
  conv_rhs => rw [← hzip]
  rw [analyzedFrames, List.map_map, List.map_map]
  exact List.map_congr_left fun frame _ => hfg _ _ _

omit [Field K] [LinearOrder K] [IsStrictOrderedRing K] [Elementary K] in
theorem getElem?_analyzedFrames {i : ℕ} {observation : RawFrameObservation K}
    {measurement : FrameMeasurement K} {crop : CropRect K} {trace : LookaheadPlannerFrameTrace K}
    (hobservation : analysis.observations[i]? = some observation)
    (hmeasurement : analysis.measurements[i]? = some measurement)
    (hcrop : analysis.plan.crops[i]? = some crop) (htrace : analysis.plan.trace[i]? = some trace) :
    (analyzedFrames analysis)[i]? = some (.ofAnalysis observation crop trace) := by
  have hzip : (analysis.observations.zip (analysis.measurements.zip
      (analysis.plan.crops.zip analysis.plan.trace)))[i]? =
        some (observation, measurement, crop, trace) := by
    simp only [List.getElem?_zip_eq_some]
    exact ⟨hobservation, hmeasurement, hcrop, htrace⟩
  rw [analyzedFrames, List.getElem?_map, hzip]
  rfl

omit [IsStrictOrderedRing K] in
/-- The frames of an analysis have increasing indices and timestamps. -/
theorem strictlyIncreasing_analyzedFrames (hshot : shot.metadata.Valid)
    (h : analyzeShot hypot linprog captureEvidence detect shot stream = .ok analysis)
    (hmeasurements : analysis.measurements.length = analysis.observations.length)
    (hcrops : analysis.plan.crops.length = analysis.observations.length)
    (htrace : analysis.plan.trace.length = analysis.observations.length) :
    strictlyIncreasingFrames "debug" (-1) (-1) (analyzedFrames analysis) = .ok () := by
  obtain ⟨-, hobserved, -, hchain, -⟩ := analyzeShot_eq_ok hshot.frameRate_pos.le h
  -- a chain of nonnegative numbers may start at minus one
  have hcons : ∀ numbers : List ℤ, numbers.IsChain (· < ·) → (∀ n ∈ numbers, 0 ≤ n) →
      ((-1 : ℤ) :: numbers).IsChain (· < ·) := fun numbers hnumbers hnonneg =>
    List.isChain_cons.mpr ⟨fun n hn => by
      have := hnonneg n (List.mem_of_mem_head? hn)
      omega, hnumbers⟩
  have hat : ∀ observation ∈ analysis.observations,
      0 ≤ observation.frameIndex ∧ 0 ≤ observation.timestampMs := by
    intro observation hmem
    obtain ⟨i, hi⟩ := List.mem_iff_getElem?.mp hmem
    obtain ⟨hindex, -, htimestamp, -⟩ := hobserved i observation hi
    omega
  have hindices : (analysis.observations.map (·.frameIndex)).IsChain (· < ·) := by
    refine List.isChain_iff_getElem.mpr fun i hi => ?_
    rw [List.length_map] at hi
    rw [List.getElem_map, List.getElem_map,
      (hobserved i _ (List.getElem?_eq_getElem (by omega))).1,
      (hobserved (i + 1) _ (List.getElem?_eq_getElem hi)).1]
    omega
  refine strictlyIncreasingFrames_eq_ok ?_ ?_
  · rw [map_analyzedFrames (fun _ _ _ => rfl) hmeasurements hcrops htrace]
    refine hcons _ hindices fun n hn => ?_
    obtain ⟨observation, hmem, rfl⟩ := List.mem_map.mp hn
    exact (hat observation hmem).1
  · rw [map_analyzedFrames (fun _ _ _ => rfl) hmeasurements hcrops htrace]
    refine hcons _ ((List.isChain_map fun o : RawFrameObservation K => o.timestampMs).mpr hchain)
      fun n hn => ?_
    obtain ⟨observation, hmem, rfl⟩ := List.mem_map.mp hn
    exact (hat observation hmem).2

/-- The published bundle is loaded with the analyzed frames. -/
theorem loadDebugBundle_analyzed (hshot : shot.metadata.Valid)
    (hboxes : ∀ pixels sample, detect pixels = .ok sample →
      ∀ d ∈ sample, 0 < d.bounds.width ∧ 0 < d.bounds.height)
    (hanalysis : analyzeShot hypot linprog captureEvidence detect shot stream = .ok analysis)
    {maxFrames maxBytes : ℤ} {trace : List (Value K)}
    (htrace : writeAnalysisTrace textSize analysis.observations analysis.measurements
      analysis.plan.crops (analysis.plan.trace.map fun trace => some (.inr trace)) maxFrames
      maxBytes = .ok trace)
    (validations : ℕ) {floatOf : ℚ → Option K} {renderer : Option (ReviewVideos K)}
    {jobId sourceId reviewId : Uuid}
    {configuration : Snapshot K} {inputs : Option PublishInputs}
    (hinputs : ∀ valid ∈ inputs, valid.metadata.Valid) {stages : List (StageRecord K)}
    {bundle : List (Value K)} {manifest : Value K}
    (hfiles : debugFiles floatOf bundleSize renderer jobId sourceId reviewId configuration
      inputs (stages.map stageLine)
      (some ((markRenderValidated textSize · maxBytes)^[validations] trace)) maxFrames maxBytes =
        .ok (bundle, manifest))
    {limit : ℤ} (hlimit : 0 < limit) (hframes : (analysis.observations.length : ℤ) ≤ limit) :
    ∃ loaded, loadDebugBundle bundle limit = .ok loaded ∧
      loaded.frames = analyzedFrames analysis ∧
      ∀ valid ∈ inputs, loaded.header.source = publishedSource sourceId valid := by
  obtain ⟨⟨hmeasurements, hcrops, hplanned⟩, htraceOf⟩ := writeAnalysisTrace_eq_ok htrace
  obtain ⟨bundle', hbundle, hfiles⟩ := Except.bind_eq_ok.mp hfiles
  obtain ⟨manifest', hmanifest, hfiles⟩ := Except.bind_eq_ok.mp hfiles
  obtain ⟨rfl, -⟩ := Prod.mk.inj (Except.ok.inj hfiles)
  -- without inputs there is no manifest
  obtain ⟨hsome, hpipeline, hmodel⟩ := writeReviewManifest_inputs hmanifest
  rw [Option.isSome_map, Option.isSome_iff_exists] at hsome
  obtain ⟨valid, rfl⟩ := hsome
  obtain ⟨stageCopies, copies, summary, rfl, hstages, hcopies, hsummary⟩ :=
    writeTelemetry_eq_ok (htraceOf.iterate_markRenderValidated validations) hbundle
  obtain ⟨header, hheader, hsource⟩ := debugHeader_eq_ok jobId sourceId
    (plannerConfig configuration.planner (some valid)) (hinputs valid rfl) hpipeline hmodel
  have hread := debugFrame_analysisRecords hshot hboxes hanalysis
  have hcount : (analysisRecords analysis).length = analysis.observations.length := by
    rw [hread.length_eq, ← List.length_map (·.frameIndex),
      map_analyzedFrames (fun _ _ _ => rfl) hmeasurements hcrops hplanned, List.length_map]
  have hroom : ((([] : List (DebugFrame K)).length + (analysisRecords analysis).length : ℕ) : ℤ) ≤
      limit := by
    rw [List.length_nil, Nat.zero_add, hcount]
    exact hframes
  -- the stages before the frames and the summary after them are skipped
  have hload : loadFrames limit [] (stageCopies ++ (copies ++ [summary])) =
      .ok (analyzedFrames analysis) := by
    rw [loadFrames_skip hstages, loadFrames_trace hcopies hread hroom, List.nil_append, loadFrames,
      hsummary, if_neg Bool.false_ne_true, loadFrames]
  have hincreasing :=
    strictlyIncreasing_analyzedFrames hshot hanalysis hmeasurements hcrops hplanned
  have hpositive : positiveInt (Value.int limit : Value K) "max_frames" = .ok limit :=
    positiveInt_eq_ok.mpr ⟨rfl, hlimit⟩
  refine ⟨⟨header, analyzedFrames analysis⟩, ?_, rfl, fun _ hvalid =>
    Option.some.inj hvalid ▸ hsource⟩
  unfold loadDebugBundle
  dsimp only
  rw [hpositive, Except.ok_bind, hheader, Except.ok_bind, hload, Except.ok_bind, hincreasing]
  rfl

/-- **The evaluation reads back the analysis.** The bundle that is published for an analysis is
loaded with one frame for each analyzed frame, in their order, and each loaded frame has the index,
the timestamp, the box of the detection, the selection, the crops, and the flags of the analysis. -/
theorem loadDebugBundle_debugFiles (hshot : shot.metadata.Valid)
    (hboxes : ∀ pixels sample, detect pixels = .ok sample →
      ∀ d ∈ sample, 0 < d.bounds.width ∧ 0 < d.bounds.height)
    (hanalysis : analyzeShot hypot linprog captureEvidence detect shot stream = .ok analysis)
    {maxFrames maxBytes : ℤ} {trace : List (Value K)}
    (htrace : writeAnalysisTrace textSize analysis.observations analysis.measurements
      analysis.plan.crops (analysis.plan.trace.map fun trace => some (.inr trace)) maxFrames
      maxBytes = .ok trace)
    (validations : ℕ) {floatOf : ℚ → Option K} {renderer : Option (ReviewVideos K)}
    {jobId sourceId reviewId : Uuid}
    {configuration : Snapshot K} {inputs : Option PublishInputs}
    (hinputs : ∀ valid ∈ inputs, valid.metadata.Valid) {stages : List (StageRecord K)}
    {bundle : List (Value K)} {manifest : Value K}
    (hfiles : debugFiles floatOf bundleSize renderer jobId sourceId reviewId configuration
      inputs (stages.map stageLine)
      (some ((markRenderValidated textSize · maxBytes)^[validations] trace)) maxFrames maxBytes =
        .ok (bundle, manifest))
    {limit : ℤ} (hlimit : 0 < limit) (hframes : (analysis.observations.length : ℤ) ≤ limit) :
    ∃ loaded, loadDebugBundle bundle limit = .ok loaded ∧
      loaded.frames.length = analysis.observations.length ∧
      ∀ i < analysis.observations.length, ∃ observation crop trace,
        analysis.observations[i]? = some observation ∧ analysis.plan.crops[i]? = some crop ∧
        analysis.plan.trace[i]? = some trace ∧
        loaded.frames[i]? = some (.ofAnalysis observation crop trace) := by
  obtain ⟨⟨hmeasurements, hcrops, hplanned⟩, -⟩ := writeAnalysisTrace_eq_ok htrace
  obtain ⟨loaded, hloaded, hanalyzed, -⟩ := loadDebugBundle_analyzed hshot hboxes hanalysis htrace
    validations hinputs hfiles hlimit hframes
  refine ⟨loaded, hloaded, ?_, fun i hi => ?_⟩
  · rw [hanalyzed, ← List.length_map (·.frameIndex),
      map_analyzedFrames (fun _ _ _ => rfl) hmeasurements hcrops hplanned, List.length_map]
  · refine ⟨_, _, _, List.getElem?_eq_getElem hi, List.getElem?_eq_getElem (hcrops ▸ hi),
      List.getElem?_eq_getElem (hplanned ▸ hi), ?_⟩
    rw [hanalyzed]
    exact getElem?_analyzedFrames (List.getElem?_eq_getElem hi)
      (List.getElem?_eq_getElem (hmeasurements ▸ hi)) (List.getElem?_eq_getElem _)
      (List.getElem?_eq_getElem _)

end Main

/-! ## The files of four frames -/

section FourFrames

attribute [local instance] FourFrames.elementary

def fourFramesId : Uuid := ⟨"0f8fad5b-d9cb-469f-a165-70867728950e", by decide +kernel⟩

def fourFramesInputs : PublishInputs where
  sha256 := ⟨"e3b0c44298fc1c149afbf4c8996fb92427ae41e4649b934ca495991b7852b855",
    by decide +kernel⟩
  metadata := FourFrames.shot.metadata
  outputSettings := FourFrames.shot.outputSettings

def fourFramesSnapshot : Snapshot ℚ :=
  ⟨fourFramesId, [], [], "pipeline-v1", "yolo-v1", [("controller", .str "lookahead-v2")]⟩

def oneStage : StageRecord ℚ :=
  ⟨.stageStart, [("stage", .str "analyzing"), ("progress", .int 15), ("monotonic_ms", .int 0)],
    by decide +kernel⟩

/-- The sizes of the lines, one for each. -/
def lineCount : LinesSize ℚ := fun lines => lines.length

/-- The analysis of the frames, and its trace. -/
def fourFramesTrace : Except Raised (ShotAnalysis ℚ × List (Value ℚ)) := do
  let analysis ← FourFrames.analysis true
  let trace ← writeAnalysisTrace lineCount analysis.observations analysis.measurements
    analysis.plan.crops (analysis.plan.trace.map fun trace => some (.inr trace)) 10000 100000
  .ok (analysis, trace)

/-- The files of the debug review, after the output has been validated. -/
def fourFramesFiles (trace : List (Value ℚ)) : Except Raised (List (Value ℚ) × Value ℚ) :=
  debugFiles exactFloat lineCount none fourFramesId fourFramesId fourFramesId fourFramesSnapshot
    (some fourFramesInputs) ([oneStage].map stageLine)
    (some ((markRenderValidated lineCount · 100000)^[1] trace)) 10000 100000

theorem fourFramesFiles_outcomes : (do
      let analyzed ← fourFramesTrace
      let _ ← fourFramesFiles analyzed.2
      .ok (analyzed.1.observations.map (·.selectionOutcome)) : Except Raised _) =
    .ok [.selectedContainingTap, .detectionSkipped, .noDetections, .detectionSkipped] := by
  decide +kernel

/-- The analysis with its files. -/
theorem fourFramesFiles_published : ∃ analysis trace bundle manifest,
    FourFrames.analysis true = .ok analysis ∧
    writeAnalysisTrace lineCount analysis.observations analysis.measurements analysis.plan.crops
      (analysis.plan.trace.map fun trace => some (.inr trace)) 10000 100000 = .ok trace ∧
    fourFramesFiles trace = .ok (bundle, manifest) ∧
    analysis.observations.map (·.selectionOutcome) =
      [.selectedContainingTap, .detectionSkipped, .noDetections, .detectionSkipped] := by
  obtain ⟨analyzed, hanalyzed, h⟩ := Except.bind_eq_ok.mp fourFramesFiles_outcomes
  obtain ⟨⟨bundle, manifest⟩, hfiles, houtcomes⟩ := Except.bind_eq_ok.mp h
  obtain ⟨analysis, hanalysis, h⟩ := Except.bind_eq_ok.mp hanalyzed
  obtain ⟨trace, htrace, h⟩ := Except.bind_eq_ok.mp h
  obtain rfl := Except.ok.inj h
  exact ⟨analysis, trace, bundle, manifest, hanalysis, htrace, hfiles, Except.ok.inj houtcomes⟩

theorem fourFrames_boxes (there : Bool) (sample : List (Detection ℚ))
    (h : FourFrames.detect there = .ok sample) :
    ∀ d ∈ sample, 0 < d.bounds.width ∧ 0 < d.bounds.height := by
  obtain rfl := Except.ok.inj h
  cases there
  · exact fun d hd => nomatch hd
  · intro d hd
    obtain rfl := List.mem_singleton.mp hd
    exact ⟨by decide +kernel, by decide +kernel⟩

theorem fourFramesInputs_valid : ∀ valid ∈ some fourFramesInputs, valid.metadata.Valid := by
  rintro _ ⟨⟩
  exact FourFrames.shot_valid

/-- The first frame has a box, the second and the last are skipped, and the third is missed. -/
theorem loadDebugBundle_debugFiles_fourFrames : ∃ analysis trace bundle manifest loaded,
    FourFrames.analysis true = .ok analysis ∧
    fourFramesFiles trace = .ok (bundle, manifest) ∧
    analysis.observations.map (·.selectionOutcome) =
      [.selectedContainingTap, .detectionSkipped, .noDetections, .detectionSkipped] ∧
    loadDebugBundle bundle 10000 = .ok loaded ∧
    ∀ i < analysis.observations.length, ∃ observation crop trace,
      analysis.observations[i]? = some observation ∧ analysis.plan.crops[i]? = some crop ∧
      analysis.plan.trace[i]? = some trace ∧
      loaded.frames[i]? = some (.ofAnalysis observation crop trace) := by
  obtain ⟨analysis, trace, bundle, manifest, hanalysis, htrace, hfiles, houtcomes⟩ :=
    fourFramesFiles_published
  have hcount : analysis.observations.length = 4 := by
    simpa using congrArg List.length houtcomes
  obtain ⟨loaded, hloaded, -, hframes⟩ := loadDebugBundle_debugFiles FourFrames.shot_valid
    fourFrames_boxes hanalysis htrace 1 fourFramesInputs_valid hfiles (by decide : (0 : ℤ) < 10000)
    (by omega)
  exact ⟨analysis, trace, bundle, manifest, loaded, hanalysis, hfiles, houtcomes, hloaded, hframes⟩

end FourFrames

end Evaluation

end BoulderFrame
