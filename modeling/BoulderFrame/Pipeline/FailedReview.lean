import BoulderFrame.Evaluation.PublishedBundle
import BoulderFrame.Pipeline.AvailableReview
import BoulderFrame.Pipeline.TelemetryRoom
import BoulderFrame.Pipeline.WarningIntervals

/-!
# The review of a failed attempt

A failed attempt publishes its telemetry and a manifest, from what it has left. The header of the
telemetry does without valid inputs, the timing of the manifest does not: so an attempt that fails
while its inputs are validated publishes nothing.

## Main definitions

* `ManifestTiming`: the ranges of a manifest's timing
* `publishFiles`: the files that `publish_debug` goes on with
* `Diagnosed`: the review is published, with the record of every stage

## Main results

* `debugFiles_iff`: when there are a telemetry bundle and a manifest
* `publishDebug_diagnosed_iff`: when a failed attempt publishes its review
-/

namespace BoulderFrame

open Evaluation

namespace ProcessingPipeline

variable {K : Type} [Field K] [LinearOrder K]

/-! ## The manifest -/

/-- The ranges of a manifest's timing; that of the frame rate is one of its float. -/
structure ManifestTiming (floatOf : ℚ → Option K) (metadata : MediaMetadata) : Prop where
  frameRate : ∃ rate ∈ floatOf metadata.frameRate, 0 < rate ∧ rate ≤ 1000
  durationMs : 0 < metadata.durationMs ∧ metadata.durationMs ≤ 7 * 24 * 60 * 60 * 1000
  frameCount : 0 < metadata.expectedFrameCount ∧ metadata.expectedFrameCount ≤ 10000000

theorem manifestTiming_iff {floatOf : ℚ → Option K} {metadata : Option MediaMetadata} :
    (∃ timing, manifestTiming floatOf metadata = .ok timing) ↔
      ∃ media ∈ metadata, ManifestTiming floatOf media := by
  cases metadata with
  | none => exact iff_of_false (fun ⟨_, h⟩ => nomatch h) fun ⟨_, h, _⟩ => nomatch h
  | some media =>
    simp only [manifestTiming, Option.mem_def, Option.some.injEq, exists_eq_left']
    cases hfloat : floatOf media.frameRate with
    | none =>
      refine iff_of_false (fun ⟨_, h⟩ => nomatch h) ?_
      rintro ⟨⟨rate, hrate, -⟩, -, -⟩
      cases hfloat.symm.trans hrate
    | some rate =>
      constructor
      · rintro ⟨timing, h⟩
        obtain ⟨hrate, h⟩ := Except.ok_of_guard h
        obtain ⟨hduration, h⟩ := Except.ok_of_guard h
        obtain ⟨hcount, -⟩ := Except.ok_of_guard h
        exact ⟨⟨rate, hfloat, not_not.mp hrate⟩, not_not.mp hduration, not_not.mp hcount⟩
      · rintro ⟨⟨rate', hrate', hrate⟩, hduration, hcount⟩
        obtain rfl := Option.some.inj (hfloat.symm.trans hrate')
        dsimp only
        rw [if_neg (not_not.mpr hrate), if_neg (not_not.mpr hduration),
          if_neg (not_not.mpr hcount)]
        exact ⟨_, rfl⟩

omit [Field K] [LinearOrder K] in
/-- Records with times are on a clock. -/
theorem exists_timed {records : List (Value K)}
    (h : ∀ record ∈ records, ∃ t, record.get "timestamp_ms" = .int t) :
    ∃ times, Timed records times := by
  induction records with
  | nil => exact ⟨[], rfl⟩
  | cons record records ih =>
    obtain ⟨⟨t, ht⟩, h⟩ := List.forall_mem_cons.mp h
    obtain ⟨times, htimes⟩ := ih h
    exact ⟨t :: times, by rw [Timed, List.map_cons, List.map_cons, ht, htimes]⟩

/-- The intervals of records with times. -/
theorem exists_intervals {records : List (Value K)} (phase : String)
    (h : ∀ record ∈ records, ∃ t, record.get "timestamp_ms" = .int t) :
    ∃ intervals, reviewWarningIntervals records phase = .ok intervals := by
  obtain ⟨times, hclock⟩ := exists_timed h
  obtain ⟨spans, hspans, -⟩ := exists_spans phase hclock
  exact ⟨_, reviewWarningIntervals_of_spans hspans⟩

/-- **The manifest** of records with times and valid versions is written exactly if there is a
timing. -/
theorem writeReviewManifest_iff {floatOf : ℚ → Option K} {reviewId : Uuid} {records : List (Value K)}
    {visualPhases : List (String × Value K)} {pipelineVersion modelVersion : String}
    {metadata : Option MediaMetadata}
    (htimed : ∀ record ∈ records, ∃ t, record.get "timestamp_ms" = .int t)
    (hpipeline : manifestVersion pipelineVersion = .ok pipelineVersion)
    (hmodel : manifestVersion modelVersion = .ok modelVersion) :
    (∃ manifest, writeReviewManifest floatOf reviewId records visualPhases pipelineVersion
      modelVersion metadata = .ok manifest) ↔ ∃ media ∈ metadata, ManifestTiming floatOf media := by
  obtain ⟨written, hwritten⟩ : ∃ written, phases.mapM (manifestPhase records visualPhases) =
      .ok written := by
    refine Except.mapM_total fun phase _ => ?_
    obtain ⟨intervals, hintervals⟩ := exists_intervals phase htimed
    exact ⟨_, by rw [manifestPhase, hintervals]; rfl⟩
  rw [← manifestTiming_iff]
  simp only [writeReviewManifest, hwritten, hpipeline, hmodel, Except.ok_bind]
  constructor
  · rintro ⟨manifest, h⟩
    obtain ⟨timing, htiming, -⟩ := Except.bind_eq_ok.mp h
    exact ⟨timing, htiming⟩
  · rintro ⟨timing, htiming⟩
    exact ⟨_, by rw [htiming, Except.ok_bind]⟩

/-! ## The files -/

/-- The records that are summed up are lines of the trace. -/
theorem reviewVideos_subset {renderer : Option (ReviewVideos K)} {inputs : Option PublishInputs}
    {analysisTrace : Option (List (Value K))} {record : Value K}
    (h : record ∈ (reviewVideos renderer inputs analysisTrace).1) :
    ∃ lines ∈ analysisTrace, record ∈ lines := by
  have hloaded : ∀ {metadata : MediaMetadata} {lines records : List (Value K)},
      loadAnalysisRecords metadata lines = .ok records → records ⊆ lines := by
    intro metadata lines records hload record hrecord
    obtain ⟨checked, hchecked, hload⟩ := Except.bind_eq_ok.mp hload
    obtain rfl := Except.ok.inj (Except.ok_of_guard hload).2
    obtain ⟨⟨line, k⟩, hline, hcheck⟩ := (Except.mapM_eq_ok.mp hchecked).exists_left hrecord
    unfold checkedRecord at hcheck
    split at hcheck
    · obtain ⟨t, -, hcheck⟩ := Except.bind_eq_ok.mp hcheck
      obtain rfl := Except.ok.inj (Except.ok_of_guard hcheck).2
      exact List.fst_mem_of_mem_zipIdx hline
    · cases hcheck
  unfold reviewVideos at h
  split at h
  · rename_i inputs render lines
    refine ⟨lines, rfl, ?_⟩
    split at h
    · cases h
    · rename_i records hrecords
      split at h
      · exact hloaded hrecords h
      · exact hloaded hrecords h
  · cases h

variable {floatOf : ℚ → Option K} {textSize bundleSize : LinesSize K} {renderer : Option (ReviewVideos K)}
  {jobId sourceId reviewId : Uuid} {configuration : Snapshot K} {inputs : Option PublishInputs}
  {stages : List (StageRecord K)} {analysisTrace : Option (List (Value K))} {maxFrames maxBytes : ℤ}

/-- **The telemetry and the manifest** of an attempt are written exactly if its inputs are valid with
a timing, and if there is room for the records and for the end of the file. -/
theorem debugFiles_iff
    (hpipeline : manifestVersion configuration.pipelineVersion = .ok configuration.pipelineVersion)
    (hmodel : manifestVersion configuration.modelVersion = .ok configuration.modelVersion)
    (hfile : TraceFile textSize maxFrames maxBytes analysisTrace) {bundle : List (Value K)} :
    (∃ manifest, debugFiles floatOf bundleSize renderer jobId sourceId reviewId configuration inputs
        (stages.map stageLine) analysisTrace maxFrames maxBytes = .ok (bundle, manifest)) ↔
      ((∃ valid ∈ inputs, ManifestTiming floatOf valid.metadata) ∧
        (0 < maxFrames ∧ 0 < maxBytes) ∧
        Room bundleSize maxBytes []
          (telemetryRecords jobId sourceId configuration inputs stages (analysisTrace.getD [])) ∧
        bundleSize (telemetryRecords jobId sourceId configuration inputs stages
          (analysisTrace.getD [])) + DebugBundleWriter.closingBytes ≤ maxBytes) ∧
        bundle = telemetryRecords jobId sourceId configuration inputs stages
          (analysisTrace.getD []) := by
  have hlines : ∀ lines ∈ analysisTrace, frameCount lines ≤ maxFrames ∧ ∀ line ∈ lines,
      lineType line = "frame" ∧ ∃ t, line.get "timestamp_ms" = .int t := by
    intro lines hmem
    obtain ⟨records, hrecords, htrace⟩ := hfile.traceOf lines hmem
    exact TraceOf.lines hrecords htrace
  have hcopied : (∀ line ∈ analysisTrace.getD [], lineType line = "frame") ∧
      (0 < maxFrames → frameCount (analysisTrace.getD []) ≤ maxFrames) := by
    cases analysisTrace with
    | none => exact ⟨fun _ => nofun, fun hpos => hpos.le⟩
    | some lines =>
      obtain ⟨hcount, hall⟩ := hlines lines rfl
      exact ⟨fun line hline => (hall line hline).1, fun _ => hcount⟩
  have htimed : ∀ record ∈ (reviewVideos renderer inputs analysisTrace).1,
      ∃ t, record.get "timestamp_ms" = .int t := by
    intro record hrecord
    obtain ⟨lines, hmem, hline⟩ := reviewVideos_subset hrecord
    exact ((hlines lines hmem).2 record hline).2
  have hmanifest : (∃ manifest, writeReviewManifest floatOf reviewId
      (reviewVideos renderer inputs analysisTrace).1 (reviewVideos renderer inputs analysisTrace).2
      configuration.pipelineVersion configuration.modelVersion (inputs.map (·.metadata)) =
        .ok manifest) ↔ ∃ media ∈ inputs.map (·.metadata), ManifestTiming floatOf media :=
    writeReviewManifest_iff htimed hpipeline hmodel
  have htiming : (∃ media ∈ inputs.map (·.metadata), ManifestTiming floatOf media) ↔
      ∃ valid ∈ inputs, ManifestTiming floatOf valid.metadata := by
    cases inputs <;> simp
  rw [← htiming, ← hmanifest, and_assoc, ← writeTelemetry_iff hcopied.1 hcopied.2]
  constructor
  · rintro ⟨manifest, h⟩
    obtain ⟨written, hwritten, h⟩ := Except.bind_eq_ok.mp h
    obtain ⟨manifest', hmanifest', h⟩ := Except.bind_eq_ok.mp h
    obtain ⟨rfl, rfl⟩ := Prod.mk.inj (Except.ok.inj h)
    exact ⟨⟨_, hmanifest'⟩, hwritten⟩
  · rintro ⟨⟨manifest, hwritten'⟩, hwritten⟩
    exact ⟨manifest, by rw [debugFiles, hwritten, Except.ok_bind]; simp only [hwritten']; rfl⟩

/-! ## The review of an attempt -/

/-- The sizes of the files of a review. A file has a size of 64 bits, and a written one is not
empty; the telemetry is sized before it is closed. -/
structure FileSizes (K : Type) where
  bundle : LinesSize K
  manifest : Value K → ℤ
  video : String → Option ℤ
  bundle_fits : ∀ records, 0 ≤ bundle records ∧
    bundle records + DebugBundleWriter.closingBytes ≤ bigintMax
  manifest_fits : ∀ value, 0 < manifest value ∧ manifest value ≤ bigintMax
  video_fits : ∀ name, ∀ size ∈ video name, 0 < size ∧ size ≤ bigintMax

/-- What a failed attempt has left: its inputs, if they are valid, and both traces. -/
structure FailedAttempt (K : Type) where
  record : JobRecord
  source : SourceAsset
  configuration : Snapshot K
  inputs : Option PublishInputs
  stages : List (StageRecord K)
  analysisTrace : Option (List (Value K))

namespace FailedAttempt

variable (attempt : FailedAttempt K) (floatOf : ℚ → Option K) (sizes : FileSizes K)
  (renderer : Option (ReviewVideos K)) (maxFrames maxBytes : ℤ) (reviewId : Uuid)

/-- The telemetry and the manifest of the attempt. -/
def files : Except Raised (List (Value K) × Value K) :=
  debugFiles floatOf sizes.bundle renderer attempt.record.id attempt.source.id reviewId
    attempt.configuration attempt.inputs (attempt.stages.map stageLine) attempt.analysisTrace
    maxFrames maxBytes

/-- A phase has a ready video, which is a file. -/
def readyPhase (phase : String) : Bool :=
  ((((reviewVideos renderer attempt.inputs attempt.analysisTrace).2.lookup phase).getD
    (.dict [])).get "status").isText "ready" && (sizes.video (phase ++ ".mp4")).isSome

/-- The files of a review with its telemetry and its manifest. -/
def reviewFiles (bundle : List (Value K)) (manifest : Value K) : ReviewFiles where
  size name :=
    if name = "telemetry.jsonl.gz" then sizes.bundle bundle + DebugBundleWriter.closingBytes
    else if name = "manifest.json" then sizes.manifest manifest
    else (sizes.video name).getD 0
  ready := attempt.readyPhase sizes renderer

/-- The files that `publish_debug` uploads. -/
def publishFiles : Except Raised ReviewFiles := do
  let (bundle, manifest) ← attempt.files floatOf sizes renderer maxFrames maxBytes reviewId
  .ok (attempt.reviewFiles sizes renderer bundle manifest)

/-- While everything is available, the telemetry and a manifest are uploaded and linked, and the
telemetry has a copy of the record of every stage. -/
def Diagnosed (owner : String) (newId : ReviewRole → Uuid) (w : ReviewWorld) : Prop :=
  (publishDebug true (attempt.publishFiles floatOf sizes renderer maxFrames maxBytes reviewId)
    attempt.record reviewId).wp
    (ReviewWorld.availableSetting
      (ReviewWorld.LiveReview attempt.record owner attempt.source newId reviewId) newId reviewId)
    (fun r _ w' => r = .ok () ∧ ∃ bundle manifest,
      attempt.files floatOf sizes renderer maxFrames maxBytes reviewId = .ok (bundle, manifest) ∧
      (∀ stage ∈ attempt.stages, lineCopy (stageLine stage) ∈ bundle) ∧
      w'.LinkedReview attempt.source.projectId attempt.record.id reviewId .debugTelemetry
        (sizes.bundle bundle + DebugBundleWriter.closingBytes) ∧
      w'.LinkedReview attempt.source.projectId attempt.record.id reviewId .debugManifest
        (sizes.manifest manifest)) [] w

section Diagnosed

variable {attempt : FailedAttempt K} {floatOf : ℚ → Option K} {sizes : FileSizes K}
  {renderer : Option (ReviewVideos K)} {maxFrames maxBytes : ℤ} {reviewId : Uuid}

omit [Field K] [LinearOrder K] in
/-- A phase has a file of its own. -/
theorem phase_reviewName : ∀ phase ∈ phases,
    (phaseRole phase).reviewName = phase ++ ".mp4" ∧
      phase ++ ".mp4" ≠ "telemetry.jsonl.gz" ∧ phase ++ ".mp4" ≠ "manifest.json" := by
  decide

theorem reviewFiles_sized (bundle : List (Value K)) (manifest : Value K) :
    FilesSized (attempt.reviewFiles sizes renderer bundle manifest) := by
  have hbundle := sizes.bundle_fits bundle
  have hmanifest := sizes.manifest_fits manifest
  refine ⟨⟨?_, hbundle.2⟩, hmanifest, fun phase hphase hready => ?_⟩
  · change 0 < sizes.bundle bundle + DebugBundleWriter.closingBytes
    unfold DebugBundleWriter.closingBytes
    omega
  · obtain ⟨size, hsize⟩ := Option.isSome_iff_exists.mp (Bool.and_eq_true_iff.mp hready).2
    have hfits := sizes.video_fits _ size hsize
    obtain ⟨hname, htelemetry, hother⟩ := phase_reviewName phase hphase
    simp only [Sized, reviewFiles, hname, if_neg htelemetry, if_neg hother, hsize]
    exact hfits

/-- Without files `publish_debug` raises before its first upload. -/
theorem Diagnosed.exists_files {owner : String} {newId : ReviewRole → Uuid} {w : ReviewWorld}
    (h : attempt.Diagnosed floatOf sizes renderer maxFrames maxBytes reviewId owner newId w)
    (hsource : attempt.record.sourceAsset = some attempt.source) :
    ∃ bundle manifest,
      attempt.files floatOf sizes renderer maxFrames maxBytes reviewId = .ok (bundle, manifest) := by
  cases hresult : attempt.files floatOf sizes renderer maxFrames maxBytes reviewId with
  | error e =>
    have hof : sourceOf attempt.record = .ok attempt.source := by
      rw [sourceOf, hsource]
    rw [Diagnosed, publishFiles, hresult, publishDebug, if_neg (by decide)] at h
    simp only [Routine.wp_bind, Routine.wp_ofExcept, hof, Except.error_bind] at h
    exact nomatch h.1
  | ok written => exact ⟨written.1, written.2, rfl⟩

/-- The trace of the stages is in the bundle. -/
theorem stage_mem_telemetryRecords {jobId sourceId : Uuid} {configuration : Snapshot K}
    {inputs : Option PublishInputs} {stages : List (StageRecord K)} {lines : List (Value K)}
    {stage : StageRecord K} (h : stage ∈ stages) :
    lineCopy (stageLine stage) ∈ telemetryRecords jobId sourceId configuration inputs stages lines := by
  have hcopies : lineCopy (stageLine stage) ∈ (stages.map stageLine).map lineCopy :=
    List.mem_map_of_mem (List.mem_map_of_mem h)
  simp only [telemetryRecords, List.mem_append]
  exact .inl (.inl (.inr hcopies))

/-- **A failed attempt publishes its review** exactly if its inputs are valid with a timing, and if
there is room for the records and for the end of the file. -/
theorem publishDebug_diagnosed_iff {owner : String} {newId : ReviewRole → Uuid} {w : ReviewWorld}
    (howner : attempt.record.leaseOwner = some owner)
    (hsource : attempt.record.sourceAsset = some attempt.source)
    (hstate : attempt.record.state.isTerminal = false)
    (hpipeline : manifestVersion attempt.configuration.pipelineVersion =
      .ok attempt.configuration.pipelineVersion)
    (hmodel : manifestVersion attempt.configuration.modelVersion =
      .ok attempt.configuration.modelVersion)
    (hfile : TraceFile textSize maxFrames maxBytes attempt.analysisTrace)
    (hlive : ReviewWorld.LiveReview attempt.record owner attempt.source newId reviewId w) :
    attempt.Diagnosed floatOf sizes renderer maxFrames maxBytes reviewId owner newId w ↔
      (∃ valid ∈ attempt.inputs, ManifestTiming floatOf valid.metadata) ∧
        (0 < maxFrames ∧ 0 < maxBytes) ∧
        Room sizes.bundle maxBytes [] (telemetryRecords attempt.record.id attempt.source.id
          attempt.configuration attempt.inputs attempt.stages (attempt.analysisTrace.getD [])) ∧
        sizes.bundle (telemetryRecords attempt.record.id attempt.source.id attempt.configuration
          attempt.inputs attempt.stages (attempt.analysisTrace.getD [])) +
            DebugBundleWriter.closingBytes ≤ maxBytes := by
  have hfiles : ∀ bundle : List (Value K), (∃ manifest,
      attempt.files floatOf sizes renderer maxFrames maxBytes reviewId = .ok (bundle, manifest)) ↔ _ :=
    fun _ => debugFiles_iff hpipeline hmodel hfile
  constructor
  · intro h
    obtain ⟨bundle, hbundle⟩ := h.exists_files hsource
    exact ((hfiles _).mp hbundle).1
  · intro hcondition
    obtain ⟨manifest, hmanifest⟩ := (hfiles _).mpr ⟨hcondition, rfl⟩
    rw [Diagnosed, publishFiles, hmanifest, Except.ok_bind]
    refine Routine.wp_mono ?_ (wp_publishDebug_available howner hsource hstate hlive
      (reviewFiles_sized _ manifest))
    rintro r l w' ⟨rfl, htelemetry, hlinked⟩
    exact ⟨rfl, _, manifest, rfl, fun stage => stage_mem_telemetryRecords, htelemetry, hlinked⟩

end Diagnosed

/-! ## An attempt on the created job -/

def sampleSizes : FileSizes ℚ where
  bundle _ := 512
  manifest _ := 256
  video _ := none
  bundle_fits _ := by decide
  manifest_fits _ := by decide
  video_fits _ _ := nofun

/-- The attempt that holds the created job, after one stage. -/
def claimedAttempt (inputs : Option PublishInputs) : FailedAttempt ℚ where
  record := ReviewWorld.claimedRecord
  source := ⟨sampleSource.id, sampleProject⟩
  configuration := fourFramesSnapshot
  inputs := inputs
  stages := [oneStage]
  analysisTrace := none

theorem liveReview_claimed : ReviewWorld.LiveReview ReviewWorld.claimedRecord "attempt"
    ⟨sampleSource.id, sampleProject⟩ sampleIds ReviewWorld.sampleReview ReviewWorld.claimed := by
  refine ⟨⟨ReviewWorld.claimedRow, by rfl, by decide +kernel⟩, ⟨sampleIds_injective, ?_⟩, ?_,
    fun _ => nofun⟩
  · intro a ha role
    obtain rfl := List.mem_singleton.mp ha
    cases role <;> decide
  · intro a ha
    obtain rfl := List.mem_singleton.mp ha
    exact ReviewWorld.not_mem_reviewKeys (by decide)

theorem fourFramesSnapshot_versions :
    manifestVersion fourFramesSnapshot.pipelineVersion = .ok fourFramesSnapshot.pipelineVersion ∧
      manifestVersion fourFramesSnapshot.modelVersion = .ok fourFramesSnapshot.modelVersion :=
  ⟨by rw [manifestVersion, if_pos (by decide +kernel)],
    by rw [manifestVersion, if_pos (by decide +kernel)]⟩

theorem manifestTiming_fourFrames : ManifestTiming (K := ℚ) exactFloat fourFramesInputs.metadata :=
  ⟨⟨30, by decide +kernel, by decide +kernel⟩, by decide +kernel, by decide +kernel⟩

theorem room_oneStage : Room sampleSizes.bundle 100000 [] (telemetryRecords
    ReviewWorld.claimedRecord.id sampleSource.id fourFramesSnapshot (some fourFramesInputs) [oneStage]
    []) := by
  simp [Room, telemetryRecords, sampleSizes]

theorem publishDebug_diagnosed_claimed :
    (claimedAttempt (some fourFramesInputs)).Diagnosed exactFloat sampleSizes none 10000 100000
      ReviewWorld.sampleReview "attempt" sampleIds ReviewWorld.claimed := by
  have hfile : TraceFile lineCount 10000 100000 none := .absent
  refine (publishDebug_diagnosed_iff (by rfl) (by rfl) (by rfl) fourFramesSnapshot_versions.1
    fourFramesSnapshot_versions.2 hfile liveReview_claimed).mpr ?_
  exact ⟨⟨fourFramesInputs, rfl, manifestTiming_fourFrames⟩, by decide, room_oneStage, by decide⟩

/-- After a failed validation nothing is published. -/
theorem unvalidated_not_diagnosed :
    ReviewWorld.LiveReview (claimedAttempt none).record "attempt" (claimedAttempt none).source
      sampleIds ReviewWorld.sampleReview ReviewWorld.claimed ∧
    ¬ (claimedAttempt none).Diagnosed exactFloat sampleSizes none 10000 100000
      ReviewWorld.sampleReview "attempt" sampleIds ReviewWorld.claimed := by
  refine ⟨liveReview_claimed, fun h => ?_⟩
  have hfile : TraceFile lineCount 10000 100000 none := .absent
  obtain ⟨bundle, manifest, hfiles⟩ := h.exists_files rfl
  obtain ⟨⟨⟨_, hvalid, -⟩, -⟩, -⟩ := (debugFiles_iff fourFramesSnapshot_versions.1
    fourFramesSnapshot_versions.2 hfile).mp ⟨manifest, hfiles⟩
  exact nomatch hvalid

end FailedAttempt

end ProcessingPipeline

end BoulderFrame
