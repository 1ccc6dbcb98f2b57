import BoulderFrame.Analysis.Measurement
import BoulderFrame.Framing.LookaheadAxes
import BoulderFrame.Media.Metadata

/-!
# The analysis of a shot

The frames of the source are read in order, and the detector runs on the sampled ones. The athlete
is chosen on the selected frame and followed from there to both ends of the shot. The box of a
sample is held through the frames that are not sampled, and the look-ahead planner frames what
results.

## Main definitions

* `FrameStream`: what a reader yields
* `sampledFrame`: the frames on which the detector runs
* `observeFrames`, `plannerMeasurements`: the observations of all frames, and the measurements
* `analyzeShot`: the observations, the measurements and the plan

## Main results

* `analyzeShot_eq_ok`: what holds of the observations of an analysis, frame by frame
* `planShot_eq_ok`: its timestamps increase, and its crops have positive size
-/

namespace BoulderFrame

structure DecodedFrame (Pixels : Type) where
  index : ℤ
  timestampMs : ℤ
  pixels : Pixels

/-- What a reader yields: its frames, and what it raises after them, if anything. -/
structure FrameStream (Pixels : Type) where
  frames : List (DecodedFrame Pixels)
  failure : Option Raised

/-- `_Inputs`, as far as the analysis reads them. -/
structure ShotInputs (K : Type) where
  metadata : MediaMetadata
  selection : Protocol.TargetSelection K
  outputSettings : Protocol.OutputSettings
  -- the exact value of the decimal number in the configuration
  detectionSampleFps : ℚ

/-- What an analysis finds out. -/
structure ShotAnalysis (K : Type) where
  observations : List (RawFrameObservation K)
  measurements : List (FrameMeasurement K)
  plan : CropPlan K (LookaheadPlannerFrameTrace K)

def inconsistentFrames : Raised :=
  .worker (.terminal .invalidMedia "Video frames could not be analyzed consistently." none)

/-- What an error of the planning code is to the pipeline. -/
def PlanError.raised : PlanError → Raised
  | .valueError message => .valueError message
  | .zeroDivision => .other "ZeroDivisionError"
  | .plannerError message =>
    .worker (.terminal .internal "Video framing could not be planned." (some message))
  | .uncaught name => .other name

/-! ## The sampled frames -/

/-- Regular samples are taken where a clock with the given step per frame ticks; the first frame
and the selected one are always sampled. -/
def sampledFrame (sampleStep : ℚ) (selectedIndex index : ℤ) : Bool :=
  decide (sampleStep.num = 0) || decide (sampleStep.num ≥ sampleStep.den) || decide (index = 0) ||
    decide (index = selectedIndex) ||
    decide (index * sampleStep.num / sampleStep.den > (index - 1) * sampleStep.num / sampleStep.den)

section Detect

variable {K Pixels : Type} (detect : Pixels → Except Raised (List (Detection K)))
  (metadata : MediaMetadata) (sampleStep : ℚ) (selectedIndex : ℤ)

/-- The loop over the frames, from the given index on: the detections on the sampled ones. -/
def detectFrom (index : ℤ) :
    List (DecodedFrame Pixels) → Except Raised (List (Option (List (Detection K))))
  | [] => .ok []
  | frame :: frames => do
    let timestampMs ← metadata.timestampForFrame index
    if metadata.expectedFrameCount ≤ index ∨ frame.index ≠ index ∨ frame.timestampMs ≠ timestampMs
    then .error inconsistentFrames
    else do
      let detections ← if sampledFrame sampleStep selectedIndex index then
          some <$> detect frame.pixels
        else .ok none
      let rest ← detectFrom (index + 1) frames
      .ok (detections :: rest)

/-- The detections on all frames of a stream, which must be the expected ones. -/
def detectFrames (stream : FrameStream Pixels) :
    Except Raised (List (Option (List (Detection K)))) := do
  let detections ← detectFrom detect metadata sampleStep selectedIndex 0 stream.frames
  match stream.failure with
  | some error => .error error
  | none =>
    if (detections.length : ℤ) ≠ metadata.expectedFrameCount then .error inconsistentFrames
    else .ok detections

variable {detect metadata sampleStep selectedIndex}

/-- The detections of a frame are those of the detector on a frame of the stream. -/
theorem detectFrom_mem {index : ℤ} {frames : List (DecodedFrame Pixels)}
    {detections : List (Option (List (Detection K)))}
    (h : detectFrom detect metadata sampleStep selectedIndex index frames = .ok detections)
    {sample : List (Detection K)} (hsample : some sample ∈ detections) :
    ∃ frame ∈ frames, detect frame.pixels = .ok sample := by
  induction frames generalizing index detections with
  | nil =>
    obtain rfl := Except.ok.inj h
    cases hsample
  | cons frame frames ih =>
    obtain ⟨timestampMs, -, h⟩ := Except.bind_eq_ok.mp h
    obtain ⟨-, h⟩ := Except.ok_of_guard h
    have hrest : ∀ first, (do
        let rest ← detectFrom detect metadata sampleStep selectedIndex (index + 1) frames
        .ok (first :: rest)) = Except.ok detections →
        some sample = first ∨ ∃ frame ∈ frames, detect frame.pixels = .ok sample := by
      intro first h
      obtain ⟨rest, hrest, h⟩ := Except.bind_eq_ok.mp h
      obtain rfl := Except.ok.inj h
      exact (List.mem_cons.mp hsample).imp_right fun hmem => ih hrest hmem
    have hlater : (∃ frame ∈ frames, detect frame.pixels = .ok sample) →
        ∃ frame' ∈ frame :: frames, detect frame'.pixels = .ok sample :=
      fun ⟨frame', hmem, hframe'⟩ => ⟨frame', List.mem_cons_of_mem _ hmem, hframe'⟩
    split_ifs at h
    · obtain ⟨first, hfirst, h⟩ := Except.bind_eq_ok.mp h
      obtain rfl | hmem := hrest first h
      · cases hdetect : detect frame.pixels with
        | error error =>
          rw [hdetect] at hfirst
          cases hfirst
        | ok sample' =>
          rw [hdetect] at hfirst
          obtain rfl := Option.some.inj (Except.ok.inj hfirst)
          exact ⟨frame, List.mem_cons_self, hdetect⟩
      · exact hlater hmem
    · obtain h | hmem := hrest none h
      · cases h
      · exact hlater hmem

theorem detectFrames_length {stream : FrameStream Pixels}
    {detections : List (Option (List (Detection K)))}
    (h : detectFrames detect metadata sampleStep selectedIndex stream = .ok detections) :
    (detections.length : ℤ) = metadata.expectedFrameCount := by
  obtain ⟨detections', -, h⟩ := Except.bind_eq_ok.mp h
  split at h
  · cases h
  · obtain ⟨hlength, h⟩ := Except.ok_of_guard h
    obtain rfl := Except.ok.inj h
    exact not_not.mp hlength

theorem detectFrames_mem {stream : FrameStream Pixels}
    {detections : List (Option (List (Detection K)))}
    (h : detectFrames detect metadata sampleStep selectedIndex stream = .ok detections)
    {sample : List (Detection K)} (hsample : some sample ∈ detections) :
    ∃ frame ∈ stream.frames, detect frame.pixels = .ok sample := by
  obtain ⟨detections', hdetections, h⟩ := Except.bind_eq_ok.mp h
  split at h
  · cases h
  · obtain ⟨-, h⟩ := Except.ok_of_guard h
    obtain rfl := Except.ok.inj h
    exact detectFrom_mem hdetections hsample

end Detect

/-! ## The observations -/

section Observe

variable {K : Type} [Field K] [LinearOrder K] (hypot : K → K → K) (captureEvidence : Bool)
  (metadata : MediaMetadata)

/-- The observation of a frame that was not sampled. -/
def skippedObservation (index : ℤ) : Except Raised (RawFrameObservation K) := do
  let timestampMs ← metadata.timestampForFrame index
  RawFrameObservation.postInit ⟨index, timestampMs, none, .detectionSkipped, none⟩

/-- `_associate_from_selected`, along the given frames. -/
def associateFromSelected (detections : List (Option (List (Detection K)))) :
    List ℕ → Rect K → List (RawFrameObservation K) → Except Raised (List (RawFrameObservation K))
  | [], _, observations => .ok observations
  | index :: indices, referenceBounds, observations =>
    match detections[index]? with
    | some (some sampledDetections) => do
      let timestampMs ← metadata.timestampForFrame index
      let observation ← TargetFrameAnalyzer.associate hypot sampledDetections index timestampMs
        referenceBounds.center .priorDetectorBoxCenter (some referenceBounds) captureEvidence
      associateFromSelected detections indices
        (observation.detectorBounds.getD referenceBounds) (observations.set index observation)
    | _ => associateFromSelected detections indices referenceBounds observations

/-- The observations of all frames: the selected one first, then the later and the earlier ones,
each in the direction away from it. -/
def observeFrames (selection : Protocol.TargetSelection K) (selectedIndex : ℤ)
    (detections : List (Option (List (Detection K)))) :
    Except Raised (List (RawFrameObservation K)) := do
  let skipped ← (List.range metadata.expectedFrameCount.toNat).mapM fun index : ℕ =>
    skippedObservation metadata index
  match detections[selectedIndex.toNat]? with
  | none => .error (.other "IndexError")
  | some none => .error (.other "AssertionError")
  | some (some selectedDetections) => do
    let timestampMs ← metadata.timestampForFrame selectedIndex
    let selected ← TargetFrameAnalyzer.selectSelected hypot selectedDetections selectedIndex
      timestampMs selection.normalizedX selection.normalizedY metadata.displayDimensions.1
      metadata.displayDimensions.2 captureEvidence
    let observations := skipped.set selectedIndex.toNat selected
    match selected.detectorBounds with
    | none => .error (.other "AssertionError")
    | some bounds => do
      let later ← associateFromSelected hypot captureEvidence metadata detections
        (List.range' (selectedIndex.toNat + 1) (detections.length - (selectedIndex.toNat + 1)))
        bounds observations
      associateFromSelected hypot captureEvidence metadata detections
        (List.range selectedIndex.toNat).reverse bounds later

variable {hypot captureEvidence metadata}

/-- What an observation says of the frame of its index. -/
structure ObservedAt (metadata : MediaMetadata) (detections : List (Option (List (Detection K))))
    (index : ℕ) (observation : RawFrameObservation K) : Prop where
  frameIndex_eq : observation.frameIndex = index
  timestamp_eq : metadata.timestampForFrame index = .ok observation.timestampMs
  timestamp_nonneg : 0 ≤ observation.timestampMs
  detected : ∀ d ∈ observation.detection, ∃ sample, detections[index]? = some (some sample) ∧
    d ∈ sample

/-- All of them do. -/
def Observed (metadata : MediaMetadata) (detections : List (Option (List (Detection K))))
    (observations : List (RawFrameObservation K)) : Prop :=
  ∀ (index : ℕ) observation, observations[index]? = some observation →
    ObservedAt metadata detections index observation

omit [Field K] [LinearOrder K] in
theorem Observed.set {detections : List (Option (List (Detection K)))}
    {observations : List (RawFrameObservation K)} (h : Observed metadata detections observations)
    {index : ℕ} {observation : RawFrameObservation K}
    (hobservation : ObservedAt metadata detections index observation) :
    Observed metadata detections (observations.set index observation) := by
  intro i o ho
  rw [List.getElem?_set] at ho
  split_ifs at ho with hi
  · obtain rfl := Option.some.inj ho
    exact hi ▸ hobservation
  · exact h i o ho

/-- Following the athlete keeps the observations those of their frames. -/
theorem associateFromSelected_observed {detections : List (Option (List (Detection K)))}
    {indices : List ℕ} {referenceBounds : Rect K}
    {observations observations' : List (RawFrameObservation K)}
    (hobserved : Observed metadata detections observations)
    (h : associateFromSelected hypot captureEvidence metadata detections indices referenceBounds
      observations = .ok observations') :
    observations'.length = observations.length ∧ Observed metadata detections observations' := by
  induction indices generalizing referenceBounds observations with
  | nil =>
    obtain rfl := Except.ok.inj h
    exact ⟨rfl, hobserved⟩
  | cons index indices ih =>
    rw [associateFromSelected] at h
    split at h
    · rename_i sample hsample
      obtain ⟨timestampMs, htimestamp, h⟩ := Except.bind_eq_ok.mp h
      obtain ⟨observation, hobservation, h⟩ := Except.bind_eq_ok.mp h
      obtain ⟨hindex, htime, hnonneg, hmem⟩ := TargetFrameAnalyzer.associate_eq_ok hobservation
      obtain ⟨hlength, hobserved⟩ := ih (hobserved.set
        ⟨hindex, htime.symm ▸ htimestamp, htime.symm ▸ hnonneg, fun d hd =>
          ⟨sample, hsample, hmem d hd⟩⟩) h
      exact ⟨hlength.trans List.length_set, hobserved⟩
    · exact ih hobserved h

omit [Field K] in
theorem skippedObservation_observed {detections : List (Option (List (Detection K)))} {index : ℕ}
    {observation : RawFrameObservation K}
    (h : skippedObservation metadata index = .ok observation) :
    ObservedAt metadata detections index observation := by
  obtain ⟨timestampMs, htimestamp, h⟩ := Except.bind_eq_ok.mp h
  obtain ⟨rfl, -, hnonneg⟩ := RawFrameObservation.postInit_eq_ok h
  exact ⟨rfl, htimestamp, hnonneg, fun d hd => absurd hd (Option.not_mem_none d)⟩

/-- The observations of a shot are those of its frames. -/
theorem observeFrames_observed {selection : Protocol.TargetSelection K} {selectedIndex : ℤ}
    {detections : List (Option (List (Detection K)))}
    {observations : List (RawFrameObservation K)} (hselected : 0 ≤ selectedIndex)
    (h : observeFrames hypot captureEvidence metadata selection selectedIndex detections =
      .ok observations) :
    observations.length = metadata.expectedFrameCount.toNat ∧ detections ≠ [] ∧
      Observed metadata detections observations := by
  obtain ⟨skipped, hskipped, h⟩ := Except.bind_eq_ok.mp h
  have hforall := Except.mapM_eq_ok.mp hskipped
  have hlength : skipped.length = metadata.expectedFrameCount.toNat := by
    rw [← hforall.length_eq, List.length_range]
  have hobserved : Observed metadata detections skipped := by
    intro index observation hobservation
    obtain ⟨hlt, rfl⟩ := List.getElem?_eq_some_iff.mp hobservation
    have hat := List.forall₂_iff_get.mp hforall
    have := hat.2 index (by rw [List.length_range]; omega) hlt
    simp only [List.get_eq_getElem, List.getElem_range] at this
    exact skippedObservation_observed this
  split at h
  · cases h
  · cases h
  · rename_i sample hsample
    obtain ⟨timestampMs, htimestamp, h⟩ := Except.bind_eq_ok.mp h
    obtain ⟨selected, hselect, h⟩ := Except.bind_eq_ok.mp h
    obtain ⟨hindex, htime, hnonneg, d, hd, hdetection⟩ :=
      TargetFrameAnalyzer.selectSelected_eq_ok hselect
    have hcast : (selectedIndex.toNat : ℤ) = selectedIndex := Int.toNat_of_nonneg hselected
    have hat : ObservedAt metadata detections selectedIndex.toNat selected := by
      refine ⟨hindex.trans hcast.symm, ?_, htime.symm ▸ hnonneg, fun d' hd' => ?_⟩
      · rw [hcast, htime]
        exact htimestamp
      · obtain rfl := Option.some.inj (hdetection.symm.trans hd')
        exact ⟨sample, hsample, hd⟩
    have hset := hobserved.set hat
    split at h
    · cases h
    · obtain ⟨later, hlater, h⟩ := Except.bind_eq_ok.mp h
      obtain ⟨hlength₁, hobserved₁⟩ := associateFromSelected_observed hset hlater
      obtain ⟨hlength₂, hobserved₂⟩ := associateFromSelected_observed hobserved₁ h
      refine ⟨by rw [hlength₂, hlength₁, List.length_set, hlength], ?_, hobserved₂⟩
      exact List.ne_nil_of_mem (List.mem_of_getElem? hsample)

end Observe

section Measure

variable {K : Type} [Field K]

/-- The loop of `_planner_measurements`, with the box that is held. -/
def measurementsFrom (held : Option (Detection K)) :
    List (RawFrameObservation K) → List (FrameMeasurement K)
  | [] => []
  | observation :: observations =>
    -- a sampled miss clears the held box
    let held := if observation.selectionOutcome = .detectionSkipped then held
      else observation.detection
    { detectorBounds := held.map (·.bounds)
      timestampMs := observation.timestampMs
      confidence := (held.map (·.confidence)).getD 0
      detectionSampled := decide (observation.selectionOutcome ≠ .detectionSkipped) } ::
      measurementsFrom held observations

/-- `_planner_measurements` -/
def plannerMeasurements (observations : List (RawFrameObservation K)) :
    List (FrameMeasurement K) := measurementsFrom none observations

theorem measurementsFrom_timestamps (held : Option (Detection K))
    (observations : List (RawFrameObservation K)) :
    (measurementsFrom held observations).map (·.timestampMs) =
      observations.map (·.timestampMs) := by
  induction observations generalizing held with
  | nil => rfl
  | cons observation observations ih =>
    rw [measurementsFrom, List.map_cons, List.map_cons, ih]

theorem plannerMeasurements_length (observations : List (RawFrameObservation K)) :
    (plannerMeasurements observations).length = observations.length := by
  rw [plannerMeasurements, ← List.length_map (·.timestampMs), measurementsFrom_timestamps,
    List.length_map]

end Measure

/-! ## The analysis -/

section Analyze

variable {K Pixels : Type} [Field K] [LinearOrder K] [Elementary K] (hypot : K → K → K)
  (linprog : Linprog K) (captureEvidence : Bool)

/-- The observations with their measurements and the plan for them. -/
def planShot (inputs : ShotInputs K) (observations : List (RawFrameObservation K)) :
    Except Raised (ShotAnalysis K) :=
  let measurements := plannerMeasurements observations
  let (width, height) := inputs.metadata.displayDimensions
  let plan := do
    let seedPlanner ← DeterministicCropPlanner.make width height inputs.outputSettings.aspectRatio
      inputs.outputSettings.profile
    LookaheadCropPlanner.plan ⟨seedPlanner⟩ linprog measurements
  match plan with
  | .error error => .error error.raised
  | .ok plan => .ok ⟨observations, measurements, plan⟩

variable {linprog} in
/-- **A planned shot** has increasing timestamps, and crops of positive size. -/
theorem planShot_eq_ok {inputs : ShotInputs K} {observations : List (RawFrameObservation K)}
    {analysis : ShotAnalysis K} (hne : observations ≠ [])
    (h : planShot linprog inputs observations = .ok analysis) :
    analysis.observations = observations ∧
      analysis.measurements = plannerMeasurements observations ∧
      (observations.IsChain fun o o' => o.timestampMs < o'.timestampMs) ∧
      ∀ crop ∈ analysis.plan.crops, 0 < crop.width ∧ 0 < crop.height := by
  unfold planShot at h
  dsimp only at h
  split at h
  · cases h
  · rename_i plan hplan
    obtain rfl := Except.ok.inj h
    obtain ⟨seedPlanner, -, hplan⟩ := Except.bind_eq_ok.mp hplan
    have hne' : plannerMeasurements observations ≠ [] := by
      rwa [← List.length_pos_iff, plannerMeasurements_length, List.length_pos_iff]
    obtain ⟨seed, originsX, originsY, hseed, -, -, -, -, -, hgeometry, -, hmake⟩ :=
      (LookaheadCropPlanner.plan_eq_ok hne').mp hplan
    refine ⟨rfl, rfl, ?_, fun crop hcrop => ?_⟩
    · have hchain := (DeterministicCropPlanner.plan_timestamps hseed).2
      have hmap : (observations.map (·.timestampMs)).IsChain (· < ·) := by
        rw [← measurementsFrom_timestamps none]
        exact (List.isChain_map fun m : FrameMeasurement K => m.timestampMs).mpr hchain
      exact (List.isChain_map fun o : RawFrameObservation K => o.timestampMs).mp hmap
    · unfold CropPlan.make at hmake
      split_ifs at hmake
      obtain rfl := Except.ok.inj hmake
      have := hgeometry crop hcrop
      simp only [LookaheadCropPlanner.invalidGeometry, not_or, not_le] at this
      exact ⟨this.1, this.2.1⟩

/-- `_crop_path`, up to the plan. -/
def analyzeShot (detect : Pixels → Except Raised (List (Detection K))) (inputs : ShotInputs K)
    (stream : FrameStream Pixels) : Except Raised (ShotAnalysis K) := do
  let selectedIndex ← inputs.metadata.frameForTimeMs inputs.selection.frameTimeMs
  let detections ← detectFrames detect inputs.metadata
    (inputs.detectionSampleFps / inputs.metadata.frameRate) selectedIndex stream
  let observations ← observeFrames hypot captureEvidence inputs.metadata inputs.selection
    selectedIndex detections
  planShot linprog inputs observations

variable {hypot linprog captureEvidence}

/-- An analysis plans the observations of the expected frames. -/
theorem analyzeShot_planned {detect : Pixels → Except Raised (List (Detection K))}
    {inputs : ShotInputs K} {stream : FrameStream Pixels} {analysis : ShotAnalysis K}
    (hrate : 0 ≤ inputs.metadata.frameRate)
    (h : analyzeShot hypot linprog captureEvidence detect inputs stream = .ok analysis) :
    ∃ selectedIndex detections observations,
      detectFrames detect inputs.metadata (inputs.detectionSampleFps / inputs.metadata.frameRate)
        selectedIndex stream = .ok detections ∧
      (observations.length : ℤ) = inputs.metadata.expectedFrameCount ∧ observations ≠ [] ∧
      Observed inputs.metadata detections observations ∧
      planShot linprog inputs observations = .ok analysis := by
  obtain ⟨selectedIndex, hselected, h⟩ := Except.bind_eq_ok.mp h
  obtain ⟨detections, hdetections, h⟩ := Except.bind_eq_ok.mp h
  obtain ⟨observations, hobservations, h⟩ := Except.bind_eq_ok.mp h
  have hindex : 0 ≤ selectedIndex := MediaMetadata.frameForTimeMs_nonneg hrate hselected
  have hdetected := detectFrames_length hdetections
  obtain ⟨hlength, hne, hobserved⟩ := observeFrames_observed hindex hobservations
  have hcount : (observations.length : ℤ) = inputs.metadata.expectedFrameCount := by omega
  have hne : observations ≠ [] := by
    have := List.length_pos_iff.mpr hne
    rw [← List.length_pos_iff]
    omega
  exact ⟨selectedIndex, detections, observations, hdetections, hcount, hne, hobserved, h⟩

/-- **An analysis** has an observation of each expected frame, with one of the detections on it, if
any; it has increasing timestamps, and crops of positive size. -/
theorem analyzeShot_eq_ok {detect : Pixels → Except Raised (List (Detection K))}
    {inputs : ShotInputs K} {stream : FrameStream Pixels} {analysis : ShotAnalysis K}
    (hrate : 0 ≤ inputs.metadata.frameRate)
    (h : analyzeShot hypot linprog captureEvidence detect inputs stream = .ok analysis) :
    (analysis.observations.length : ℤ) = inputs.metadata.expectedFrameCount ∧
      (∀ (index : ℕ) observation, analysis.observations[index]? = some observation →
        observation.frameIndex = index ∧
          inputs.metadata.timestampForFrame index = .ok observation.timestampMs ∧
          0 ≤ observation.timestampMs ∧ ∀ d ∈ observation.detection, ∃ frame ∈ stream.frames,
            ∃ sample, detect frame.pixels = .ok sample ∧ d ∈ sample) ∧
      analysis.measurements = plannerMeasurements analysis.observations ∧
      (analysis.observations.IsChain fun o o' => o.timestampMs < o'.timestampMs) ∧
      ∀ crop ∈ analysis.plan.crops, 0 < crop.width ∧ 0 < crop.height := by
  obtain ⟨selectedIndex, detections, observations, hdetections, hcount, hne, hobserved, h⟩ :=
    analyzeShot_planned hrate h
  obtain ⟨hsame, hmeasurements, hchain, hcrops⟩ := planShot_eq_ok hne h
  rw [hsame]
  refine ⟨hcount, fun index observation hobservation => ?_, hmeasurements, hchain, hcrops⟩
  have hat := hobserved index observation hobservation
  refine ⟨hat.frameIndex_eq, hat.timestamp_eq, hat.timestamp_nonneg, fun d hd => ?_⟩
  obtain ⟨sample, hsample, hmem⟩ := hat.detected d hd
  obtain ⟨frame, hframe, hdetect⟩ :=
    detectFrames_mem hdetections (List.mem_of_getElem? hsample)
  exact ⟨frame, hframe, sample, hdetect, hmem⟩

end Analyze

/-! ## A shot of four frames -/

namespace FourFrames

/-- Where the camera rests, the functions of `math` have no effect on the plan. -/
@[reducible] def elementary : Elementary ℚ := ⟨id, id, id, id, id⟩

attribute [local instance] elementary

/-- Every second frame of the shot is sampled. -/
def shot : ShotInputs ℚ where
  metadata := .probed 1920 1080 30 (133333 / 1000000) "h264" 0 none
  selection := ⟨0, 1 / 2, 1 / 2⟩
  outputSettings := ⟨.portrait, .balanced⟩
  detectionSampleFps := 15

/-- An athlete who is framed by crops of the height of the source. -/
def detect (there : Bool) : Except Raised (List (Detection ℚ)) :=
  .ok (if there then [⟨⟨900, 40, 120, 1000⟩, 9 / 10⟩] else [])

/-- On the second sampled frame there is no one. -/
def stream : FrameStream Bool :=
  ⟨[⟨0, 0, true⟩, ⟨1, 33, true⟩, ⟨2, 67, false⟩, ⟨3, 100, true⟩], none⟩

/-- The optimum of every pass: the centers stay in the middle. -/
def linprog : Linprog ℚ := fun _ program => .ok {
  success := true
  status := 0
  message := ""
  x := List.replicate 4 (some (1 / 2)) ++ List.replicate (program.bounds.length - 4) (some 0)
  optimum := some 0 }

def analysis (captureEvidence : Bool) : Except Raised (ShotAnalysis ℚ) :=
  analyzeShot (fun x y => max |x| |y|) linprog captureEvidence detect shot stream

theorem shot_valid : shot.metadata.Valid := ⟨by decide, by decide, by decide +kernel⟩

end FourFrames

end BoulderFrame
