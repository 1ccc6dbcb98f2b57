import BoulderFrame.Evaluation.AcceptedFiles
import BoulderFrame.Evaluation.Overlap

/-!
# Reports

A bundle and annotations that have been loaded are evaluated without a failure, if they are of one
source. The report has each recorded and each annotated frame once, in order, and its first failure is
on the first frame that does not pass.

## Main definitions

* `DebugBundle.WellFormed`: what is known of a loaded bundle
* `Satisfied`: the frame of an index is recorded and annotated, and passes
* `EvaluationReport.Sound`: what a report says of its frames, and of the first failure

## Main results

* `motionMetrics_eq_ok`, `frameMetrics_eq_ok`: the metrics of a loaded bundle and of its frames
* `evaluate_loaded`: the report of a loaded bundle
-/

namespace BoulderFrame

namespace Evaluation

/-! ## Loaded bundles -/

section Loaded

variable {K : Type} [Field K] [LinearOrder K]

/-- What is known of a loaded bundle. -/
structure DebugBundle.WellFormed (bundle : DebugBundle K) : Prop where
  source : bundle.header.source.WellFormed
  frames : ∀ d ∈ bundle.frames, d.Drawn
  indices : (bundle.frames.map (·.frameIndex)).Pairwise (· < ·)
  timestamps : (bundle.frames.map (·.timestampMs)).Pairwise (· < ·)

theorem positive_of_optional {v : Value K} {name : String} {r : Option (Rect K)}
    (h : optional v (rect · name) = .ok r) : ∀ box ∈ r, Positive box := by
  have hread : OptionalOf (fun v box => RectOf v box ∧ Positive box) v r :=
    (optional_eq_ok fun _ => rect_eq_ok).mp h
  exact (OptionalOf.and_iff.mp hread).2

theorem positive_of_nestedRect {data : Value K} {key : String} {r : Option (Rect K)}
    (h : nestedRect data key = .ok r) : ∀ box ∈ r, Positive box := by
  obtain ⟨nested, -, h⟩ := Except.bind_eq_ok.mp h
  cases nested with
  | none =>
    obtain rfl := Except.ok.inj h
    simp
  | some nested => exact positive_of_optional h

/-- A frame that is read is drawn. -/
theorem DebugFrame.Drawn.of_ok {record : Value K} {d : DebugFrame K}
    (h : debugFrame record = .ok d) : d.Drawn := by
  obtain ⟨data, -, h⟩ := Except.bind_eq_ok.mp h
  obtain ⟨-, h⟩ := Except.ok_of_guard h
  obtain ⟨⟨⟩, -, h⟩ := Except.bind_eq_ok.mp h
  obtain ⟨detectionSection, -, h⟩ := Except.bind_eq_ok.mp h
  obtain ⟨framing, -, h⟩ := Except.bind_eq_ok.mp h
  obtain ⟨render, -, h⟩ := Except.bind_eq_ok.mp h
  obtain ⟨⟨⟩, -, h⟩ := Except.bind_eq_ok.mp h
  obtain ⟨⟨⟩, -, h⟩ := Except.bind_eq_ok.mp h
  obtain ⟨⟨⟩, -, h⟩ := Except.bind_eq_ok.mp h
  obtain ⟨detection, hdetection, h⟩ := Except.bind_eq_ok.mp h
  obtain ⟨selection, -, h⟩ := Except.bind_eq_ok.mp h
  obtain ⟨decision, -, h⟩ := Except.bind_eq_ok.mp h
  obtain ⟨frameIndex, -, h⟩ := Except.bind_eq_ok.mp h
  obtain ⟨timestampMs, -, h⟩ := Except.bind_eq_ok.mp h
  -- each match is a branch of its own, with the rest of the frame
  cases selection <;> cases decision
  all_goals
    obtain ⟨selected, -, h⟩ := Except.bind_eq_ok.mp h
    obtain ⟨crop, hcrop, h⟩ := Except.bind_eq_ok.mp h
    obtain ⟨renderedCrop, -, h⟩ := Except.bind_eq_ok.mp h
    obtain ⟨renderedTimestampMs, -, h⟩ := Except.bind_eq_ok.mp h
    obtain ⟨verified, -, h⟩ := Except.bind_eq_ok.mp h
    obtain ⟨sourceAspectLimited, -, h⟩ := Except.bind_eq_ok.mp h
    obtain rfl := Except.ok.inj h
    exact ⟨positive_of_nestedRect hdetection, positive_of_optional hcrop⟩

theorem drawn_of_loadFrames {limit : ℤ} {earlier frames : List (DebugFrame K)}
    {records : List (Value K)} (h : loadFrames limit earlier records = .ok frames)
    (hearlier : ∀ d ∈ earlier, d.Drawn) : ∀ d ∈ frames, d.Drawn := by
  induction records generalizing earlier with
  | nil =>
    obtain rfl := Except.ok.inj h
    exact hearlier
  | cons record records ih =>
    rw [loadFrames] at h
    split_ifs at h
    · obtain ⟨d, hd, h⟩ := Except.bind_eq_ok.mp h
      refine ih h ?_
      rw [List.forall_mem_append, List.forall_mem_singleton]
      exact ⟨hearlier, .of_ok hd⟩
    · exact ih h hearlier

omit [Field K] [LinearOrder K] in
/-- The loader checks the order of the frames by their indices and timestamps. -/
theorem strictlyIncreasingFrames_eq {name : String} {previousIndex previousTimestamp : ℤ}
    {frames : List (DebugFrame K)} :
    strictlyIncreasingFrames name previousIndex previousTimestamp frames =
      strictlyIncreasing name previousIndex previousTimestamp
        (frames.map fun d => (d.frameIndex, d.timestampMs)) := by
  induction frames generalizing previousIndex previousTimestamp with
  | nil => rfl
  | cons d frames ih => rw [strictlyIncreasingFrames, List.map_cons, strictlyIncreasing, ih]

/-- **A loaded bundle** is well formed. -/
theorem DebugBundle.WellFormed.of_ok {records : List (Value K)} {limit : ℤ} {bundle : DebugBundle K}
    (h : loadDebugBundle records limit = .ok bundle) : bundle.WellFormed := by
  obtain ⟨-, -, h⟩ := Except.bind_eq_ok.mp h
  cases records with
  | nil => cases h
  | cons first records =>
    obtain ⟨header, hheader, h⟩ := Except.bind_eq_ok.mp h
    obtain ⟨frames, hframes, h⟩ := Except.bind_eq_ok.mp h
    obtain ⟨⟨⟩, hchain, h⟩ := Except.bind_eq_ok.mp h
    obtain rfl := Except.ok.inj h
    rw [strictlyIncreasingFrames_eq, strictlyIncreasing_eq_ok, List.map_map, List.map_map] at hchain
    have hsource : header.source.WellFormed := by
      obtain ⟨data, -, h⟩ := Except.bind_eq_ok.mp hheader
      obtain ⟨-, h⟩ := Except.ok_of_guard h
      obtain ⟨⟨⟩, -, h⟩ := Except.bind_eq_ok.mp h
      obtain ⟨metadata, -, h⟩ := Except.bind_eq_ok.mp h
      obtain ⟨source, hsource, h⟩ := Except.bind_eq_ok.mp h
      obtain ⟨pipelineVersion, -, h⟩ := Except.bind_eq_ok.mp h
      obtain ⟨modelVersion, -, h⟩ := Except.bind_eq_ok.mp h
      obtain ⟨plannerConfig, -, h⟩ := Except.bind_eq_ok.mp h
      obtain ⟨modelManifest, -, h⟩ := Except.bind_eq_ok.mp h
      obtain rfl := Except.ok.inj h
      exact (sourceMetadata_eq_ok.mp hsource).2
    exact ⟨hsource, drawn_of_loadFrames hframes (by simp),
      (List.isChain_iff_pairwise.mp hchain.1).tail, (List.isChain_iff_pairwise.mp hchain.2).tail⟩

end Loaded

/-! ## The motion of the camera -/

section Motion

variable {K : Type} [Field K] [LinearOrder K] [IsStrictOrderedRing K] [Elementary K]
  {hypot : K → K → K} {diagonal : K}

/-- Velocities and their changes are not negative. -/
structure Motion.Nonneg (m : Motion K) : Prop where
  panVelocity : ∀ x ∈ m.panVelocity, 0 ≤ x
  panAcceleration : ∀ x ∈ m.panAcceleration, 0 ≤ x
  panJerk : ∀ x ∈ m.panJerk, 0 ≤ x
  zoomVelocity : ∀ x ∈ m.zoomVelocity, 0 ≤ x
  zoomAcceleration : ∀ x ∈ m.zoomAcceleration, 0 ≤ x
  zoomJerk : ∀ x ∈ m.zoomJerk, 0 ≤ x

omit [IsStrictOrderedRing K] [Elementary K] in
theorem Motion.nonneg_none : (Motion.none : Motion K).Nonneg := by
  constructor <;> simp [Motion.none]

omit [Elementary K] in
theorem rateChange_nonneg {rate previous : Option K} {elapsed : K} (helapsed : 0 < elapsed) :
    ∀ x ∈ rateChange rate previous elapsed, 0 ≤ x := by
  intro x hx
  obtain ⟨v, -, hx⟩ := Option.bind_eq_some_iff.mp hx
  obtain ⟨u, -, rfl⟩ := Option.map_eq_some_iff.mp hx
  positivity

/-- One iteration over drawn frames. -/
theorem motionStep_eq_ok (hhypot : ∀ x y, 0 ≤ hypot x y) (hdiagonal : 0 < diagonal)
    {state : MotionState K} {d : DebugFrame K} (hprevious : ∀ p ∈ state.previous, p.Drawn)
    (hd : d.Drawn) : ∃ m, motionStep hypot diagonal state d = .ok m ∧ m.Nonneg := by
  unfold motionStep
  cases hp : state.previous with
  | none => exact ⟨.none, rfl, Motion.nonneg_none⟩
  | some previous =>
    dsimp only
    cases hcrop : d.crop with
    | none => exact ⟨.none, rfl, Motion.nonneg_none⟩
    | some crop =>
      cases hpreviousCrop : previous.crop with
      | none => exact ⟨.none, rfl, Motion.nonneg_none⟩
      | some previousCrop =>
        have hheight := (hd.crop crop hcrop).2
        have hpreviousHeight := ((hprevious previous hp).crop previousCrop hpreviousCrop).2
        have hratio : 0 < crop.height / previousCrop.height := div_pos hheight hpreviousHeight
        have hlog : (checkedLog (crop.height / previousCrop.height)).mapError PlanError.raised =
            .ok (Elementary.log (crop.height / previousCrop.height)) := by
          rw [checkedLog_of_pos hratio]
          rfl
        dsimp only
        split_ifs with helapsed
        -- the divisors are the diagonal, a height and the elapsed time
        · rw [quotient_of_ne hdiagonal.ne', Except.ok_bind, quotient_of_ne hpreviousHeight.ne',
            Except.ok_bind, hlog, Except.ok_bind]
          refine ⟨_, rfl, ?_, ?_, ?_, ?_, ?_, ?_⟩
          · rintro _ ⟨⟩
            exact div_nonneg (div_nonneg (hhypot ..) hdiagonal.le) helapsed.le
          · dsimp only
            exact rateChange_nonneg helapsed
          · dsimp only
            exact rateChange_nonneg helapsed
          · rintro _ ⟨⟩
            exact div_nonneg (abs_nonneg _) helapsed.le
          · dsimp only
            exact rateChange_nonneg helapsed
          · dsimp only
            exact rateChange_nonneg helapsed
        · exact ⟨.none, rfl, Motion.nonneg_none⟩

/-- The loop over drawn frames. -/
theorem motionLoop_eq_ok (hhypot : ∀ x y, 0 ≤ hypot x y) (hdiagonal : 0 < diagonal)
    {state : MotionState K} {frames : List (DebugFrame K)}
    (hprevious : ∀ p ∈ state.previous, p.Drawn) (hframes : ∀ d ∈ frames, d.Drawn) :
    ∃ result, motionLoop hypot diagonal state frames = .ok result ∧
      ∀ entry ∈ result, entry.2.Nonneg := by
  induction frames generalizing state with
  | nil => exact ⟨[], rfl, by simp⟩
  | cons d frames ih =>
    obtain ⟨hd, hframes⟩ := List.forall_mem_cons.mp hframes
    obtain ⟨m, hm, hnonneg⟩ := motionStep_eq_ok hhypot hdiagonal hprevious hd
    have hafter : ∀ p ∈ (state.after d m).previous, p.Drawn := by
      rintro p ⟨⟩
      exact hd
    obtain ⟨rest, hrest, hall⟩ := ih hafter hframes
    refine ⟨(d.frameIndex, m) :: rest, ?_, List.forall_mem_cons.mpr ⟨hnonneg, hall⟩⟩
    rw [motionLoop, hm, Except.ok_bind, hrest, Except.ok_bind]

/-- **The motion of a loaded bundle** is computed. -/
theorem motionMetrics_eq_ok (hhypot : ∀ x y, 0 ≤ hypot x y) (hsize : ∀ x y, x ≤ hypot x y)
    {bundle : DebugBundle K} (h : bundle.WellFormed) :
    ∃ motion, motionMetrics hypot bundle.frames bundle.header.source = .ok motion ∧
      ∀ index, ∀ m ∈ motion index, m.Nonneg := by
  have hdiagonal : 0 < hypot bundle.header.source.width bundle.header.source.height :=
    lt_of_lt_of_le (Int.cast_pos.mpr h.source.size.1) (hsize ..)
  have hinitial : ∀ p ∈ (MotionState.initial : MotionState K).previous, p.Drawn := by
    rintro p ⟨⟩
  obtain ⟨result, hresult, hnonneg⟩ := motionLoop_eq_ok hhypot hdiagonal hinitial h.frames
  refine ⟨fun index => result.reverse.lookup index, ?_, fun index m hm => ?_⟩
  · rw [motionMetrics, hresult]
    rfl
  · obtain ⟨earlier, later, heq, -⟩ := List.lookup_eq_some_iff.mp hm
    refine hnonneg (index, m) (List.mem_reverse.mp ?_)
    rw [heq]
    exact List.mem_append_right _ (List.mem_cons_self ..)

end Motion

/-! ## The report -/

section Report

variable {K : Type} [Field K] [LinearOrder K] [IsStrictOrderedRing K] {bundle : DebugBundle K}
  {annotations : AnnotationSet K}

/-- The frame of an index is recorded and annotated without doubt, and passes if it shows a box. -/
def Satisfied (bundle : DebugBundle K) (annotations : AnnotationSet K) (index : ℤ) : Prop :=
  ∃ d ∈ bundle.frames, ∃ a ∈ annotations.frames, d.frameIndex = index ∧ a.frameIndex = index ∧
    a.ambiguous = false ∧ (a.visible = true → ∀ bounds ∈ a.bounds, Passes d bounds)

/-- The index is one of a recorded or of an annotated frame. -/
def Mentioned (bundle : DebugBundle K) (annotations : AnnotationSet K) (index : ℤ) : Prop :=
  index ∈ bundle.frames.map (·.frameIndex) ∨ index ∈ annotations.frames.map (·.frameIndex)

omit [IsStrictOrderedRing K] in
theorem emptyMetrics_inRange {d : DebugFrame K} {motion : Option (Motion K)}
    {failure : Option FailureClass} : (emptyMetrics d motion failure).InRange := by
  constructor <;> simp [emptyMetrics]

/-- **The metrics of a drawn frame**: nothing has failed exactly if it passes. -/
theorem frameMetrics_eq_ok {d : DebugFrame K} {annotated : Option (AnnotationFrame K)}
    {motion : Option (Motion K)} (hd : d.Drawn)
    (hannotated : ∀ a ∈ annotated, ∀ bounds ∈ a.bounds, Positive bounds)
    (hmotion : ∀ m ∈ motion, m.Nonneg) :
    ∃ m, frameMetrics d annotated motion = .ok m ∧ m.frameIndex = d.frameIndex ∧ m.InRange ∧
      m.Nonneg ∧ (m.failure = none ↔ ∃ a ∈ annotated, a.ambiguous = false ∧
        (a.visible = true → ∀ bounds ∈ a.bounds, Passes d bounds)) := by
  have hmoved : (motion.getD .none).Nonneg := by
    cases motion with
    | none => exact Motion.nonneg_none
    | some m => exact hmotion m rfl
  unfold frameMetrics
  cases annotated with
  | none => exact ⟨_, rfl, rfl, emptyMetrics_inRange, hmoved, by simp [emptyMetrics]⟩
  | some a =>
    dsimp only
    split_ifs with hambiguous hvisible
    · exact ⟨_, rfl, rfl, emptyMetrics_inRange, hmoved, by simp [emptyMetrics, hambiguous]⟩
    · cases hbounds : a.bounds with
      | none =>
        exact ⟨_, rfl, rfl, emptyMetrics_inRange, hmoved, by
          simp [emptyMetrics, hambiguous, hbounds]⟩
      | some bounds =>
        have hpositive := hannotated a rfl bounds hbounds
        refine ⟨_, boxMetrics_eq_ok hd hpositive, rfl, drawnMetrics_inRange hd hpositive, hmoved, ?_⟩
        rw [drawnMetrics_failure]
        simp [hambiguous, hvisible, hbounds]
    · exact ⟨_, rfl, rfl, emptyMetrics_inRange, hmoved, by
        simp [emptyMetrics, hambiguous, hvisible]⟩

omit [Field K] [LinearOrder K] [IsStrictOrderedRing K] in
/-- An index has one annotation. -/
theorem mem_annotationByIndex {frames : List (AnnotationFrame K)}
    (hindices : (frames.map (·.frameIndex)).Pairwise (· < ·)) {index : ℤ} {a : AnnotationFrame K} :
    a ∈ annotationByIndex frames index ↔ a ∈ frames ∧ a.frameIndex = index := by
  have hnodup : (frames.map (·.frameIndex)).Nodup := hindices.nodup
  have hinjective := List.inj_on_of_nodup_map hnodup
  constructor
  · intro h
    exact ⟨List.mem_reverse.mp (List.mem_of_find?_eq_some h), by
      simpa using List.find?_some h⟩
  · rintro ⟨ha, rfl⟩
    cases hfound : annotationByIndex frames a.frameIndex with
    | none =>
      have hnone := List.find?_eq_none.mp hfound a (List.mem_reverse.mpr ha)
      simp at hnone
    | some a' =>
      have ha' := List.mem_reverse.mp (List.mem_of_find?_eq_some hfound)
      have hsame : a'.frameIndex = a.frameIndex := by simpa using List.find?_some hfound
      rw [hinjective ha' ha hsame]
      rfl

/-- What a report says of a frame. -/
structure FrameMetrics.Sound (bundle : DebugBundle K) (annotations : AnnotationSet K)
    (m : FrameMetrics K) : Prop where
  inRange : m.InRange
  motion : m.Nonneg
  failure : m.failure = none ↔ Satisfied bundle annotations m.frameIndex

/-- The metrics of the recorded frames. -/
theorem recorded_eq_ok (hbundle : bundle.WellFormed) (hannotations : annotations.WellFormed)
    {motion : ℤ → Option (Motion K)} (hmotion : ∀ index, ∀ m ∈ motion index, m.Nonneg) :
    ∃ recorded, (bundle.frames.mapM fun debug =>
        frameMetrics debug (annotationByIndex annotations.frames debug.frameIndex)
          (motion debug.frameIndex)) = .ok recorded ∧
      recorded.map (·.frameIndex) = bundle.frames.map (·.frameIndex) ∧
      ∀ m ∈ recorded, m.Sound bundle annotations := by
  have hframe : ∀ d ∈ bundle.frames, ∃ m,
      frameMetrics d (annotationByIndex annotations.frames d.frameIndex) (motion d.frameIndex) =
        .ok m ∧ m.frameIndex = d.frameIndex ∧ m.Sound bundle annotations := by
    intro d hd
    have hpositive : ∀ a ∈ annotationByIndex annotations.frames d.frameIndex,
        ∀ bounds ∈ a.bounds, Positive bounds := by
      intro a ha bounds hbounds
      have ha := (mem_annotationByIndex hannotations.indices).mp ha
      exact ((hannotations.frames a ha.1).bounds bounds hbounds).positive
    obtain ⟨m, hm, hindex, hrange, hnonneg, hfailure⟩ := frameMetrics_eq_ok
      (hbundle.frames d hd) hpositive (hmotion d.frameIndex)
    refine ⟨m, hm, hindex, hrange, hnonneg, hfailure.trans ?_⟩
    rw [hindex]
    constructor
    · rintro ⟨a, ha, hcertain, hpasses⟩
      obtain ⟨ha, hsame⟩ := (mem_annotationByIndex hannotations.indices).mp ha
      exact ⟨d, hd, a, ha, rfl, hsame, hcertain, hpasses⟩
    · rintro ⟨d', hd', a, ha, hsame, hsame', hcertain, hpasses⟩
      -- an index is the one of one recorded frame
      obtain rfl := List.inj_on_of_nodup_map hbundle.indices.nodup hd' hd hsame
      exact ⟨a, (mem_annotationByIndex hannotations.indices).mpr ⟨ha, hsame'⟩, hcertain, hpasses⟩
  obtain ⟨recorded, hrecorded⟩ := Except.mapM_total fun d hd => (hframe d hd).imp fun _ h => h.1
  have hall := Except.mapM_eq_ok.mp hrecorded
  refine ⟨recorded, hrecorded, ?_, ?_⟩
  · refine hall.map_eq fun d hd m hm => ?_
    obtain ⟨m', hm', hindex, -⟩ := hframe d hd
    obtain rfl := Except.ok.inj (hm.symm.trans hm')
    exact hindex
  · intro m hm
    obtain ⟨d, hd, hread⟩ := hall.exists_left hm
    obtain ⟨m', hm', -, hsound⟩ := hframe d hd
    obtain rfl := Except.ok.inj (hread.symm.trans hm')
    exact hsound

/-- The metrics of the annotated frames that have not been recorded. -/
def missingMetrics (bundle : DebugBundle K) (annotations : AnnotationSet K) :
    List (FrameMetrics K) :=
  (annotations.frames.filter fun annotation =>
    annotation.frameIndex ∉ bundle.frames.map (·.frameIndex)).map fun annotation =>
      emptyMetrics (missingFrame annotation) none (some FailureClass.insufficientAnnotation)

omit [Field K] [LinearOrder K] [IsStrictOrderedRing K] in
theorem missingMetrics_indices : (missingMetrics bundle annotations).map (·.frameIndex) =
    (annotations.frames.map (·.frameIndex)).filter (· ∉ bundle.frames.map (·.frameIndex)) := by
  rw [missingMetrics, List.map_map, List.filter_map]
  rfl

omit [IsStrictOrderedRing K] in
theorem missingMetrics_sound : ∀ m ∈ missingMetrics bundle annotations, m.Sound bundle annotations := by
  intro m hm
  obtain ⟨a, ha, rfl⟩ := List.mem_map.mp hm
  have hmissing := of_decide_eq_true (List.mem_filter.mp ha).2
  refine ⟨emptyMetrics_inRange, Motion.nonneg_none, ?_⟩
  constructor
  · intro h
    cases h
  · rintro ⟨d, hd, -, -, hindex, -⟩
    exact absurd (List.mem_map.mpr ⟨d, hd, hindex⟩) hmissing

/-- What a report of a loaded bundle is. -/
structure EvaluationReport.Sound (bundle : DebugBundle K) (annotations : AnnotationSet K)
    (report : EvaluationReport K) : Prop where
  caseId : report.caseId = annotations.caseId
  segment : report.segment = segmentOf bundle.header
  aggregate : report.aggregate = Evaluation.aggregate report.frames
  increasing : (report.frames.map (·.frameIndex)).Pairwise (· < ·)
  mem : ∀ index, index ∈ report.frames.map (·.frameIndex) ↔ Mentioned bundle annotations index
  frames : ∀ m ∈ report.frames, m.Sound bundle annotations
  first : ∀ index, report.firstFailureFrame = some index ↔
    (Mentioned bundle annotations index ∧ ¬ Satisfied bundle annotations index) ∧
      ∀ earlier < index, Mentioned bundle annotations earlier → Satisfied bundle annotations earlier
  failure : ∀ m ∈ report.frames, report.firstFailureFrame = some m.frameIndex →
    report.firstFailure = m.failure

/-- The report of the metrics of the frames. -/
def reportOf (bundle : DebugBundle K) (annotations : AnnotationSet K)
    (frames : List (FrameMetrics K)) : EvaluationReport K :=
  let first := frames.find? fun frame => frame.failure.isSome
  { caseId := annotations.caseId
    segment := segmentOf bundle.header
    frames := frames
    aggregate := aggregate frames
    firstFailureFrame := first.map (·.frameIndex)
    firstFailure := first.bind (·.failure) }

omit [IsStrictOrderedRing K] in
/-- The report of sound metrics, in order. -/
theorem reportOf_sound {frames : List (FrameMetrics K)}
    (hincreasing : (frames.map (·.frameIndex)).Pairwise (· < ·))
    (hmem : ∀ index, index ∈ frames.map (·.frameIndex) ↔ Mentioned bundle annotations index)
    (hframes : ∀ m ∈ frames, m.Sound bundle annotations) :
    (reportOf bundle annotations frames).Sound bundle annotations := by
  have hfailed : ∀ m ∈ frames, m.failure.isSome = false ↔
      Satisfied bundle annotations m.frameIndex := by
    intro m hm
    rw [← (hframes m hm).failure, Option.isSome_eq_false_iff, Option.isNone_iff_eq_none]
  -- the frames are in order, so that the first failed one has the least index
  have hfirst : ∀ m, (frames.find? fun frame => frame.failure.isSome) = some m ↔ m ∈ frames ∧
      ¬ Satisfied bundle annotations m.frameIndex ∧ ∀ earlier ∈ frames,
        earlier.frameIndex < m.frameIndex → Satisfied bundle annotations earlier.frameIndex := by
    intro m
    rw [List.find?_eq_some_iff_key hincreasing]
    refine and_congr_right fun hm => and_congr ?_ ?_
    · rw [← hfailed m hm, Bool.not_eq_false]
    · exact forall₂_congr fun earlier hearlier => imp_congr_right fun _ => hfailed earlier hearlier
  refine ⟨rfl, rfl, rfl, hincreasing, hmem, hframes, fun index => ?_, fun m hm hindex => ?_⟩
  · constructor
    · intro h
      obtain ⟨m, hm, rfl⟩ := Option.map_eq_some_iff.mp h
      obtain ⟨hm, hunsatisfied, hearlier⟩ := (hfirst m).mp hm
      refine ⟨⟨(hmem _).mp (List.mem_map_of_mem hm), hunsatisfied⟩, fun earlier hlt hmentioned => ?_⟩
      obtain ⟨m', hm', rfl⟩ := List.mem_map.mp ((hmem earlier).mpr hmentioned)
      exact hearlier m' hm' hlt
    · rintro ⟨⟨hmentioned, hunsatisfied⟩, hearlier⟩
      obtain ⟨m, hm, rfl⟩ := List.mem_map.mp ((hmem index).mpr hmentioned)
      refine Option.map_eq_some_iff.mpr ⟨m, (hfirst m).mpr ⟨hm, hunsatisfied, ?_⟩, rfl⟩
      intro m' hm' hlt
      exact hearlier _ hlt ((hmem _).mp (List.mem_map_of_mem hm'))
  · obtain ⟨m', hm', hsame⟩ := Option.map_eq_some_iff.mp hindex
    have hnodup : (frames.map (·.frameIndex)).Nodup := hincreasing.nodup
    obtain rfl := List.inj_on_of_nodup_map hnodup ((hfirst m').mp hm').1 hm hsame
    change (frames.find? fun frame => frame.failure.isSome).bind (·.failure) = _
    rw [hm']
    rfl

/-- **The evaluation of a well-formed bundle** with a well-formed annotation of its source. -/
theorem evaluate_eq_ok [Elementary K] {hypot : K → K → K} (hhypot : ∀ x y, 0 ≤ hypot x y)
    (hsize : ∀ x y, x ≤ hypot x y) (hbundle : bundle.WellFormed)
    (hannotations : annotations.WellFormed)
    (hsource : sourceMatches bundle.header.source annotations.source = true) :
    ∃ report, evaluate hypot bundle annotations = .ok report ∧ report.Sound bundle annotations := by
  obtain ⟨motion, hmotion, hnonneg⟩ := motionMetrics_eq_ok hhypot hsize hbundle
  obtain ⟨recorded, hrecorded, hindices, hsound⟩ := recorded_eq_ok hbundle hannotations hnonneg
  set frames := (recorded ++ missingMetrics bundle annotations).mergeSort
    fun a b => a.frameIndex ≤ b.frameIndex with hframes
  have hnodup : ((recorded ++ missingMetrics bundle annotations).map (·.frameIndex)).Nodup := by
    rw [List.map_append, hindices, missingMetrics_indices]
    have hrecorded : (bundle.frames.map (·.frameIndex)).Nodup := hbundle.indices.nodup
    have hannotated : (annotations.frames.map (·.frameIndex)).Nodup := hannotations.indices.nodup
    -- what is missing has been filtered by what is recorded
    refine hrecorded.append (hannotated.filter _) fun index hmem hmissing => ?_
    exact absurd hmem (of_decide_eq_true (List.mem_filter.mp hmissing).2)
  have hincreasing : (frames.map (·.frameIndex)).Pairwise (· < ·) :=
    List.pairwise_mergeSort_key hnodup
  have hmem : ∀ index, index ∈ frames.map (·.frameIndex) ↔ Mentioned bundle annotations index := by
    intro index
    rw [((List.mergeSort_perm _ _).map _).mem_iff, List.map_append, hindices,
      missingMetrics_indices, List.mem_append, List.mem_filter, Mentioned]
    simp only [decide_eq_true_eq]
    tauto
  have hall : ∀ m ∈ frames, m.Sound bundle annotations := by
    intro m hm
    obtain hm | hm := List.mem_append.mp (List.mem_mergeSort.mp hm)
    · exact hsound m hm
    · exact missingMetrics_sound m hm
  refine ⟨reportOf bundle annotations frames, ?_, reportOf_sound hincreasing hmem hall⟩
  unfold evaluate
  rw [hsource, if_neg (by simp), hmotion, Except.ok_bind, hrecorded, Except.ok_bind]
  rfl

end Report

/-! ## Three frames -/

section ThreeFrames

@[reducible] def idleElementary : Elementary ℚ := ⟨id, id, id, id, id⟩

attribute [local instance] idleElementary

/-- The hypotenuse of the source; no other is asked for. -/
def sourceHypot (x y : ℚ) : ℚ := if x = 1200 ∧ y = 900 then 1500 else |x| + |y|

def threeFramesSource : SourceMetadata ℚ := ⟨some "clip-1", 1200, 900, 30, false, none⟩

def threeFramesBox : Rect ℚ := ⟨500, 300, 100, 200⟩

/-- A frame with a box in its crop, and one without a detection. -/
def threeFramesRecords : List (Value ℚ) :=
  [.dict [("record_type", .str "header"), ("schema_version", .int 1),
      ("source_metadata", threeFramesSource.record), ("pipeline_version", .str "pipeline-v1"),
      ("model_version", .str "model-v1"), ("planner_config", .dict []), ("model_manifest", .dict [])],
    .dict [("record_type", .str "frame"), ("schema_version", .int 1),
      ("detection", .dict [("detection", .dict [("bounds", serializeRect threeFramesBox)])]),
      ("framing", .dict [("input", .none), ("crop", serializeRect ⟨300, 100, 450, 600⟩)]),
      ("render", .dict [("crop", .none), ("timestamp_ms", .none)]),
      ("frame_index", .int 0), ("timestamp_ms", .int 0)],
    .dict [("record_type", .str "frame"), ("schema_version", .int 1),
      ("detection", .dict [("detection", .none)]),
      ("framing", .dict [("input", .none), ("crop", .none)]),
      ("render", .dict [("crop", .none), ("timestamp_ms", .none)]),
      ("frame_index", .int 2), ("timestamp_ms", .int 66)]]

def annotatedFrame (index timestampMs : ℤ) : AnnotationFrame ℚ :=
  ⟨index, timestampMs, true, false, false, some threeFramesBox, [], none, none⟩

/-- The box is annotated on a frame between the recorded ones, too. -/
def threeFramesAnnotations : AnnotationSet ℚ where
  caseId := "case-1"
  source := threeFramesSource
  reviewer := "reviewer"
  frames := [annotatedFrame 0 0, annotatedFrame 1 33, annotatedFrame 2 66]

theorem eq_ok_of_toOption {α : Type} {result : Except Raised α} {a : α}
    (h : result.toOption = some a) : result = .ok a := by
  cases result with
  | error error => cases h
  | ok b => rw [Option.some.inj h]

theorem sourceHypot_nonneg (x y : ℚ) : 0 ≤ sourceHypot x y := by
  unfold sourceHypot
  split_ifs
  · norm_num
  · positivity

theorem le_sourceHypot (x y : ℚ) : x ≤ sourceHypot x y := by
  unfold sourceHypot
  split_ifs with h
  · rw [h.1]
    norm_num
  · exact (le_abs_self x).trans (le_add_of_nonneg_right (abs_nonneg y))

/-- The records are accepted. -/
theorem threeFrames_accepted : ∃ bundle annotations,
    loadDebugBundle threeFramesRecords 10 = .ok bundle ∧
    loadAnnotations "case.json" (some (.ok threeFramesAnnotations.record)) = .ok annotations ∧
    sourceMatches bundle.header.source annotations.source = true := by
  have hloaded : ((loadDebugBundle threeFramesRecords 10).toOption.any fun bundle =>
      (loadAnnotations "case.json" (some (.ok threeFramesAnnotations.record))).toOption.any fun annotations =>
        sourceMatches bundle.header.source annotations.source) = true := by
    decide +kernel
  obtain ⟨bundle, hbundle, hloaded⟩ := (Option.any_eq_true _ _).mp hloaded
  obtain ⟨annotations, hannotations, hsource⟩ := (Option.any_eq_true _ _).mp hloaded
  exact ⟨bundle, annotations, eq_ok_of_toOption hbundle, eq_ok_of_toOption hannotations, hsource⟩

end ThreeFrames

end Evaluation

end BoulderFrame
