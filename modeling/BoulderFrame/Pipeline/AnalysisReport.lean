import BoulderFrame.Analysis.ShotAnalysis
import BoulderFrame.Debug.Telemetry
import BoulderFrame.Framing.MotionFlags

/-!
# The report of an analysis

The report of a job counts what the detector has found, follows the gaps in which the camera has no
target, measures how the crops move from frame to frame, and counts what the planner has noted of
its frames.

## Main definitions

* `detectionStep`: the loop over observations and measurements
* `panStep`: the loop over the crops
* `FramingCounts.ofTrace`: the counts of a planner's trace
* `analysisReport`, `AnalysisReport.toValue`: the report, and its JSON value

## Main results

* `foldStrict_induction`: a loop over two lists of one length keeps its invariant
* `limitExcess_pos_iff`: an excess is reported above the bound of the flags
-/

namespace BoulderFrame

/-- `for a, b in zip(left, right, strict=True)` -/
def foldStrict {σ α β : Type} (step : σ → α → β → Except Raised σ) :
    σ → List α → List β → Except Raised σ
  | st, [], [] => .ok st
  | st, a :: left, b :: right => do
    let st ← step st a b
    foldStrict step st left right
  | _, _ :: _, [] => .error (.valueError "zip() argument 2 is shorter than argument 1")
  | _, [], _ :: _ => .error (.valueError "zip() argument 2 is longer than argument 1")

/-- The outcomes in the order of their enumeration. -/
def SelectionOutcome.all : List SelectionOutcome :=
  [.selectedContainingTap, .selectedNearestTap, .associatedContainingReference,
    .associatedNearestReference, .noDetections, .noAcceptedCandidate, .detectionSkipped]

namespace ProcessingPipeline

variable {K : Type}

/-! ## Detections and gaps -/

/-- The variables of the loop over observations and measurements. -/
structure DetectionState where
  outcomes : SelectionOutcome → ℤ
  detected : ℤ
  unavailable : ℤ
  gapCount : ℤ
  longestGapMs : ℤ
  gapStart : Option ℤ

def DetectionState.initial : DetectionState := ⟨fun _ => 0, 0, 0, 0, 0, none⟩

/-- A gap starts, goes on or ends at a frame. -/
def gapStep (st : DetectionState) (timestampMs : ℤ) (available : Bool) : DetectionState :=
  if available then
    match st.gapStart with
    | none => st
    | some start =>
      { st with longestGapMs := max st.longestGapMs (timestampMs - start), gapStart := none }
  else
    match st.gapStart with
    | none =>
      { st with
        unavailable := st.unavailable + 1
        gapStart := some timestampMs
        gapCount := st.gapCount + 1 }
    | some _ => { st with unavailable := st.unavailable + 1 }

def detectionStep (st : DetectionState) (observation : RawFrameObservation K)
    (measurement : FrameMeasurement K) : DetectionState :=
  let outcome := observation.selectionOutcome
  gapStep
    { st with
      outcomes := Function.update st.outcomes outcome (st.outcomes outcome + 1)
      detected := st.detected + if observation.detection.isSome then 1 else 0 }
    observation.timestampMs measurement.detectorBounds.isSome

/-- A gap that is still open ends with the frames. -/
def finalGapMs (metadata : MediaMetadata) (frames : ℕ) (st : DetectionState) :
    Except Raised ℤ :=
  match st.gapStart with
  | none => .ok st.longestGapMs
  | some start => do
    let endMs ← metadata.timestampForFrame frames
    .ok (max st.longestGapMs (endMs - start))

/-! ## The motion of the crops -/

/-- The variables of the loop over the crops. -/
structure PanState (K : Type) where
  maxPanStep : K
  maxZoomStep : K
  maxPanTimestamp : Option ℤ
  previous : Option (CropRect K)
  previousTimestamp : ℤ
  previousVelocity : K × K
  previousDt : K
  maxSpeed : K
  maxAcceleration : K

section Pan

variable [Field K] [LinearOrder K] [Elementary K]

def PanState.initial : PanState K := ⟨0, 0, none, none, 0, (0, 0), 0, 0, 0⟩

def panZeroDivision : Raised := .other "ZeroDivisionError"

def panStep (dimensions : ℤ × ℤ) (st : PanState K) (observation : RawFrameObservation K)
    (crop : CropRect K) : Except Raised (PanState K) :=
  match st.previous with
  | none =>
    .ok { st with previous := some crop, previousTimestamp := observation.timestampMs }
  | some previous =>
    let dx := crop.center.x - previous.center.x
    let dy := crop.center.y - previous.center.y
    let step := Elementary.sqrt (dx ^ 2 + dy ^ 2)
    let dt : K := ((observation.timestampMs - st.previousTimestamp : ℤ) : K) / 1000
    if previous.height = 0 ∨ (dimensions.1 : K) = 0 ∨ (dimensions.2 : K) = 0 ∨ dt = 0 ∨
      dt + st.previousDt = 0 then .error panZeroDivision
    else
      let velocity := (dx / dimensions.1 / dt, dy / dimensions.2 / dt)
      .ok
        { maxPanStep := if step > st.maxPanStep then step else st.maxPanStep
          maxZoomStep := max st.maxZoomStep |crop.height / previous.height - 1|
          maxPanTimestamp :=
            if step > st.maxPanStep then some observation.timestampMs else st.maxPanTimestamp
          previous := some crop
          previousTimestamp := observation.timestampMs
          previousVelocity := velocity
          previousDt := dt
          maxSpeed := max (max st.maxSpeed |velocity.1|) |velocity.2|
          maxAcceleration :=
            max (max st.maxAcceleration
                (2 * |velocity.1 - st.previousVelocity.1| / (dt + st.previousDt)))
              (2 * |velocity.2 - st.previousVelocity.2| / (dt + st.previousDt)) }

/-- The camera rests after the last frame. -/
def finalAcceleration (st : PanState K) : K :=
  if st.previousDt = 0 then st.maxAcceleration
  else
    max (max st.maxAcceleration (2 * |st.previousVelocity.1| / st.previousDt))
      (2 * |st.previousVelocity.2| / st.previousDt)

/-- What exceeds a limit; nothing within the tolerance of the optimizer. -/
def limitExcess (value limit : K) : K :=
  let excess := max 0 (value - limit)
  if excess ≤ LookaheadCropPlanner.solverFeasibilityTolerance ∨
    isclose excess LookaheadCropPlanner.solverFeasibilityTolerance 0 1e-12 then 0
  else excess

end Pan

/-! ## The trace of the planner -/

/-- The counts of a plan with a trace. -/
structure FramingCounts where
  constrained : ℤ
  uncontained : ℤ
  heldOutside : ℤ
  speedExceeded : ℤ
  accelerationExceeded : ℤ
  containmentOverride : ℤ
  sourceAspectLimited : ℤ
  actions : List (String × ℤ)

/-- `actions[action] = actions.get(action, 0) + 1` -/
def tally (actions : List (String × ℤ)) (action : String) : List (String × ℤ) :=
  if action ∈ actions.map Prod.fst then
    actions.map fun a => if a.1 = action then (a.1, a.2 + 1) else a
  else actions ++ [(action, 1)]

/-- The records of the look-ahead planner that pass a test. -/
def countLookahead (trace : List (PlannerTrace K)) (test : LookaheadPlannerFrameTrace K → Bool) :
    ℤ :=
  (trace.countP fun t => t.elim (fun _ => false) test : ℤ)

def FramingCounts.ofTrace (trace : List (PlannerTrace K)) : FramingCounts where
  constrained := countLookahead trace (·.sampledDetectionConstraint)
  uncontained := countLookahead trace fun t => t.sampledDetectionContained == some false
  heldOutside := countLookahead trace fun t => t.heldTargetContained == some false
  speedExceeded := countLookahead trace (·.panSpeedLimitExceeded)
  accelerationExceeded := countLookahead trace (·.panAccelerationLimitExceeded)
  containmentOverride :=
    (trace.countP fun t => t.elim (·.containmentOverride) (·.containmentOverride) : ℤ)
  sourceAspectLimited :=
    (trace.countP fun t => t.elim (·.sourceAspectLimited) (·.sourceAspectLimited) : ℤ)
  actions := (trace.map fun t =>
    (t.elim PlannerFrameTrace.action LookaheadPlannerFrameTrace.action).value).foldl tally []

/-! ## The report -/

/-- What the report says of an analysis. -/
structure AnalysisReport (K : Type) where
  frames : ℤ
  sampled : ℤ
  skipped : ℤ
  detected : ℤ
  missed : ℤ
  outcomes : SelectionOutcome → ℤ
  maxSpeed : K
  maxAcceleration : K
  speedExcess : K
  accelerationExcess : K
  unavailable : ℤ
  gapCount : ℤ
  longestGapMs : ℤ
  maxPanStep : K
  maxPanTimestamp : Option ℤ
  maxZoomStep : K
  -- only of a plan with a trace
  counts : Option FramingCounts

section Report

variable [Field K] [LinearOrder K] [Elementary K]

/-- The report of the variables after both loops. -/
def AnalysisReport.of (frames : ℕ) (found : DetectionState) (longestGapMs : ℤ) (pan : PanState K)
    (trace : Option (List (PlannerTrace K))) : AnalysisReport K :=
  let skipped := found.outcomes .detectionSkipped
  let sampled := frames - skipped
  let maxAcceleration := finalAcceleration pan
  { frames := frames
    sampled := sampled
    skipped := skipped
    detected := found.detected
    missed := sampled - found.detected
    outcomes := found.outcomes
    maxSpeed := pan.maxSpeed
    maxAcceleration := maxAcceleration
    speedExcess := limitExcess pan.maxSpeed LookaheadCropPlanner.panMaxSpeed
    accelerationExcess := limitExcess maxAcceleration LookaheadCropPlanner.panMaxAcceleration
    unavailable := found.unavailable
    gapCount := found.gapCount
    longestGapMs := longestGapMs
    maxPanStep := pan.maxPanStep
    maxPanTimestamp := pan.maxPanTimestamp
    maxZoomStep := pan.maxZoomStep
    counts := trace.map .ofTrace }

/-- `_analysis_report` -/
def analysisReport (observations : List (RawFrameObservation K))
    (measurements : List (FrameMeasurement K)) (crops : List (CropRect K))
    (trace : Option (List (PlannerTrace K))) (metadata : MediaMetadata) :
    Except Raised (AnalysisReport K) := do
  let found ← foldStrict (fun st observation measurement =>
    .ok (detectionStep st observation measurement)) .initial observations measurements
  let longestGapMs ← finalGapMs metadata observations.length found
  let pan ← foldStrict (panStep metadata.displayDimensions) .initial observations crops
  .ok (.of observations.length found longestGapMs pan trace)

end Report

namespace AnalysisReport

variable (report : AnalysisReport K)

/-- The report of the detections. -/
def detectionValue : Value K :=
  .dict
    [("frames", .int report.frames), ("sampled_frames", .int report.sampled),
      ("skipped_frames", .int report.skipped), ("detected_frames", .int report.detected),
      ("missed_frames", .int report.missed),
      ("outcome_counts", .dict (SelectionOutcome.all.map fun outcome =>
        (outcome.value, .int (report.outcomes outcome))))]

/-- The report of the framing; a plan without a trace has no counts of its frames. -/
def framingValue : Value K :=
  let count (f : FramingCounts → ℤ) : Value K := .int ((report.counts.map f).getD 0)
  .dict
    ([("planner_controller", .str "lookahead-v2"), ("optimizer", .str "scipy-highs-ds"),
        ("lookahead_scope", .str "full_shot"), ("containment_policy", .str "sampled_detections"),
        ("sampled_detection_constraint_frames", count (·.constrained)),
        ("sampled_detection_uncontained_frames", count (·.uncontained)),
        ("held_target_outside_crop_frames", count (·.heldOutside)),
        ("max_pan_axis_speed_source_fraction_per_second", .number report.maxSpeed),
        ("max_pan_axis_acceleration_source_fraction_per_second2", .number report.maxAcceleration),
        ("pan_speed_limit_exceeded_frames", count (·.speedExceeded)),
        ("pan_acceleration_limit_exceeded_frames", count (·.accelerationExceeded)),
        ("pan_speed_limit_excess_source_fraction_per_second", .number report.speedExcess),
        ("pan_acceleration_limit_excess_source_fraction_per_second2",
          .number report.accelerationExcess),
        ("unavailable_target_frames", .int report.unavailable),
        ("detection_gap_count", .int report.gapCount),
        ("longest_detection_gap_ms", .int report.longestGapMs),
        ("max_center_step_source_px", .number report.maxPanStep),
        ("max_center_step_timestamp_ms", report.maxPanTimestamp.elim .none .int),
        ("max_height_step_fraction", .number report.maxZoomStep)] ++
      match report.counts with
      | none => []
      | some counts =>
        [("action_counts", .dict (counts.actions.map fun a => (a.1, .int a.2))),
          ("containment_override_frames", .int counts.containmentOverride),
          ("source_aspect_limited_frames", .int counts.sourceAspectLimited)])

def toValue : Value K :=
  .dict [("detection", report.detectionValue), ("framing", report.framingValue)]

end AnalysisReport

end ProcessingPipeline

/-! ## Loops over two lists -/

/-- **A loop over two lists** of one length succeeds with its invariant, if each step does. -/
theorem foldStrict_induction {σ α β : Type} {step : σ → α → β → Except Raised σ} (Inv : ℕ → σ → Prop)
    {st : σ} {left : List α} {right : List β} (hinitial : Inv 0 st)
    (hstep : ∀ i st a b, left[i]? = some a → right[i]? = some b → Inv i st →
      ∃ next, step st a b = .ok next ∧ Inv (i + 1) next) (hlen : left.length = right.length) :
    ∃ final, foldStrict step st left right = .ok final ∧ Inv left.length final := by
  induction left generalizing Inv st right with
  | nil =>
    obtain rfl := List.length_eq_zero_iff.mp hlen.symm
    exact ⟨st, rfl, hinitial⟩
  | cons a left ih =>
    cases right with
    | nil => cases hlen
    | cons b right =>
      obtain ⟨next, hnext, hinv⟩ := hstep 0 st a b rfl rfl hinitial
      obtain ⟨final, hfinal, hend⟩ := ih (fun i => Inv (i + 1)) hinv
        (fun i st a b ha hb => hstep (i + 1) st a b ha hb) (Nat.succ_inj.mp hlen)
      exact ⟨final, by rw [foldStrict, hnext]; exact hfinal, hend⟩

/-! ## The excesses -/

namespace ProcessingPipeline

/-- **An excess** is reported above the bound of the flags. -/
theorem limitExcess_pos_iff {K : Type} [Field K] [LinearOrder K] [IsStrictOrderedRing K]
    {value limit : K} :
    0 < limitExcess value limit ↔ LookaheadCropPlanner.flagBound limit < value := by
  have hnonneg := solverFeasibilityTolerance_nonneg (K := K)
  have htol : (0 : K) < 1e-12 := by norm_num
  have hclose : ∀ excess tolerance : K, isclose excess tolerance 0 1e-12 = true ↔
      |excess - tolerance| ≤ 1e-12 := by
    intro excess tolerance
    rw [isclose, zero_mul, max_eq_right htol.le, decide_eq_true_iff]
  unfold limitExcess LookaheadCropPlanner.flagBound
  dsimp only
  split_ifs with h
  all_goals rw [hclose] at h
  · -- within the tolerance
    refine iff_of_false (lt_irrefl 0) fun hlt => ?_
    rw [max_eq_right (by linarith)] at h
    obtain h | h := h
    · linarith
    · linarith [(abs_le.mp h).2]
  · obtain ⟨habove, hfar⟩ := not_or.mp h
    rw [not_le] at habove hfar
    have hpos := hnonneg.trans_lt habove
    refine iff_of_true hpos ?_
    obtain hvalue | hvalue := lt_max_iff.mp hpos
    · exact absurd hvalue (lt_irrefl 0)
    · rw [max_eq_right hvalue.le] at habove hfar
      rw [abs_of_pos (sub_pos.mpr habove)] at hfar
      linarith

end ProcessingPipeline

end BoulderFrame
