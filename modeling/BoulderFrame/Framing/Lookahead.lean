import BoulderFrame.Framing.Seed
import BoulderFrame.Library.Frames
import BoulderFrame.Library.LinearProgram

/-!
# The full-shot look-ahead planner

The look-ahead planner keeps every size of the causal seed and replaces its centers. Each axis is
solved on its own by six linear programs over the same variables: the centers, the speed and the
acceleration excess, and one block each for the distance outside the deadzone, the travel, the
change of velocity and the deviation from the seed. Every pass locks its optimum before the next
one, and every answer of the optimizer is validated before it is used.

The optimizer is a parameter: what it answers may depend on the axis and the pass of the call.

## Main definitions

* `Linprog`: the optimizer, which answers with a result or raises
* `AxisInterval`, `LookaheadCropPlanner.axisInterval`: the legal origins and centers of a crop
* `AxisProblem`: one axis of a shot, with its variables, bounds, rows and objectives
* `AxisProblem.solvePass`, `AxisProblem.runPasses`: one pass, and the first `k` of them
* `LookaheadCropPlanner.solveAxis`, `LookaheadCropPlanner.plan`: one axis, and the whole plan
-/

namespace BoulderFrame

open LinearProgramming

/-- How a call of the optimizer may raise. -/
inductive SolverFailure
  /-- a `ValueError` or `RuntimeError` -/
  | caught (typeName : String)
  | uncaught (typeName : String)

/-- What the optimizer returns. A value that is not finite is `none`; the message is the part of
the optimizer's own that the code shows. -/
structure OptimizeResult (K : Type) where
  success : Bool
  status : ℤ
  message : String
  x : List (Option K)
  optimum : Option K

/-- The place of a call in a run of the planner. -/
structure SolverCall where
  horizontal : Bool
  pass : ℕ

/-- `scipy.optimize.linprog` -/
abbrev Linprog (K : Type) :=
  SolverCall → LinearProgram K → Except SolverFailure (OptimizeResult K)

/-- Pixel origins and normalized centers for an unchanged crop extent. -/
structure AxisInterval (K : Type) where
  originLower : K
  originUpper : K
  centerLower : K
  centerUpper : K

structure LookaheadPlannerFrameTrace (K : Type) where
  targetHeightFraction : K
  desiredCrop : CropRect K
  detectionMissed : Bool
  smoothingApplied : Bool
  containmentOverride : Bool
  sourceAspectLimited : Bool
  action : FrameAction
  observedHeightFraction : Option K
  scaleRelativeError : Option K
  scaleDeadbandApplied : Bool
  scaleAdjusting : Bool
  lookaheadCenterAdjusted : Bool
  sampledDetectionConstraint : Bool
  sampledDetectionContained : Option Bool
  heldTargetContained : Option Bool
  panVelocityXSourcePerSecond : Option K
  panVelocityYSourcePerSecond : Option K
  panAccelerationXSourcePerSecond2 : Option K
  panAccelerationYSourcePerSecond2 : Option K
  panSpeedLimitExceeded : Bool
  panAccelerationLimitExceeded : Bool

variable {K : Type} [Field K] [LinearOrder K]

/-- `CropPlan.__post_init__` -/
def CropPlan.make {T : Type} (crops : List (CropRect K)) (trace : List T) :
    Except PlanError (CropPlan K T) :=
  if h : crops.length = trace.length then .ok ⟨crops, trace, h⟩
  else .error (.valueError "crop plan records must have matching frame counts")

namespace CropRect

/-- Width on the horizontal axis, height on the vertical one. -/
def extent (c : CropRect K) (horizontal : Bool) : K := if horizontal then c.width else c.height

def origin (c : CropRect K) (horizontal : Bool) : K := if horizontal then c.x else c.y

/-- The center coordinate over the source extent. -/
def normalizedCenter (c : CropRect K) (horizontal : Bool) (source : ℤ) : K :=
  (if horizontal then c.center.x else c.center.y) / source

end CropRect

namespace Rect

/-- The edge nearer to the origin of the axis. -/
def near (r : Rect K) (horizontal : Bool) : K := if horizontal then r.x else r.y

def far (r : Rect K) (horizontal : Bool) : K := if horizontal then r.right else r.bottom

end Rect

namespace LookaheadCropPlanner

def panMaxSpeed : K := 0.25
def panMaxAcceleration : K := 0.5
def panDeadZoneFraction : K := 0.05
def solverFeasibilityTolerance : K := 1e-8

end LookaheadCropPlanner

open LookaheadCropPlanner

/-! ## One axis -/

/-- One axis of a shot: the seed crops, their legal intervals, and the seconds between frames. -/
structure AxisProblem (K : Type) where
  horizontal : Bool
  source : ℤ
  crops : List (CropRect K)
  legal : List (AxisInterval K)
  intervals : List K

namespace AxisProblem

variable (A : AxisProblem K)

def count : ℕ := A.crops.length

def seedCenters : List K := A.crops.map (·.normalizedCenter A.horizontal A.source)

/-! The columns: the centers, then the two excesses, then four blocks of auxiliary variables. -/

def speedIndex : ℕ := A.count
def accelerationIndex : ℕ := A.count + 1
def deadzoneStart : ℕ := A.count + 2
def travelStart : ℕ := A.deadzoneStart + A.count
def variationStart : ℕ := A.travelStart + A.count - 1
def deviationStart : ℕ := A.variationStart + A.count
def variableCount : ℕ := A.deviationStart + A.count

def bounds : List (K × Option K) :=
  A.legal.map (fun item => (item.centerLower, some item.centerUpper)) ++
    List.replicate (A.variableCount - A.count) (0, none)

/-- `_transitions`: velocity changes with their time spans, the rest before and after the shot
included. -/
def transitions (intervals : List K) : List (LinearExpr K × K) :=
  let first := vec intervals 0
  let last := vec intervals (intervals.length - 1)
  ([(0, -1 / first), (1, 1 / first)], first / 2) ::
    (List.range (intervals.length - 1)).map (fun i =>
      let previous := vec intervals i
      let current := vec intervals (i + 1)
      ([(i, 1 / previous), (i + 1, -1 / previous - 1 / current), (i + 2, 1 / current)],
        (previous + current) / 2)) ++
    [([(intervals.length - 1, 1 / last), (intervals.length, -1 / last)], last / 2)]

/-- Speed and travel, one pair of rows for each sign and interval. -/
def motionRows : List (Row K) :=
  A.intervals.zipIdx.flatMap fun (dt, i) => [1, -1].flatMap fun sign =>
    [⟨[(i, -sign / dt), (i + 1, sign / dt), (A.speedIndex, -1)], panMaxSpeed⟩,
      ⟨[(i, -sign), (i + 1, sign), (A.travelStart + i, -1)], 0⟩]

/-- Acceleration and change of velocity, one pair of rows for each sign and transition. -/
def transitionRows : List (Row K) :=
  (transitions A.intervals).zipIdx.flatMap fun ((coefficients, duration), i) =>
    [1, -1].flatMap fun sign =>
      [⟨coefficients.map (fun t => (t.1, sign * t.2 / duration)) ++ [(A.accelerationIndex, -1)],
          panMaxAcceleration⟩,
        ⟨coefficients.map (fun t => (t.1, sign * t.2)) ++ [(A.variationStart + i, -1)], 0⟩]

/-- The radius of a crop's deadzone, in source-normalized units. -/
def radius (crop : CropRect K) : K := panDeadZoneFraction * crop.extent A.horizontal / A.source

/-- Deviation from the seed, and distance outside its deadzone. -/
def deviationRows : List (Row K) :=
  (A.seedCenters.zip A.crops).zipIdx.flatMap fun ((center, crop), i) =>
    [⟨[(A.deviationStart + i, 1), (A.deadzoneStart + i, -1)], A.radius crop⟩,
      ⟨[(i, 1), (A.deviationStart + i, -1)], center⟩,
      ⟨[(i, -1), (A.deviationStart + i, -1)], -center⟩]

def rows : List (Row K) := A.motionRows ++ A.transitionRows ++ A.deviationRows

/-- Half the adjacent intervals of each frame. -/
def weights : List K :=
  (List.range A.count).map fun i =>
    if i = 0 then vec A.intervals 0 / 2
    else if i = A.count - 1 then vec A.intervals (A.intervals.length - 1) / 2
    else (vec A.intervals (i - 1) + vec A.intervals i) / 2

/-- Consecutive columns from `start` on, with the given coefficients. -/
def block (start : ℕ) (coefficients : List K) : LinearExpr K :=
  coefficients.zipIdx.map fun (value, i) => (start + i, value)

/-- The objective of a pass; every other column has coefficient zero. -/
def objective : ℕ → LinearExpr K
  | 0 => [(A.speedIndex, 1)]
  | 1 => [(A.accelerationIndex, 1)]
  | 2 => block A.deadzoneStart A.weights
  | 3 => block A.travelStart (List.replicate (A.count - 1) 1)
  | 4 => block A.variationStart (List.replicate A.count 1)
  | _ => block A.deviationStart A.weights

/-- What a pass leaves for the next one. -/
structure PassState (K : Type) where
  bounds : List (K × Option K)
  rows : List (Row K)
  origins : List K

def initialState : PassState K := ⟨A.bounds, A.rows, []⟩

/-- The program of a pass. -/
def program (k : ℕ) (st : PassState K) : LinearProgram K := ⟨A.objective k, st.rows, st.bounds⟩

/-- The optimizer's answer, if it reports success. -/
def invoke (linprog : Linprog K) (k : ℕ) (program : LinearProgram K) :
    Except PlanError (OptimizeResult K) :=
  match linprog ⟨A.horizontal, k⟩ program with
  | .error (.caught typeName) =>
    .error (.plannerError ("Optimizer invocation failed (" ++ typeName ++ ")."))
  | .error (.uncaught typeName) => .error (.uncaught typeName)
  | .ok result =>
    if !result.success ∨ result.status ≠ 0 then
      .error (.plannerError
        ("Optimizer status " ++ toString result.status ++ ": " ++ result.message))
    else .ok result

/-- The solution and the optimum, if they are finite, of the right size, and consistent. -/
def accept (k : ℕ) (result : OptimizeResult K) : Except PlanError (List K × K) :=
  match result.optimum with
  | none => .error (.plannerError "Optimizer returned non-finite or inconsistent variables.")
  | some optimum =>
    let solution := result.x.map (·.getD 0)
    if result.x.length ≠ A.variableCount ∨ ¬ (∀ value ∈ result.x, value.isSome) ∨
        |(A.objective k).eval (vec solution) - optimum| > solverFeasibilityTolerance then
      .error (.plannerError "Optimizer returned non-finite or inconsistent variables.")
    else .ok (solution, optimum)

/-- One step of `_canonical_origins`: the origin within its legal interval, and the center that
the crop then has. -/
def canonicalOrigin (center : K) (crop : CropRect K) (item : AxisInterval K) :
    Except PlanError (K × K) :=
  if center < item.centerLower - solverFeasibilityTolerance ∨
      center > item.centerUpper + solverFeasibilityTolerance then
    .error (.plannerError "Optimizer center is outside its legal interval.")
  else
    let extent := crop.extent A.horizontal
    let origin := min (max (center * A.source - extent / 2) item.originLower) item.originUpper
    .ok (origin, (origin + extent / 2) / A.source)

/-- `_canonical_origins`: origins and rewritten centers. -/
def canonicalOrigins (centers : List K) : Except PlanError (List (K × K)) :=
  (centers.zip (A.crops.zip A.legal)).mapM fun (center, crop, item) =>
    A.canonicalOrigin center crop item

def rowsViolated (rows : List (Row K)) (solution : List K) : Bool :=
  rows.any fun row =>
    decide (row.coefficients.eval (vec solution) - row.limit > solverFeasibilityTolerance)

def boundsViolated (bounds : List (K × Option K)) (solution : List K) : Bool :=
  (solution.zip bounds).any fun (value, lower, upper) =>
    decide (value < lower - solverFeasibilityTolerance) ||
      upper.any fun upper => decide (value > upper + solverFeasibilityTolerance)

/-- `_validate_axis_motion` -/
def validateAxisMotion (centers intervals : List K) (speedExcess accelerationExcess : K) :
    Except PlanError Unit :=
  let velocities := (List.range intervals.length).map fun i =>
    (vec centers (i + 1) - vec centers i) / vec intervals i
  let last := intervals.length - 1
  let accelerations :=
    [2 * vec velocities 0 / vec intervals 0, -2 * vec velocities last / vec intervals last] ++
      (List.range last).map fun i =>
        2 * (vec velocities (i + 1) - vec velocities i) / (vec intervals (i + 1) + vec intervals i)
  if velocities.any fun v => decide (|v| > panMaxSpeed + speedExcess + solverFeasibilityTolerance)
  then .error (.plannerError "Canonical crop path exceeds the optimized speed envelope.")
  else if accelerations.any fun a =>
    decide (|a| > panMaxAcceleration + accelerationExcess + solverFeasibilityTolerance)
  then .error (.plannerError "Canonical crop path exceeds the optimized acceleration envelope.")
  else .ok ()

/-- Preserve the optimum of a pass in the programs of the later ones. -/
def lock (k : ℕ) (optimum : K) (st : PassState K) : PassState K :=
  let limit := max 0 optimum + solverFeasibilityTolerance
  match k with
  | 0 => { st with bounds := st.bounds.set A.speedIndex (0, some limit) }
  | 1 => { st with bounds := st.bounds.set A.accelerationIndex (0, some limit) }
  | 2 | 3 | 4 => { st with rows := st.rows ++ [⟨A.objective k, limit⟩] }
  | _ => st

/-- One pass: solve, canonicalize, validate, and lock. -/
def solvePass (linprog : Linprog K) (k : ℕ) (st : PassState K) :
    Except PlanError (PassState K) := do
  let result ← A.invoke linprog k (A.program k st)
  let (solution, optimum) ← A.accept k result
  let canonical ← A.canonicalOrigins (solution.take A.count)
  -- the centers are rewritten in the solution before anything else is validated
  let solution := canonical.map Prod.snd ++ solution.drop A.count
  if rowsViolated st.rows solution then
    .error (.plannerError "Canonical optimizer output violates linear constraints.")
  else if boundsViolated st.bounds solution then
    .error (.plannerError "Optimizer output violates variable bounds.")
  else
    validateAxisMotion (solution.take A.count) A.intervals (max 0 (vec solution A.speedIndex))
      (max 0 (vec solution A.accelerationIndex))
    return A.lock k optimum { st with origins := canonical.map Prod.fst }

/-- The state after the first `k` passes. -/
def runPasses (linprog : Linprog K) : ℕ → Except PlanError (PassState K)
  | 0 => return A.initialState
  | k + 1 => do
    let st ← runPasses linprog k
    A.solvePass linprog k st

/-- The objective value that the optimizer reports in a pass, if that pass is reached. -/
def reportedOptimum (linprog : Linprog K) (k : ℕ) : Option K :=
  match A.runPasses linprog k with
  | .error _ => none
  | .ok st =>
    match linprog ⟨A.horizontal, k⟩ (A.program k st) with
    | .error _ => none
    | .ok result => result.optimum

/-- `_solve_axis`, after the legal intervals. -/
def solve (linprog : Linprog K) : Except PlanError (List K) :=
  match A.crops, A.legal with
  | [crop], [item] =>
    -- a single frame keeps its legal seed origin
    let origin := crop.origin A.horizontal
    if item.originLower ≤ origin ∧ origin ≤ item.originUpper then return [origin]
    else do
      let canonical ← A.canonicalOrigins A.seedCenters
      return canonical.map Prod.fst
  | _, _ => do
    let st ← A.runPasses linprog 6
    return st.origins

end AxisProblem

/-! ## The planner -/

structure LookaheadCropPlanner where
  seedPlanner : DeterministicCropPlanner

namespace LookaheadCropPlanner

variable (P : LookaheadCropPlanner)

/-- The source extent of an axis. -/
def source (horizontal : Bool) : ℤ :=
  if horizontal then P.seedPlanner.sourceWidth else P.seedPlanner.sourceHeight

/-- A sampled box no larger than the seed crop constrains the camera. -/
def feasible (measurement : FrameMeasurement K) (crop : CropRect K) : Bool :=
  measurement.detectionSampled && measurement.detectorBounds.any fun box =>
    decide (box.width ≤ crop.width) && decide (box.height ≤ crop.height)

section Planning

variable [Elementary K]

/-- The legal interval of one frame in `_axis_intervals`. -/
def axisInterval (horizontal : Bool) (crop : CropRect K) (measurement : FrameMeasurement K)
    (possible : Bool) : Except PlanError (AxisInterval K) :=
  let source : K := P.source horizontal
  let extent := crop.extent horizontal
  let upper := source - extent
  let upper := if upper + extent > source then Elementary.nextDown upper else upper
  let interval := match possible, measurement.detectorBounds with
    | true, some box =>
      let far := box.far horizontal
      let lower := max 0 (far - extent)
      (if lower + extent < far then Elementary.nextUp lower else lower,
        min upper (box.near horizontal))
    | _, _ => (0, upper)
  if interval.1 > interval.2 then
    .error (.plannerError "Sampled detector has an empty legal center interval.")
  else
    .ok ⟨interval.1, interval.2, (interval.1 + extent / 2) / source,
      (interval.2 + extent / 2) / source⟩

/-- `_axis_intervals` -/
def axisIntervals (crops : List (CropRect K)) (measurements : List (FrameMeasurement K))
    (possible : List Bool) (horizontal : Bool) : Except PlanError (List (AxisInterval K)) :=
  (crops.zip (measurements.zip possible)).mapM fun (crop, measurement, possible) =>
    P.axisInterval horizontal crop measurement possible

/-- The axis problem that `_solve_axis` sets up. -/
def axisProblem (crops : List (CropRect K)) (measurements : List (FrameMeasurement K))
    (possible : List Bool) (intervals : List K) (horizontal : Bool) :
    Except PlanError (AxisProblem K) := do
  let legal ← P.axisIntervals crops measurements possible horizontal
  return ⟨horizontal, P.source horizontal, crops, legal, intervals⟩

/-- `_solve_axis` -/
def solveAxis (linprog : Linprog K) (crops : List (CropRect K))
    (measurements : List (FrameMeasurement K)) (possible : List Bool) (intervals : List K)
    (horizontal : Bool) : Except PlanError (List K) := do
  let problem ← P.axisProblem crops measurements possible intervals horizontal
  problem.solve linprog

end Planning

/-- The crop fails `_validate_geometry`. -/
def invalidGeometry (crop : CropRect K) : Prop :=
  crop.width ≤ 0 ∨ crop.height ≤ 0 ∨
    ¬ (0 ≤ crop.x ∧ crop.x < crop.right ∧ crop.right ≤ P.seedPlanner.sourceWidth) ∨
    ¬ (0 ≤ crop.y ∧ crop.y < crop.bottom ∧ crop.bottom ≤ P.seedPlanner.sourceHeight) ∨
    isclose (crop.width / crop.height) P.seedPlanner.aspectRatio.valueFloat
      solverFeasibilityTolerance 0 = false

instance (crop : CropRect K) : Decidable (P.invalidGeometry crop) :=
  inferInstanceAs (Decidable (_ ∨ _))

/-- `_validate_geometry` -/
def validateGeometry (crops : List (CropRect K)) : Except PlanError Unit :=
  if ∃ crop ∈ crops, P.invalidGeometry crop then
    .error (.plannerError "Crop path has invalid source/aspect geometry.")
  else .ok ()

/-- A box of non-positive size. -/
def invalidBox (measurement : FrameMeasurement K) : Prop :=
  ∃ box ∈ measurement.detectorBounds, box.width ≤ 0 ∨ box.height ≤ 0

instance (measurement : FrameMeasurement K) : Decidable (invalidBox measurement) := by
  unfold invalidBox
  cases measurement.detectorBounds with
  | none => exact isFalse (by simp)
  | some box => exact decidable_of_iff (box.width ≤ 0 ∨ box.height ≤ 0) (by simp)

/-- A sampled box that does not fit a seed crop of a frame that is not limited. -/
def rejectedSample (measurement : FrameMeasurement K) (crop : CropRect K)
    (trace : PlannerFrameTrace K) : Bool :=
  measurement.detectionSampled && measurement.detectorBounds.isSome &&
    !feasible measurement crop && !trace.sourceAspectLimited

/-- The frames whose sampled box constrains the camera. -/
def possible (measurements : List (FrameMeasurement K)) (crops : List (CropRect K)) : List Bool :=
  List.zipWith feasible measurements crops

/-- The seed crops at the solved origins. -/
def moved (originsX originsY : List K) (crops : List (CropRect K)) : List (CropRect K) :=
  List.zipWith (fun origin crop => ⟨origin.1, origin.2, crop.width, crop.height⟩)
    (originsX.zip originsY) crops

/-- A box that constrains the camera and lies outside its crop. -/
def uncontained (crop : CropRect K) (measurement : FrameMeasurement K) (possible : Bool) : Bool :=
  possible && measurement.detectorBounds.any fun box => decide (¬ crop.Contains box)

/-- The seconds between consecutive measurements. -/
def intervals (measurements : List (FrameMeasurement K)) : List K :=
  List.zipWith (fun left right => ((right.timestampMs - left.timestampMs : ℤ) : K) / 1000)
    measurements measurements.tail

/-- `_limit_exceeded` -/
def limitExceeded (value limit : K) : Bool :=
  let boundary := limit + solverFeasibilityTolerance
  decide (value > boundary) && !isclose value boundary 0 1e-12

/-- The velocity of every interval of the crops' centers, on both axes. -/
def velocities (crops : List (CropRect K)) (intervals : List K) : List (K × K) :=
  List.zipWith (fun (previous, current) dt =>
      ((current.center.x - previous.center.x) / P.seedPlanner.sourceWidth / dt,
        (current.center.y - previous.center.y) / P.seedPlanner.sourceHeight / dt))
    (crops.zip crops.tail) intervals

/-- The greater magnitude of the two axes. -/
def magnitude (v : K × K) : K := max |v.1| |v.2|

/-- One record of `_traces`. -/
def frameTrace (crops : List (CropRect K)) (velocities : List (K × K)) (intervals : List K)
    (seedCrop : CropRect K) (index : ℕ) (crop : CropRect K) (measurement : FrameMeasurement K)
    (causal : PlannerFrameTrace K) : LookaheadPlannerFrameTrace K :=
  let velocity := if index = 0 then none else velocities[index - 1]?
  let acceleration : Option (K × K) :=
    if index ≥ 2 then
      match velocities[index - 2]?, velocities[index - 1]? with
      | some before, some after =>
        let dt := (vec intervals (index - 2) + vec intervals (index - 1)) / 2
        some ((after.1 - before.1) / dt, (after.2 - before.2) / dt)
      | _, _ => none
    else none
  let startAcceleration := match velocities.head? with
    | some v => if index = 0 then magnitude v * 2 / vec intervals 0 else 0
    | none => 0
  let boundaryAcceleration := match velocities.getLast? with
    | some v =>
      if index = crops.length - 1 then
        max startAcceleration (magnitude v * 2 / vec intervals (intervals.length - 1))
      else startAcceleration
    | none => startAcceleration
  let speed := (velocity.map magnitude).getD 0
  let accelerationMagnitude := max boundaryAcceleration ((acceleration.map magnitude).getD 0)
  let previous := if index = 0 then none else crops[index - 1]?
  let sampled := measurement.detectionSampled && measurement.detectorBounds.isSome
  { targetHeightFraction := causal.targetHeightFraction
    desiredCrop := causal.desiredCrop
    detectionMissed := causal.detectionMissed
    smoothingApplied := previous.any fun p => decide (crop ≠ p)
    containmentOverride := false
    sourceAspectLimited := causal.sourceAspectLimited
    action := if causal.sourceAspectLimited then .sourceAspectLimited
      else if index = 0 then .initial
      else if causal.detectionMissed then .widenOnMiss
      else if previous.any fun p => decide (crop.center ≠ p.center) then .lookaheadPan
      else .lookaheadHold
    observedHeightFraction := causal.observedHeightFraction
    scaleRelativeError := causal.scaleRelativeError
    scaleDeadbandApplied := causal.scaleDeadbandApplied
    scaleAdjusting := causal.scaleAdjusting
    lookaheadCenterAdjusted := decide (crop.center ≠ seedCrop.center)
    sampledDetectionConstraint := sampled
    sampledDetectionContained := if measurement.detectionSampled then
        measurement.detectorBounds.map fun box => decide (crop.Contains box)
      else none
    heldTargetContained := if measurement.detectionSampled then none
      else measurement.detectorBounds.map fun box => decide (crop.Contains box)
    panVelocityXSourcePerSecond := velocity.map Prod.fst
    panVelocityYSourcePerSecond := velocity.map Prod.snd
    panAccelerationXSourcePerSecond2 := acceleration.map Prod.fst
    panAccelerationYSourcePerSecond2 := acceleration.map Prod.snd
    panSpeedLimitExceeded := limitExceeded speed panMaxSpeed
    panAccelerationLimitExceeded := limitExceeded accelerationMagnitude panMaxAcceleration }

/-- `_traces` -/
def traces (crops : List (CropRect K)) (seed : CropPlan K (PlannerFrameTrace K))
    (measurements : List (FrameMeasurement K)) (intervals : List K) :
    List (LookaheadPlannerFrameTrace K) :=
  let velocities := P.velocities crops intervals
  (crops.zip (seed.crops.zip (measurements.zip seed.trace))).zipIdx.map
    fun ((crop, seedCrop, measurement, causal), index) =>
      frameTrace crops velocities intervals seedCrop index crop measurement causal

section Planning

variable [Elementary K]

/-- `LookaheadCropPlanner.plan` -/
def plan (linprog : Linprog K) (measurements : List (FrameMeasurement K)) :
    Except PlanError (CropPlan K (LookaheadPlannerFrameTrace K)) := do
  let seed ← P.seedPlanner.plan measurements
  if seed.crops = [] then return .ofFrames []
  else
    P.validateGeometry seed.crops
    if ∃ measurement ∈ measurements, invalidBox measurement then
      .error (.plannerError "Non-finite or non-positive detector geometry.")
    else
      let possible := possible measurements seed.crops
      if (measurements.zip (seed.crops.zip seed.trace)).any fun (m, c, t) => rejectedSample m c t
      then .error (.plannerError "Sampled detector cannot fit a non-limited seed crop.")
      else
        let dts := intervals measurements
        let originsX ← P.solveAxis linprog seed.crops measurements possible dts true
        let originsY ← P.solveAxis linprog seed.crops measurements possible dts false
        let crops := moved originsX originsY seed.crops
        P.validateGeometry crops
        if (crops.zip (measurements.zip possible)).any fun (c, m, p) => uncontained c m p then
          .error (.plannerError "Validated crop does not contain its sampled detector.")
        else CropPlan.make crops (P.traces crops seed measurements dts)

end Planning

end LookaheadCropPlanner

end BoulderFrame
