import BoulderFrame.Framing.Crop
import BoulderFrame.Framing.Motion
import BoulderFrame.Library.Outcome

/-!
# The causal crop planner

The planner reads the measurements in order. On a frame with a detector box it aims at a crop
around the box, behind two hysteresis gates; on a frame without one it widens toward the full
frame. The aimed-at crop is approached with bounded speed and acceleration, bounded by the full
frame, shifted into the source, and last corrected to contain the box.

## Main definitions

* `FrameMeasurement`, `PlannerFrameTrace`, `CropPlan`: the planner's input and output
* `DeterministicCropPlanner`: source size, aspect ratio and profile, the size positive
* `SeedState`: what is carried from frame to frame
* `DeterministicCropPlanner.adjust`, `DeterministicCropPlanner.contain`: motion and containment
* `DeterministicCropPlanner.frame`, `DeterministicCropPlanner.plan`: one frame, and all of them
-/

namespace BoulderFrame

structure FrameMeasurement (K : Type) where
  detectorBounds : Option (Rect K)
  timestampMs : ℤ
  confidence : K
  detectionSampled : Bool

/-- The decision recorded for a frame, by either planner. -/
inductive FrameAction
  | fullFrame
  | widenOnMiss
  | smoothed
  | deadbandHold
  | initial
  | sourceAspectLimited
  | containmentOverride
  | lookaheadPan
  | lookaheadHold
  deriving DecidableEq, Repr

structure PlannerFrameTrace (K : Type) where
  targetHeightFraction : K
  desiredCrop : CropRect K
  detectionMissed : Bool
  smoothingApplied : Bool
  containmentOverride : Bool
  sourceAspectLimited : Bool
  action : FrameAction
  observedHeightFraction : Option K
  scaleRelativeError : Option K
  centerErrorXFraction : Option K
  centerErrorYFraction : Option K
  scaleDeadbandApplied : Bool
  scaleAdjusting : Bool
  centerDeadbandApplied : Bool
  centerAdjusting : Bool

/-- Crops and trace records in frame order, equally many of both. -/
structure CropPlan (K T : Type) where
  crops : List (CropRect K)
  trace : List T
  length_eq : crops.length = trace.length

def CropPlan.ofFrames {K T : Type} (frames : List (CropRect K × T)) : CropPlan K T where
  crops := frames.map Prod.fst
  trace := frames.map Prod.snd
  length_eq := by simp

/-- `DeterministicCropPlanner.__init__` refuses any other source size. -/
structure DeterministicCropPlanner where
  sourceWidth : ℤ
  sourceHeight : ℤ
  aspectRatio : AspectRatio
  profile : FramingProfile
  sourceWidth_pos : 0 < sourceWidth
  sourceHeight_pos : 0 < sourceHeight

/-- The locals of `plan` that survive an iteration. -/
structure SeedState (K : Type) where
  previous : Option (CropRect K)
  previousTimestamp : Option ℤ
  velocities : K × K × K
  scaleAdjusting : Bool
  centerAdjusting : Bool

/-- The locals of an iteration after its branch on the detection. -/
structure Candidate (K : Type) where
  desired : CropRect K
  candidate : CropRect K
  velocities : K × K × K
  scaleAdjusting : Bool
  centerAdjusting : Bool
  observedFraction : Option K
  scaleError : Option K
  xError : Option K
  yError : Option K
  scaleHeld : Bool
  centerHeld : Bool
  smoothingApplied : Bool
  action : FrameAction

namespace DeterministicCropPlanner

variable {K : Type} [Field K] [LinearOrder K]

def zoomMaxSpeed : K := 0.5
def zoomMaxAcceleration : K := 1.0
def panMaxSpeed : K := 0.25
def panMaxAcceleration : K := 0.5
def scaleEnterFraction : K := 0.05
def scaleExitFraction : K := 0.02
def centerEnterFraction : K := 0.01
def centerExitFraction : K := 0.004

/-- The constructor of the class. -/
def make (sourceWidth sourceHeight : ℤ) (aspectRatio : AspectRatio) (profile : FramingProfile) :
    Except PlanError DeterministicCropPlanner :=
  if h : sourceWidth ≤ 0 ∨ sourceHeight ≤ 0 then
    .error (.valueError "source dimensions must be positive")
  else
    .ok ⟨sourceWidth, sourceHeight, aspectRatio, profile, by omega, by omega⟩

variable (P : DeterministicCropPlanner)

def targetHeightFraction : K := P.profile.targetHeightFraction

def fullFrame : CropRect K := fullFrameCrop P.sourceWidth P.sourceHeight P.aspectRatio

def clamp (crop : CropRect K) : Except PlanError (CropRect K) :=
  clampCrop crop P.sourceWidth P.sourceHeight

/-- The width of a crop of the given height; the full frame's is taken as it is. -/
def widthFor (height : K) : K :=
  if height = P.fullFrame.height then P.fullFrame.width else height * P.aspectRatio.valueFloat

/-- `_outside_deadband` -/
def outsideDeadband (error threshold : K) : Bool :=
  decide (|error| > threshold) && !isclose |error| threshold 1e-12 0

/-- `_desired_crop` -/
def desiredCrop (detection : Rect K) : Except PlanError (CropRect K) :=
  let height := min P.fullFrame.height (detection.height / P.targetHeightFraction)
  let width := height * P.aspectRatio.valueFloat
  let size := if width > P.fullFrame.width then (P.fullFrame.width, P.fullFrame.height)
    else (width, height)
  P.clamp (.centered detection.center size.1 size.2)

section Motion

variable [Elementary K]

/-- One pan axis of `_adjust`: center coordinate and velocity. -/
def pan (centerAdjusting : Bool) (center velocity target : K) (source : ℤ) (dt : K) : K × K :=
  if centerAdjusting ∨ velocity ≠ 0 then
    let moved := advanceMotion (center / source) velocity
      (if centerAdjusting then some (target / source) else none) dt panMaxSpeed panMaxAcceleration
    (moved.1 * source, moved.2)
  else (center, velocity)

/-- The zoom of `_adjust`: width, height and velocity. -/
def zoom (scaleAdjusting : Bool) (previous desired : CropRect K) (velocity dt : K) :
    Except PlanError (K × K × K) :=
  if scaleAdjusting ∨ velocity ≠ 0 then do
    let position ← checkedLog previous.height
    let targetHeight ← if scaleAdjusting then some <$> checkedLog desired.height else pure none
    let moved := advanceMotion position velocity targetHeight dt zoomMaxSpeed zoomMaxAcceleration
    if moved.1 ≠ position then
      let height := if targetHeight = some moved.1 then desired.height
        else Elementary.exp moved.1
      return (P.widthFor height, height, moved.2)
    else return (previous.width, previous.height, moved.2)
  else return (previous.width, previous.height, velocity)

/-- `_adjust` -/
def adjust (previous desired : CropRect K) (scaleAdjusting centerAdjusting : Bool)
    (velocities : K × K × K) (dt : K) : Except PlanError (CropRect K × (K × K × K)) :=
  if !scaleAdjusting && !centerAdjusting && velocities = (0, 0, 0) then
    return (previous, velocities)
  else do
    let (vx, vy, vz) := velocities
    let center := previous.center
    let target := desired.center
    let (x, vx) := pan centerAdjusting center.x vx target.x P.sourceWidth dt
    let (y, vy) := pan centerAdjusting center.y vy target.y P.sourceHeight dt
    let (width, height, vz) ← P.zoom scaleAdjusting previous desired vz dt
    return (⟨if x = center.x ∧ width = previous.width then previous.x else x - width / 2,
      if y = center.y ∧ height = previous.height then previous.y else y - height / 2,
      width, height⟩, (vx, vy, vz))

end Motion

/-- `_contain`: the corrected crop, and whether no crop of the aspect ratio can hold the box. -/
def contain (crop : CropRect K) (detection : Rect K) : Except PlanError (CropRect K × Bool) :=
  if crop.Contains detection then return (crop, false)
  else if detection.width > P.fullFrame.width ∨ detection.height > P.fullFrame.height then do
    let crop ← P.clamp (.centered detection.center P.fullFrame.width P.fullFrame.height)
    return (crop, true)
  else do
    let requiredHeight :=
      max (max crop.height detection.height) (detection.width / P.aspectRatio.valueFloat)
    let height := min requiredHeight P.fullFrame.height
    let width := if height = crop.height then crop.width else height * P.aspectRatio.valueFloat
    let x := max (min crop.x detection.x) (detection.right - width)
    let y := max (min crop.y detection.y) (detection.bottom - height)
    let crop ← P.clamp ⟨x, y, width, height⟩
    return (crop, false)

/-- The seconds since the previous frame; timestamps must not be negative and must increase. -/
def elapsed (previousTimestamp : Option ℤ) (timestamp : ℤ) : Except PlanError K :=
  if timestamp < 0 then
    .error (.valueError "measurement timestamp_ms must be a non-negative integer")
  else
    match previousTimestamp with
    | none => .ok 0
    | some previous =>
      if timestamp ≤ previous then
        .error (.valueError "measurement timestamps must be strictly increasing")
      else .ok (((timestamp - previous : ℤ) : K) / 1000)

section Frame

variable [Elementary K]

/-- A frame without a box: pan and inward zoom stop, and the crop widens in place. -/
def missCandidate (st : SeedState K) (dt : K) : Except PlanError (Candidate K) :=
  match st.previous with
  | none => return {
      desired := P.fullFrame, candidate := P.fullFrame, velocities := st.velocities
      scaleAdjusting := false, centerAdjusting := false
      observedFraction := none, scaleError := none, xError := none, yError := none
      scaleHeld := false, centerHeld := false, smoothingApplied := false, action := .fullFrame }
  | some previous => do
    let desired := .centered previous.center P.fullFrame.width P.fullFrame.height
    let (candidate, velocities) ←
      P.adjust previous desired true false (0, 0, max 0 st.velocities.2.2) dt
    return {
      desired, candidate, velocities, scaleAdjusting := false, centerAdjusting := false
      observedFraction := none, scaleError := none, xError := none, yError := none
      scaleHeld := false, centerHeld := false, smoothingApplied := candidate ≠ previous
      action := .widenOnMiss }

/-- A frame with a box: the gates open and close on the errors relative to the previous crop. -/
def detectedCandidate (st : SeedState K) (detection : Rect K) (dt : K) :
    Except PlanError (Candidate K) := do
  let desired ← P.desiredCrop detection
  match st.previous with
  | none => return {
      desired, candidate := desired, velocities := st.velocities
      scaleAdjusting := st.scaleAdjusting, centerAdjusting := st.centerAdjusting
      observedFraction := none, scaleError := none, xError := none, yError := none
      scaleHeld := false, centerHeld := false, smoothingApplied := false, action := .initial }
  | some previous =>
    let observedFraction ← divide detection.height previous.height
    let scaleError := observedFraction / P.targetHeightFraction - 1
    let xError ← divide (desired.center.x - previous.center.x) previous.width
    let yError ← divide (desired.center.y - previous.center.y) previous.height
    let scaleThreshold := if st.scaleAdjusting then scaleExitFraction else scaleEnterFraction
    let centerThreshold := if st.centerAdjusting then centerExitFraction else centerEnterFraction
    let scaleAdjusting := outsideDeadband scaleError scaleThreshold
    let centerAdjusting :=
      outsideDeadband xError centerThreshold || outsideDeadband yError centerThreshold
    let smoothingApplied := scaleAdjusting || centerAdjusting || st.velocities ≠ (0, 0, 0)
    let (candidate, velocities) ←
      P.adjust previous desired scaleAdjusting centerAdjusting st.velocities dt
    return {
      desired, candidate, velocities, scaleAdjusting, centerAdjusting
      observedFraction, scaleError, xError, yError
      scaleHeld := !scaleAdjusting, centerHeld := !centerAdjusting, smoothingApplied
      action := if smoothingApplied then .smoothed else .deadbandHold }

/-- The branch of `plan` on the detection. -/
def candidate (st : SeedState K) (detection : Option (Rect K)) (dt : K) :
    Except PlanError (Candidate K) :=
  match detection with
  | none => P.missCandidate st dt
  | some detection => P.detectedCandidate st detection dt

/-- A candidate larger than the full frame becomes a full frame with the same center. -/
def bounded (candidate : CropRect K) : CropRect K :=
  if candidate.width > P.fullFrame.width ∨ candidate.height > P.fullFrame.height then
    .centered candidate.center P.fullFrame.width P.fullFrame.height
  else candidate

/-- The bounded candidate, shifted into the source and over the box. -/
def corrected (candidate : CropRect K) (detection : Option (Rect K)) :
    Except PlanError (CropRect K × Bool) := do
  let crop ← P.clamp (P.bounded candidate)
  match detection with
  | none => return (crop, false)
  | some detection => P.contain crop detection

/-- Only corrected components lose their velocity. -/
def synchronized (candidate crop : CropRect K) (velocities : K × K × K) : K × K × K :=
  if crop = candidate then velocities
  else
    (if crop.center.x = candidate.center.x then velocities.1 else 0,
      if crop.center.y = candidate.center.y then velocities.2.1 else 0,
      if crop.height = candidate.height then velocities.2.2 else 0)

/-- One iteration of the loop in `plan`: the frame's crop and trace, and the state after it. -/
def frame (st : SeedState K) (measurement : FrameMeasurement K) :
    Except PlanError ((CropRect K × PlannerFrameTrace K) × SeedState K) := do
  let dt ← elapsed st.previousTimestamp measurement.timestampMs
  let c ← P.candidate st measurement.detectorBounds dt
  let (crop, sourceAspectLimited) ← P.corrected c.candidate measurement.detectorBounds
  let contained := decide (crop ≠ c.candidate) && !sourceAspectLimited
  let trace := {
    targetHeightFraction := P.targetHeightFraction
    desiredCrop := c.desired
    detectionMissed := measurement.detectorBounds.isNone
    smoothingApplied := c.smoothingApplied
    containmentOverride := contained
    sourceAspectLimited
    action := if sourceAspectLimited then .sourceAspectLimited
      else if contained then .containmentOverride else c.action
    observedHeightFraction := c.observedFraction
    scaleRelativeError := c.scaleError
    centerErrorXFraction := c.xError
    centerErrorYFraction := c.yError
    scaleDeadbandApplied := c.scaleHeld
    scaleAdjusting := c.scaleAdjusting
    centerDeadbandApplied := c.centerHeld
    centerAdjusting := c.centerAdjusting }
  return ((crop, trace), {
    previous := crop
    previousTimestamp := measurement.timestampMs
    velocities := synchronized c.candidate crop c.velocities
    scaleAdjusting := c.scaleAdjusting
    centerAdjusting := c.centerAdjusting })

/-- The loop of `plan`. -/
def planFrom : SeedState K → List (FrameMeasurement K) →
    Except PlanError (List (CropRect K × PlannerFrameTrace K))
  | _, [] => return []
  | st, measurement :: rest => do
    let (frame, st) ← P.frame st measurement
    let frames ← planFrom st rest
    return frame :: frames

def initialState : SeedState K where
  previous := none
  previousTimestamp := none
  velocities := (0, 0, 0)
  scaleAdjusting := false
  centerAdjusting := false

/-- `DeterministicCropPlanner.plan` -/
def plan (measurements : List (FrameMeasurement K)) :
    Except PlanError (CropPlan K (PlannerFrameTrace K)) := do
  let frames ← P.planFrom initialState measurements
  return .ofFrames frames

end Frame

end DeterministicCropPlanner

end BoulderFrame
