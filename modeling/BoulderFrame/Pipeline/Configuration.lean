import BoulderFrame.Debug.Sanitize
import BoulderFrame.Domain.Errors
import BoulderFrame.Domain.Uuid
import BoulderFrame.Framing.Lookahead

/-!
# The configuration of a job, as the pipeline reads it

The snapshot of a job holds JSON values. The pipeline accepts one planner configuration only, apart
from the rate at which frames are sampled.

## Main definitions

* `Snapshot`: the configuration of a job
* `plannerConfiguration`: the sampling rate of an accepted planner configuration
-/

namespace BoulderFrame

/-- `JobConfiguration`, as the pipeline reads it. -/
structure Snapshot (K : Type) where
  sourceAssetId : Uuid
  targetSelection : List (String × Value K)
  output : List (String × Value K)
  pipelineVersion : String
  modelVersion : String
  planner : List (String × Value K)

/-- The texts of the accepted planner configuration. -/
def plannerTexts : List (String × String) :=
  [("controller", "lookahead-v2"), ("seed_controller", "deterministic-v3"),
    ("optimizer", "scipy-highs-ds"), ("lookahead_scope", "full_shot"),
    ("containment_policy", "sampled_detections")]

variable {K : Type} [Field K] [LinearOrder K]

/-- Its numbers. -/
def plannerNumbers : List (String × K) :=
  [("solver_feasibility_tolerance", LookaheadCropPlanner.solverFeasibilityTolerance),
    ("scale_enter_fraction", DeterministicCropPlanner.scaleEnterFraction),
    ("scale_exit_fraction", DeterministicCropPlanner.scaleExitFraction),
    ("center_enter_fraction", DeterministicCropPlanner.centerEnterFraction),
    ("center_exit_fraction", DeterministicCropPlanner.centerExitFraction),
    ("zoom_max_speed", DeterministicCropPlanner.zoomMaxSpeed),
    ("zoom_max_acceleration", DeterministicCropPlanner.zoomMaxAcceleration),
    ("pan_max_speed", LookaheadCropPlanner.panMaxSpeed),
    ("pan_max_acceleration", LookaheadCropPlanner.panMaxAcceleration),
    ("pan_dead_zone_fraction", LookaheadCropPlanner.panDeadZoneFraction)]

/-- The names of its fields. -/
def plannerFields (K : Type) [Field K] : List String :=
  plannerTexts.map Prod.fst ++ (plannerNumbers (K := K)).map Prod.fst ++ ["detection_sample_fps"]

/-- `_planner_configuration` -/
def plannerConfiguration (settings : List (String × Value K)) : Except Raised (Value K) :=
  let setting := (Value.dict settings).get
  let sampleFps := setting "detection_sample_fps"
  let valid :=
    settings.all (fun f => decide (f.1 ∈ plannerFields K)) &&
      (plannerFields K).all (fun key => decide (key ∈ settings.map Prod.fst)) &&
      plannerTexts.all (fun expected => (setting expected.1).isText expected.2) &&
      plannerNumbers.all (fun expected => decide ((setting expected.1).toNumber = some expected.2)) &&
      sampleFps.toNumber.any fun fps => decide (0 ≤ fps) && decide (fps ≤ 1000)
  if valid then .ok sampleFps
  else .error (.worker (.terminal .internal "The job planner configuration is invalid." none))

end BoulderFrame
