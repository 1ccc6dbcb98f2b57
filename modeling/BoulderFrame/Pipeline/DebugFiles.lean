import BoulderFrame.Pipeline.AnalysisTrace
import BoulderFrame.Pipeline.ReviewManifest

/-!
# The files of a review

The publication of a review starts with its telemetry bundle and its manifest. The videos are
optional, the manifest is not: without valid inputs there is none, and nothing is published.

## Main definitions

* `reviewVideos`: the records and the phases that the manifest sums up
* `debugFiles`: the telemetry bundle and the manifest
-/

namespace BoulderFrame

namespace ProcessingPipeline

variable {K : Type} [Field K] [LinearOrder K]

/-- The renderer of the review: it reports its phases or raises. -/
abbrev ReviewVideos (K : Type) :=
  MediaMetadata → List (Value K) → Except Raised (List (String × Value K))

/-- The records of the trace, and the phases of the review: what fails is left out. -/
def reviewVideos (renderer : Option (ReviewVideos K)) (inputs : Option PublishInputs)
    (analysisTrace : Option (List (Value K))) : List (Value K) × List (String × Value K) :=
  match inputs, renderer, analysisTrace with
  | some inputs, some render, some lines =>
    match loadAnalysisRecords inputs.metadata lines with
    | .error _ => ([], [])
    | .ok records =>
      match render inputs.metadata records with
      | .error _ => (records, [])
      | .ok phases => (records, phases)
  | _, _, _ => ([], [])

/-- `publish_debug`, up to the uploads: the telemetry bundle and the manifest. -/
def debugFiles (floatOf : ℚ → Option K) (bundleSize : LinesSize K) (renderer : Option (ReviewVideos K))
    (jobId sourceId reviewId : Uuid) (configuration : Snapshot K) (inputs : Option PublishInputs)
    (stageTrace : List (Value K)) (analysisTrace : Option (List (Value K)))
    (maxFrames maxBytes : ℤ) : Except Raised (List (Value K) × Value K) := do
  let bundle ← writeTelemetry bundleSize jobId sourceId configuration inputs stageTrace
    (analysisTrace.getD []) maxFrames maxBytes
  let (reviewTrace, reviewPhases) := reviewVideos renderer inputs analysisTrace
  let manifest ← writeReviewManifest floatOf reviewId reviewTrace reviewPhases
    configuration.pipelineVersion configuration.modelVersion (inputs.map (·.metadata))
  .ok (bundle, manifest)

end ProcessingPipeline

end BoulderFrame
