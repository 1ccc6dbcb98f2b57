import BoulderFrame.Framing.SeedSafety
import BoulderFrame.Library.Rounding

/-!
# The person detector

The detector letterboxes a frame into the model's input square and maps the model's rows back into
source pixels. Whatever the model returns, the boxes have positive size and lie inside the frame.

## Main definitions

* `OnnxYolo26Detector.detect`: the detections that a model output is decoded to

## Main results

* `OnnxYolo26Detector.detect_legal`: every decoded box has positive size and lies in the frame
-/

namespace BoulderFrame

structure Detection (K : Type) where
  bounds : Rect K
  confidence : K

/-- A row of the model's output, if all of its entries are finite. -/
structure Prediction (K : Type) where
  left : K
  top : K
  right : K
  bottom : K
  score : K
  label : K

inductive DetectorError
  | valueError (message : String)
  | modelVerification (message : String)
  deriving DecidableEq, Repr

namespace OnnxYolo26Detector

variable {K : Type} [Field K] [LinearOrder K] [FloorRing K]

/-- Person rows with a score between the threshold and one. -/
def accepted (scoreThreshold : K) (row : Prediction K) : Bool :=
  decide (row.label = 0) && decide (row.score ≥ scoreThreshold) && decide (row.score ≤ 1)

/-- A model coordinate in source pixels, inside the frame. -/
def sourcePixel (value : K) (pad : ℤ) (scale : K) (size : ℤ) : K :=
  max 0 (min ((value - pad) / scale) size)

/-- The box of a row, if it is not empty. -/
def decode (width height : ℤ) (row : Prediction K) : Option (Detection K) :=
  let scale : K := min (640 / width) (640 / height)
  let resizedWidth := max 1 (roundHalfEven (width * scale))
  let resizedHeight := max 1 (roundHalfEven (height * scale))
  let leftPad := (640 - resizedWidth) / 2
  let topPad := (640 - resizedHeight) / 2
  let x := sourcePixel row.left leftPad scale width
  let y := sourcePixel row.top topPad scale height
  let right := sourcePixel row.right leftPad scale width
  let bottom := sourcePixel row.bottom topPad scale height
  if right > x ∧ bottom > y then some ⟨⟨x, y, right - x, bottom - y⟩, row.score⟩ else none

/-- `detect`, for a frame of the given size and the rows that the model returns on it. A row with
an entry that is not finite is `none`. -/
def detect (scoreThreshold : K) (width height : ℤ) (rows : List (Option (Prediction K))) :
    Except DetectorError (List (Detection K)) :=
  if height ≤ 0 ∨ width ≤ 0 then
    .error (.valueError "person detector requires non-empty frame dimensions")
  else if rows.length ≠ 300 then
    .error (.modelVerification "person detector returned an unexpected output shape")
  else
    .ok (((rows.filterMap id).filter (accepted scoreThreshold)).filterMap (decode width height))

omit [FloorRing K] in
theorem sourcePixel_mem [IsStrictOrderedRing K] {value scale : K} {pad size : ℤ} (h : 0 < size) :
    0 ≤ sourcePixel value pad scale size ∧ sourcePixel value pad scale size ≤ size := by
  have hsize : (0 : K) ≤ size := by exact_mod_cast h.le
  exact ⟨le_max_left _ _, max_le hsize (min_le_right _ _)⟩

/-- **Decoded boxes** have positive size and lie inside the frame, for every model output. -/
theorem detect_legal {P : DeterministicCropPlanner} {scoreThreshold : ℝ}
    {rows : List (Option (Prediction ℝ))} {detections : List (Detection ℝ)}
    (h : detect scoreThreshold P.sourceWidth P.sourceHeight rows = .ok detections) :
    ∀ d ∈ detections, P.LegalBox d.bounds := by
  obtain ⟨-, h⟩ := Except.ok_of_guard h
  obtain ⟨-, h⟩ := Except.ok_of_guard h
  obtain rfl := Except.ok.inj h
  intro d hd
  obtain ⟨row, -, hrow⟩ := List.mem_filterMap.mp hd
  simp only [decode, Option.ite_none_right_eq_some, Option.some.injEq] at hrow
  obtain ⟨⟨hx, hy⟩, rfl⟩ := hrow
  have hw := P.sourceWidth_pos
  have hh := P.sourceHeight_pos
  exact {
    width_pos := sub_pos.mpr hx
    height_pos := sub_pos.mpr hy
    x_nonneg := (sourcePixel_mem hw).1
    right_le := (add_sub_cancel _ _).trans_le (sourcePixel_mem hw).2
    y_nonneg := (sourcePixel_mem hh).1
    bottom_le := (add_sub_cancel _ _).trans_le (sourcePixel_mem hh).2 }

end OnnxYolo26Detector

end BoulderFrame
