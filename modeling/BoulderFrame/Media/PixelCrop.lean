import BoulderFrame.Framing.Crop
import BoulderFrame.Library.Image
import BoulderFrame.Library.Value
import BoulderFrame.Media.Metadata

/-!
# Crops of pixels

A planned crop is a rectangle of real numbers. Before a video is rendered, the crops are checked
against its metadata; each frame is then cut along whole pixels, from the integer parts of the
origin and of the size. The origin and the size are truncated apart, so that the rectangle that is
cut out ends one pixel before the last whole pixel of the crop where their fractions add up to one.

## Main definitions

* `invalidRect`, `invalidCrop`, `validateCropPath`: the check of the crops of a video
* `PixelRect`, `cutOut`: the rectangle of whole pixels of a crop
* `cropAndResizeFrame`: one frame, cut and resized

## Main results

* `validCrop_iff`: what the check accepts
* `cropAndResizeFrame_ok_iff`: which crops of a frame are cut
* `cutOut_containment`: which pixels of a box in a crop are cut out with it
-/

/-- `int`, of a float; none if it raises. -/
def FloatValue.toInt? {K : Type} [Field K] [LinearOrder K] [FloorRing K] : FloatValue K → Option ℤ
  | .finite value => some (truncate value)
  | .infinite _ => none
  | .nan => none

namespace BoulderFrame

namespace CropRect

variable {K : Type}

/-- The crop of four finite numbers. -/
def finite? : CropRect (FloatValue K) → Option (CropRect K)
  | ⟨.finite x, .finite y, .finite width, .finite height⟩ => some ⟨x, y, width, height⟩
  | _ => none

/-- A crop of numbers as one of floats. -/
def floats (crop : CropRect K) : CropRect (FloatValue K) :=
  ⟨.finite crop.x, .finite crop.y, .finite crop.width, .finite crop.height⟩

end CropRect

/-! ## The check of the crops -/

section Validate

variable {K : Type} [Field K] [LinearOrder K]

/-- The crop is empty, not inside the display, or not of the output's shape. -/
def invalidRect (metadata : MediaMetadata) (aspectRatio : AspectRatio) (crop : CropRect K) : Prop :=
  crop.width ≤ 0 ∨ crop.height ≤ 0 ∨ crop.x < 0 ∨ crop.y < 0 ∨
    metadata.displayDimensions.1 < crop.right ∨ metadata.displayDimensions.2 < crop.bottom ∨
    isclose (crop.width / crop.height)
      ((outputDimensions aspectRatio).1 / (outputDimensions aspectRatio).2) 1e-6 0 = false

instance (metadata : MediaMetadata) (aspectRatio : AspectRatio) (crop : CropRect K) :
    Decidable (invalidRect metadata aspectRatio crop) := inferInstanceAs (Decidable (_ ∨ _))

/-- The crop is not of finite numbers, or they are invalid. -/
def invalidCrop (metadata : MediaMetadata) (aspectRatio : AspectRatio)
    (crop : CropRect (FloatValue K)) : Prop :=
  ∀ c ∈ crop.finite?, invalidRect metadata aspectRatio c

instance (metadata : MediaMetadata) (aspectRatio : AspectRatio)
    (crop : CropRect (FloatValue K)) : Decidable (invalidCrop metadata aspectRatio crop) :=
  inferInstanceAs (Decidable (∀ _ ∈ _, _))

/-- `_validate_crop_path` -/
def validateCropPath (cropPath : List (CropRect (FloatValue K))) (metadata : MediaMetadata)
    (aspectRatio : AspectRatio) : Except Raised Unit :=
  if (cropPath.length : ℤ) ≠ metadata.expectedFrameCount then
    .error (.worker
      (.terminal .invalidOutput "Planned crop path does not cover the source video." none))
  else if ∃ crop ∈ cropPath, invalidCrop metadata aspectRatio crop then
    .error (.worker (.terminal .invalidOutput "Planned crop path is invalid." none))
  else .ok ()

/-- A crop that the check accepts. -/
structure ValidCrop (metadata : MediaMetadata) (aspectRatio : AspectRatio) (crop : CropRect K) :
    Prop where
  width_pos : 0 < crop.width
  height_pos : 0 < crop.height
  x_nonneg : 0 ≤ crop.x
  y_nonneg : 0 ≤ crop.y
  right_le : crop.right ≤ metadata.displayDimensions.1
  bottom_le : crop.bottom ≤ metadata.displayDimensions.2
  aspect : isclose (crop.width / crop.height)
    ((outputDimensions aspectRatio).1 / (outputDimensions aspectRatio).2 : K) 1e-6 0 = true

variable {metadata : MediaMetadata} {aspectRatio : AspectRatio}

theorem validCrop_iff {crop : CropRect (FloatValue K)} :
    ¬ invalidCrop metadata aspectRatio crop ↔
      ∃ c, crop.finite? = some c ∧ ValidCrop metadata aspectRatio c := by
  have hrect : ∀ c : CropRect K, ¬ invalidRect metadata aspectRatio c ↔
      ValidCrop metadata aspectRatio c := by
    intro c
    simp only [invalidRect, not_or, not_le, not_lt, Bool.not_eq_false]
    constructor
    · rintro ⟨hw, hh, hx, hy, hr, hb, ha⟩
      exact ⟨hw, hh, hx, hy, hr, hb, ha⟩
    · rintro ⟨hw, hh, hx, hy, hr, hb, ha⟩
      exact ⟨hw, hh, hx, hy, hr, hb, ha⟩
  simp only [invalidCrop, not_forall, exists_prop, hrect, Option.mem_def]

/-- **The crop paths that are accepted**: one valid crop for each expected frame. -/
theorem validateCropPath_eq_ok {cropPath : List (CropRect (FloatValue K))} :
    validateCropPath cropPath metadata aspectRatio = .ok () ↔
      (cropPath.length : ℤ) = metadata.expectedFrameCount ∧
        ∀ crop ∈ cropPath, ∃ c, crop.finite? = some c ∧ ValidCrop metadata aspectRatio c := by
  unfold validateCropPath
  split_ifs with hlength hinvalid
  · exact iff_of_false (fun h => nomatch h) fun h => hlength h.1
  · obtain ⟨crop, hmem, hcrop⟩ := hinvalid
    exact iff_of_false (fun h => nomatch h) fun h => validCrop_iff.mpr (h.2 crop hmem) hcrop
  · exact iff_of_true rfl ⟨not_not.mp hlength,
      fun crop hmem => validCrop_iff.mp fun hcrop => hinvalid ⟨crop, hmem, hcrop⟩⟩

end Validate

/-! ## The cut of a frame -/

/-- A pixel: blue, green and red. -/
structure Bgr where
  blue : UInt8
  green : UInt8
  red : UInt8
  deriving DecidableEq, Repr

def unrenderableFrames : Raised :=
  .worker (.terminal .invalidMedia "Video frames could not be rendered consistently." none)

/-- A rectangle of whole pixels. -/
structure PixelRect where
  x : ℤ
  y : ℤ
  width : ℤ
  height : ℤ
  deriving DecidableEq, Repr

/-- The whole pixel in a column and a row lies in the rectangle. -/
def PixelRect.Has (r : PixelRect) (column row : ℤ) : Prop :=
  (r.x ≤ column ∧ column < r.x + r.width) ∧ r.y ≤ row ∧ row < r.y + r.height

/-- What `cv2.resize` raises that `crop_and_resize_frame` handles: `cv2.error`, `TypeError` and
`ValueError`. -/
def Raised.isResizeError : Raised → Bool
  | .valueError _ => true
  | .other name => name == "error" || name == "TypeError"
  | _ => false

section Cut

variable {K : Type} [Field K] [LinearOrder K] [FloorRing K]

/-- The integer parts of the origin and of the size; none if a number is not finite. -/
def cutOut (crop : CropRect (FloatValue K)) : Option PixelRect := do
  pure ⟨← crop.x.toInt?, ← crop.y.toInt?, ← crop.width.toInt?, ← crop.height.toInt?⟩

/-- `crop_and_resize_frame`, of an array of 8-bit colors (or something else, if none). What
`cv2.resize` returns is none if it is no such array. -/
def cropAndResizeFrame (resize : Image Bgr → ℤ × ℤ → Except Raised (Option (Image Bgr)))
    (pixels : Option (Image Bgr)) (crop : CropRect (FloatValue K)) (outputSize : ℤ × ℤ) :
    Except Raised (Image Bgr) :=
  match pixels with
  | none => .error unrenderableFrames
  | some pixels => match cutOut crop with
    | none => .error unrenderableFrames
    | some ⟨x, y, width, height⟩ =>
      let (outputWidth, outputHeight) := outputSize
      if min x y < 0 ∨ min (min width height) (min outputWidth outputHeight) ≤ 0 ∨
          pixels.width < x + width ∨ pixels.height < y + height then .error unrenderableFrames
      else
        let sourceCrop := pixels.slice y (y + height) x (x + width)
        if ¬ sourceCrop.Nonempty then .error unrenderableFrames
        else match resize sourceCrop (outputWidth, outputHeight) with
          | .error e => if e.isResizeError then .error unrenderableFrames else .error e
          | .ok none => .error unrenderableFrames
          | .ok (some resized) =>
            if (resized.height : ℤ) ≠ outputHeight ∨ (resized.width : ℤ) ≠ outputWidth then
              .error unrenderableFrames
            else .ok resized

/-- `cv2.resize` returns an array of colors of the requested size. -/
def FrameResizes (resize : Image Bgr → ℤ × ℤ → Except Raised (Option (Image Bgr))) : Prop :=
  ∀ image width height, image.Nonempty → 0 < width → 0 < height →
    ∃ resized, resize image (width, height) = .ok (some resized) ∧ (resized.width : ℤ) = width ∧
      (resized.height : ℤ) = height

/-- The rectangle of a crop of numbers that are not negative. -/
theorem cutOut_floats {crop : CropRect K} (hx : 0 ≤ crop.x) (hy : 0 ≤ crop.y)
    (hwidth : 0 ≤ crop.width) (hheight : 0 ≤ crop.height) :
    cutOut crop.floats = some ⟨⌊crop.x⌋, ⌊crop.y⌋, ⌊crop.width⌋, ⌊crop.height⌋⟩ := by
  simp only [cutOut, CropRect.floats, FloatValue.toInt?, truncate_of_nonneg hx,
    truncate_of_nonneg hy, truncate_of_nonneg hwidth, truncate_of_nonneg hheight]
  rfl

/-- The integer parts of an origin and of a size end where the crop does, or before. -/
theorem floor_add_floor_le [IsStrictOrderedRing K] {a b : K} {n : ℕ} (h : a + b ≤ n) :
    ⌊a⌋ + ⌊b⌋ ≤ n := by
  have hfloor := (Int.le_floor_add a b).trans (Int.floor_le_floor h)
  rwa [Int.floor_natCast] at hfloor

/-- A rectangle inside an image, cut out of it. -/
theorem slice_size {image : Image Bgr} {r : PixelRect} (hx : 0 ≤ r.x) (hy : 0 ≤ r.y)
    (hwidth : 0 ≤ r.width) (hheight : 0 ≤ r.height) (hright : r.x + r.width ≤ image.width)
    (hbottom : r.y + r.height ≤ image.height) :
    ((image.slice r.y (r.y + r.height) r.x (r.x + r.width)).height : ℤ) = r.height ∧
      ((image.slice r.y (r.y + r.height) r.x (r.x + r.width)).width : ℤ) = r.width := by
  simp only [Image.slice]
  rw [rangeIndex_of_le (by omega) hbottom, rangeIndex_of_le hy (by omega),
    rangeIndex_of_le (by omega) hright, rangeIndex_of_le hx (by omega)]
  omega

/-- **The crops of a frame that are cut**: of a crop inside the frame, those of at least one pixel
in both directions. -/
theorem cropAndResizeFrame_ok_iff [IsStrictOrderedRing K]
    {resize : Image Bgr → ℤ × ℤ → Except Raised (Option (Image Bgr))} (hresize : FrameResizes resize)
    {image : Image Bgr} {crop : CropRect K} {outputSize : ℤ × ℤ} (hx : 0 ≤ crop.x)
    (hy : 0 ≤ crop.y) (hwidth : 0 ≤ crop.width) (hheight : 0 ≤ crop.height)
    (hright : crop.right ≤ image.width) (hbottom : crop.bottom ≤ image.height)
    (houtput : 0 < outputSize.1 ∧ 0 < outputSize.2) :
    (∃ resized, cropAndResizeFrame resize (some image) crop.floats outputSize = .ok resized) ↔
      1 ≤ crop.width ∧ 1 ≤ crop.height := by
  have hx0 := Int.floor_nonneg.mpr hx
  have hy0 := Int.floor_nonneg.mpr hy
  have hw0 := Int.floor_nonneg.mpr hwidth
  have hh0 := Int.floor_nonneg.mpr hheight
  have hr := floor_add_floor_le hright
  have hb := floor_add_floor_le hbottom
  simp only [cropAndResizeFrame, cutOut_floats hx hy hwidth hheight]
  rw [← Int.floor_pos, ← Int.floor_pos (a := crop.height)]
  constructor
  · rintro ⟨resized, h⟩
    obtain ⟨hguard, -⟩ := Except.ok_of_guard h
    omega
  · rintro ⟨hw, hh⟩
    obtain ⟨hsh, hsw⟩ := @slice_size image
      ⟨⌊crop.x⌋, ⌊crop.y⌋, ⌊crop.width⌋, ⌊crop.height⌋⟩ hx0 hy0 hw0 hh0 hr hb
    dsimp only at hsh hsw
    have hnonempty : (image.slice ⌊crop.y⌋ (⌊crop.y⌋ + ⌊crop.height⌋) ⌊crop.x⌋
        (⌊crop.x⌋ + ⌊crop.width⌋)).Nonempty := ⟨by omega, by omega⟩
    obtain ⟨resized, hresized, hrw, hrh⟩ :=
      hresize _ outputSize.1 outputSize.2 hnonempty houtput.1 houtput.2
    rw [if_neg (by omega), if_neg (not_not.mpr hnonempty), hresized]
    exact ⟨resized, if_neg (by omega)⟩

end Cut

/-! ## The pixels of a box -/

section Containment

variable {K : Type} [Field K] [LinearOrder K]

/-- The whole pixel in a column and a row lies inside the box. -/
def Rect.HasPixel (box : Rect K) (column row : ℤ) : Prop :=
  (box.x ≤ column ∧ column + 1 ≤ box.right) ∧ box.y ≤ row ∧ row + 1 ≤ box.bottom

variable [FloorRing K] [IsStrictOrderedRing K]

/-- The whole pixels of a range from `near` to `far` end where the integer part of `far` does. -/
theorem pixel_of_pixel {near far : K} {i : ℤ} (h : near ≤ i ∧ (i : K) + 1 ≤ far) :
    i + 1 ≤ ⌊far⌋ ∧ near ≤ (⌊far⌋ - 1 : ℤ) ∧ ((⌊far⌋ - 1 : ℤ) : K) + 1 ≤ far := by
  have hi : i + 1 ≤ ⌊far⌋ := Int.le_floor.mpr (by exact_mod_cast h.2)
  have hcast : (i : K) ≤ (⌊far⌋ - 1 : ℤ) := by exact_mod_cast (by omega : i ≤ ⌊far⌋ - 1)
  refine ⟨hi, h.1.trans hcast, ?_⟩
  push_cast
  linarith [Int.floor_le far]

/-- In one direction, a box in a crop starts in what is cut out, and ends one pixel after it at
most. -/
theorem box_in_cut {x width near far : K} (hnear : x ≤ near) (hfar : far ≤ x + width) :
    (∀ i : ℤ, near ≤ i → ⌊x⌋ ≤ i) ∧ ⌊far⌋ ≤ ⌊x⌋ + ⌊width⌋ + 1 ∧
      (Int.fract x + Int.fract width < 1 → ⌊far⌋ ≤ ⌊x⌋ + ⌊width⌋) := by
  have hx := Int.floor_add_fract x
  have hwidth := Int.floor_add_fract width
  have hle := (Int.floor_le far).trans hfar
  refine ⟨fun i hi => ?_, ?_, fun hfract => ?_⟩
  · exact Int.floor_le_iff.mpr (by linarith)
  · have hlt : (⌊far⌋ : K) < (⌊x⌋ + ⌊width⌋ + 2 : ℤ) := by
      push_cast
      linarith [Int.fract_lt_one x, Int.fract_lt_one width]
    have := Int.cast_lt.mp hlt
    omega
  · have hlt : (⌊far⌋ : K) < (⌊x⌋ + ⌊width⌋ + 1 : ℤ) := by
      push_cast
      linarith
    have := Int.cast_lt.mp hlt
    omega

/-- **The pixels of a box in a crop.** Of a crop that is accepted, with at least one pixel in both
directions, a rectangle is cut out in which every box of the crop starts. Every whole pixel of the
box lies in it, but for those in the column and in the row that it ends before. None of these is one
of the box exactly if the box has no whole pixel, or its last ones lie in the rectangle; that is so
in a direction in which the fractions of origin and size do not add up to one. The far edges of crop
and box are exact sums here: a sum that is rounded up to a whole number holds boxes of one more
pixel. -/
theorem cutOut_containment {cropPath : List (CropRect (FloatValue K))} {metadata : MediaMetadata}
    {aspectRatio : AspectRatio} (hpath : validateCropPath cropPath metadata aspectRatio = .ok ())
    {crop : CropRect K} (hmem : crop.floats ∈ cropPath) (hwidth : 1 ≤ crop.width)
    (hheight : 1 ≤ crop.height) {box : Rect K} (hbox : crop.Contains box) :
    ∃ r, cutOut crop.floats = some r ∧ 0 < r.width ∧ 0 < r.height ∧
      (∀ column row, box.HasPixel column row → r.x ≤ column ∧ r.y ≤ row ∧
        (r.Has column row ∨ column = r.x + r.width ∨ row = r.y + r.height)) ∧
      ((∀ column row, box.HasPixel column row → r.Has column row) ↔
        (∀ column row, ¬ box.HasPixel column row) ∨
          ⌊box.right⌋ ≤ r.x + r.width ∧ ⌊box.bottom⌋ ≤ r.y + r.height) ∧
      (Int.fract crop.x + Int.fract crop.width < 1 → ⌊box.right⌋ ≤ r.x + r.width) ∧
      (Int.fract crop.y + Int.fract crop.height < 1 → ⌊box.bottom⌋ ≤ r.y + r.height) := by
  obtain ⟨c, hc, hvalid⟩ := (validateCropPath_eq_ok.mp hpath).2 _ hmem
  obtain rfl := Option.some.inj hc
  obtain ⟨hx, hy, hright, hbottom⟩ := hbox
  obtain ⟨hstartX, hendX, hfractX⟩ := box_in_cut hx hright
  obtain ⟨hstartY, hendY, hfractY⟩ := box_in_cut hy hbottom
  refine ⟨_, cutOut_floats hvalid.x_nonneg hvalid.y_nonneg hvalid.width_pos.le
    hvalid.height_pos.le, Int.floor_pos.mpr hwidth, Int.floor_pos.mpr hheight, ?_, ?_, hfractX,
    hfractY⟩
  · rintro column row ⟨hcolumn, hrow⟩
    have hcolumn' := (pixel_of_pixel hcolumn).1
    have hrow' := (pixel_of_pixel hrow).1
    have hleft := hstartX column hcolumn.1
    have htop := hstartY row hrow.1
    refine ⟨hleft, htop, ?_⟩
    simp only [PixelRect.Has]
    omega
  constructor
  · intro hall
    by_cases hnone : ∀ column row, ¬ box.HasPixel column row
    · exact .inl hnone
    · right
      push Not at hnone
      obtain ⟨column, row, hcolumn, hrow⟩ := hnone
      -- the last pixel of the box is in the rectangle
      obtain ⟨⟨-, hc⟩, -, hr⟩ := hall (⌊box.right⌋ - 1) (⌊box.bottom⌋ - 1)
        ⟨(pixel_of_pixel hcolumn).2, (pixel_of_pixel hrow).2⟩
      exact ⟨Int.sub_one_lt_iff.mp hc, Int.sub_one_lt_iff.mp hr⟩
  · rintro (hnone | ⟨hr, hb⟩) column row hpixel
    · exact absurd hpixel (hnone column row)
    · have hcolumn := (pixel_of_pixel hpixel.1).1
      have hrow := (pixel_of_pixel hpixel.2).1
      have hleft := hstartX column hpixel.1.1
      have htop := hstartY row hpixel.2.1
      exact ⟨⟨hleft, Int.lt_of_add_one_le (hcolumn.trans hr)⟩, htop,
        Int.lt_of_add_one_le (hrow.trans hb)⟩

end Containment

/-! ## A crop between pixels -/

def fullHdMedia : MediaMetadata := .probed 1920 1080 30 (1 / 30) "h264" 0 none

/-- A crop whose origin and width lie half a pixel beyond whole ones. -/
def halfPixelCrop : CropRect ℚ := ⟨1 / 2, 0, 33 / 2, 297 / 32⟩

theorem cutOut_containment_halfPixel :
    ∃ r, cutOut halfPixelCrop.floats = some r ∧
      ∀ column row, (⟨2, 1, 3, 4⟩ : Rect ℚ).HasPixel column row → r.Has column row := by
  have hpath : validateCropPath [halfPixelCrop.floats] fullHdMedia .landscape = .ok () := by
    decide +kernel
  have hbox : halfPixelCrop.Contains ⟨2, 1, 3, 4⟩ := by decide +kernel
  obtain ⟨r, hr, -, -, -, hall, -, -⟩ := cutOut_containment hpath (List.mem_singleton_self _)
    (by decide +kernel) (by decide +kernel) hbox
  refine ⟨r, hr, hall.mpr (.inr ?_)⟩
  obtain rfl := Option.some.inj (hr.symm.trans (by decide +kernel :
    cutOut halfPixelCrop.floats = some ⟨0, 0, 16, 9⟩))
  decide +kernel

/-- **A pixel is lost**: the last column of a box that reaches to the edge of the crop. -/
theorem cutOut_loses :
    validateCropPath [halfPixelCrop.floats] fullHdMedia .landscape = .ok () ∧
      1 ≤ halfPixelCrop.width ∧ 1 ≤ halfPixelCrop.height ∧
      halfPixelCrop.Contains ⟨1, 0, 16, 9⟩ ∧ (⟨1, 0, 16, 9⟩ : Rect ℚ).HasPixel 16 0 ∧
      ∃ r, cutOut halfPixelCrop.floats = some r ∧ ¬ r.Has 16 0 := by
  refine ⟨by decide +kernel, by decide +kernel, by decide +kernel, by decide +kernel, ?_,
    ⟨0, 0, 16, 9⟩, by decide +kernel, ?_⟩
  · norm_num [Rect.HasPixel, Rect.right, Rect.bottom]
  · norm_num [PixelRect.Has]

end BoulderFrame
