import BoulderFrame.Domain.Errors
import BoulderFrame.Library.Image
import BoulderFrame.Library.Outcome
import BoulderFrame.Library.Rounding
import Mathlib.Data.Rat.Floor

/-!
# The frames of a review video

A review video has one frame for each frame of the source: a copy of it, or the source and the
output in two panes, with the evidence of the phase drawn on it. Each is fitted and padded for the
writer of the video, which is opened with the size of the review.

The padded frame is as large as the picture that is fitted, and not as the review: the writer gets
the frames of its size exactly where the picture has that size before.

## Main definitions

* `PaneTransform`, `fitTransform`: the rectangle that a picture is fitted to
* `placeImage`, `fitAndPad`: a picture in its rectangle, and on black
* `annotate`: the annotated frame of a phase
* `Fitted`: what the writer of the video expects of a fitted frame

## Main results

* `fitAndPad_size`: a fitted frame has the size of its picture
* `fitAndPad_fitted_iff`: which frames are fitted as the writer expects
* `written_fitted_iff`: which frames of a review are
-/

namespace BoulderFrame.ReviewRenderer

/-- `_PaneTransform` -/
structure PaneTransform where
  sourceWidth : ℤ
  sourceHeight : ℤ
  x : ℤ
  y : ℤ
  width : ℤ
  height : ℤ
  deriving DecidableEq, Repr

/-- `_fit_transform`, of a picture with pixels; the scale and its products are exact. -/
def fitTransform (sourceWidth sourceHeight x y width height : ℤ) : PaneTransform :=
  let scale : ℚ := min (width / sourceWidth) (height / sourceHeight)
  let fittedWidth := roundHalfEven (sourceWidth * scale)
  let fittedHeight := roundHalfEven (sourceHeight * scale)
  ⟨sourceWidth, sourceHeight, x + (width - fittedWidth) / 2, y + (height - fittedHeight) / 2,
    fittedWidth, fittedHeight⟩

/-- Drawing on a frame, in place. -/
structure Overlay (α : Type) where
  draw : Image α → Image α
  height_eq : ∀ image, (draw image).height = image.height
  width_eq : ∀ image, (draw image).width = image.width

variable {α : Type}

section Frames

variable (resize : Image α → ℤ × ℤ → Except Raised (Image α))

/-- `_place_image` -/
def placeImage (destination pixels : Image α) (transform : PaneTransform) :
    Except Raised (Image α) := do
  let resized ← resize pixels (transform.width, transform.height)
  match destination.setSlice transform.y (transform.y + transform.height) transform.x
      (transform.x + transform.width) resized with
  | none => .error (.valueError "could not broadcast input array")
  | some frame => .ok frame

variable [Zero α]

/-- `_fit_and_pad` -/
def fitAndPad (pixels : Image α) (width height : ℤ) : Except Raised (Image α) :=
  let frame := pixels.map fun _ => 0
  let transform := fitTransform pixels.width pixels.height 0 0 width height
  placeImage resize frame pixels transform

/-- `_annotate`, with what it draws for the phase. -/
def annotate (overlay : Overlay α) (phase : String) (pixels : Image α)
    (outputPixels : Option (Image α)) (renderSize : Option (ℤ × ℤ)) : Except Raised (Image α) :=
  match if phase = "render" then outputPixels else none with
  | some outputPixels => do
    let (width, height) := renderSize.getD
      (pixels.width * 2, max pixels.height outputPixels.height)
    let paneWidth := width / 2
    let frame : Image α := ⟨height.toNat, width.toNat, fun _ _ => 0⟩
    let transform := fitTransform pixels.width pixels.height 0 0 paneWidth height
    let outputTransform :=
      fitTransform outputPixels.width outputPixels.height paneWidth 0 (width - paneWidth) height
    let frame ← placeImage resize frame pixels transform
    let frame ← placeImage resize frame outputPixels outputTransform
    .ok (overlay.draw frame)
  | none => .ok (overlay.draw pixels)

end Frames

/-! ## What the writer expects -/

/-- `cv2.resize` returns an image of the requested size. -/
def Resizes (resize : Image α → ℤ × ℤ → Except Raised (Image α)) : Prop :=
  ∀ image width height, image.Nonempty → 0 < width → 0 < height →
    ∃ resized, resize image (width, height) = .ok resized ∧ resized.width = width ∧
      resized.height = height

/-- The row and the column lie in the rectangle. -/
def PaneTransform.Covers (t : PaneTransform) (row column : ℕ) : Prop :=
  t.y ≤ row ∧ row < t.y + t.height ∧ t.x ≤ column ∧ column < t.x + t.width

/-- A frame of the size of the review, in which the picture fills its rectangle: one that is not
empty, inside the frame and centered up to one pixel, with black around it. -/
structure Fitted [Zero α] (resize : Image α → ℤ × ℤ → Except Raised (Image α)) (pixels : Image α)
    (width height : ℤ) (t : PaneTransform) (frame : Image α) : Prop where
  height_eq : frame.height = height
  width_eq : frame.width = width
  nonempty : 0 < t.width ∧ 0 < t.height
  inside : (0 ≤ t.x ∧ t.x + t.width ≤ width) ∧ 0 ≤ t.y ∧ t.y + t.height ≤ height
  centered : |width - t.width - 2 * t.x| ≤ 1 ∧ |height - t.height - 2 * t.y| ≤ 1
  filled : ∃ resized, resize pixels (t.width, t.height) = .ok resized ∧
    resized.width = t.width ∧ resized.height = t.height ∧
    ∀ row < resized.height, ∀ column < resized.width,
      frame.pixel (t.y.toNat + row) (t.x.toNat + column) = resized.pixel row column
  black : ∀ row < frame.height, ∀ column < frame.width, ¬ t.Covers row column →
    frame.pixel row column = 0

section Fitted

variable {resize : Image α → ℤ × ℤ → Except Raised (Image α)} {pixels frame : Image α}
  {width height : ℤ}

theorem placeImage_size {destination : Image α} {t : PaneTransform}
    (h : placeImage resize destination pixels t = .ok frame) :
    frame.height = destination.height ∧ frame.width = destination.width := by
  obtain ⟨resized, -, h⟩ := Except.bind_eq_ok.mp h
  split at h
  · cases h
  · obtain rfl := Except.ok.inj h
    exact Image.setSlice_size ‹_›

variable [Zero α]

/-- **A fitted frame** has the size of its picture. -/
theorem fitAndPad_size (h : fitAndPad resize pixels width height = .ok frame) :
    frame.height = pixels.height ∧ frame.width = pixels.width := by
  have hsize := placeImage_size h
  rwa [Image.map_height, Image.map_width] at hsize

theorem roundHalfEven_intCast (n : ℤ) : roundHalfEven (n : ℚ) = n := by
  simp [roundHalfEven]

/-- A picture of the size that it is fitted to fills it. -/
theorem fitTransform_self (hwidth : 0 < width) (hheight : 0 < height) :
    fitTransform width height 0 0 width height = ⟨width, height, 0, 0, width, height⟩ := by
  have hw : (width : ℚ) ≠ 0 := by exact_mod_cast hwidth.ne'
  have hh : (height : ℚ) ≠ 0 := by exact_mod_cast hheight.ne'
  simp [fitTransform, div_self hw, div_self hh, roundHalfEven_intCast]

/-- A picture of the size of the review is fitted as the writer expects. -/
theorem fitAndPad_of_size (hresize : Resizes resize) (hpixels : pixels.Nonempty)
    (hwidth : (pixels.width : ℤ) = width) (hheight : (pixels.height : ℤ) = height) :
    ∃ frame, fitAndPad resize pixels width height = .ok frame ∧
      Fitted resize pixels width height
        (fitTransform pixels.width pixels.height 0 0 width height) frame := by
  obtain ⟨hh, hw⟩ := hpixels
  subst hwidth hheight
  rw [fitAndPad, fitTransform_self (by exact_mod_cast hw) (by exact_mod_cast hh)]
  obtain ⟨resized, hresized, hrw, hrh⟩ := hresize pixels pixels.width pixels.height ⟨hh, hw⟩
    (by exact_mod_cast hw) (by exact_mod_cast hh)
  have hheight : 0 + resized.height ≤ (pixels.map fun _ => (0 : α)).height := by
    rw [Image.map_height]
    omega
  have hwidth : 0 + resized.width ≤ (pixels.map fun _ => (0 : α)).width := by
    rw [Image.map_width]
    omega
  obtain ⟨frame, hframe, hfh, hfw, hfilled, -⟩ := Image.setSlice_of_fits hheight hwidth
  have hplaced : placeImage resize (pixels.map fun _ => 0) pixels
      ⟨pixels.width, pixels.height, 0, 0, pixels.width, pixels.height⟩ = .ok frame := by
    rw [placeImage, hresized, Except.ok_bind]
    simp only [Int.natCast_zero, hrw, hrh, zero_add] at hframe ⊢
    rw [hframe]
  refine ⟨frame, hplaced, ?_, ?_, ?_, ?_, ?_, ⟨resized, hresized, hrw, hrh, ?_⟩, ?_⟩
  · exact_mod_cast hfh
  · exact_mod_cast hfw
  · exact ⟨Int.natCast_pos.mpr hw, Int.natCast_pos.mpr hh⟩
  · simp
  · simp
  · exact hfilled
  · intro row hrow column hcolumn hout
    refine absurd ⟨?_, ?_, ?_, ?_⟩ hout
    · exact Int.natCast_nonneg row
    · have : row < pixels.height := hfh ▸ hrow
      simpa using this
    · exact Int.natCast_nonneg column
    · have : column < pixels.width := hfw ▸ hcolumn
      simpa using this

/-- **A frame is fitted as the writer expects** exactly when it had the size of the review
before. -/
theorem fitAndPad_fitted_iff (hresize : Resizes resize) (hpixels : pixels.Nonempty) :
    (∃ frame, fitAndPad resize pixels width height = .ok frame ∧
      Fitted resize pixels width height
        (fitTransform pixels.width pixels.height 0 0 width height) frame) ↔
      (pixels.width : ℤ) = width ∧ (pixels.height : ℤ) = height := by
  constructor
  · rintro ⟨frame, hframe, hfitted⟩
    obtain ⟨hh, hw⟩ := fitAndPad_size hframe
    exact ⟨hw ▸ hfitted.width_eq, hh ▸ hfitted.height_eq⟩
  · rintro ⟨hw, hh⟩
    exact fitAndPad_of_size hresize hpixels hw hh

/-- The annotated source has its size. -/
theorem annotate_source {overlay : Overlay α} {phase : String} {outputPixels : Option (Image α)}
    {renderSize : Option (ℤ × ℤ)} (hphase : phase ≠ "render") :
    annotate resize overlay phase pixels outputPixels renderSize = .ok (overlay.draw pixels) := by
  rw [annotate, if_neg hphase]

/-- The two panes have the size that is asked for. -/
theorem annotate_render {overlay : Overlay α} {outputPixels : Image α} (hwidth : 0 ≤ width)
    (hheight : 0 ≤ height)
    (h : annotate resize overlay "render" pixels (some outputPixels) (some (width, height)) =
      .ok frame) : (frame.width : ℤ) = width ∧ (frame.height : ℤ) = height := by
  rw [annotate, if_pos rfl] at h
  obtain ⟨first, hfirst, h⟩ := Except.bind_eq_ok.mp h
  obtain ⟨second, hsecond, h⟩ := Except.bind_eq_ok.mp h
  obtain rfl := Except.ok.inj h
  obtain ⟨hh, hw⟩ := placeImage_size hfirst
  obtain ⟨hh', hw'⟩ := placeImage_size hsecond
  rw [overlay.width_eq, overlay.height_eq, hw', hh', hw, hh]
  exact ⟨Int.toNat_of_nonneg hwidth, Int.toNat_of_nonneg hheight⟩

/-- **The frames of a review** that are fitted as the writer of the video expects: those that have the
size of the review before. Of the phases that show the source these are the sources of that size; of
the phase that shows two panes these are all. -/
theorem written_fitted_iff (hresize : Resizes resize) (hwidth : 0 < width) (hheight : 0 < height) :
    (∀ pixels : Image α, pixels.Nonempty →
      ((∃ frame, fitAndPad resize pixels width height = .ok frame ∧
        Fitted resize pixels width height
          (fitTransform pixels.width pixels.height 0 0 width height) frame) ↔
        (pixels.width : ℤ) = width ∧ (pixels.height : ℤ) = height)) ∧
    (∀ (overlay : Overlay α) (phase : String) (source : Image α) (outputPixels : Option (Image α)),
      source.Nonempty → phase ≠ "render" → ∃ annotated,
        annotate resize overlay phase source outputPixels (some (width, height)) = .ok annotated ∧
        ((∃ frame, fitAndPad resize annotated width height = .ok frame ∧
          Fitted resize annotated width height
            (fitTransform annotated.width annotated.height 0 0 width height) frame) ↔
          (source.width : ℤ) = width ∧ (source.height : ℤ) = height)) ∧
    ∀ (overlay : Overlay α) (source outputPixels annotated : Image α),
      annotate resize overlay "render" source (some outputPixels) (some (width, height)) =
        .ok annotated →
      ∃ frame, fitAndPad resize annotated width height = .ok frame ∧
        Fitted resize annotated width height
          (fitTransform annotated.width annotated.height 0 0 width height) frame := by
  refine ⟨fun pixels hpixels => fitAndPad_fitted_iff hresize hpixels,
    fun overlay phase source outputPixels hsource hphase => ?_,
    fun overlay source outputPixels annotated h => ?_⟩
  · have hdrawn : (overlay.draw source).Nonempty := by
      rw [Image.Nonempty, overlay.height_eq, overlay.width_eq]
      exact hsource
    refine ⟨overlay.draw source, annotate_source hphase, ?_⟩
    rw [fitAndPad_fitted_iff hresize hdrawn, overlay.height_eq, overlay.width_eq]
  · obtain ⟨hw, hh⟩ := annotate_render hwidth.le hheight.le h
    exact fitAndPad_of_size hresize ⟨by omega, by omega⟩ hw hh

end Fitted

/-! ## A review of a source of another size -/

/-- An image of the requested size, of one pixel value. -/
def resizeFlat (_ : Image ℕ) (size : ℤ × ℤ) : Except Raised (Image ℕ) :=
  .ok ⟨size.2.toNat, size.1.toNat, fun _ _ => 1⟩

theorem resizeFlat_resizes : Resizes resizeFlat := fun _ _ _ _ hw hh =>
  ⟨_, rfl, Int.toNat_of_nonneg hw.le, Int.toNat_of_nonneg hh.le⟩

def fullHdFrame : Image ℕ := ⟨1080, 1920, fun _ _ => 7⟩

def smallFrame : Image ℕ := ⟨540, 960, fun _ _ => 7⟩

theorem written_fitted_iff_smallFrame :
    ∃ frame, fitAndPad resizeFlat smallFrame 960 540 = .ok frame ∧
      Fitted resizeFlat smallFrame 960 540 (fitTransform 960 540 0 0 960 540) frame :=
  ((written_fitted_iff resizeFlat_resizes (by decide) (by decide)).1 smallFrame
    (by decide)).mpr ⟨rfl, rfl⟩

/-- **A larger source** is not fitted: the writer of a review of 960 by 540 pixels gets its frames in
their own size. -/
theorem fullHdFrame_not_fitted :
    fullHdFrame.Nonempty ∧ Resizes resizeFlat ∧
      ¬ ∃ frame, fitAndPad resizeFlat fullHdFrame 960 540 = .ok frame ∧
        Fitted resizeFlat fullHdFrame 960 540 (fitTransform 1920 1080 0 0 960 540) frame := by
  refine ⟨by decide, resizeFlat_resizes, ?_⟩
  rintro ⟨frame, hframe, hfitted⟩
  have hwidth := hfitted.width_eq
  rw [(fitAndPad_size hframe).2] at hwidth
  exact absurd hwidth (by decide)

end BoulderFrame.ReviewRenderer
