import BoulderFrame.Arithmetic.Elementary
import BoulderFrame.Domain.Protocol

/-!
# Crops and detector boxes

Rectangles in source pixels with the origin at the top left, the largest crop of the requested
aspect ratio, and the translation of a crop into the source. The numbers are those of an ordered
field: edges, areas and quotients are exact.

## Main definitions

* `Rect`, `CropRect`: detector boxes and crops
* `fullFrameCrop`: the largest crop of an aspect ratio
* `clampCrop`: a crop shifted into the source

## Main results

* `clampCrop_ok`: a crop no larger than the source is shifted into it, size unchanged
-/

namespace BoulderFrame

structure Point (K : Type) where
  x : K
  y : K
  deriving DecidableEq

/-- A detector box. -/
structure Rect (K : Type) where
  x : K
  y : K
  width : K
  height : K
  deriving DecidableEq

structure CropRect (K : Type) where
  x : K
  y : K
  width : K
  height : K
  deriving DecidableEq

variable {K : Type} [Field K] [LinearOrder K]

namespace Rect

def right (r : Rect K) : K := r.x + r.width

def bottom (r : Rect K) : K := r.y + r.height

def center (r : Rect K) : Point K := ⟨r.x + r.width / 2, r.y + r.height / 2⟩

end Rect

namespace CropRect

def right (c : CropRect K) : K := c.x + c.width

def bottom (c : CropRect K) : K := c.y + c.height

def center (c : CropRect K) : Point K := ⟨c.x + c.width / 2, c.y + c.height / 2⟩

/-- The box lies inside the crop. -/
def Contains (c : CropRect K) (bounds : Rect K) : Prop :=
  c.x ≤ bounds.x ∧ c.y ≤ bounds.y ∧ bounds.right ≤ c.right ∧ bounds.bottom ≤ c.bottom

instance (c : CropRect K) (bounds : Rect K) : Decidable (c.Contains bounds) :=
  inferInstanceAs (Decidable (_ ∧ _))

/-- The crop of the given size with the given center. -/
def centered (center : Point K) (width height : K) : CropRect K :=
  ⟨center.x - width / 2, center.y - height / 2, width, height⟩

theorem Contains.width_le [IsStrictOrderedRing K] {c : CropRect K} {b : Rect K}
    (h : c.Contains b) : b.width ≤ c.width := by
  obtain ⟨hx, -, hr, -⟩ := h
  simp only [Rect.right, right] at hr
  linarith

theorem Contains.height_le [IsStrictOrderedRing K] {c : CropRect K} {b : Rect K}
    (h : c.Contains b) : b.height ≤ c.height := by
  obtain ⟨-, hy, -, hb⟩ := h
  simp only [Rect.bottom, bottom] at hb
  linarith

end CropRect

/-- The widest crop of the requested aspect ratio, centered in the source. -/
def fullFrameCrop (sourceWidth sourceHeight : ℤ) (aspectRatio : AspectRatio) : CropRect K :=
  let sourceAspect : K := sourceWidth / sourceHeight
  let outputAspect : K := aspectRatio.valueFloat
  let height : K := if sourceAspect ≥ outputAspect then sourceHeight
    else sourceWidth / outputAspect
  let width : K := if sourceAspect ≥ outputAspect then sourceHeight * outputAspect
    else sourceWidth
  ⟨(sourceWidth - width) / 2, (sourceHeight - height) / 2, width, height⟩

/-- Shift a crop into the source. -/
def clampCrop (crop : CropRect K) (sourceWidth sourceHeight : ℤ) :
    Except PlanError (CropRect K) :=
  if (sourceWidth : K) < crop.width ∨ (sourceHeight : K) < crop.height then
    .error (.valueError "crop cannot exceed source dimensions")
  else
    .ok ⟨min (max crop.x 0) (sourceWidth - crop.width),
      min (max crop.y 0) (sourceHeight - crop.height), crop.width, crop.height⟩

theorem clampCrop_ok {crop : CropRect K} {w h : ℤ} (hw : crop.width ≤ w) (hh : crop.height ≤ h) :
    clampCrop crop w h = .ok ⟨min (max crop.x 0) (w - crop.width),
      min (max crop.y 0) (h - crop.height), crop.width, crop.height⟩ :=
  if_neg (not_or.mpr ⟨hw.not_gt, hh.not_gt⟩)

section FullFrame

variable [IsStrictOrderedRing K] {w h : ℤ} (a : AspectRatio)

theorem fullFrameCrop_width :
    (fullFrameCrop w h a : CropRect K).width =
      (fullFrameCrop w h a : CropRect K).height * a.valueFloat := by
  have ha := (a.valueFloat_pos (K := K)).ne'
  simp only [fullFrameCrop]
  split_ifs
  · rfl
  · field_simp

theorem fullFrameCrop_height_pos (hw : 0 < w) (hh : 0 < h) :
    0 < (fullFrameCrop w h a : CropRect K).height := by
  have ha := a.valueFloat_pos (K := K)
  have hw' : (0 : K) < w := by exact_mod_cast hw
  have hh' : (0 : K) < h := by exact_mod_cast hh
  simp only [fullFrameCrop]
  split_ifs <;> positivity

theorem fullFrameCrop_width_le (hh : 0 < h) :
    (fullFrameCrop w h a : CropRect K).width ≤ w := by
  have hh' : (0 : K) < h := by exact_mod_cast hh
  simp only [fullFrameCrop]
  split_ifs with hc
  · rw [ge_iff_le, le_div_iff₀ hh'] at hc
    linarith
  · exact le_rfl

theorem fullFrameCrop_height_le (hh : 0 < h) :
    (fullFrameCrop w h a : CropRect K).height ≤ h := by
  have ha := a.valueFloat_pos (K := K)
  have hh' : (0 : K) < h := by exact_mod_cast hh
  simp only [fullFrameCrop]
  split_ifs with hc
  · exact le_rfl
  · rw [ge_iff_le, not_le, div_lt_iff₀ hh'] at hc
    rw [div_le_iff₀ ha]
    linarith

end FullFrame

end BoulderFrame
