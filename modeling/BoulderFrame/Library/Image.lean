import Mathlib.Data.Int.Basic
import Mathlib.Data.Nat.Basic

/-!
# Images

An image has a size and a pixel in every row and column; what it has beyond its size has no
meaning. A part of an image is named by two ranges of indices, of rows and of columns: an index
counts from the end if it is negative, and a range has nothing beyond the image.

## Main definitions

* `Image`: images with pixels in `α`
* `rangeIndex`: the place of an index among `n` items
* `Image.slice`: the part of an image in two ranges of indices
* `Image.setSlice`: an image with a part replaced, if the shapes fit

## Main results

* `Image.setSlice_size`: a replaced part keeps the size of the image
* `Image.setSlice_of_fits`: an image of the size of a part inside the image is put there, and
  nothing else changes
-/

structure Image (α : Type) where
  height : ℕ
  width : ℕ
  pixel : ℕ → ℕ → α

/-- The place of an index among `n` items: from the end if it is negative, and never beyond. -/
def rangeIndex (n : ℕ) (i : ℤ) : ℕ := if i < 0 then (i + n).toNat else min i.toNat n

theorem rangeIndex_of_le {n : ℕ} {i : ℤ} (h : 0 ≤ i) (hn : i ≤ n) : rangeIndex n i = i.toNat := by
  rw [rangeIndex, if_neg (Int.not_lt.mpr h)]
  omega

namespace Image

variable {α β : Type}

/-- The image has pixels. -/
def Nonempty (image : Image α) : Prop := 0 < image.height ∧ 0 < image.width

instance (image : Image α) : Decidable image.Nonempty := inferInstanceAs (Decidable (_ ∧ _))

/-- The image with a function applied to each pixel. -/
def map (f : α → β) (image : Image α) : Image β :=
  ⟨image.height, image.width, fun row column => f (image.pixel row column)⟩

@[simp] theorem map_height (f : α → β) (image : Image α) : (image.map f).height = image.height :=
  rfl

@[simp] theorem map_width (f : α → β) (image : Image α) : (image.map f).width = image.width := rfl

/-- `image[top:bottom, left:right]` -/
def slice (image : Image α) (top bottom left right : ℤ) : Image α where
  height := rangeIndex image.height bottom - rangeIndex image.height top
  width := rangeIndex image.width right - rangeIndex image.width left
  pixel := fun row column =>
    image.pixel (rangeIndex image.height top + row) (rangeIndex image.width left + column)

/-- `image[top:bottom, left:right] = patch`; none if the patch does not have the shape of the part.
One row or one column is repeated. -/
def setSlice (image : Image α) (top bottom left right : ℤ) (patch : Image α) : Option (Image α) :=
  let y := rangeIndex image.height top
  let x := rangeIndex image.width left
  let rows := rangeIndex image.height bottom - y
  let columns := rangeIndex image.width right - x
  if (patch.height = rows ∨ patch.height = 1) ∧ (patch.width = columns ∨ patch.width = 1) then
    some
      { image with
        pixel := fun row column =>
          if y ≤ row ∧ row < y + rows ∧ x ≤ column ∧ column < x + columns then
            patch.pixel (if patch.height = 1 then 0 else row - y)
              (if patch.width = 1 then 0 else column - x)
          else image.pixel row column }
  else none

variable {image patch result : Image α} {top bottom left right : ℤ}

/-- **A replaced part** keeps the size of the image. -/
theorem setSlice_size (h : image.setSlice top bottom left right patch = some result) :
    result.height = image.height ∧ result.width = image.width := by
  unfold setSlice at h
  dsimp only at h
  split at h
  · obtain rfl := Option.some.inj h
    exact ⟨rfl, rfl⟩
  · cases h

/-- **An image of the size of a part** that lies inside the image is put there, and nothing else
changes. -/
theorem setSlice_of_fits {y x : ℕ} (hheight : y + patch.height ≤ image.height)
    (hwidth : x + patch.width ≤ image.width) :
    ∃ result, image.setSlice y (y + patch.height : ℕ) x (x + patch.width : ℕ) patch = some result ∧
      result.height = image.height ∧ result.width = image.width ∧
      (∀ row < patch.height, ∀ column < patch.width,
        result.pixel (y + row) (x + column) = patch.pixel row column) ∧
      ∀ row column, ¬ (y ≤ row ∧ row < y + patch.height ∧ x ≤ column ∧ column < x + patch.width) →
        result.pixel row column = image.pixel row column := by
  have hindex : ∀ {n i : ℕ}, i ≤ n → rangeIndex n i = i := fun h =>
    (rangeIndex_of_le (Int.natCast_nonneg _) (by exact_mod_cast h)).trans (Int.toNat_natCast _)
  unfold setSlice
  dsimp only
  rw [hindex hheight, hindex hwidth, hindex (by omega), hindex (by omega), Nat.add_sub_cancel_left,
    Nat.add_sub_cancel_left, if_pos ⟨.inl rfl, .inl rfl⟩]
  refine ⟨_, rfl, rfl, rfl, fun row hrow column hcolumn => ?_, fun row column hout => if_neg hout⟩
  have hrow' : (if patch.height = 1 then 0 else y + row - y) = row := by
    split_ifs <;> omega
  have hcolumn' : (if patch.width = 1 then 0 else x + column - x) = column := by
    split_ifs <;> omega
  dsimp only
  rw [if_pos ⟨by omega, by omega, by omega, by omega⟩, hrow', hcolumn']

end Image
