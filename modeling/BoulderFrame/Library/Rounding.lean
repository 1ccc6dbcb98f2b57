import BoulderFrame.Library.Numerals
import Mathlib.Algebra.Order.Floor.Ring
import Mathlib.Tactic.Linarith
import Mathlib.Tactic.NormNum

/-!
# Rounding half to even

## Main definitions

* `roundHalfEven`: the nearest integer, the even one of two that are equally near
* `truncate`: the integer part
* `RoundsUp`: the nearest integer is the one above

## Main results

* `roundHalfEven_eq`: the rounded number is the floor, or one more when it rounds up
* `roundHalfEven_mono`: rounding keeps the order
* `abs_roundHalfEven_sub_le`: rounding moves a number by half at most
* `roundHalfEven_lt`: numbers that are more than one apart are rounded apart
-/

variable {K : Type} [Field K] [LinearOrder K] [FloorRing K]

/-- The nearest integer; of two that are equally near, the even one. -/
def roundHalfEven (q : K) : ℤ :=
  let floor := ⌊q⌋
  let remainder := q - floor
  if remainder * 2 < 1 then floor
  else if remainder * 2 > 1 then floor + 1
  else if floor % 2 = 0 then floor
  else floor + 1

/-- The integer part, toward zero. -/
def truncate (q : K) : ℤ := if 0 ≤ q then ⌊q⌋ else ⌈q⌉

theorem truncate_of_nonneg {q : K} (h : 0 ≤ q) : truncate q = ⌊q⌋ := if_pos h

/-- The fraction exceeds a half, or it is a half and the floor is odd. -/
def RoundsUp (q : K) : Prop := 1 < (q - ⌊q⌋) * 2 ∨ (q - ⌊q⌋) * 2 = 1 ∧ ⌊q⌋ % 2 = 1

instance (q : K) : Decidable (RoundsUp q) := inferInstanceAs (Decidable (_ ∨ _))

theorem roundHalfEven_eq (q : K) : roundHalfEven q = if RoundsUp q then ⌊q⌋ + 1 else ⌊q⌋ := by
  unfold roundHalfEven
  dsimp only
  by_cases h : RoundsUp q
  · rw [if_pos h]
    rcases h with h | ⟨h, hodd⟩
    · rw [if_neg h.not_gt, if_pos h]
    · rw [if_neg h.not_lt, if_neg h.not_gt, if_neg (by omega)]
  · rw [if_neg h]
    simp only [RoundsUp, not_or, not_and, not_lt] at h
    rcases h.1.lt_or_eq with hlt | heq
    · rw [if_pos hlt]
    · have := h.2 heq
      rw [if_neg heq.not_lt, if_neg heq.not_gt, if_pos (by omega)]

theorem roundHalfEven_nonneg [IsStrictOrderedRing K] {q : K} (h : 0 ≤ q) : 0 ≤ roundHalfEven q := by
  have hfloor := Int.floor_nonneg.mpr h
  rw [roundHalfEven_eq]
  split_ifs <;> omega

/-- Rounding keeps the order. -/
theorem roundHalfEven_mono [IsStrictOrderedRing K] {q q' : K} (h : q ≤ q') :
    roundHalfEven q ≤ roundHalfEven q' := by
  rw [roundHalfEven_eq, roundHalfEven_eq]
  rcases (Int.floor_le_floor h).lt_or_eq with hlt | heq
  · split_ifs <;> omega
  · -- with the same floor, a greater fraction rounds up if the smaller one does
    have hup : RoundsUp q → RoundsUp q' := by
      rintro (hq | ⟨hq, hodd⟩)
      · left
        rw [← heq]
        linarith
      · rcases h.lt_or_eq with hlt | rfl
        · left
          rw [← heq]
          linarith
        · exact .inr ⟨hq, hodd⟩
    by_cases hq : RoundsUp q
    · rw [if_pos hq, if_pos (hup hq), heq]
    · rw [if_neg hq, heq]
      split_ifs <;> omega

/-- Rounding moves a number by half at most. -/
theorem abs_roundHalfEven_sub_le [IsStrictOrderedRing K] (q : K) :
    |(roundHalfEven q : K) - q| * 2 ≤ 1 := by
  have h0 := Int.floor_le q
  have h1 := Int.lt_floor_add_one q
  rw [roundHalfEven_eq]
  split_ifs with h
  · have : 1 ≤ (q - ⌊q⌋) * 2 := by
      rcases h with h | h
      · exact h.le
      · exact h.1.ge
    rw [Int.cast_add, Int.cast_one, abs_of_nonneg (by linarith)]
    linarith
  · have : (q - ⌊q⌋) * 2 ≤ 1 := by
      by_contra! h'
      exact h (.inl h')
    rw [abs_of_nonpos (by linarith)]
    linarith

theorem roundHalfEven_bounds [IsStrictOrderedRing K] (q : K) :
    q * 2 ≤ roundHalfEven q * 2 + 1 ∧ (roundHalfEven q : K) * 2 ≤ q * 2 + 1 := by
  have h := abs_roundHalfEven_sub_le q
  have hup := le_abs_self ((roundHalfEven q : K) - q)
  have hdown := neg_le_abs ((roundHalfEven q : K) - q)
  constructor <;> linarith

/-- Numbers that are more than one apart are rounded apart. -/
theorem roundHalfEven_lt [IsStrictOrderedRing K] {q q' : K} (h : q + 1 < q') :
    roundHalfEven q < roundHalfEven q' := by
  obtain ⟨-, hq⟩ := roundHalfEven_bounds q
  obtain ⟨hq', -⟩ := roundHalfEven_bounds q'
  have hlt : (roundHalfEven q : K) < roundHalfEven q' := by linarith
  exact_mod_cast hlt

theorem roundHalfEven_intCast [IsStrictOrderedRing K] (n : ℤ) : roundHalfEven (n : K) = n := by
  rw [roundHalfEven_eq, if_neg, Int.floor_intCast]
  simp [RoundsUp]

/-- What is rounded above zero is more than a half. -/
theorem roundHalfEven_pos_iff [IsStrictOrderedRing K] {q : K} : 0 < roundHalfEven q ↔ 1 < q * 2 := by
  constructor
  · intro hpos
    by_contra! hle
    have hhalf : roundHalfEven (1 / 2 : K) = 0 := by
      have hfloor : ⌊(1 / 2 : K)⌋ = 0 := by
        rw [Int.floor_eq_zero_iff]
        norm_num
      have hdown : ¬ RoundsUp (1 / 2 : K) := by
        rw [RoundsUp, hfloor]
        norm_num
      rw [roundHalfEven_eq, if_neg hdown, hfloor]
    have hmono := roundHalfEven_mono (show q ≤ 1 / 2 by linarith)
    omega
  · intro hlt
    have hlow := (roundHalfEven_bounds q).1
    have hpos : (0 : K) < roundHalfEven q := by linarith
    exact_mod_cast hpos
