import BoulderFrame.Library.Numerals
import Mathlib.Algebra.BigOperators.Intervals
import Mathlib.Algebra.Order.BigOperators.Group.Finset
import Mathlib.Algebra.Order.Field.Basic
import Mathlib.Tactic.Linarith
import Mathlib.Tactic.Ring

/-!
# Camera paths and what the shot asks of them

A shot of `n` frames with the seconds `dt` between them asks six things of a camera center path on
one axis, in this order: little speed above the limit, little acceleration above the limit (the
camera rests before and after the shot), little time outside the deadzone of the seed crop, little
travel, little change of velocity, and little deviation from the seed.

## Main definitions

* `Shot`: frames, intervals, seed centers and deadzone radii, and the motion limits
* `Shot.velocity`, `Shot.velocityChange`, `Shot.acceleration`: the motion of a path
* `Shot.objective`: the six objectives

## Main results

* `excess_le_iff`: a least common excess over a limit is a bound on each excess
* `Shot.objective_nonneg`: no objective is negative
* `Shot.objective_const`: what a still camera costs
-/

namespace BoulderFrame

variable {K : Type} [Field K] [LinearOrder K]

/-- How far the first `n` magnitudes exceed the limit at most; zero if none does. -/
def excess (limit : K) (magnitude : ℕ → K) : ℕ → K
  | 0 => 0
  | n + 1 => max (excess limit magnitude n) (magnitude n - limit)

section Excess

variable {limit s : K} {magnitude : ℕ → K} {n : ℕ}

theorem excess_nonneg : 0 ≤ excess limit magnitude n := by
  induction n with
  | zero => exact le_rfl
  | succ n ih => exact ih.trans (le_max_left _ _)

theorem excess_le_iff [IsStrictOrderedRing K] :
    excess limit magnitude n ≤ s ↔ 0 ≤ s ∧ ∀ i < n, magnitude i ≤ limit + s := by
  induction n with
  | zero => simp [excess]
  | succ n ih =>
    rw [excess, max_le_iff, ih, Nat.forall_lt_succ_right]
    constructor
    · rintro ⟨⟨h0, h⟩, hn⟩
      exact ⟨h0, h, by linarith⟩
    · rintro ⟨h0, h, hn⟩
      exact ⟨⟨h0, h⟩, by linarith⟩

theorem excess_congr {magnitude' : ℕ → K} (h : ∀ i < n, magnitude i = magnitude' i) :
    excess limit magnitude n = excess limit magnitude' n := by
  induction n with
  | zero => rfl
  | succ n ih => rw [excess, excess, ih fun i hi => h i (by omega), h n (Nat.lt_succ_self n)]

theorem le_add_excess [IsStrictOrderedRing K] (limit : K) (magnitude : ℕ → K) {i : ℕ}
    (hi : i < n) :
    magnitude i ≤ limit + excess limit magnitude n :=
  (excess_le_iff.mp le_rfl).2 i hi

end Excess

/-- One axis of a shot, in source-normalized centers. -/
structure Shot (K : Type) where
  frames : ℕ
  /-- the seconds from frame `i` to frame `i + 1` -/
  dt : ℕ → K
  seed : ℕ → K
  radius : ℕ → K
  maxSpeed : K
  maxAcceleration : K

namespace Shot

variable (S : Shot K)

def velocity (c : ℕ → K) (i : ℕ) : K := (c (i + 1) - c i) / S.dt i

/-- The change of velocity at frame `i`; before the first and after the last frame the camera
rests. -/
def velocityChange (c : ℕ → K) (i : ℕ) : K :=
  (if i + 1 < S.frames then S.velocity c i else 0) - if 0 < i then S.velocity c (i - 1) else 0

/-- Half the seconds from the frame before `i` to the frame after it, inside the shot. -/
def span (i : ℕ) : K :=
  ((if i + 1 < S.frames then S.dt i else 0) + if 0 < i then S.dt (i - 1) else 0) / 2

def acceleration (c : ℕ → K) (i : ℕ) : K := S.velocityChange c i / S.span i

/-- The distance outside the deadzone. -/
def outside (c : ℕ → K) (i : ℕ) : K := max (|c i - S.seed i| - S.radius i) 0

/-- The six objectives, in the order in which they are minimized. -/
def objective (k : ℕ) (c : ℕ → K) : K :=
  match k with
  | 0 => excess S.maxSpeed (fun i => |S.velocity c i|) (S.frames - 1)
  | 1 => excess S.maxAcceleration (fun i => |S.acceleration c i|) S.frames
  | 2 => ∑ i ∈ Finset.range S.frames, S.span i * S.outside c i
  | 3 => ∑ i ∈ Finset.range (S.frames - 1), |c (i + 1) - c i|
  | 4 => ∑ i ∈ Finset.range S.frames, |S.velocityChange c i|
  | _ => ∑ i ∈ Finset.range S.frames, S.span i * |c i - S.seed i|

/-! ## The first, the inner and the last frames -/

section Frames

variable {S} {c : ℕ → K} {i : ℕ}

omit [Field K] [LinearOrder K] in
/-- A frame of a shot of at least two is the first, an inner one, or the last. -/
theorem frame_cases (hi : i < S.frames) (hn : 2 ≤ S.frames) :
    i = 0 ∨ (∃ j, i = j + 1 ∧ j + 2 < S.frames) ∨ ∃ j, i = j + 1 ∧ S.frames = j + 2 := by
  rcases Nat.eq_zero_or_pos i with h0 | h0
  · exact .inl h0
  · rcases Nat.lt_or_ge (i + 1) S.frames with h | h
    · exact .inr (.inl ⟨i - 1, by omega, by omega⟩)
    · exact .inr (.inr ⟨i - 1, by omega, by omega⟩)

omit [LinearOrder K] in
theorem velocityChange_first (hn : 2 ≤ S.frames) : S.velocityChange c 0 = S.velocity c 0 := by
  rw [velocityChange, if_pos (by omega), if_neg (lt_irrefl 0), sub_zero]

omit [LinearOrder K] in
theorem velocityChange_inner (h : i + 2 < S.frames) :
    S.velocityChange c (i + 1) = S.velocity c (i + 1) - S.velocity c i := by
  rw [velocityChange, if_pos (by omega), if_pos (by omega), Nat.add_sub_cancel]

omit [LinearOrder K] in
theorem velocityChange_last (h : S.frames = i + 2) :
    S.velocityChange c (i + 1) = -S.velocity c i := by
  rw [velocityChange, if_neg (by omega), if_pos (by omega), Nat.add_sub_cancel, zero_sub]

omit [LinearOrder K] in
theorem span_first (hn : 2 ≤ S.frames) : S.span 0 = S.dt 0 / 2 := by
  rw [span, if_pos (by omega), if_neg (lt_irrefl 0), add_zero]

omit [LinearOrder K] in
theorem span_inner (h : i + 2 < S.frames) : S.span (i + 1) = (S.dt i + S.dt (i + 1)) / 2 := by
  rw [span, if_pos (by omega), if_pos (by omega), Nat.add_sub_cancel, add_comm]

omit [LinearOrder K] in
theorem span_last (h : S.frames = i + 2) : S.span (i + 1) = S.dt i / 2 := by
  rw [span, if_neg (by omega), if_pos (by omega), Nat.add_sub_cancel, zero_add]

end Frames

/-! ## Only the centers of the shot's frames matter -/

section Congruence

variable {S} {c c' : ℕ → K} (h : ∀ j < S.frames, c j = c' j) {i : ℕ}
include h

omit [LinearOrder K] in
theorem velocity_congr (hi : i + 1 < S.frames) : S.velocity c i = S.velocity c' i := by
  rw [velocity, velocity, h (i + 1) hi, h i (by omega)]

omit [LinearOrder K] in
theorem velocityChange_congr (hi : i < S.frames) :
    S.velocityChange c i = S.velocityChange c' i := by
  unfold velocityChange
  congr 1
  · split_ifs with hlast
    · exact velocity_congr h hlast
    · rfl
  · split_ifs with hfirst
    · exact velocity_congr h (by omega)
    · rfl

theorem objective_congr (k : ℕ) : S.objective k c = S.objective k c' := by
  match k with
  | 0 => exact excess_congr fun i hi => by rw [velocity_congr h (by omega)]
  | 1 => exact excess_congr fun i hi => by rw [acceleration, acceleration, velocityChange_congr h hi]
  | 2 =>
    refine Finset.sum_congr rfl fun i hi => ?_
    rw [outside, outside, h i (Finset.mem_range.mp hi)]
  | 3 =>
    refine Finset.sum_congr rfl fun i hi => ?_
    have := Finset.mem_range.mp hi
    rw [h i (by omega), h (i + 1) (by omega)]
  | 4 =>
    exact Finset.sum_congr rfl fun i hi => by rw [velocityChange_congr h (Finset.mem_range.mp hi)]
  | _ + 5 => exact Finset.sum_congr rfl fun i hi => by rw [h i (Finset.mem_range.mp hi)]

end Congruence

section Span

variable [IsStrictOrderedRing K] {S}

theorem span_nonneg (hdt : ∀ i, i + 1 < S.frames → 0 < S.dt i) {i : ℕ} (hi : i < S.frames) :
    0 ≤ S.span i := by
  unfold span
  have h1 : 0 ≤ (if i + 1 < S.frames then S.dt i else 0) := by
    split_ifs with h
    · exact (hdt i h).le
    · exact le_rfl
  have h2 : 0 ≤ (if 0 < i then S.dt (i - 1) else 0) := by
    split_ifs with h
    · exact (hdt (i - 1) (by omega)).le
    · exact le_rfl
  linarith

/-- No objective is negative. -/
theorem objective_nonneg (hdt : ∀ i, i + 1 < S.frames → 0 < S.dt i) (k : ℕ) (c : ℕ → K) :
    0 ≤ S.objective k c := by
  unfold objective
  split
  · exact excess_nonneg
  · exact excess_nonneg
  · exact Finset.sum_nonneg fun i hi =>
      mul_nonneg (span_nonneg hdt (Finset.mem_range.mp hi)) (le_max_right _ _)
  · exact Finset.sum_nonneg fun i _ => abs_nonneg _
  · exact Finset.sum_nonneg fun i _ => abs_nonneg _
  · exact Finset.sum_nonneg fun i hi =>
      mul_nonneg (span_nonneg hdt (Finset.mem_range.mp hi)) (abs_nonneg _)

/-- A still camera inside every deadzone meets the first four objectives at zero. -/
theorem objective_const (hspeed : 0 ≤ S.maxSpeed) (hacceleration : 0 ≤ S.maxAcceleration) {c : K}
    (hc : ∀ i < S.frames, |c - S.seed i| ≤ S.radius i) {k : ℕ} (hk : k < 4) :
    S.objective k (fun _ => c) = 0 := by
  have hvelocity : ∀ i, S.velocity (fun _ => c) i = 0 := fun i => by simp [velocity]
  have hchange : ∀ i, S.velocityChange (fun _ => c) i = 0 := fun i => by
    simp [velocityChange, hvelocity]
  match k with
  | 0 =>
    refine le_antisymm (excess_le_iff.mpr ⟨le_rfl, fun i _ => ?_⟩) excess_nonneg
    rw [hvelocity, abs_zero, add_zero]
    exact hspeed
  | 1 =>
    refine le_antisymm (excess_le_iff.mpr ⟨le_rfl, fun i _ => ?_⟩) excess_nonneg
    rw [acceleration, hchange, zero_div, abs_zero, add_zero]
    exact hacceleration
  | 2 =>
    refine Finset.sum_eq_zero fun i hi => ?_
    rw [outside, max_eq_right (sub_nonpos.mpr (hc i (Finset.mem_range.mp hi))), mul_zero]
  | 3 => exact Finset.sum_eq_zero fun i _ => by rw [sub_self, abs_zero]

end Span

end Shot

end BoulderFrame
