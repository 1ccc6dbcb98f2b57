import BoulderFrame.Framing.Approach

/-!
# The motion of a component is a flow

In exact arithmetic the motion of a component does not depend on how the time is divided into
frames. Before an approach the component brakes, if it has no target, moves away from the target,
or is too fast to stop there; this is one more phase, whose condition holds until the component is
at rest.

## Main definitions

* `Overruns`: the component has to brake first
* `Bounded`: the components whose speed does not exceed the limit

## Main results

* `advanceMotion_isFlow`, `advanceMotion_divided`: a motion over two intervals is that over both
* `advanceMotion_steady`: the motion keeps the limits of speed and acceleration
* `advanceMotion_outward`: a component that does not move away passes the target in bounded time
-/

namespace BoulderFrame.Motion

section Limits

variable (maxSpeed acceleration : ℝ) (target : Option ℝ)

/-- The components whose speed does not exceed the limit. -/
def Bounded : Set (ℝ × ℝ) := {x | |x.2| ≤ maxSpeed}

/-- Without a target, on the way from it, or too fast to stop there. -/
def Overruns (x : ℝ × ℝ) : Prop :=
  x.2 ≠ 0 ∧ (target = none ∨ x.2 * target.elim 0 (· - x.1) ≤ 0 ∨
    x.2 * x.2 / (2 * acceleration) > |target.elim 0 (· - x.1)|)

open Classical in
noncomputable def stopTime (x : ℝ × ℝ) : ℝ :=
  if Overruns acceleration target x then |x.2| / acceleration else 0

noncomputable def stop (t : ℝ) (x : ℝ × ℝ) : ℝ × ℝ :=
  (x.1 + (x.2 * t + -copysign acceleration x.2 * t * t / 2), x.2 + -copysign acceleration x.2 * t)

/-- The motion of a component that need not brake first. -/
noncomputable def settled (t : ℝ) (x : ℝ × ℝ) : ℝ × ℝ :=
  settle x.1 x.2 target t maxSpeed acceleration

end Limits

variable {maxSpeed acceleration t : ℝ} {target : Option ℝ} {x : ℝ × ℝ}

/-! ## Braking first -/

theorem stop_zero (x : ℝ × ℝ) : stop acceleration 0 x = x := by simp [stop]

/-- A moving component has a direction. -/
theorem exists_direction (ha : 0 < acceleration) {v : ℝ} (hv : v ≠ 0) :
    ∃ direction : ℝ, (direction = 1 ∨ direction = -1) ∧ v = direction * |v| ∧
      copysign acceleration v = direction * acceleration := by
  obtain hneg | hpos := lt_or_gt_of_ne hv
  · exact ⟨-1, .inr rfl, by rw [abs_of_neg hneg]; ring,
      by rw [copysign, if_pos hneg, abs_of_pos ha, neg_one_mul]⟩
  · exact ⟨1, .inl rfl, by rw [abs_of_pos hpos, one_mul],
      by rw [copysign, if_neg hpos.not_gt, abs_of_pos ha, one_mul]⟩

/-- A component that brakes, before it is at rest: its speed, and the way in its direction. -/
theorem stop_eq {direction speed : ℝ} (hv : x.2 = direction * speed)
    (hsign : copysign acceleration x.2 = direction * acceleration) :
    stop acceleration t x = (x.1 + direction * (speed * t - acceleration * t * t / 2),
      direction * (speed - acceleration * t)) := by
  rw [stop, hsign, hv, Prod.mk.injEq]
  constructor <;> ring

/-- **The condition for braking** holds until the component is at rest. -/
theorem Overruns.stop (ha : 0 < acceleration) (h : Overruns acceleration target x) (ht : 0 ≤ t)
    (hlt : t < |x.2| / acceleration) : Overruns acceleration target (stop acceleration t x) := by
  obtain ⟨hmoves, hcause⟩ := h
  obtain ⟨direction, hdirection, hv, hsign⟩ := exists_direction ha hmoves
  rw [lt_div_iff₀ ha] at hlt
  set speed := |x.2| with hspeed
  have hspeedPos : 0 < speed := abs_pos.mpr hmoves
  have hsq : direction * direction = 1 := by obtain rfl | rfl := hdirection <;> ring
  rw [stop_eq hv hsign]
  have hleft : 0 < speed - acceleration * t := by linarith
  have hne : direction ≠ 0 := left_ne_zero_of_mul (hsq.trans_ne one_ne_zero)
  refine ⟨mul_ne_zero hne hleft.ne', ?_⟩
  cases target with
  | none => exact .inl rfl
  | some target =>
    right
    obtain h | h | h := hcause
    · cases h
    all_goals dsimp only [Option.elim] at h ⊢
    · -- on the way from the target
      left
      rw [hv, mul_assoc] at h
      have haway : direction * (target - x.1) ≤ 0 := by
        by_contra hpos
        have := mul_pos hspeedPos (not_le.mp hpos)
        linarith [mul_left_comm direction speed (target - x.1)]
      have hway : 0 ≤ speed * t - acceleration * t * t / 2 := by nlinarith
      have hsplit : direction * (speed - acceleration * t) *
          (target - (x.1 + direction * (speed * t - acceleration * t * t / 2))) =
            (speed - acceleration * t) * (direction * (target - x.1) -
              direction * direction * (speed * t - acceleration * t * t / 2)) := by ring
      rw [hsplit, hsq, one_mul]
      exact mul_nonpos_of_nonneg_of_nonpos hleft.le (by linarith)
    · -- too fast to stop at the target: it is passed, or still too near
      have hnear : direction * (target - x.1) < speed * speed / (2 * acceleration) := by
        have hself : x.2 * x.2 = speed * speed := (abs_mul_abs_self x.2).symm
        rw [hself] at h
        refine lt_of_le_of_lt ?_ h
        obtain rfl | rfl := hdirection
        · rw [one_mul]
          exact le_abs_self _
        · rw [neg_one_mul]
          exact neg_le_abs _
      have hrest : (target - (x.1 + direction * (speed * t - acceleration * t * t / 2))) =
          direction * (direction * (target - x.1) - (speed * t - acceleration * t * t / 2)) := by
        linear_combination (-(target - x.1)) * hsq
      rw [hrest]
      set rest := direction * (target - x.1) - (speed * t - acceleration * t * t / 2) with hrestEq
      obtain hpassed | hahead := le_or_gt rest 0
      · left
        have hmul : direction * (speed - acceleration * t) * (direction * rest) =
            direction * direction * ((speed - acceleration * t) * rest) := by ring
        rw [hmul, hsq, one_mul]
        exact mul_nonpos_of_nonneg_of_nonpos hleft.le hpassed
      · right
        have habs : |direction * rest| = rest := by
          obtain rfl | rfl := hdirection <;> simp [abs_of_pos hahead]
        have hself : direction * (speed - acceleration * t) * (direction *
            (speed - acceleration * t)) / (2 * acceleration) =
              speed * speed / (2 * acceleration) - (speed * t - acceleration * t * t / 2) := by
          field_simp
          linear_combination (speed - acceleration * t) ^ 2 * hsq
        rw [habs, hself, gt_iff_lt]
        linarith

theorem abs_stop (ha : 0 < acceleration) (hx : x.2 ≠ 0) (hle : t ≤ |x.2| / acceleration) :
    |(stop acceleration t x).2| = |x.2| - acceleration * t := by
  obtain ⟨direction, hdirection, hv, hsign⟩ := exists_direction ha hx
  rw [le_div_iff₀ ha] at hle
  have hleft : 0 ≤ |x.2| - acceleration * t := by linarith
  rw [stop_eq hv hsign]
  obtain rfl | rfl := hdirection <;> simp only [one_mul, neg_one_mul, abs_neg, abs_of_nonneg hleft]

theorem stopTime_of_overruns (h : Overruns acceleration target x) :
    stopTime acceleration target x = |x.2| / acceleration := if_pos h

theorem stopTime_of_not_overruns (h : ¬ Overruns acceleration target x) :
    stopTime acceleration target x = 0 := if_neg h

theorem stopTime_nonneg (ha : 0 < acceleration) : 0 ≤ stopTime acceleration target x := by
  unfold stopTime
  split_ifs
  · positivity
  · exact le_rfl

/-- The states from which nothing has to brake first. -/
theorem not_overruns_of_stopTime (ha : 0 < acceleration) (h : stopTime acceleration target x = 0) :
    ¬ Overruns acceleration target x := by
  intro hover
  rw [stopTime_of_overruns hover, div_eq_zero_iff, abs_eq_zero] at h
  exact hover.1 (h.resolve_right ha.ne')

variable (maxSpeed target) in
/-- **Braking first** is a phase. -/
theorem stop_isPhase (ha : 0 < acceleration) :
    IsPhase (Bounded maxSpeed) (stopTime acceleration target) (stop acceleration) where
  nonneg x _ := stopTime_nonneg ha
  zero x _ := stop_zero x
  mem x hx t ht hle := by
    by_cases h : Overruns acceleration target x
    · rw [stopTime_of_overruns h] at hle
      change |(stop acceleration t x).2| ≤ maxSpeed
      rw [abs_stop ha h.1 hle]
      have hx : |x.2| ≤ maxSpeed := hx
      linarith [mul_nonneg ha.le ht]
    · rw [stopTime_of_not_overruns h] at hle
      obtain rfl := le_antisymm hle ht
      rwa [stop_zero]
  remaining x hx t ht hle := by
    by_cases h : Overruns acceleration target x
    · rw [stopTime_of_overruns h] at hle ⊢
      obtain hlt | rfl := hle.lt_or_eq
      · rw [stopTime_of_overruns (h.stop ha ht hlt), abs_stop ha h.1 hle]
        field_simp
      · have hrest : (stop acceleration (|x.2| / acceleration) x).2 = 0 := by
          rw [← abs_eq_zero, abs_stop ha h.1 le_rfl, mul_div_cancel₀ _ ha.ne', sub_self]
        rw [sub_self]
        exact stopTime_of_not_overruns fun hover => hover.1 hrest
    · rw [stopTime_of_not_overruns h] at hle ⊢
      obtain rfl := le_antisymm hle ht
      rw [stop_zero, sub_zero, stopTime_of_not_overruns h]
  add x hx t u ht hu hle := by
    by_cases h : Overruns acceleration target x
    · rw [stopTime_of_overruns h] at hle
      -- the direction is kept until the component is at rest, and then no time is left
      obtain rfl | hu := hu.eq_or_lt
      · rw [add_zero, stop_zero]
      have hlt : t < |x.2| / acceleration := by linarith
      obtain ⟨direction, hdirection, hv, hsign⟩ := exists_direction ha h.1
      have hleft : 0 < |x.2| - acceleration * t := by
        rw [lt_div_iff₀ ha] at hlt
        linarith
      have hmoved := stop_eq (t := t) hv hsign
      have hv' : (stop acceleration t x).2 = direction * (|x.2| - acceleration * t) := by
        rw [hmoved]
      have hsign' : copysign acceleration (stop acceleration t x).2 = direction * acceleration := by
        rw [hv']
        obtain rfl | rfl := hdirection
        · rw [one_mul, one_mul, copysign, if_neg hleft.not_gt, abs_of_pos ha]
        · rw [neg_one_mul, neg_one_mul, copysign, if_pos (neg_neg_of_pos hleft), abs_of_pos ha]
      rw [stop_eq hv hsign, stop_eq hv' hsign', hmoved, Prod.mk.injEq]
      constructor <;> ring
    · rw [stopTime_of_not_overruns h] at hle
      obtain rfl : t = 0 := by linarith
      rw [zero_add, stop_zero]

/-! ## The motion afterwards -/

/-- The two directions. -/
abbrev Direction : Type := {direction : ℝ // direction = 1 ∨ direction = -1}

/-- **A component that need not brake first** approaches its target in one of the directions. -/
theorem mem_settled_iff (ha : 0 < acceleration) (target : ℝ) (x : ℝ × ℝ) :
    x ∈ {x ∈ Bounded maxSpeed | stopTime acceleration (some target) x = 0} ↔
      ∃ direction : Direction, ∃ y ∈ Stoppable maxSpeed acceleration,
        toward target direction.1 y = x := by
  constructor
  · rintro ⟨hx, hstop⟩
    have hx : |x.2| ≤ maxSpeed := hx
    have hover := not_overruns_of_stopTime ha hstop
    simp only [Overruns, not_and, not_or, reduceCtorEq, not_false_eq_true, true_and, not_le,
      gt_iff_lt, not_lt, Option.elim] at hover
    obtain hrest | hmoves := eq_or_ne x.2 0
    · -- at rest, on either side
      obtain hneg | hpos := lt_or_ge (target - x.1) 0
      · refine ⟨⟨-1, .inr rfl⟩, (x.1 - target, 0), ⟨le_rfl, ?_, ?_⟩, ?_⟩
        · exact (abs_nonneg _).trans hx
        · dsimp only
          nlinarith
        · exact Prod.ext (by simp [toward]) (by simp [toward, hrest])
      · refine ⟨⟨1, .inl rfl⟩, (target - x.1, 0), ⟨le_rfl, ?_, ?_⟩, ?_⟩
        · exact (abs_nonneg _).trans hx
        · dsimp only
          nlinarith
        · exact Prod.ext (by simp [toward]) (by simp [toward, hrest])
    · obtain ⟨hahead, hnear⟩ := hover hmoves
      rw [div_le_iff₀ (by positivity)] at hnear
      obtain hneg | hpos := lt_or_gt_of_ne hmoves
      · have hdistance : target - x.1 < 0 := neg_of_mul_pos_right hahead hneg.le
        rw [abs_of_neg hdistance] at hnear
        rw [abs_of_neg hneg] at hx
        refine ⟨⟨-1, .inr rfl⟩, (x.1 - target, -x.2), ⟨by linarith, hx, ?_⟩, ?_⟩
        · dsimp only
          linarith [sq x.2, neg_sq x.2]
        · simp [toward]
      · have hdistance : 0 < target - x.1 := pos_of_mul_pos_right hahead hpos.le
        rw [abs_of_pos hdistance] at hnear
        rw [abs_of_pos hpos] at hx
        refine ⟨⟨1, .inl rfl⟩, (target - x.1, x.2), ⟨by linarith, hx, ?_⟩, ?_⟩
        · dsimp only
          linarith [sq x.2]
        · simp [toward]
  · rintro ⟨⟨direction, hdirection⟩, y, hy, rfl⟩
    have hdistance := Stoppable.distance_nonneg ha hy
    have hspeed : |direction * y.2| = y.2 := by
      obtain rfl | rfl := hdirection <;> simp [abs_of_nonneg hy.1]
    refine ⟨hspeed.trans_le hy.2.1, stopTime_of_not_overruns ?_⟩
    rintro ⟨hmoves, h | h | h⟩
    · cases h
    all_goals
      dsimp only [toward, Option.elim] at hmoves h
      have hsq : direction * direction = 1 := by obtain rfl | rfl := hdirection <;> ring
      have hrest : target - (target - direction * y.1) = direction * y.1 := by ring
      have hspeedPos : 0 < y.2 := lt_of_le_of_ne hy.1 fun hzero => hmoves (by rw [← hzero, mul_zero])
      rw [hrest] at h
    · have hmul : direction * y.2 * (direction * y.1) = direction * direction * (y.2 * y.1) := by
        ring
      rw [hmul, hsq, one_mul] at h
      have hstop := hy.2.2
      nlinarith [mul_pos hspeedPos hspeedPos]
    · have habs : |direction * y.1| = y.1 := by
        obtain rfl | rfl := hdirection <;> simp [abs_of_nonneg hdistance]
      have hmul : direction * y.2 * (direction * y.2) = direction * direction * (y.2 * y.2) := by
        ring
      rw [habs, hmul, hsq, one_mul] at h
      exact absurd h (brakingDistance_le ha hy).not_gt

theorem settled_isFlow (hmax : 0 < maxSpeed) (ha : 0 < acceleration) :
    IsFlow {x ∈ Bounded maxSpeed | stopTime acceleration target x = 0}
      (settled maxSpeed acceleration target) := by
  cases target with
  | none => exact ⟨fun _ _ => rfl, fun _ hx _ _ => hx, fun _ _ _ _ _ _ => rfl⟩
  | some target =>
    exact (profile_isFlow hmax ha).of_charts (fun direction : Direction => toward target direction.1)
      (fun direction y hy t ht => approach_eq hmax ha direction.2 hy ht)
      (fun x => mem_settled_iff ha target x)

/-! ## The whole motion -/

/-- **The code's motion** brakes first, if it has to. -/
theorem advanceMotion_eq (ha : 0 < acceleration) (ht : 0 ≤ t) :
    advanceMotion x.1 x.2 target t maxSpeed acceleration =
      andThen (stopTime acceleration target) (stop acceleration)
        (settled maxSpeed acceleration target) t x := by
  unfold advanceMotion
  dsimp only
  by_cases h : Overruns acceleration target x
  · have hbrakes := h
    unfold Overruns at hbrakes
    rw [if_pos hbrakes]
    obtain hlt | hle := lt_or_ge t (|x.2| / acceleration)
    · rw [if_pos hlt, min_eq_left hlt.le, andThen_of_lt (by rwa [stopTime_of_overruns h])]
      rfl
    · have hrest : (stop acceleration (|x.2| / acceleration) x).2 = 0 := by
        rw [← abs_eq_zero, abs_stop ha h.1 le_rfl, mul_div_cancel₀ _ ha.ne', sub_self]
      rw [if_neg hle.not_gt, min_eq_right hle, andThen_of_le (by rwa [stopTime_of_overruns h]),
        stopTime_of_overruns h, settled, hrest]
      rfl
  · have hbrakes := h
    unfold Overruns at hbrakes
    rw [if_neg hbrakes, andThen_of_le (by rwa [stopTime_of_not_overruns h]),
      stopTime_of_not_overruns h, stop_zero, sub_zero]
    rfl

variable (target) in
/-- **The motion is a flow** on the components within the speed limit. -/
theorem advanceMotion_isFlow (hmax : 0 < maxSpeed) (ha : 0 < acceleration) :
    IsFlow (Bounded maxSpeed)
      (fun t x => advanceMotion x.1 x.2 target t maxSpeed acceleration) := by
  have hflow := (stop_isPhase maxSpeed target ha).isFlow
    (settled_isFlow hmax ha)
  refine ⟨fun x hx => ?_, fun x hx t ht => ?_, fun x hx t u ht hu => ?_⟩
  · rw [advanceMotion_eq ha le_rfl]
    exact hflow.zero x hx
  · rw [advanceMotion_eq ha ht]
    exact hflow.mem x hx t ht
  · rw [advanceMotion_eq ha (add_nonneg ht hu), advanceMotion_eq ha ht, advanceMotion_eq ha hu]
    exact hflow.add x hx t u ht hu

/-- **Division of an interval.** A component within the speed limit that moves for a time and then,
from the position and velocity reached, for another, toward the same target or to rest, ends as if
it had moved once for both; and in no time it does not move. -/
theorem advanceMotion_divided {position velocity : ℝ} {dt₁ dt₂ : ℝ} (hmax : 0 < maxSpeed)
    (ha : 0 < acceleration) (hv : |velocity| ≤ maxSpeed) (h₁ : 0 ≤ dt₁) (h₂ : 0 ≤ dt₂) :
    advanceMotion (advanceMotion position velocity target dt₁ maxSpeed acceleration).1
        (advanceMotion position velocity target dt₁ maxSpeed acceleration).2 target dt₂ maxSpeed
        acceleration = advanceMotion position velocity target (dt₁ + dt₂) maxSpeed acceleration ∧
      advanceMotion position velocity target 0 maxSpeed acceleration = (position, velocity) := by
  have hflow := advanceMotion_isFlow target hmax ha
  exact ⟨(hflow.add (position, velocity) hv dt₁ dt₂ h₁ h₂).symm, hflow.zero (position, velocity) hv⟩

theorem advanceMotion_divided_braking :
    advanceMotion (advanceMotion (0 : ℝ) (1 / 4) (some (1 / 100)) (1 / 10) (1 / 4) (1 / 2)).1
      (advanceMotion (0 : ℝ) (1 / 4) (some (1 / 100)) (1 / 10) (1 / 4) (1 / 2)).2
      (some (1 / 100)) 2 (1 / 4) (1 / 2) =
        advanceMotion (0 : ℝ) (1 / 4) (some (1 / 100)) (1 / 10 + 2) (1 / 4) (1 / 2) :=
  (advanceMotion_divided (by norm_num) (by norm_num) (by norm_num) (by norm_num)
    (by norm_num)).1

/-! ## The limits -/

/-- Position and velocity change within the limits of speed and acceleration. -/
def Limited (maxSpeed acceleration t : ℝ) (x z : ℝ × ℝ) : Prop :=
  |z.1 - x.1| ≤ maxSpeed * t ∧ |z.2 - x.2| ≤ acceleration * t

theorem Limited.trans (t u : ℝ) (x y z : ℝ × ℝ) (hxy : Limited maxSpeed acceleration t x y)
    (hyz : Limited maxSpeed acceleration u y z) : Limited maxSpeed acceleration (t + u) x z := by
  obtain ⟨h₁, h₂⟩ := hxy
  obtain ⟨h₁', h₂'⟩ := hyz
  constructor
  · calc |z.1 - x.1| ≤ |z.1 - y.1| + |y.1 - x.1| := abs_sub_le _ _ _
      _ ≤ maxSpeed * (t + u) := by linarith
  · calc |z.2 - x.2| ≤ |z.2 - y.2| + |y.2 - x.2| := abs_sub_le _ _ _
      _ ≤ acceleration * (t + u) := by linarith

theorem stop_limited (ha : 0 < acceleration) (hx : |x.2| ≤ maxSpeed) (ht : 0 ≤ t)
    (hle : t ≤ |x.2| / acceleration) : Limited maxSpeed acceleration t x (stop acceleration t x) := by
  obtain hrest | hmoves := eq_or_ne x.2 0
  · rw [hrest, abs_zero, zero_div] at hle
    obtain rfl := le_antisymm hle ht
    rw [stop_zero]
    simp [Limited]
  obtain ⟨direction, hdirection, hv, hsign⟩ := exists_direction ha hmoves
  have hunit : |direction| = 1 := by obtain rfl | rfl := hdirection <;> simp
  rw [le_div_iff₀ ha] at hle
  have hbrake : 0 ≤ acceleration * t * t / 2 := by positivity
  have hway : 0 ≤ |x.2| * t - acceleration * t * t / 2 := by
    have := mul_le_mul_of_nonneg_right hle ht
    linarith
  have hway' : |x.2| * t - acceleration * t * t / 2 ≤ maxSpeed * t := by
    have := mul_le_mul_of_nonneg_right hx ht
    linarith
  have hmoved := stop_eq (t := t) hv hsign
  constructor
  · rw [hmoved, add_sub_cancel_left, abs_mul, hunit, one_mul, abs_of_nonneg hway]
    exact hway'
  · have hchange : (stop acceleration t x).2 - x.2 = -(direction * (acceleration * t)) := by
      rw [hmoved]
      linear_combination -hv
    rw [hchange, abs_neg, abs_mul, hunit, one_mul, abs_of_nonneg (mul_nonneg ha.le ht)]

theorem settled_limited (hmax : 0 < maxSpeed) (ha : 0 < acceleration)
    (hx : x ∈ {x ∈ Bounded maxSpeed | stopTime acceleration target x = 0}) (ht : 0 ≤ t) :
    Limited maxSpeed acceleration t x (settled maxSpeed acceleration target t x) := by
  cases target with
  | none =>
    have hstays : settled maxSpeed acceleration none t x = x := rfl
    rw [hstays]
    simpa [Limited] using ⟨mul_nonneg hmax.le ht, mul_nonneg ha.le ht⟩
  | some target =>
    obtain ⟨⟨direction, hdirection⟩, y, hy, rfl⟩ := (mem_settled_iff ha target x).mp hx
    have hmoved : settled maxSpeed acceleration (some target) t (toward target direction y) =
      toward target direction (profile maxSpeed acceleration t y) :=
        approach_eq hmax ha hdirection hy ht
    have hunit : |direction| = 1 := by obtain rfl | rfl := hdirection <;> simp
    obtain ⟨hless, hway, hspeed⟩ := profile_steady hmax ha y hy t ht
    rw [hmoved]
    constructor
    · have hsplit : (toward target direction (profile maxSpeed acceleration t y)).1 -
          (toward target direction y).1 =
            direction * (y.1 - (profile maxSpeed acceleration t y).1) := by
        simp only [toward]
        ring
      rwa [hsplit, abs_mul, hunit, one_mul, abs_of_nonneg (sub_nonneg.mpr hless)]
    · have hsplit : (toward target direction (profile maxSpeed acceleration t y)).2 -
          (toward target direction y).2 =
            direction * ((profile maxSpeed acceleration t y).2 - y.2) := by
        simp only [toward]
        ring
      rwa [hsplit, abs_mul, hunit, one_mul]

variable (target) in
/-- **The motion keeps the limits** of speed and acceleration. -/
theorem advanceMotion_limited (hmax : 0 < maxSpeed) (ha : 0 < acceleration)
    (hx : x ∈ Bounded maxSpeed) (ht : 0 ≤ t) :
    |(advanceMotion x.1 x.2 target t maxSpeed acceleration).2| ≤ maxSpeed ∧
      Limited maxSpeed acceleration t x
        (advanceMotion x.1 x.2 target t maxSpeed acceleration) := by
  refine ⟨(advanceMotion_isFlow target hmax ha).mem x hx t ht, ?_⟩
  rw [advanceMotion_eq ha ht]
  refine (stop_isPhase maxSpeed target ha).along Limited.trans (fun x hx t ht hle => ?_)
    (fun x hx hover t ht => settled_limited hmax ha ⟨hx, hover⟩ ht) x hx t ht
  by_cases h : Overruns acceleration target x
  · rw [stopTime_of_overruns h] at hle
    exact stop_limited ha hx ht hle
  · rw [stopTime_of_not_overruns h] at hle
    obtain rfl := le_antisymm hle ht
    rw [stop_zero]
    simp [Limited]

/-! ## Motion toward a target ahead -/

/-- A component beyond the target, or on it, that need not brake first, stays there. -/
theorem settled_beyond (hmax : 0 < maxSpeed) (ha : 0 < acceleration) {target : ℝ}
    (hx : x ∈ {x ∈ Bounded maxSpeed | stopTime acceleration (some target) x = 0})
    (hbeyond : target ≤ x.1) (ht : 0 ≤ t) :
    target ≤ (settled maxSpeed acceleration (some target) t x).1 ∧
      ((settled maxSpeed acceleration (some target) t x).1 ≤ target →
        (settled maxSpeed acceleration (some target) t x).2 = 0) := by
  obtain ⟨⟨direction, hdirection⟩, y, hy, rfl⟩ := (mem_settled_iff ha target x).mp hx
  have hmoved : settled maxSpeed acceleration (some target) t (toward target direction y) =
    toward target direction (profile maxSpeed acceleration t y) :=
      approach_eq hmax ha hdirection hy ht
  have hdistance := Stoppable.distance_nonneg ha hy
  have hend := (profile_isFlow hmax ha).mem y hy t ht
  have hdistance' := Stoppable.distance_nonneg ha hend
  rw [hmoved]
  simp only [toward] at hbeyond ⊢
  obtain rfl | rfl := hdirection
  · have hzero : y.1 = 0 := by linarith
    rw [(profile_of_distance_zero hmax ha hy hzero ht).2]
    simp
  · refine ⟨by linarith, fun hle => ?_⟩
    have hzero : (profile maxSpeed acceleration t y).1 = 0 := by linarith
    rw [(profile_of_distance_zero hmax ha hend hzero le_rfl).1, mul_zero]

theorem settled_ahead (hmax : 0 < maxSpeed) (ha : 0 < acceleration) {target : ℝ}
    (hx : x ∈ {x ∈ Bounded maxSpeed | stopTime acceleration (some target) x = 0})
    (hahead : x.1 ≤ target) (hv : 0 ≤ x.2) (ht : 0 ≤ t) :
    x.1 ≤ (settled maxSpeed acceleration (some target) t x).1 ∧
      0 ≤ (settled maxSpeed acceleration (some target) t x).2 ∧
      ((target - x.1) / maxSpeed + maxSpeed / acceleration ≤ t →
        target ≤ (settled maxSpeed acceleration (some target) t x).1) := by
  obtain ⟨⟨direction, hdirection⟩, y, hy, rfl⟩ := (mem_settled_iff ha target x).mp hx
  have hmoved : settled maxSpeed acceleration (some target) t (toward target direction y) =
    toward target direction (profile maxSpeed acceleration t y) :=
      approach_eq hmax ha hdirection hy ht
  have hdistance := Stoppable.distance_nonneg ha hy
  have hend := (profile_isFlow hmax ha).mem y hy t ht
  obtain ⟨hless, -, -⟩ := profile_steady hmax ha y hy t ht
  rw [hmoved]
  simp only [toward] at hahead hv ⊢
  obtain rfl | rfl := hdirection
  · refine ⟨by linarith, by linarith [hend.1], fun harrives => ?_⟩
    rw [one_mul, sub_sub_cancel] at harrives
    rw [profile_arrives hmax ha hy harrives, mul_zero, sub_zero]
  · have hzero : y.1 = 0 := by linarith
    obtain ⟨rfl, hrest⟩ := profile_of_distance_zero hmax ha hy hzero ht
    rw [hrest]
    simp

/-- **Outward.** A component that does not move away from a target ahead of it never goes back
before it reaches the target, and reaches it in the time to cruise all the way and to stop once. -/
theorem advanceMotion_outward (hmax : 0 < maxSpeed) (ha : 0 < acceleration) {target : ℝ}
    (hx : x ∈ Bounded maxSpeed) (hahead : x.1 ≤ target) (hv : 0 ≤ x.2) (ht : 0 ≤ t) :
    x.1 ≤ (advanceMotion x.1 x.2 (some target) t maxSpeed acceleration).1 ∧
      ((advanceMotion x.1 x.2 (some target) t maxSpeed acceleration).1 ≤ target →
        0 ≤ (advanceMotion x.1 x.2 (some target) t maxSpeed acceleration).2) ∧
      ((target - x.1) / maxSpeed + maxSpeed / acceleration ≤ t →
        target ≤ (advanceMotion x.1 x.2 (some target) t maxSpeed acceleration).1) := by
  have hphase := stop_isPhase maxSpeed (some target) ha
  rw [advanceMotion_eq ha ht]
  by_cases h : Overruns acceleration (some target) x
  · have hstop := stopTime_of_overruns h
    have hpos : 0 < x.2 := lt_of_le_of_ne hv (Ne.symm h.1)
    have hsign : copysign acceleration x.2 = 1 * acceleration := by
      rw [copysign, if_neg hpos.not_gt, abs_of_pos ha, one_mul]
    have hmoved : ∀ u, stop acceleration u x =
        (x.1 + 1 * (x.2 * u - acceleration * u * u / 2), 1 * (x.2 - acceleration * u)) :=
      fun u => stop_eq (one_mul _).symm hsign
    have hspeed : x.2 ≤ maxSpeed := (abs_of_pos hpos).symm.trans_le hx
    rw [abs_of_pos hpos] at hstop
    obtain hlt | hle := lt_or_ge t (stopTime acceleration (some target) x)
    · rw [andThen_of_lt hlt, hmoved]
      rw [hstop] at hlt
      have hleft : acceleration * t < x.2 := by
        rw [lt_div_iff₀ ha] at hlt
        linarith
      refine ⟨?_, fun _ => ?_, fun harrives => ?_⟩
      · dsimp only
        nlinarith
      · dsimp only
        linarith
      · -- the component would have stopped
        have hway : 0 ≤ (target - x.1) / maxSpeed := div_nonneg (sub_nonneg.mpr hahead) hmax.le
        have hlong : x.2 / acceleration ≤ maxSpeed / acceleration :=
          div_le_div_of_nonneg_right hspeed ha.le
        linarith
    · -- it stops beyond the target
      have hend := hphase.ends hx
      have hbeyond : target ≤ (stop acceleration (stopTime acceleration (some target) x) x).1 := by
        have hway : x.2 * (x.2 / acceleration) - acceleration * (x.2 / acceleration) *
            (x.2 / acceleration) / 2 = x.2 * x.2 / (2 * acceleration) := by
          field_simp
          ring
        rw [hmoved, hstop]
        dsimp only
        rw [hway, one_mul]
        obtain h | h | h := h.2
        · cases h
        · dsimp only [Option.elim] at h
          have : target - x.1 ≤ 0 := nonpos_of_mul_nonpos_right h hpos
          have : 0 ≤ x.2 * x.2 / (2 * acceleration) := by positivity
          linarith
        · dsimp only [Option.elim] at h
          linarith [le_abs_self (target - x.1)]
      obtain ⟨hstays, hrests⟩ := settled_beyond hmax ha hend hbeyond (sub_nonneg.mpr hle)
      rw [andThen_of_le hle]
      exact ⟨hahead.trans hstays, fun h => (hrests h).ge, fun _ => hstays⟩
  · have hstop := stopTime_of_not_overruns h
    obtain ⟨h₁, h₂, h₃⟩ := settled_ahead hmax ha ⟨hx, hstop⟩ hahead hv ht
    rw [andThen_of_le (hstop.trans_le ht), hstop, sub_zero, stop_zero]
    exact ⟨h₁, fun _ => h₂, h₃⟩

end BoulderFrame.Motion
