import BoulderFrame.Framing.MotionFlow

/-!
# A component settles at its target

A component at rest, or on the way to its target and still able to stop there, never passes the
target and never goes back: it comes nearer until it is exactly there. Any other component gets
into such a state in the time in which it can brake to rest.

## Main definitions

* `Settles`: the component can stop at its target

## Main results

* `settles_iff`: these are the components that need not brake first
* `advanceMotion_settles`: no overshoot, exact arrival, and how the others get there
-/

namespace BoulderFrame.Motion

/-- The component does not move away from its target, nor too fast to stop there. -/
def Settles (acceleration target : ℝ) (x : ℝ × ℝ) : Prop :=
  0 ≤ x.2 * (target - x.1) ∧ x.2 * x.2 ≤ 2 * acceleration * |target - x.1|

variable {maxSpeed acceleration target t : ℝ} {x y : ℝ × ℝ}

/-- **A component settles** if it need not brake first. -/
theorem settles_iff (ha : 0 < acceleration) :
    Settles acceleration target x ↔ ¬ Overruns acceleration (some target) x := by
  have hnear : x.2 * x.2 / (2 * acceleration) > |target - x.1| ↔
      ¬ x.2 * x.2 ≤ 2 * acceleration * |target - x.1| := by
    rw [gt_iff_lt, lt_div_iff₀ (by positivity), mul_comm, not_le]
  simp only [Settles, Overruns, Option.elim, reduceCtorEq, false_or, hnear]
  constructor
  · rintro ⟨hahead, hstop⟩ ⟨hmoves, haway | hfast⟩
    · -- a component that moves at its target is too fast to stop there
      have hzero := le_antisymm haway hahead
      have hdistance := (mul_eq_zero.mp hzero).resolve_left hmoves
      rw [hdistance, abs_zero, mul_zero] at hstop
      exact hmoves (mul_self_eq_zero.mp (le_antisymm hstop (mul_self_nonneg _)))
    · exact hfast hstop
  · intro h
    obtain hrest | hmoves := eq_or_ne x.2 0
    · rw [hrest]
      simp only [zero_mul, le_refl, true_and]
      positivity
    · have h := not_or.mp fun hcause => h ⟨hmoves, hcause⟩
      exact ⟨(not_le.mp h.1).le, not_not.mp h.2⟩

/-! ## In the direction of the target -/

/-- A component that settles moves along the profile of an approach. -/
theorem exists_approach (hmax : 0 < maxSpeed) (ha : 0 < acceleration) (hx : |x.2| ≤ maxSpeed)
    (h : Settles acceleration target x) :
    ∃ direction : Direction, ∃ y ∈ Stoppable maxSpeed acceleration,
      toward target direction.1 y = x ∧ ∀ t, 0 ≤ t →
        advanceMotion x.1 x.2 (some target) t maxSpeed acceleration =
          toward target direction.1 (profile maxSpeed acceleration t y) := by
  have hstop := stopTime_of_not_overruns ((settles_iff ha).mp h)
  obtain ⟨direction, y, hy, rfl⟩ := (mem_settled_iff ha target x).mp ⟨hx, hstop⟩
  refine ⟨direction, y, hy, rfl, fun t ht => ?_⟩
  rw [advanceMotion_eq ha ht, andThen_of_le (hstop.trans_le ht), hstop, sub_zero, stop_zero]
  exact approach_eq hmax ha direction.2 hy ht

theorem settles_toward (ha : 0 < acceleration) (direction : Direction)
    (hy : y ∈ Stoppable maxSpeed acceleration) :
    Settles acceleration target (toward target direction.1 y) :=
  (settles_iff ha).mpr (not_overruns_of_stopTime ha
    ((mem_settled_iff ha target _).mpr ⟨direction, y, hy, rfl⟩).2)

theorem abs_toward (ha : 0 < acceleration) (direction : Direction)
    (hy : y ∈ Stoppable maxSpeed acceleration) :
    |target - (toward target direction.1 y).1| = y.1 := by
  have hdistance := Stoppable.distance_nonneg ha hy
  have hrest : target - (toward target direction.1 y).1 = direction.1 * y.1 := by
    simp only [toward]
    ring
  rw [hrest]
  obtain ⟨direction, rfl | rfl⟩ := direction <;> simp [abs_of_nonneg hdistance]

/-- On the same side, the nearer component is on the way of the farther one. -/
theorem toward_mem_uIcc (direction : Direction) {z : ℝ × ℝ} (hz : 0 ≤ z.1) (hle : z.1 ≤ y.1) :
    (toward target direction.1 z).1 ∈ Set.uIcc (toward target direction.1 y).1 target := by
  simp only [toward]
  obtain ⟨direction, rfl | rfl⟩ := direction
  · rw [Set.uIcc_of_le (by linarith)]
    exact ⟨by linarith, by linarith⟩
  · rw [Set.uIcc_of_ge (by linarith)]
    exact ⟨by linarith, by linarith⟩

/-! ## The motion -/

/-- **No overshoot.** A component that settles stays between its place and the target, settles
still, comes no farther with time, and is at the target after the time to cruise all the way and to
stop once. -/
theorem advanceMotion_approaches (hmax : 0 < maxSpeed) (ha : 0 < acceleration)
    (hx : |x.2| ≤ maxSpeed) (h : Settles acceleration target x) (ht : 0 ≤ t) :
    (advanceMotion x.1 x.2 (some target) t maxSpeed acceleration).1 ∈ Set.uIcc x.1 target ∧
      Settles acceleration target
        (advanceMotion x.1 x.2 (some target) t maxSpeed acceleration) ∧
      (∀ u, t ≤ u →
        |target - (advanceMotion x.1 x.2 (some target) u maxSpeed acceleration).1| ≤
          |target - (advanceMotion x.1 x.2 (some target) t maxSpeed acceleration).1|) ∧
      (|target - x.1| / maxSpeed + maxSpeed / acceleration ≤ t →
        advanceMotion x.1 x.2 (some target) t maxSpeed acceleration = (target, 0)) := by
  obtain ⟨direction, y, hy, rfl, hmoved⟩ := exists_approach hmax ha hx h
  have hflow := profile_isFlow hmax ha
  have hend := hflow.mem y hy t ht
  rw [hmoved t ht]
  refine ⟨?_, settles_toward ha direction hend, fun u hu => ?_, fun harrives => ?_⟩
  · exact toward_mem_uIcc direction (Stoppable.distance_nonneg ha hend)
      (profile_steady hmax ha y hy t ht).1
  · -- the rest of the time is an approach from the state reached
    have hlater := hflow.add y hy t (u - t) ht (sub_nonneg.mpr hu)
    rw [add_sub_cancel] at hlater
    rw [hmoved u (ht.trans hu), abs_toward ha direction hend,
      abs_toward ha direction (hflow.mem y hy u (ht.trans hu)), hlater]
    exact (profile_steady hmax ha _ hend _ (sub_nonneg.mpr hu)).1
  · rw [abs_toward ha direction hy] at harrives
    rw [profile_arrives hmax ha hy harrives]
    simp [toward]

/-- **Any component** settles once it has had the time to brake to rest. -/
theorem settles_of_stopped (hmax : 0 < maxSpeed) (ha : 0 < acceleration) (hx : |x.2| ≤ maxSpeed)
    (h : ¬ Settles acceleration target x) (ht : |x.2| / acceleration ≤ t) :
    Settles acceleration target
      (advanceMotion x.1 x.2 (some target) t maxSpeed acceleration) := by
  have hstop := stopTime_of_overruns (not_not.mp (mt (settles_iff ha).mpr h))
  have hnonneg : 0 ≤ |x.2| / acceleration := by positivity
  have hend := (stop_isPhase maxSpeed (some target) ha).ends hx
  rw [advanceMotion_eq ha (hnonneg.trans ht), andThen_of_le (hstop.trans_le ht)]
  have hafter := (settled_isFlow hmax ha).mem _ hend _ (sub_nonneg.mpr (hstop.trans_le ht))
  exact (settles_iff ha).mpr (not_overruns_of_stopTime ha hafter.2)

/-- **The motion of a component.** One that settles stays between its place and the target, settles
still, comes no farther with time, and arrives exactly in bounded time; any other one settles after
the time in which it can brake to rest; and the speed limit is always kept. -/
theorem advanceMotion_settles {position velocity : ℝ} (hmax : 0 < maxSpeed) (ha : 0 < acceleration)
    (hv : |velocity| ≤ maxSpeed) :
    (Settles acceleration target (position, velocity) → ∀ dt, 0 ≤ dt →
      (advanceMotion position velocity (some target) dt maxSpeed acceleration).1 ∈
          Set.uIcc position target ∧
        Settles acceleration target
          (advanceMotion position velocity (some target) dt maxSpeed acceleration) ∧
        (∀ dt', dt ≤ dt' →
          |target - (advanceMotion position velocity (some target) dt' maxSpeed acceleration).1| ≤
            |target - (advanceMotion position velocity (some target) dt maxSpeed
              acceleration).1|) ∧
        (|target - position| / maxSpeed + maxSpeed / acceleration ≤ dt →
          advanceMotion position velocity (some target) dt maxSpeed acceleration =
            (target, 0))) ∧
      (¬ Settles acceleration target (position, velocity) → ∀ dt, |velocity| / acceleration ≤ dt →
        Settles acceleration target
          (advanceMotion position velocity (some target) dt maxSpeed acceleration)) ∧
      ∀ dt, 0 ≤ dt →
        |(advanceMotion position velocity (some target) dt maxSpeed acceleration).2| ≤
          maxSpeed :=
  ⟨fun h _ hdt => advanceMotion_approaches (x := (position, velocity)) hmax ha hv h hdt,
    fun h _ hdt => settles_of_stopped (x := (position, velocity)) hmax ha hv h hdt,
    fun _ hdt => (advanceMotion_limited (x := (position, velocity)) (some target) hmax ha hv hdt).1⟩

/-- A component that cruises toward a target. -/
theorem advanceMotion_settles_cruising :
    (advanceMotion (0 : ℝ) (1 / 4) (some 1) 1 (1 / 4) (1 / 2)).1 ∈ Set.uIcc (0 : ℝ) 1 ∧
      advanceMotion (0 : ℝ) (1 / 4) (some 1) 5 (1 / 4) (1 / 2) = (1, 0) := by
  have hsettles : Settles (1 / 2) 1 (0, 1 / 4) := by norm_num [Settles]
  have hspeed : |(1 / 4 : ℝ)| ≤ 1 / 4 := by norm_num
  have h := (advanceMotion_settles (by norm_num) (by norm_num) hspeed).1 hsettles
  exact ⟨(h 1 (by norm_num)).1, (h 5 (by norm_num)).2.2.2 (by norm_num)⟩

end BoulderFrame.Motion
