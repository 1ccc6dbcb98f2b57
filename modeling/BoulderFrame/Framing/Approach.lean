import BoulderFrame.Framing.Motion
import BoulderFrame.Library.PhasedFlow

/-!
# The approach to a target

Seen from the target, with a distance and a speed toward it, an approach has three phases: the
component accelerates to the peak speed, cruises at it, and brakes to rest at the target. The peak
speed is the greatest one from which the component can still stop there. Each phase runs out along
itself, so that the approach may be recomputed at any time.

## Main definitions

* `Stoppable`: the distances and speeds from which the component can stop at the target
* `profile`: the three phases of an approach
* `toward`: position and velocity from either direction

## Main results

* `profile_isFlow`: an approach may be recomputed at any time
* `profile_steady`, `profile_arrives`: it keeps the limits, and ends at the target in bounded time
* `approach_eq`: the code's approach is this profile, in either direction
-/

namespace BoulderFrame.Motion

/-! ## Constant acceleration -/

/-- The distance to the target and the speed toward it, after a time of constant acceleration. -/
noncomputable def glide (acceleration t : ℝ) (y : ℝ × ℝ) : ℝ × ℝ :=
  (y.1 - (y.2 * t + acceleration * t * t / 2), y.2 + acceleration * t)

theorem glide_zero (c : ℝ) (y : ℝ × ℝ) : glide c 0 y = y := by simp [glide]

theorem glide_add (c t u : ℝ) (y : ℝ × ℝ) : glide c (t + u) y = glide c u (glide c t y) := by
  simp only [glide, Prod.mk.injEq]
  constructor <;> ring

section Limits

variable (maxSpeed acceleration : ℝ)

/-- From this distance, and with this speed toward it, the component can stop at the target. -/
def Stoppable : Set (ℝ × ℝ) :=
  {y | 0 ≤ y.2 ∧ y.2 ≤ maxSpeed ∧ y.2 ^ 2 ≤ 2 * acceleration * y.1}

noncomputable def peakSpeed (y : ℝ × ℝ) : ℝ :=
  min maxSpeed (√(acceleration * y.1 + y.2 * y.2 / 2))

noncomputable def accelerateTime (y : ℝ × ℝ) : ℝ :=
  max 0 ((peakSpeed maxSpeed acceleration y - y.2) / acceleration)

/-- At the peak speed: how long until the component has to brake. -/
noncomputable def cruiseTime (y : ℝ × ℝ) : ℝ := (y.1 - y.2 * y.2 / (2 * acceleration)) / y.2

noncomputable def brakeTime (y : ℝ × ℝ) : ℝ := y.2 / acceleration

/-- Accelerate, cruise, brake, and rest at the target. -/
noncomputable def profile : ℝ → ℝ × ℝ → ℝ × ℝ :=
  andThen (accelerateTime maxSpeed acceleration) (glide acceleration)
    (andThen (cruiseTime acceleration) (glide 0)
      (andThen (brakeTime acceleration) (glide (-acceleration)) fun _ _ => (0, 0)))

end Limits

section Phases

variable {maxSpeed acceleration : ℝ} {y : ℝ × ℝ}

theorem Stoppable.distance_nonneg (ha : 0 < acceleration) (hy : y ∈ Stoppable maxSpeed acceleration) :
    0 ≤ y.1 :=
  nonneg_of_mul_nonneg_right ((sq_nonneg y.2).trans hy.2.2) (by positivity)

/-- The energy from which the peak speed is computed. -/
theorem sq_le_energy (hy : y ∈ Stoppable maxSpeed acceleration) :
    y.2 ^ 2 ≤ acceleration * y.1 + y.2 * y.2 / 2 := by
  have := hy.2.2
  linarith [sq y.2]

theorem le_peakSpeed (hy : y ∈ Stoppable maxSpeed acceleration) :
    y.2 ≤ peakSpeed maxSpeed acceleration y :=
  le_min hy.2.1 (Real.le_sqrt_of_sq_le (sq_le_energy hy))

theorem peakSpeed_sq_le (hmax : 0 < maxSpeed) (hy : y ∈ Stoppable maxSpeed acceleration) :
    peakSpeed maxSpeed acceleration y ^ 2 ≤ acceleration * y.1 + y.2 * y.2 / 2 := by
  have henergy := (sq_nonneg y.2).trans (sq_le_energy hy)
  calc peakSpeed maxSpeed acceleration y ^ 2
      ≤ √(acceleration * y.1 + y.2 * y.2 / 2) ^ 2 :=
        pow_le_pow_left₀ (le_min hmax.le (Real.sqrt_nonneg _)) (min_le_right _ _) 2
    _ = _ := Real.sq_sqrt henergy

theorem accelerateTime_eq (ha : 0 < acceleration) (hy : y ∈ Stoppable maxSpeed acceleration) :
    accelerateTime maxSpeed acceleration y =
      (peakSpeed maxSpeed acceleration y - y.2) / acceleration :=
  max_eq_right (div_nonneg (sub_nonneg.mpr (le_peakSpeed hy)) ha.le)

/-- Acceleration keeps the energy, and so the peak speed. -/
theorem peakSpeed_glide (t : ℝ) : peakSpeed maxSpeed acceleration (glide acceleration t y) =
    peakSpeed maxSpeed acceleration y := by
  have henergy : acceleration * (y.1 - (y.2 * t + acceleration * t * t / 2)) +
      (y.2 + acceleration * t) * (y.2 + acceleration * t) / 2 =
        acceleration * y.1 + y.2 * y.2 / 2 := by ring
  rw [peakSpeed, peakSpeed, glide, henergy]

/-- **Accelerating** to the peak speed is a phase. -/
theorem accelerate_isPhase (hmax : 0 < maxSpeed) (ha : 0 < acceleration) :
    IsPhase (Stoppable maxSpeed acceleration) (accelerateTime maxSpeed acceleration)
      (glide acceleration) where
  nonneg y _ := le_max_left _ _
  zero y _ := glide_zero _ y
  mem y hy t ht hle := by
    rw [accelerateTime_eq ha hy, le_div_iff₀ ha] at hle
    have hpeak : y.2 + acceleration * t ≤ peakSpeed maxSpeed acceleration y := by linarith
    have hnonneg : 0 ≤ y.2 + acceleration * t := add_nonneg hy.1 (by positivity)
    have hsq := (pow_le_pow_left₀ hnonneg hpeak 2).trans (peakSpeed_sq_le hmax hy)
    refine ⟨hnonneg, hpeak.trans (min_le_left _ _), ?_⟩
    simp only [glide]
    nlinarith
  remaining y hy t ht hle := by
    rw [accelerateTime_eq ha hy] at hle ⊢
    have hdiv : (peakSpeed maxSpeed acceleration y - (y.2 + acceleration * t)) / acceleration =
        (peakSpeed maxSpeed acceleration y - y.2) / acceleration - t := by
      field_simp
      ring
    rw [accelerateTime, peakSpeed_glide, glide, hdiv]
    exact max_eq_right (sub_nonneg.mpr hle)
  add y _ t u _ _ _ := glide_add _ t u y

/-! ## Cruising -/

/-- The states where the acceleration is over. -/
theorem speed_eq_peakSpeed (ha : 0 < acceleration) (hy : y ∈ Stoppable maxSpeed acceleration)
    (hover : accelerateTime maxSpeed acceleration y = 0) :
    y.2 = peakSpeed maxSpeed acceleration y := by
  rw [accelerateTime_eq ha hy, div_eq_zero_iff, or_iff_left ha.ne', sub_eq_zero] at hover
  exact hover.symm

theorem accelerateTime_eq_zero (ha : 0 < acceleration) (h : peakSpeed maxSpeed acceleration y ≤ y.2) :
    accelerateTime maxSpeed acceleration y = 0 :=
  max_eq_left (div_nonpos_of_nonpos_of_nonneg (sub_nonpos.mpr h) ha.le)

/-- A component at its peak speed that need not brake yet has the greatest speed. -/
theorem speed_eq_maxSpeed (hy : y ∈ Stoppable maxSpeed acceleration)
    (hpeak : y.2 = peakSpeed maxSpeed acceleration y)
    (hlt : y.2 ^ 2 < 2 * acceleration * y.1) : y.2 = maxSpeed := by
  rw [peakSpeed, eq_comm, min_eq_iff] at hpeak
  obtain ⟨h, -⟩ | ⟨h, -⟩ := hpeak
  · exact h.symm
  · have hsq := Real.sqrt_eq_iff_mul_self_eq ((sq_nonneg y.2).trans (sq_le_energy hy)) hy.1 |>.mp h
    linarith [sq y.2]

theorem brakingDistance_le (ha : 0 < acceleration) (hy : y ∈ Stoppable maxSpeed acceleration) :
    y.2 * y.2 / (2 * acceleration) ≤ y.1 := by
  rw [div_le_iff₀ (by positivity), ← sq]
  linarith [hy.2.2]

theorem cruiseTime_nonneg (ha : 0 < acceleration) (hy : y ∈ Stoppable maxSpeed acceleration) :
    0 ≤ cruiseTime acceleration y :=
  div_nonneg (sub_nonneg.mpr (brakingDistance_le ha hy)) hy.1

variable (maxSpeed) in
/-- **Cruising** at the peak speed is a phase. -/
theorem cruise_isPhase (ha : 0 < acceleration) :
    IsPhase {y ∈ Stoppable maxSpeed acceleration | accelerateTime maxSpeed acceleration y = 0}
      (cruiseTime acceleration) (glide 0) where
  nonneg y hy := cruiseTime_nonneg ha hy.1
  zero y _ := glide_zero _ y
  mem y hy t ht hle := by
    obtain rfl | hpos := ht.eq_or_lt
    · rw [glide_zero]
      exact hy
    obtain ⟨hstop, hover⟩ := hy
    have hspeed : 0 < y.2 := by
      refine lt_of_le_of_ne hstop.1 fun hzero => ?_
      rw [cruiseTime, ← hzero, div_zero] at hle
      exact absurd hle hpos.not_ge
    rw [cruiseTime, le_div_iff₀ hspeed, le_sub_iff_add_le, ← le_sub_iff_add_le',
      div_le_iff₀ (by positivity)] at hle
    have hlt : y.2 ^ 2 < 2 * acceleration * y.1 := by nlinarith [mul_pos hpos hspeed]
    have hmax := speed_eq_maxSpeed hstop (speed_eq_peakSpeed ha hstop hover) hlt
    have hglide : glide 0 t y = (y.1 - y.2 * t, y.2) := by
      simp only [glide, Prod.mk.injEq]
      constructor <;> ring
    rw [hglide]
    refine ⟨⟨hstop.1, hstop.2.1, ?_⟩, accelerateTime_eq_zero ha ?_⟩
    · dsimp only
      nlinarith
    · exact (min_le_left _ _).trans hmax.ge
  remaining y hy t ht hle := by
    obtain hzero | hspeed := hy.1.1.eq_or_lt
    · have hnone : cruiseTime acceleration y = 0 := by rw [cruiseTime, ← hzero, div_zero]
      obtain rfl := le_antisymm (hle.trans_eq hnone) ht
      rw [glide_zero, sub_zero]
    · simp only [cruiseTime, glide]
      field_simp
      ring
  add y _ t u _ _ _ := glide_add _ t u y

/-! ## Braking -/

/-- The states where it is time to brake. -/
theorem sq_speed_of_cruised (hmax : 0 < maxSpeed) (ha : 0 < acceleration)
    (hy : y ∈ {y ∈ Stoppable maxSpeed acceleration | accelerateTime maxSpeed acceleration y = 0})
    (hover : cruiseTime acceleration y = 0) : y.2 ^ 2 = 2 * acceleration * y.1 := by
  obtain ⟨hstop, haccelerated⟩ := hy
  obtain h | hzero := div_eq_zero_iff.mp hover
  · have hdistance := sub_eq_zero.mp h
    rw [eq_div_iff (by positivity)] at hdistance
    linarith [sq y.2]
  · -- at rest with no speed to reach, at the target
    have hpeak := speed_eq_peakSpeed ha hstop haccelerated
    have hnonneg := Stoppable.distance_nonneg ha hstop
    rw [hzero, peakSpeed, eq_comm, min_eq_iff, hzero] at hpeak
    obtain ⟨h, -⟩ | ⟨h, -⟩ := hpeak
    · exact absurd h hmax.ne'
    · rw [Real.sqrt_eq_zero (by positivity)] at h
      rw [hzero]
      linarith

/-- **Braking** to rest is a phase. -/
theorem brake_isPhase (hmax : 0 < maxSpeed) (ha : 0 < acceleration) :
    IsPhase {y ∈ {y ∈ Stoppable maxSpeed acceleration |
        accelerateTime maxSpeed acceleration y = 0} | cruiseTime acceleration y = 0}
      (brakeTime acceleration) (glide (-acceleration)) where
  nonneg y hy := div_nonneg hy.1.1.1 ha.le
  zero y _ := glide_zero _ y
  mem y hy t ht hle := by
    have hsq := sq_speed_of_cruised hmax ha hy.1 hy.2
    have hstop := hy.1.1
    rw [brakeTime, le_div_iff₀ ha] at hle
    have hnonneg : 0 ≤ (glide (-acceleration) t y).2 := by
      simp only [glide]
      linarith
    have hsq' : (glide (-acceleration) t y).2 ^ 2 =
        2 * acceleration * (glide (-acceleration) t y).1 := by
      simp only [glide]
      linear_combination hsq
    have hle' : (glide (-acceleration) t y).2 ≤ maxSpeed := by
      simp only [glide]
      linarith [hstop.2.1, mul_nonneg ha.le ht]
    refine ⟨⟨⟨hnonneg, hle', hsq'.le⟩, accelerateTime_eq_zero ha ?_⟩, ?_⟩
    · have henergy : acceleration * (glide (-acceleration) t y).1 + (glide (-acceleration) t y).2 *
          (glide (-acceleration) t y).2 / 2 = (glide (-acceleration) t y).2 ^ 2 := by
        linarith [sq (glide (-acceleration) t y).2]
      rw [peakSpeed, henergy, Real.sqrt_sq hnonneg]
      exact min_le_right _ _
    · have hdistance : (glide (-acceleration) t y).1 - (glide (-acceleration) t y).2 *
          (glide (-acceleration) t y).2 / (2 * acceleration) = 0 := by
        rw [← sq, hsq']
        field_simp
        ring
      rw [cruiseTime, hdistance, zero_div]
  remaining y _ t _ _ := by
    simp only [brakeTime, glide]
    field_simp
    ring
  add y _ t u _ _ _ := glide_add _ t u y

/-- A stopped component is at the target. -/
theorem eq_zero_of_braked (hmax : 0 < maxSpeed) (ha : 0 < acceleration)
    (hy : y ∈ {y ∈ Stoppable maxSpeed acceleration | accelerateTime maxSpeed acceleration y = 0})
    (hcruised : cruiseTime acceleration y = 0) (hbraked : brakeTime acceleration y = 0) :
    y = (0, 0) := by
  have hspeed : y.2 = 0 := (div_eq_zero_iff.mp hbraked).resolve_right ha.ne'
  have hsq := sq_speed_of_cruised hmax ha hy hcruised
  rw [hspeed] at hsq
  have hdistance : y.1 = 0 := by
    have h : 2 * acceleration * y.1 = 0 := by linarith
    exact (mul_eq_zero.mp h).resolve_left (by positivity)
  exact Prod.ext hdistance hspeed

/-! ## The approach -/

theorem rest_isFlow : IsFlow {(0, 0)} (fun (_ : ℝ) (_ : ℝ × ℝ) => ((0, 0) : ℝ × ℝ)) where
  zero _ h := h.symm
  mem _ _ _ _ := rfl
  add _ _ _ _ _ _ := rfl

/-- **An approach** may be recomputed at any time. -/
theorem profile_isFlow (hmax : 0 < maxSpeed) (ha : 0 < acceleration) :
    IsFlow (Stoppable maxSpeed acceleration) (profile maxSpeed acceleration) := by
  refine (accelerate_isPhase hmax ha).isFlow ((cruise_isPhase maxSpeed ha).isFlow
    ((brake_isPhase hmax ha).isFlow ?_))
  have hrest : {y ∈ {y ∈ {y ∈ Stoppable maxSpeed acceleration |
      accelerateTime maxSpeed acceleration y = 0} | cruiseTime acceleration y = 0} |
        brakeTime acceleration y = 0} = {(0, 0)} := by
    ext y
    constructor
    · rintro ⟨⟨hy, hcruised⟩, hbraked⟩
      exact eq_zero_of_braked hmax ha hy hcruised hbraked
    · rintro rfl
      refine ⟨⟨⟨⟨le_rfl, hmax.le, by norm_num⟩, accelerateTime_eq_zero ha ?_⟩, ?_⟩, ?_⟩
      · refine (min_le_right _ _).trans (le_of_eq ?_)
        norm_num
      · norm_num [cruiseTime]
      · norm_num [brakeTime]
  rw [hrest]
  exact rest_isFlow

/-- Toward the target, the distance shrinks no faster than at the greatest speed, and the speed
changes no faster than by the acceleration. -/
def Steady (maxSpeed acceleration t : ℝ) (y z : ℝ × ℝ) : Prop :=
  z.1 ≤ y.1 ∧ y.1 - z.1 ≤ maxSpeed * t ∧ |z.2 - y.2| ≤ acceleration * t

theorem Steady.trans (t u : ℝ) (x y z : ℝ × ℝ) (hxy : Steady maxSpeed acceleration t x y)
    (hyz : Steady maxSpeed acceleration u y z) : Steady maxSpeed acceleration (t + u) x z := by
  obtain ⟨h₁, h₂, h₃⟩ := hxy
  obtain ⟨h₁', h₂', h₃'⟩ := hyz
  refine ⟨h₁'.trans h₁, by linarith, ?_⟩
  calc |z.2 - x.2| ≤ |z.2 - y.2| + |y.2 - x.2| := abs_sub_le _ _ _
    _ ≤ acceleration * (t + u) := by linarith

/-- A glide between two speeds within the limits is steady. -/
theorem glide_steady {c t : ℝ} (ht : 0 ≤ t) (hc : |c| ≤ acceleration) (hy : 0 ≤ y.2)
    (hmax : y.2 ≤ maxSpeed) (hend : 0 ≤ (glide c t y).2) (hend' : (glide c t y).2 ≤ maxSpeed) :
    Steady maxSpeed acceleration t y (glide c t y) := by
  simp only [glide] at hend hend' ⊢
  -- the distance is the mean of the two speeds, times the time
  have hmean : y.2 * t + c * t * t / 2 = (y.2 + (y.2 + c * t)) / 2 * t := by ring
  refine ⟨?_, ?_, ?_⟩
  · have : 0 ≤ (y.2 + (y.2 + c * t)) / 2 * t := by positivity
    dsimp only
    linarith
  · have : (y.2 + (y.2 + c * t)) / 2 * t ≤ maxSpeed * t :=
      mul_le_mul_of_nonneg_right (by linarith) ht
    dsimp only
    linarith
  · rw [add_sub_cancel_left, abs_mul, abs_of_nonneg ht]
    exact mul_le_mul_of_nonneg_right hc ht

/-- **An approach** keeps the limits. -/
theorem profile_steady (hmax : 0 < maxSpeed) (ha : 0 < acceleration) :
    ∀ y ∈ Stoppable maxSpeed acceleration, ∀ t, 0 ≤ t →
      Steady maxSpeed acceleration t y (profile maxSpeed acceleration t y) := by
  have haccelerate := accelerate_isPhase hmax ha
  have hcruise := cruise_isPhase maxSpeed ha
  have hbrake := brake_isPhase hmax ha
  refine haccelerate.along Steady.trans (fun y hy t ht hle => ?_) fun y hy hover =>
    hcruise.along Steady.trans (fun y hy t ht hle => ?_) (fun y hy hcruised =>
      hbrake.along Steady.trans (fun y hy t ht hle => ?_) (fun y hy hbraked t ht => ?_) y
        ⟨hy, hcruised⟩) y ⟨hy, hover⟩
  · have hend := haccelerate.mem y hy t ht hle
    exact glide_steady ht (abs_of_pos ha).le hy.1 hy.2.1 hend.1 hend.2.1
  · have hend := (hcruise.mem y hy t ht hle).1
    exact glide_steady ht (abs_zero.trans_le ha.le) hy.1.1 hy.1.2.1 hend.1 hend.2.1
  · have hend := (hbrake.mem y hy t ht hle).1.1
    exact glide_steady ht (by rw [abs_neg, abs_of_pos ha]) hy.1.1.1 hy.1.1.2.1 hend.1 hend.2.1
  · obtain rfl := eq_zero_of_braked hmax ha hy.1 hy.2 hbraked
    exact ⟨le_rfl, by simpa using mul_nonneg hmax.le ht, by simpa using mul_nonneg ha.le ht⟩

/-- The speed at the end of the acceleration. -/
theorem speed_accelerated (ha : 0 < acceleration) (hy : y ∈ Stoppable maxSpeed acceleration) :
    y.2 + acceleration * accelerateTime maxSpeed acceleration y =
      peakSpeed maxSpeed acceleration y := by
  rw [accelerateTime_eq ha hy]
  field_simp
  ring

/-- The three phases together are no longer than to cruise all the way and to stop once. -/
theorem phases_le (hmax : 0 < maxSpeed) (ha : 0 < acceleration)
    (hy : y ∈ Stoppable maxSpeed acceleration) :
    accelerateTime maxSpeed acceleration y +
      cruiseTime acceleration (glide acceleration (accelerateTime maxSpeed acceleration y) y) +
        peakSpeed maxSpeed acceleration y / acceleration ≤ y.1 / maxSpeed + maxSpeed / acceleration := by
  have hspeed := speed_accelerated ha hy
  have htime := accelerateTime_eq ha hy
  set peak := peakSpeed maxSpeed acceleration y with hpeak
  set time := accelerateTime maxSpeed acceleration y
  have hdistance : (glide acceleration time y).1 - peak * peak / (2 * acceleration) =
      y.1 - (2 * peak ^ 2 - y.2 ^ 2) / (2 * acceleration) := by
    simp only [glide]
    rw [htime]
    field_simp
    ring
  have hcruise : cruiseTime acceleration (glide acceleration time y) =
      (y.1 - (2 * peak ^ 2 - y.2 ^ 2) / (2 * acceleration)) / peak := by
    have hend : (glide acceleration time y).2 = peak := hspeed
    rw [cruiseTime, hend, hdistance]
  rw [hcruise, htime]
  obtain h | h := min_choice maxSpeed (√(acceleration * y.1 + y.2 * y.2 / 2))
  · have hpeakMax : peak = maxSpeed := h
    rw [hpeakMax]
    have hsum : y.1 / maxSpeed + maxSpeed / acceleration - ((maxSpeed - y.2) / acceleration +
        (y.1 - (2 * maxSpeed ^ 2 - y.2 ^ 2) / (2 * acceleration)) / maxSpeed +
          maxSpeed / acceleration) = y.2 * (2 * maxSpeed - y.2) / (2 * acceleration * maxSpeed) := by
      field_simp
      ring
    have hrest : 0 ≤ y.2 * (2 * maxSpeed - y.2) / (2 * acceleration * maxSpeed) :=
      div_nonneg (mul_nonneg hy.1 (by linarith [hy.2.1])) (by positivity)
    linarith
  · -- the component brakes as soon as it has accelerated
    have henergy : 0 ≤ acceleration * y.1 + y.2 * y.2 / 2 :=
      (sq_nonneg y.2).trans (sq_le_energy hy)
    have hsq : peak ^ 2 = acceleration * y.1 + y.2 * y.2 / 2 := by
      rw [hpeak, peakSpeed, h, Real.sq_sqrt henergy]
    have hnone : y.1 - (2 * peak ^ 2 - y.2 ^ 2) / (2 * acceleration) = 0 := by
      rw [hsq]
      field_simp
      ring
    rw [hnone, zero_div, add_zero]
    have hdistance : y.1 = (peak ^ 2 - y.2 ^ 2 / 2) / acceleration := by
      rw [hsq]
      field_simp
      ring
    have hsum : (peak ^ 2 - y.2 ^ 2 / 2) / acceleration / maxSpeed + maxSpeed / acceleration -
        ((peak - y.2) / acceleration + peak / acceleration) =
          ((maxSpeed - peak) ^ 2 + y.2 * (2 * maxSpeed - y.2) / 2) / (acceleration * maxSpeed) := by
      field_simp
      ring
    have hrest : 0 ≤ ((maxSpeed - peak) ^ 2 + y.2 * (2 * maxSpeed - y.2) / 2) /
        (acceleration * maxSpeed) :=
      div_nonneg (add_nonneg (sq_nonneg _)
        (div_nonneg (mul_nonneg hy.1 (by linarith [hy.2.1])) two_pos.le)) (by positivity)
    rw [hdistance]
    linarith

/-- **An approach** ends at the target. -/
theorem profile_arrives (hmax : 0 < maxSpeed) (ha : 0 < acceleration)
    (hy : y ∈ Stoppable maxSpeed acceleration) {t : ℝ}
    (ht : y.1 / maxSpeed + maxSpeed / acceleration ≤ t) :
    profile maxSpeed acceleration t y = (0, 0) := by
  have hsum := (phases_le hmax ha hy).trans ht
  have haccelerated := (accelerate_isPhase hmax ha).ends hy
  have hcruise := cruiseTime_nonneg ha haccelerated.1
  have hpeak := div_nonneg (hy.1.trans (le_peakSpeed hy)) ha.le
  have hbrake : brakeTime acceleration (glide 0 (cruiseTime acceleration (glide acceleration
      (accelerateTime maxSpeed acceleration y) y)) (glide acceleration
        (accelerateTime maxSpeed acceleration y) y)) =
          peakSpeed maxSpeed acceleration y / acceleration := by
    simp only [brakeTime, glide, zero_mul, add_zero, speed_accelerated ha hy]
  rw [profile, andThen_of_le (by linarith), andThen_of_le (by linarith),
    andThen_of_le (by rw [hbrake]; linarith)]

/-! ## The code's approach -/

/-- The position and the velocity of a component, from the direction of the target. -/
def toward (target direction : ℝ) (y : ℝ × ℝ) : ℝ × ℝ :=
  (target - direction * y.1, direction * y.2)

/-- A component at the target stays there. -/
theorem profile_of_distance_zero (hmax : 0 < maxSpeed) (ha : 0 < acceleration)
    (hy : y ∈ Stoppable maxSpeed acceleration) (hzero : y.1 = 0) {t : ℝ} (ht : 0 ≤ t) :
    y = (0, 0) ∧ profile maxSpeed acceleration t y = (0, 0) := by
  have hrest : ∀ z ∈ Stoppable maxSpeed acceleration, z.1 ≤ 0 → z = (0, 0) := by
    intro z hz hle
    have hdistance := le_antisymm hle (Stoppable.distance_nonneg ha hz)
    have hsq := hz.2.2
    rw [hdistance, mul_zero] at hsq
    exact Prod.ext hdistance (pow_eq_zero_iff two_ne_zero |>.mp (le_antisymm hsq (sq_nonneg _)))
  exact ⟨hrest y hy hzero.le, hrest _ ((profile_isFlow hmax ha).mem y hy t ht)
    ((profile_steady hmax ha y hy t ht).1.trans_eq hzero)⟩

/-- **The code's approach** is the profile, in either direction. -/
theorem approach_eq (hmax : 0 < maxSpeed) (ha : 0 < acceleration) {target direction : ℝ}
    (hdirection : direction = 1 ∨ direction = -1) (hy : y ∈ Stoppable maxSpeed acceleration)
    {t : ℝ} (ht : 0 ≤ t) :
    approach (toward target direction y).1 (toward target direction y).2 target t maxSpeed
      acceleration = toward target direction (profile maxSpeed acceleration t y) := by
  obtain hzero | hpos := (Stoppable.distance_nonneg ha hy).eq_or_lt
  · obtain ⟨rfl, hrest⟩ := profile_of_distance_zero hmax ha hy hzero.symm ht
    rw [hrest, approach]
    simp [toward]
  have hdistance : target - (target - direction * y.1) = direction * y.1 := by ring
  have habs : |direction * y.1| = y.1 := by
    obtain rfl | rfl := hdirection <;> simp [abs_of_pos hpos]
  have hsign : copysign 1 (direction * y.1) = direction := by
    obtain rfl | rfl := hdirection
    · simp [copysign, hpos.le]
    · simp [copysign, hpos]
  have hunit : direction * y.2 * direction = y.2 := by
    obtain rfl | rfl := hdirection <;> ring
  have hmove : ¬ (direction * y.1 = 0 ∧ direction * y.2 = 0) := by
    rintro ⟨h, -⟩
    obtain rfl | rfl := hdirection <;> linarith
  have haccelerated := (accelerate_isPhase hmax ha).ends hy
  have hspeed := speed_accelerated ha hy
  have hpeak : min maxSpeed (Elementary.sqrt (acceleration * y.1 + y.2 * y.2 / 2)) =
    peakSpeed maxSpeed acceleration y := rfl
  have htime : max 0 ((peakSpeed maxSpeed acceleration y - y.2) / acceleration) =
    accelerateTime maxSpeed acceleration y := rfl
  unfold approach toward
  dsimp only
  rw [hdistance, if_neg hmove, habs, hsign, hunit, hpeak, htime, profile]
  set peak := peakSpeed maxSpeed acceleration y
  set time := accelerateTime maxSpeed acceleration y
  -- the state in which the code starts to cruise
  have hspeed₁ : (glide acceleration time y).2 = peak := hspeed
  have hdistance₁ : (glide acceleration time y).1 = y.1 - (y.2 + peak) * time / 2 := by
    simp only [glide]
    rw [← hspeed]
    ring
  have hreach : max 0 (y.1 - (y.2 + peak) * time / 2 - peak * peak / (2 * acceleration)) =
      (glide acceleration time y).1 - peak * peak / (2 * acceleration) := by
    rw [← hdistance₁]
    have := brakingDistance_le ha haccelerated.1
    rw [hspeed₁] at this
    exact max_eq_right (sub_nonneg.mpr this)
  have hpeakPos : 0 < peak := by
    refine lt_min hmax (Real.sqrt_pos.mpr ?_)
    have := mul_pos ha hpos
    have := mul_self_nonneg y.2
    linarith
  have hcruise : ((glide acceleration time y).1 - peak * peak / (2 * acceleration)) / peak =
      cruiseTime acceleration (glide acceleration time y) := by rw [cruiseTime, hspeed₁]
  have hreached : (glide acceleration time y).1 - peak * peak / (2 * acceleration) =
      peak * cruiseTime acceleration (glide acceleration time y) := by
    rw [← hcruise, mul_div_cancel₀ _ hpeakPos.ne']
  have hbrake : ∀ u, brakeTime acceleration (glide 0 u (glide acceleration time y)) =
      peak / acceleration := by
    intro u
    simp only [brakeTime, glide, zero_mul, add_zero, hspeed]
  rw [hreach, if_pos hpeakPos.ne', hcruise, hreached]
  set cruise := cruiseTime acceleration (glide acceleration time y)
  have hbegin : time = accelerateTime maxSpeed acceleration y := rfl
  have hend : cruise = cruiseTime acceleration (glide acceleration time y) := rfl
  split_ifs with h₁ h₂ h₃ <;> rw [hbegin] at h₁
  · rw [andThen_of_lt h₁]
    simp only [glide, Prod.mk.injEq, and_true]
    ring
  · rw [hend] at h₂
    rw [andThen_of_le (not_lt.mp h₁), andThen_of_lt h₂]
    simp only [glide, Prod.mk.injEq, zero_mul, add_zero, hspeed, and_true]
    rw [← hspeed]
    ring
  · rw [hend] at h₂
    rw [andThen_of_le (not_lt.mp h₁), andThen_of_le (not_lt.mp h₂),
      andThen_of_lt ((hbrake cruise).symm ▸ h₃), ← hend]
    simp only [glide, Prod.mk.injEq, zero_mul, add_zero, hspeed]
    refine ⟨?_, by ring⟩
    rw [← hspeed]
    ring
  · rw [hend] at h₂
    rw [andThen_of_le (not_lt.mp h₁), andThen_of_le (not_lt.mp h₂),
      andThen_of_le ((hbrake cruise).symm ▸ not_lt.mp h₃)]
    simp

end Phases

end BoulderFrame.Motion
