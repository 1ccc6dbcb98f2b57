import BoulderFrame.Framing.MotionFlow
import BoulderFrame.Framing.SeedSafety

/-!
# The motion of the causal crop planner

Between two frames the visible crop moves within the limits of speed, unless it had to be
corrected; the velocities that are carried from frame to frame keep their limits, and belong to the
crop that is shown.

## Main definitions

* `stateAfter`: what the planner carries after some measurements
* `SpeedLimited`: the carried velocities do not exceed their limits
* `MovedCrop`, `MovedVelocities`: the crop and the velocities change within the limits

## Main results

* `planFrom_frame`: each frame of a plan is one iteration, from the state before it
* `adjust_moved`: an adjustment keeps the limits
* `frame_moved`: so does an iteration, whatever corrects the crop
* `plan_motion_limits`: the limits along every accepted sequence of measurements
-/

namespace BoulderFrame.DeterministicCropPlanner

open Motion (advanceMotion_limited)

variable (P : DeterministicCropPlanner)

/-! ## The state before each frame -/

section States

variable {K : Type} [Field K] [LinearOrder K] [Elementary K]

/-- The locals of `plan` after the given measurements. -/
def stateAfter : SeedState K → List (FrameMeasurement K) → Except PlanError (SeedState K)
  | st, [] => return st
  | st, measurement :: rest => do
    let (_, st) ← P.frame st measurement
    stateAfter st rest

variable {P} {st : SeedState K} {ms : List (FrameMeasurement K)}
  {frames : List (CropRect K × PlannerFrameTrace K)}

/-- **Each frame of a run** is one iteration, from the state before it to the state after it. -/
theorem planFrom_frame (h : P.planFrom st ms = .ok frames) {i : ℕ} {m : FrameMeasurement K}
    (hm : ms[i]? = some m) : ∃ before after frame, P.stateAfter st (ms.take i) = .ok before ∧
      P.frame before m = .ok (frame, after) ∧ P.stateAfter st (ms.take (i + 1)) = .ok after ∧
      frames[i]? = some frame := by
  induction ms generalizing st frames i with
  | nil => cases hm
  | cons measurement rest ih =>
    obtain ⟨⟨frame, after⟩, hframe, h⟩ := Except.bind_eq_ok.mp h
    obtain ⟨others, hothers, h⟩ := Except.bind_eq_ok.mp h
    obtain rfl := Except.ok.inj h
    cases i with
    | zero =>
      obtain rfl := Option.some.inj hm
      refine ⟨st, after, frame, rfl, hframe, ?_, rfl⟩
      rw [zero_add, List.take_succ_cons, List.take_zero, stateAfter, hframe]
      rfl
    | succ i =>
      obtain ⟨before, next, frame', hbefore, hnext, hafter, hat⟩ := ih hothers hm
      refine ⟨before, next, frame', ?_, hnext, ?_, hat⟩
      · rw [List.take_succ_cons, stateAfter, hframe]
        exact hbefore
      · rw [List.take_succ_cons, stateAfter, hframe]
        exact hafter

/-- **An iteration**, peeled apart. -/
theorem iteration_eq_ok {m : FrameMeasurement K} {crop : CropRect K} {trace : PlannerFrameTrace K}
    {st' : SeedState K} (h : P.frame st m = .ok ((crop, trace), st')) :
    ∃ dt c, elapsed st.previousTimestamp m.timestampMs = .ok dt ∧
      P.candidate st m.detectorBounds dt = .ok c ∧
      P.corrected c.candidate m.detectorBounds = .ok (crop, trace.sourceAspectLimited) ∧
      (trace.containmentOverride = true ↔
        crop ≠ c.candidate ∧ trace.sourceAspectLimited = false) ∧
      st' = ⟨some crop, some m.timestampMs, synchronized c.candidate crop c.velocities,
        c.scaleAdjusting, c.centerAdjusting⟩ := by
  obtain ⟨dt, hdt, h⟩ := Except.bind_eq_ok.mp h
  obtain ⟨c, hc, h⟩ := Except.bind_eq_ok.mp h
  obtain ⟨⟨crop', limited⟩, hcorrected, h⟩ := Except.bind_eq_ok.mp h
  obtain ⟨hframe, rfl⟩ := Prod.mk.inj (Except.ok.inj h)
  obtain ⟨rfl, rfl⟩ := Prod.mk.inj hframe
  exact ⟨dt, c, hdt, hc, hcorrected, by simp, rfl⟩

end States

/-! ## One adjustment -/

/-- The carried velocities do not exceed their limits. -/
structure SpeedLimited (velocities : ℝ × ℝ × ℝ) : Prop where
  x : |velocities.1| ≤ panMaxSpeed
  y : |velocities.2.1| ≤ panMaxSpeed
  zoom : |velocities.2.2| ≤ zoomMaxSpeed

/-- The visible crop moves within the limits of speed. -/
structure MovedCrop (dt : ℝ) (previous crop : CropRect ℝ) : Prop where
  x : |crop.center.x - previous.center.x| ≤ panMaxSpeed * dt * P.sourceWidth
  y : |crop.center.y - previous.center.y| ≤ panMaxSpeed * dt * P.sourceHeight
  zoom : |Real.log crop.height - Real.log previous.height| ≤ zoomMaxSpeed * dt

/-- The velocities change within the limits of acceleration. -/
structure MovedVelocities (dt : ℝ) (velocities velocities' : ℝ × ℝ × ℝ) : Prop where
  x : |velocities'.1 - velocities.1| ≤ panMaxAcceleration * dt
  y : |velocities'.2.1 - velocities.2.1| ≤ panMaxAcceleration * dt
  zoom : |velocities'.2.2 - velocities.2.2| ≤ zoomMaxAcceleration * dt

section Adjustment

variable {P}

theorem panMaxSpeed_pos : (0 : ℝ) < panMaxSpeed := by norm_num [panMaxSpeed]

theorem panMaxAcceleration_pos : (0 : ℝ) < panMaxAcceleration := by norm_num [panMaxAcceleration]

theorem zoomMaxSpeed_pos : (0 : ℝ) < zoomMaxSpeed := by norm_num [zoomMaxSpeed]

theorem zoomMaxAcceleration_pos : (0 : ℝ) < zoomMaxAcceleration := by norm_num [zoomMaxAcceleration]

/-- **One pan axis** keeps its limits, in source pixels. -/
theorem pan_moved {v dt : ℝ} {source : ℤ} (hsource : 0 < source) (hv : |v| ≤ panMaxSpeed)
    (hdt : 0 ≤ dt) (centerAdjusting : Bool) (center target : ℝ) :
    |(pan centerAdjusting center v target source dt).1 - center| ≤ panMaxSpeed * dt * source ∧
      |(pan centerAdjusting center v target source dt).2| ≤ panMaxSpeed ∧
      |(pan centerAdjusting center v target source dt).2 - v| ≤ panMaxAcceleration * dt := by
  have hsource' : (0 : ℝ) < source := by exact_mod_cast hsource
  unfold pan
  by_cases hmoves : centerAdjusting = true ∨ v ≠ 0
  · rw [if_pos hmoves]
    obtain ⟨hlimit, hway, hchange⟩ := advanceMotion_limited
      (if centerAdjusting then some (target / source) else none) (x := (center / source, v))
      panMaxSpeed_pos panMaxAcceleration_pos hv hdt
    refine ⟨?_, hlimit, hchange⟩
    dsimp only
    set moved := advanceMotion (center / source) v
      (if centerAdjusting then some (target / source) else none) dt panMaxSpeed panMaxAcceleration
    have hpixels : moved.1 * source - center = (moved.1 - center / source) * source := by
      field_simp
    rw [hpixels, abs_mul, abs_of_pos hsource']
    exact mul_le_mul_of_nonneg_right hway hsource'.le
  · rw [if_neg hmoves, sub_self, sub_self, abs_zero]
    have := panMaxSpeed_pos
    exact ⟨by positivity, hv, mul_nonneg panMaxAcceleration_pos.le hdt⟩

/-- What a zoom did: nothing, or a motion of the logarithm of the height. -/
structure Zoomed (previous desired : CropRect ℝ) (v dt w h v' : ℝ) (scaleAdjusting : Bool) :
    Prop where
  previous_pos : 0 < previous.height
  height_pos : 0 < h
  width : w = previous.width ∧ h = previous.height ∨ w = h * P.aspectRatio.valueFloat
  moved : (Real.log h, v') = advanceMotion (Real.log previous.height) v
    (if scaleAdjusting then some (Real.log desired.height) else none) dt zoomMaxSpeed
    zoomMaxAcceleration

/-- The end of the zoom, from the motion of the logarithm of the height. -/
theorem zoomed_of_moved {previous desired : CropRect ℝ} {v dt w h v' : ℝ} {scaleAdjusting : Bool}
    {target : Option ℝ} {moved : ℝ × ℝ} (hp : 0 < previous.height)
    (hd : scaleAdjusting = true → 0 < desired.height)
    (htarget : target = if scaleAdjusting then some (Real.log desired.height) else none)
    (hmoved : moved = advanceMotion (Real.log previous.height) v target dt zoomMaxSpeed
      zoomMaxAcceleration)
    (hzoom : (if moved.1 ≠ Real.log previous.height then
        (pure (P.widthFor (if target = some moved.1 then desired.height else Elementary.exp moved.1),
          if target = some moved.1 then desired.height else Elementary.exp moved.1, moved.2) :
            Except PlanError _)
      else pure (previous.width, previous.height, moved.2)) = .ok (w, h, v')) :
    P.Zoomed previous desired v dt w h v' scaleAdjusting := by
  subst htarget
  have hfirst := congrArg Prod.fst hmoved
  have hsecond := congrArg Prod.snd hmoved
  split at hzoom
  · obtain ⟨rfl, hsize⟩ := Prod.mk.inj (Except.ok.inj hzoom)
    obtain ⟨rfl, rfl⟩ := Prod.mk.inj hsize
    obtain hreached | hother := em ((if scaleAdjusting = true then some (Real.log desired.height)
      else none) = some moved.1)
    · -- the target itself
      obtain ⟨hopen, htarget⟩ := Option.ite_none_right_eq_some.mp hreached
      have hlog : Real.log desired.height = moved.1 := Option.some.inj htarget
      rw [if_pos hreached]
      exact ⟨hp, hd hopen, .inr (widthFor_eq _), Prod.ext (hlog.trans hfirst) hsecond⟩
    · rw [if_neg hother, elementary_exp]
      exact ⟨hp, Real.exp_pos _, .inr (widthFor_eq _),
        Prod.ext ((Real.log_exp _).trans hfirst) hsecond⟩
  · rename_i hsame
    obtain ⟨rfl, hsize⟩ := Prod.mk.inj (Except.ok.inj hzoom)
    obtain ⟨rfl, rfl⟩ := Prod.mk.inj hsize
    exact ⟨hp, hp, .inl ⟨rfl, rfl⟩, Prod.ext ((not_not.mp hsame).symm.trans hfirst) hsecond⟩

/-- **The zoom**, peeled apart. -/
theorem zoom_eq_ok {previous desired : CropRect ℝ} {v dt w h v' : ℝ} {scaleAdjusting : Bool}
    (hzoom : P.zoom scaleAdjusting previous desired v dt = .ok (w, h, v')) :
    (scaleAdjusting = false ∧ v = 0 ∧ w = previous.width ∧ h = previous.height ∧ v' = v) ∨
      P.Zoomed previous desired v dt w h v' scaleAdjusting := by
  unfold zoom at hzoom
  by_cases hmoves : scaleAdjusting = true ∨ v ≠ 0
  · rw [if_pos hmoves] at hzoom
    obtain ⟨position, hposition, hzoom⟩ := Except.bind_eq_ok.mp hzoom
    obtain ⟨hp, hposition⟩ := Except.ok_of_guard hposition
    have hp := not_le.mp hp
    obtain rfl := Except.ok.inj hposition
    right
    cases scaleAdjusting with
    | true =>
      obtain ⟨target, htarget, hzoom⟩ := Except.bind_eq_ok.mp hzoom
      unfold checkedLog at htarget
      split at htarget
      · cases htarget
      · rename_i hd
        obtain rfl := Except.ok.inj htarget
        exact zoomed_of_moved hp (fun _ => not_le.mp hd) rfl rfl hzoom
    | false =>
      obtain ⟨target, htarget, hzoom⟩ := Except.bind_eq_ok.mp hzoom
      obtain rfl := Except.ok.inj htarget
      exact zoomed_of_moved hp nofun rfl rfl hzoom
  · rw [if_neg hmoves] at hzoom
    obtain ⟨rfl, hsize⟩ := Prod.mk.inj (Except.ok.inj hzoom)
    obtain ⟨rfl, rfl⟩ := Prod.mk.inj hsize
    obtain ⟨hclosed, hrest⟩ := not_or.mp hmoves
    exact .inl ⟨Bool.eq_false_iff.mpr hclosed, not_not.mp hrest, rfl, rfl, rfl⟩

/-- **The zoom** keeps its limits. -/
theorem zoom_moved {previous desired : CropRect ℝ} {v dt w h v' : ℝ} {scaleAdjusting : Bool}
    (hv : |v| ≤ zoomMaxSpeed) (hdt : 0 ≤ dt)
    (hzoom : P.zoom scaleAdjusting previous desired v dt = .ok (w, h, v')) :
    |Real.log h - Real.log previous.height| ≤ zoomMaxSpeed * dt ∧ |v'| ≤ zoomMaxSpeed ∧
      |v' - v| ≤ zoomMaxAcceleration * dt := by
  obtain ⟨-, rfl, -, rfl, rfl⟩ | hzoomed := zoom_eq_ok hzoom
  · rw [sub_self, sub_self, abs_zero]
    exact ⟨mul_nonneg zoomMaxSpeed_pos.le hdt, zoomMaxSpeed_pos.le,
      mul_nonneg zoomMaxAcceleration_pos.le hdt⟩
  · obtain ⟨hlimit, hway, hchange⟩ := advanceMotion_limited
      (if scaleAdjusting then some (Real.log desired.height) else none)
      (x := (Real.log previous.height, v)) zoomMaxSpeed_pos zoomMaxAcceleration_pos hv hdt
    rw [← hzoomed.moved] at hlimit hway hchange
    exact ⟨hway, hlimit, hchange⟩

/-- **An adjustment**, by its components. -/
structure Adjusted (previous desired : CropRect ℝ) (scaleAdjusting centerAdjusting : Bool)
    (velocities : ℝ × ℝ × ℝ) (dt : ℝ) (crop : CropRect ℝ) (velocities' : ℝ × ℝ × ℝ) : Prop where
  x : (crop.center.x, velocities'.1) =
    pan centerAdjusting previous.center.x velocities.1 desired.center.x P.sourceWidth dt
  y : (crop.center.y, velocities'.2.1) =
    pan centerAdjusting previous.center.y velocities.2.1 desired.center.y P.sourceHeight dt
  zoom : P.zoom scaleAdjusting previous desired velocities.2.2 dt =
    .ok (crop.width, crop.height, velocities'.2.2)

/-- An origin that is kept when nothing changes belongs to the center all the same. -/
theorem origin_center {x center origin size size' : ℝ} (h : center = origin + size / 2) :
    (if x = center ∧ size' = size then origin else x - size' / 2) + size' / 2 = x := by
  split_ifs with hsame
  · rw [hsame.1, hsame.2, h]
  · ring

theorem adjust_eq_ok {previous desired crop : CropRect ℝ} {velocities velocities' : ℝ × ℝ × ℝ}
    {scaleAdjusting centerAdjusting : Bool} {dt : ℝ}
    (h : P.adjust previous desired scaleAdjusting centerAdjusting velocities dt =
      .ok (crop, velocities')) :
    P.Adjusted previous desired scaleAdjusting centerAdjusting velocities dt crop velocities' := by
  unfold adjust at h
  split at h
  · rename_i hrest
    simp only [Bool.and_eq_true, Bool.not_eq_true', decide_eq_true_eq] at hrest
    obtain ⟨⟨rfl, rfl⟩, rfl⟩ := hrest
    obtain ⟨rfl, rfl⟩ := Prod.mk.inj (Except.ok.inj h)
    exact ⟨by simp [pan], by simp [pan], by simp [zoom]⟩
  · obtain ⟨vx, vy, vz⟩ := velocities
    obtain ⟨⟨x, vx'⟩, hx⟩ : ∃ moved, pan centerAdjusting previous.center.x vx desired.center.x
      P.sourceWidth dt = moved := ⟨_, rfl⟩
    obtain ⟨⟨y, vy'⟩, hy⟩ : ∃ moved, pan centerAdjusting previous.center.y vy desired.center.y
      P.sourceHeight dt = moved := ⟨_, rfl⟩
    simp only [hx, hy] at h
    obtain ⟨⟨w, height, vz'⟩, hzoom, h⟩ := Except.bind_eq_ok.mp h
    obtain ⟨rfl, rfl⟩ := Prod.mk.inj (Except.ok.inj h)
    refine ⟨?_, ?_, hzoom⟩
    · rw [hx]
      exact Prod.ext (origin_center rfl) rfl
    · rw [hy]
      exact Prod.ext (origin_center rfl) rfl

/-- **An adjustment keeps the limits.** -/
theorem Adjusted.moved {previous desired crop : CropRect ℝ} {velocities velocities' : ℝ × ℝ × ℝ}
    {scaleAdjusting centerAdjusting : Bool} {dt : ℝ}
    (h : P.Adjusted previous desired scaleAdjusting centerAdjusting velocities dt crop velocities')
    (hv : SpeedLimited velocities) (hdt : 0 ≤ dt) :
    P.MovedCrop dt previous crop ∧ SpeedLimited velocities' ∧
      MovedVelocities dt velocities velocities' := by
  have hx := pan_moved P.sourceWidth_pos hv.x hdt centerAdjusting previous.center.x desired.center.x
  have hy := pan_moved P.sourceHeight_pos hv.y hdt centerAdjusting previous.center.y desired.center.y
  have hz := zoom_moved hv.zoom hdt h.zoom
  rw [← h.x] at hx
  rw [← h.y] at hy
  exact ⟨⟨hx.1, hy.1, hz.1⟩, ⟨hx.2.1, hy.2.1, hz.2.1⟩, ⟨hx.2.2, hy.2.2, hz.2.2⟩⟩

end Adjustment

/-! ## One frame -/

section Frame

variable {P} {st st' : SeedState ℝ} {m : FrameMeasurement ℝ} {dt : ℝ}

theorem elapsed_nonneg {previous : Option ℤ} {timestamp : ℤ}
    (h : elapsed previous timestamp = .ok dt) : 0 ≤ dt ∧ ∀ t ∈ previous,
      dt = ((timestamp - t : ℤ) : ℝ) / 1000 := by
  unfold elapsed at h
  obtain ⟨-, h⟩ := Except.ok_of_guard h
  cases previous with
  | none =>
    obtain rfl := Except.ok.inj h
    exact ⟨le_rfl, fun _ => nofun⟩
  | some previous =>
    obtain ⟨hlt, h⟩ := Except.ok_of_guard h
    obtain rfl := Except.ok.inj h
    refine ⟨div_nonneg ?_ (by norm_num), ?_⟩
    · exact_mod_cast sub_nonneg.mpr (not_le.mp hlt).le
    · rintro t ⟨⟩
      rfl

/-- On a miss the pan stops, and so does an inward zoom. -/
theorem speedLimited_missed (hv : SpeedLimited st.velocities) :
    SpeedLimited (0, 0, max 0 st.velocities.2.2) := by
  refine ⟨?_, ?_, ?_⟩
  · rw [abs_zero]
    exact panMaxSpeed_pos.le
  · rw [abs_zero]
    exact panMaxSpeed_pos.le
  · rw [abs_of_nonneg (le_max_left _ _)]
    exact max_le zoomMaxSpeed_pos.le ((le_abs_self _).trans hv.zoom)

/-- **The candidate** keeps the limits; on a frame with a box its velocities are those before,
within the limits of acceleration. -/
theorem candidate_moved {c : Candidate ℝ} (hv : SpeedLimited st.velocities) (hdt : 0 ≤ dt)
    (h : P.candidate st m.detectorBounds dt = .ok c) :
    SpeedLimited c.velocities ∧ (∀ previous ∈ st.previous, P.MovedCrop dt previous c.candidate) ∧
      (m.detectorBounds.isSome → MovedVelocities dt st.velocities c.velocities) := by
  have hrest : MovedVelocities dt st.velocities st.velocities := by
    have := mul_nonneg panMaxAcceleration_pos.le hdt
    have := mul_nonneg zoomMaxAcceleration_pos.le hdt
    constructor <;> simpa
  unfold candidate at h
  cases hbox : m.detectorBounds with
  | none =>
    simp only [hbox, missCandidate] at h
    cases hprevious : st.previous with
    | none =>
      rw [hprevious] at h
      obtain rfl := Except.ok.inj h
      exact ⟨hv, fun _ => nofun, nofun⟩
    | some previous =>
      rw [hprevious] at h
      obtain ⟨⟨crop, velocities⟩, hadjust, h⟩ := Except.bind_eq_ok.mp h
      obtain rfl := Except.ok.inj h
      obtain ⟨hmoved, hlimited, -⟩ := (adjust_eq_ok hadjust).moved (speedLimited_missed hv) hdt
      refine ⟨hlimited, ?_, nofun⟩
      rintro _ ⟨⟩
      exact hmoved
  | some detection =>
    simp only [hbox, detectedCandidate] at h
    obtain ⟨desired, -, h⟩ := Except.bind_eq_ok.mp h
    cases hprevious : st.previous with
    | none =>
      rw [hprevious] at h
      obtain rfl := Except.ok.inj h
      exact ⟨hv, fun _ => nofun, fun _ => hrest⟩
    | some previous =>
      rw [hprevious] at h
      obtain ⟨observedFraction, -, h⟩ := Except.bind_eq_ok.mp h
      obtain ⟨xError, -, h⟩ := Except.bind_eq_ok.mp h
      obtain ⟨yError, -, h⟩ := Except.bind_eq_ok.mp h
      obtain ⟨⟨crop, velocities⟩, hadjust, h⟩ := Except.bind_eq_ok.mp h
      obtain rfl := Except.ok.inj h
      obtain ⟨hmoved, hlimited, haccelerated⟩ := (adjust_eq_ok hadjust).moved hv hdt
      refine ⟨hlimited, ?_, fun _ => haccelerated⟩
      rintro _ ⟨⟩
      exact hmoved

/-- Corrections only stop components. -/
theorem SpeedLimited.synchronized {candidate crop : CropRect ℝ} {velocities : ℝ × ℝ × ℝ}
    (h : SpeedLimited velocities) : SpeedLimited (synchronized candidate crop velocities) := by
  unfold DeterministicCropPlanner.synchronized
  split
  · exact h
  · refine ⟨?_, ?_, ?_⟩ <;> dsimp only <;> split
    · exact h.x
    · exact abs_zero.trans_le panMaxSpeed_pos.le
    · exact h.y
    · exact abs_zero.trans_le panMaxSpeed_pos.le
    · exact h.zoom
    · exact abs_zero.trans_le zoomMaxSpeed_pos.le

/-- The components that a correction moved have no velocity after it. -/
structure Stopped (candidate crop : CropRect ℝ) (velocities : ℝ × ℝ × ℝ) : Prop where
  x : crop.center.x ≠ candidate.center.x → velocities.1 = 0
  y : crop.center.y ≠ candidate.center.y → velocities.2.1 = 0
  zoom : crop.height ≠ candidate.height → velocities.2.2 = 0

theorem synchronized_stopped (candidate crop : CropRect ℝ) (velocities : ℝ × ℝ × ℝ) :
    Stopped candidate crop (synchronized candidate crop velocities) := by
  unfold synchronized
  split
  · rename_i hsame
    subst hsame
    exact ⟨fun h => absurd rfl h, fun h => absurd rfl h, fun h => absurd rfl h⟩
  · exact ⟨fun h => if_neg h, fun h => if_neg h, fun h => if_neg h⟩

/-- **One iteration** keeps the limits, and after a correction starts from the crop shown. -/
theorem frame_moved {crop : CropRect ℝ} {trace : PlannerFrameTrace ℝ}
    (hv : SpeedLimited st.velocities) (h : P.frame st m = .ok ((crop, trace), st')) :
    ∃ dt c, elapsed st.previousTimestamp m.timestampMs = .ok dt ∧
      P.candidate st m.detectorBounds dt = .ok c ∧ SpeedLimited st'.velocities ∧
      Stopped c.candidate crop st'.velocities ∧
      (trace.containmentOverride = false → trace.sourceAspectLimited = false →
        (∀ previous ∈ st.previous, P.MovedCrop dt previous crop) ∧
        (m.detectorBounds.isSome → MovedVelocities dt st.velocities st'.velocities)) := by
  obtain ⟨dt, c, hdt, hc, -, hoverride, rfl⟩ := iteration_eq_ok h
  obtain ⟨hlimited, hcrop, hvelocities⟩ := candidate_moved hv (elapsed_nonneg hdt).1 hc
  refine ⟨dt, c, hdt, hc, hlimited.synchronized, synchronized_stopped _ _ _, fun hno hno' => ?_⟩
  have hsame : crop = c.candidate := by
    by_contra hne
    rw [hoverride.mpr ⟨hne, hno'⟩] at hno
    cases hno
  subst hsame
  refine ⟨hcrop, fun hbox => ?_⟩
  rw [synchronized, if_pos rfl]
  exact hvelocities hbox

/-- **In every state** of a run the velocities keep their limits. -/
theorem stateAfter_speedLimited {ms : List (FrameMeasurement ℝ)} (hv : SpeedLimited st.velocities)
    (h : P.stateAfter st ms = .ok st') : SpeedLimited st'.velocities := by
  induction ms generalizing st with
  | nil =>
    obtain rfl := Except.ok.inj h
    exact hv
  | cons m rest ih =>
    obtain ⟨⟨⟨crop, trace⟩, next⟩, hframe, h⟩ := Except.bind_eq_ok.mp h
    obtain ⟨-, -, -, -, hnext, -⟩ := frame_moved hv hframe
    exact ih hnext h

theorem initialState_speedLimited : SpeedLimited (initialState : SeedState ℝ).velocities :=
  ⟨abs_zero.trans_le panMaxSpeed_pos.le, abs_zero.trans_le panMaxSpeed_pos.le,
    abs_zero.trans_le zoomMaxSpeed_pos.le⟩

/-- A state holds the crop and the time of the frame before it. -/
theorem frame_previous {crop : CropRect ℝ} {trace : PlannerFrameTrace ℝ}
    (h : P.frame st m = .ok ((crop, trace), st')) :
    st'.previous = some crop ∧ st'.previousTimestamp = some m.timestampMs := by
  obtain ⟨-, -, -, -, -, -, rfl⟩ := iteration_eq_ok h
  exact ⟨rfl, rfl⟩

end Frame

variable {P}

/-- **A frame of a plan**, with the state after it. -/
theorem plan_frame {ms : List (FrameMeasurement ℝ)} {plan : CropPlan ℝ (PlannerFrameTrace ℝ)}
    (hplan : P.plan ms = .ok plan) {i : ℕ} {m : FrameMeasurement ℝ} (hm : ms[i]? = some m) :
    ∃ before st crop trace, P.stateAfter initialState (ms.take i) = .ok before ∧
      P.frame before m = .ok ((crop, trace), st) ∧
      P.stateAfter initialState (ms.take (i + 1)) = .ok st ∧ plan.crops[i]? = some crop ∧
      plan.trace[i]? = some trace ∧ st.previous = some crop ∧
      st.previousTimestamp = some m.timestampMs := by
  obtain ⟨frames, hframes, h⟩ := Except.bind_eq_ok.mp hplan
  obtain rfl := Except.ok.inj h
  obtain ⟨before, st, ⟨crop, trace⟩, hbefore, hframe, hst, hat⟩ := planFrom_frame hframes hm
  obtain ⟨hprevious, htimestamp⟩ := frame_previous hframe
  refine ⟨before, st, crop, trace, hbefore, hframe, hst, ?_, ?_, hprevious, htimestamp⟩
  · simp only [CropPlan.ofFrames, List.getElem?_map, hat, Option.map_some]
  · simp only [CropPlan.ofFrames, List.getElem?_map, hat, Option.map_some]

/-- **The limits of the motion.** Along every accepted sequence of measurements, the velocities that
are carried keep their limits after every frame. From one frame to the next, if the trace has
neither a containment override nor a source and aspect limit, then the crop's center moves on each
axis by at most a quarter of the source a second, and the logarithm of its height by at most a half
a second; if the frame also has a box, then each velocity changes by at most its acceleration. After
a correction, each component that it moved has no velocity, and the next frame starts from the crop
shown. -/
theorem plan_motion_limits {ms : List (FrameMeasurement ℝ)}
    {plan : CropPlan ℝ (PlannerFrameTrace ℝ)} (hplan : P.plan ms = .ok plan) :
    (∀ n st, P.stateAfter initialState (ms.take n) = .ok st →
      |st.velocities.1| ≤ 0.25 ∧ |st.velocities.2.1| ≤ 0.25 ∧ |st.velocities.2.2| ≤ 0.5) ∧
    ∀ i m m', ms[i]? = some m → ms[i + 1]? = some m' →
      ∃ st st' crop crop' trace' dt c, P.stateAfter initialState (ms.take (i + 1)) = .ok st ∧
        P.stateAfter initialState (ms.take (i + 2)) = .ok st' ∧ plan.crops[i]? = some crop ∧
        plan.crops[i + 1]? = some crop' ∧ plan.trace[i + 1]? = some trace' ∧
        dt = ((m'.timestampMs - m.timestampMs : ℤ) : ℝ) / 1000 ∧
        (trace'.containmentOverride = false ∧ trace'.sourceAspectLimited = false →
          |crop'.center.x - crop.center.x| ≤ 0.25 * dt * P.sourceWidth ∧
          |crop'.center.y - crop.center.y| ≤ 0.25 * dt * P.sourceHeight ∧
          |Real.log crop'.height - Real.log crop.height| ≤ 0.5 * dt ∧
          (m'.detectorBounds.isSome →
            |st'.velocities.1 - st.velocities.1| ≤ 0.5 * dt ∧
            |st'.velocities.2.1 - st.velocities.2.1| ≤ 0.5 * dt ∧
            |st'.velocities.2.2 - st.velocities.2.2| ≤ 1.0 * dt)) ∧
        P.candidate st m'.detectorBounds dt = .ok c ∧
        (crop'.center.x ≠ c.candidate.center.x → st'.velocities.1 = 0) ∧
        (crop'.center.y ≠ c.candidate.center.y → st'.velocities.2.1 = 0) ∧
        (crop'.height ≠ c.candidate.height → st'.velocities.2.2 = 0) ∧
        st'.previous = some crop' := by
  refine ⟨fun n st hst => ?_, fun i m m' hm hm' => ?_⟩
  · obtain ⟨hx, hy, hz⟩ := stateAfter_speedLimited initialState_speedLimited hst
    exact ⟨hx, hy, hz⟩
  · obtain ⟨-, st, crop, -, -, -, hst, hcrop, -, hprevious, htimestamp⟩ := plan_frame hplan hm
    obtain ⟨before, st', crop', trace', hbefore, hframe, hst', hcrop', htrace', -, -⟩ :=
      plan_frame hplan hm'
    obtain rfl := Except.ok.inj (hst.symm.trans hbefore)
    have hv := stateAfter_speedLimited initialState_speedLimited hst
    obtain ⟨dt, c, hdt, hc, -, hstopped, hmoved⟩ := frame_moved hv hframe
    refine ⟨st, st', crop, crop', trace', dt, c, hst, hst', hcrop, hcrop', htrace',
      (elapsed_nonneg hdt).2 _ htimestamp, fun ⟨hno, hno'⟩ => ?_, hc, hstopped.x, hstopped.y,
      hstopped.zoom, (frame_previous hframe).1⟩
    obtain ⟨hcrops, hvelocities⟩ := hmoved hno hno'
    obtain ⟨hx, hy, hz⟩ := hcrops crop hprevious
    refine ⟨hx, hy, hz, fun hbox => ?_⟩
    obtain ⟨hx, hy, hz⟩ := hvelocities hbox
    exact ⟨hx, hy, hz⟩

theorem plan_motion_limits_hdShot :
    ∃ plan, hdPlanner.plan hdShot = .ok plan ∧ ∀ st, hdPlanner.stateAfter initialState hdShot =
      .ok st → |st.velocities.1| ≤ 0.25 := by
  obtain ⟨plan, hplan, -⟩ := hdPlanner.plan_safe hdShot_legal
  exact ⟨plan, hplan, fun st hst => ((plan_motion_limits hplan).1 3 st hst).1⟩

end BoulderFrame.DeterministicCropPlanner
