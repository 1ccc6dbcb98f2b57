import BoulderFrame.Framing.SeedMotion

/-!
# Widening without a box

While the frames have no box, the crop of the causal planner only widens: its center moves only as
far as the source requires, its height follows one motion toward the full frame, however the time is
divided into frames, and it has the full size in bounded time.

## Main definitions

* `Sized`: a crop of the requested shape, no larger than the full frame
* `Widened`: what a frame without a box does to the crop and the velocities

## Main results

* `frame_sized`: every crop of an accepted sequence is of this size
* `frame_widened`: one frame without a box
* `plan_widens`: every run of such frames, with its bound on the time
-/

namespace BoulderFrame.DeterministicCropPlanner

open Motion (advanceMotion_isFlow advanceMotion_outward)

variable (P : DeterministicCropPlanner)

/-- A crop of the requested shape, no larger than the full frame. -/
structure Sized (c : CropRect ℝ) : Prop where
  width_eq : c.width = c.height * P.aspectRatio.valueFloat
  height_le : c.height ≤ (P.fullFrame : CropRect ℝ).height

section Size

variable {P}

theorem Sized.width_eq_fullFrame {c : CropRect ℝ} (hc : P.Sized c)
    (h : c.height = (P.fullFrame : CropRect ℝ).height) :
    c.width = (P.fullFrame : CropRect ℝ).width := by
  rw [hc.width_eq, h, fullFrame_width]

/-! ## The size of every crop -/

theorem clamp_eq_ok {c crop : CropRect ℝ} (h : P.clamp c = .ok crop) :
    crop = ⟨min (max c.x 0) (P.sourceWidth - c.width), min (max c.y 0) (P.sourceHeight - c.height),
      c.width, c.height⟩ := by
  obtain ⟨-, h⟩ := Except.ok_of_guard h
  exact (Except.ok.inj h).symm

theorem clamp_sized {c crop : CropRect ℝ} (h : P.clamp c = .ok crop) (hc : P.Sized c) :
    P.Sized crop := by
  obtain rfl := clamp_eq_ok h
  exact ⟨hc.width_eq, hc.height_le⟩

theorem sized_fullFrame (p : Point ℝ) :
    P.Sized (.centered p P.fullFrame.width P.fullFrame.height) := ⟨fullFrame_width, le_rfl⟩

theorem desiredCrop_sized {b : Rect ℝ} {d : CropRect ℝ} (h : P.desiredCrop b = .ok d) :
    P.Sized d := by
  refine clamp_sized h ?_
  split_ifs
  · exact sized_fullFrame _
  · exact ⟨rfl, min_le_left _ _⟩

theorem Adjusted.width_eq {previous desired crop : CropRect ℝ}
    {velocities velocities' : ℝ × ℝ × ℝ} {scaleAdjusting centerAdjusting : Bool} {dt : ℝ}
    (h : P.Adjusted previous desired scaleAdjusting centerAdjusting velocities dt crop velocities')
    (hp : previous.width = previous.height * P.aspectRatio.valueFloat) :
    crop.width = crop.height * P.aspectRatio.valueFloat := by
  obtain ⟨-, -, hw, hh, -⟩ | hzoomed := zoom_eq_ok h.zoom
  · rw [hw, hh, hp]
  · obtain ⟨hw, hh⟩ | hw := hzoomed.width
    · rw [hw, hh, hp]
    · exact hw

/-- The candidate has the requested shape. -/
theorem candidate_width_eq {st : SeedState ℝ} {box : Option (Rect ℝ)} {dt : ℝ} {c : Candidate ℝ}
    (hst : ∀ p ∈ st.previous, P.Sized p) (h : P.candidate st box dt = .ok c) :
    c.candidate.width = c.candidate.height * P.aspectRatio.valueFloat := by
  cases box with
  | none =>
    simp only [candidate, missCandidate] at h
    cases hprevious : st.previous with
    | none =>
      rw [hprevious] at h
      obtain rfl := Except.ok.inj h
      exact fullFrame_width
    | some previous =>
      rw [hprevious] at h
      obtain ⟨⟨crop, velocities⟩, hadjust, h⟩ := Except.bind_eq_ok.mp h
      obtain rfl := Except.ok.inj h
      exact (adjust_eq_ok hadjust).width_eq (hst previous hprevious).width_eq
  | some detection =>
    simp only [candidate, detectedCandidate] at h
    obtain ⟨desired, hdesired, h⟩ := Except.bind_eq_ok.mp h
    cases hprevious : st.previous with
    | none =>
      rw [hprevious] at h
      obtain rfl := Except.ok.inj h
      exact (desiredCrop_sized hdesired).width_eq
    | some previous =>
      rw [hprevious] at h
      obtain ⟨observedFraction, -, h⟩ := Except.bind_eq_ok.mp h
      obtain ⟨xError, -, h⟩ := Except.bind_eq_ok.mp h
      obtain ⟨yError, -, h⟩ := Except.bind_eq_ok.mp h
      obtain ⟨⟨crop, velocities⟩, hadjust, h⟩ := Except.bind_eq_ok.mp h
      obtain rfl := Except.ok.inj h
      exact (adjust_eq_ok hadjust).width_eq (hst previous hprevious).width_eq

theorem bounded_sized {c : CropRect ℝ} (hc : c.width = c.height * P.aspectRatio.valueFloat) :
    P.Sized (P.bounded c) := by
  unfold bounded
  split_ifs with h
  · exact sized_fullFrame _
  · exact ⟨hc, not_lt.mp (not_or.mp h).2⟩

theorem contain_sized {c crop : CropRect ℝ} {b : Rect ℝ} {limited : Bool} (hc : P.Sized c)
    (h : P.contain c b = .ok (crop, limited)) : P.Sized crop := by
  unfold contain at h
  split_ifs at h
  · obtain ⟨rfl, -⟩ := Prod.mk.inj (Except.ok.inj h)
    exact hc
  · obtain ⟨crop', hclamp, h⟩ := Except.bind_eq_ok.mp h
    obtain ⟨rfl, -⟩ := Prod.mk.inj (Except.ok.inj h)
    exact clamp_sized hclamp (sized_fullFrame _)
  · obtain ⟨crop', hclamp, h⟩ := Except.bind_eq_ok.mp h
    obtain ⟨rfl, -⟩ := Prod.mk.inj (Except.ok.inj h)
    refine clamp_sized hclamp ⟨?_, min_le_right _ _⟩
    dsimp only
    split_ifs with hsame
    · rw [hsame, hc.width_eq]
    · rfl

/-- **Every crop** has the requested shape, and is no larger than the full frame. -/
theorem frame_sized {st st' : SeedState ℝ} {m : FrameMeasurement ℝ} {crop : CropRect ℝ}
    {trace : PlannerFrameTrace ℝ} (hst : ∀ p ∈ st.previous, P.Sized p)
    (h : P.frame st m = .ok ((crop, trace), st')) : P.Sized crop := by
  obtain ⟨dt, c, -, hc, hcorrected, -, -⟩ := iteration_eq_ok h
  have hbounded := bounded_sized (candidate_width_eq hst hc)
  obtain ⟨clamped, hclamp, hcorrected⟩ := Except.bind_eq_ok.mp hcorrected
  have hclamped := clamp_sized hclamp hbounded
  cases hbox : m.detectorBounds with
  | none =>
    rw [hbox] at hcorrected
    obtain ⟨rfl, -⟩ := Prod.mk.inj (Except.ok.inj hcorrected)
    exact hclamped
  | some b =>
    rw [hbox] at hcorrected
    exact contain_sized hclamped hcorrected

theorem stateAfter_sized {st st' : SeedState ℝ} {ms : List (FrameMeasurement ℝ)}
    (hst : ∀ p ∈ st.previous, P.Sized p) (h : P.stateAfter st ms = .ok st') :
    ∀ p ∈ st'.previous, P.Sized p := by
  induction ms generalizing st with
  | nil =>
    obtain rfl := Except.ok.inj h
    exact hst
  | cons m rest ih =>
    obtain ⟨⟨⟨crop, trace⟩, next⟩, hframe, h⟩ := Except.bind_eq_ok.mp h
    refine ih ?_ h
    rw [(frame_previous hframe).1]
    rintro _ ⟨⟩
    exact frame_sized hst hframe

end Size

/-! ## One frame without a box -/

/-- The motion of the logarithm of the height, toward the full frame. -/
noncomputable def widening (t : ℝ) (x : ℝ × ℝ) : ℝ × ℝ :=
  advanceMotion x.1 x.2 (some (Real.log (P.fullFrame : CropRect ℝ).height)) t zoomMaxSpeed
    zoomMaxAcceleration

/-- What a frame without a box does to the crop and the velocities. -/
structure Widened (dt : ℝ) (previous crop : CropRect ℝ) (v : ℝ) (velocities : ℝ × ℝ × ℝ) :
    Prop where
  height_pos : 0 < previous.height
  height_le : previous.height ≤ crop.height
  center_x : crop.center.x =
    min (max previous.center.x (crop.width / 2)) (P.sourceWidth - crop.width / 2)
  center_y : crop.center.y =
    min (max previous.center.y (crop.height / 2)) (P.sourceHeight - crop.height / 2)
  x : velocities.1 = 0
  y : velocities.2.1 = 0
  zoom : 0 ≤ velocities.2.2
  moved : crop.height = (P.fullFrame : CropRect ℝ).height ∨
    (Real.log crop.height, velocities.2.2) = P.widening dt (Real.log previous.height, max 0 v)

section Miss

variable {P} {st st' : SeedState ℝ} {m : FrameMeasurement ℝ} {previous crop : CropRect ℝ}
  {trace : PlannerFrameTrace ℝ}

/-- A shift into the source, seen from the center. -/
theorem shifted_center {center size source : ℝ} :
    min (max (center - size / 2) 0) (source - size) + size / 2 =
      min (max center (size / 2)) (source - size / 2) := by
  rw [min_add, max_add, sub_add_cancel, zero_add]
  congr 1
  ring

theorem bounded_center (candidate : CropRect ℝ) :
    (P.bounded candidate).center = candidate.center := by
  unfold bounded
  split_ifs
  · simp only [CropRect.center, CropRect.centered, Point.mk.injEq]
    constructor <;> ring
  · rfl

/-- The crop of a frame without a box is the bounded candidate, shifted into the source. -/
theorem corrected_missed {candidate : CropRect ℝ} {limited : Bool}
    (h : P.corrected candidate none = .ok (crop, limited)) :
    crop.width = (P.bounded candidate).width ∧ crop.height = (P.bounded candidate).height ∧
      crop.center.x =
        min (max candidate.center.x (crop.width / 2)) (P.sourceWidth - crop.width / 2) ∧
      crop.center.y =
        min (max candidate.center.y (crop.height / 2)) (P.sourceHeight - crop.height / 2) := by
  obtain ⟨clamped, hclamp, h⟩ := Except.bind_eq_ok.mp h
  obtain ⟨rfl, -⟩ := Prod.mk.inj (Except.ok.inj h)
  obtain rfl := clamp_eq_ok hclamp
  have hcenter := bounded_center (P := P) candidate
  have hx : (P.bounded candidate).x = candidate.center.x - (P.bounded candidate).width / 2 := by
    rw [← hcenter, CropRect.center]
    ring
  have hy : (P.bounded candidate).y = candidate.center.y - (P.bounded candidate).height / 2 := by
    rw [← hcenter, CropRect.center]
    ring
  refine ⟨rfl, rfl, ?_, ?_⟩
  · simp only [CropRect.center, hx]
    exact shifted_center
  · simp only [CropRect.center, hy]
    exact shifted_center

/-- **One frame without a box** only widens the crop. -/
theorem frame_widened (hv : SpeedLimited st.velocities) (hprevious : st.previous = some previous)
    (hsized : P.Sized previous) (hbox : m.detectorBounds = none)
    (h : P.frame st m = .ok ((crop, trace), st')) : ∃ dt,
      elapsed st.previousTimestamp m.timestampMs = .ok dt ∧
      P.Widened dt previous crop st.velocities.2.2 st'.velocities := by
  obtain ⟨dt, c, hdt, hc, hcorrected, -, rfl⟩ := iteration_eq_ok h
  refine ⟨dt, hdt, ?_⟩
  have hwidth := candidate_width_eq (by rw [hprevious]; rintro _ ⟨⟩; exact hsized) hc
  rw [hbox] at hc hcorrected
  simp only [candidate, missCandidate, hprevious] at hc
  obtain ⟨⟨candidate, velocities⟩, hadjust, hc⟩ := Except.bind_eq_ok.mp hc
  obtain rfl := Except.ok.inj hc
  dsimp only at hwidth hcorrected ⊢
  have hadjusted := adjust_eq_ok hadjust
  have hx : (candidate.center.x, velocities.1) = (previous.center.x, 0) := by
    rw [hadjusted.x]
    simp [pan]
  have hy : (candidate.center.y, velocities.2.1) = (previous.center.y, 0) := by
    rw [hadjusted.y]
    simp [pan]
  obtain ⟨hx, hvx⟩ := Prod.mk.inj hx
  obtain ⟨hy, hvy⟩ := Prod.mk.inj hy
  obtain ⟨hclosed, -⟩ | hzoomed := zoom_eq_ok hadjusted.zoom
  · cases hclosed
  have hmoved : (Real.log candidate.height, velocities.2.2) =
      P.widening dt (Real.log previous.height, max 0 st.velocities.2.2) := hzoomed.moved
  -- the height follows the motion outward
  have hahead : Real.log previous.height ≤ Real.log (P.fullFrame : CropRect ℝ).height :=
    Real.log_le_log hzoomed.previous_pos hsized.height_le
  obtain ⟨houtward, hback, -⟩ := advanceMotion_outward
    (x := (Real.log previous.height, max 0 st.velocities.2.2)) zoomMaxSpeed_pos
    zoomMaxAcceleration_pos (speedLimited_missed hv).zoom hahead (le_max_left _ _)
    (elapsed_nonneg hdt).1
  change Real.log previous.height ≤ (P.widening dt _).1 at houtward
  change (P.widening dt (Real.log previous.height, max 0 st.velocities.2.2)).1 ≤ _ →
    0 ≤ (P.widening dt (Real.log previous.height, max 0 st.velocities.2.2)).2 at hback
  rw [← hmoved] at houtward hback
  have hgrown : previous.height ≤ candidate.height :=
    (Real.log_le_log_iff hzoomed.previous_pos hzoomed.height_pos).mp houtward
  obtain ⟨-, hheight, hcenterX, hcenterY⟩ := corrected_missed hcorrected
  rw [hx] at hcenterX
  rw [hy] at hcenterY
  have hsynchronized : (synchronized candidate crop velocities).1 = 0 ∧
      (synchronized candidate crop velocities).2.1 = 0 := by
    unfold synchronized
    split
    · exact ⟨hvx, hvy⟩
    · simp only [hvx, hvy, ite_self, and_self]
  by_cases hlarge : candidate.width > (P.fullFrame : CropRect ℝ).width ∨
      candidate.height > (P.fullFrame : CropRect ℝ).height
  · -- beyond the full frame
    have hfull : crop.height = (P.fullFrame : CropRect ℝ).height := by
      rw [hheight, bounded, if_pos hlarge]
      rfl
    have hbeyond : (P.fullFrame : CropRect ℝ).height < candidate.height := by
      obtain hw | hh := hlarge
      · rw [hwidth, gt_iff_lt, ← not_le, width_le_fullFrame_iff] at hw
        exact not_le.mp hw
      · exact hh
    have hstopped : (synchronized candidate crop velocities).2.2 = 0 :=
      (synchronized_stopped candidate crop velocities).zoom (by rw [hfull]; exact hbeyond.ne)
    exact ⟨hzoomed.previous_pos, hsized.height_le.trans_eq hfull.symm, hcenterX, hcenterY,
      hsynchronized.1, hsynchronized.2, hstopped.ge, .inl hfull⟩
  · have hsame : crop.height = candidate.height := by rw [hheight, bounded, if_neg hlarge]
    have hkept : (synchronized candidate crop velocities).2.2 = velocities.2.2 := by
      by_cases hshown : crop = candidate
      · rw [synchronized, if_pos hshown]
      · rw [synchronized, if_neg hshown]
        exact if_pos hsame
    have hwithin : Real.log candidate.height ≤ Real.log (P.fullFrame : CropRect ℝ).height :=
      Real.log_le_log hzoomed.height_pos (not_lt.mp (not_or.mp hlarge).2)
    refine ⟨hzoomed.previous_pos, hgrown.trans_eq hsame.symm, hcenterX, hcenterY,
      hsynchronized.1, hsynchronized.2, ?_, .inr ?_⟩
    · rw [hkept]
      exact hback hwithin
    · rw [hkept, hsame]
      exact hmoved

end Miss

/-! ## A run of frames without a box -/

/-- The crop has the full height, or its height and velocity are those of one motion, for a time,
from those of the first crop. -/
def Follows (first : CropRect ℝ) (v₀ t : ℝ) (crop : CropRect ℝ) (v : ℝ) : Prop :=
  crop.height = (P.fullFrame : CropRect ℝ).height ∨
    (Real.log crop.height, max 0 v) = P.widening t (Real.log first.height, max 0 v₀)

section Run

variable {P} {first previous crop : CropRect ℝ} {v₀ v t dt : ℝ} {velocities : ℝ × ℝ × ℝ}

theorem bounded_max (hv : |v| ≤ zoomMaxSpeed) (x : ℝ) :
    (x, max 0 v) ∈ Motion.Bounded (zoomMaxSpeed : ℝ) := by
  change |max 0 v| ≤ zoomMaxSpeed
  rw [abs_of_nonneg (le_max_left _ _)]
  exact max_le zoomMaxSpeed_pos.le ((le_abs_self _).trans hv)

theorem widening_isFlow : IsFlow (Motion.Bounded zoomMaxSpeed) P.widening :=
  advanceMotion_isFlow _ zoomMaxSpeed_pos zoomMaxAcceleration_pos

/-- **One more frame** of the run continues the motion. -/
theorem Follows.widened (h : P.Follows first v₀ t previous v)
    (hwidened : P.Widened dt previous crop v velocities) (hcrop : P.Sized crop)
    (hv₀ : |v₀| ≤ zoomMaxSpeed) (ht : 0 ≤ t) (hdt : 0 ≤ dt) :
    P.Follows first v₀ (t + dt) crop velocities.2.2 := by
  obtain hfull | hmotion := h
  · exact .inl (le_antisymm hcrop.height_le (hfull.symm.trans_le hwidened.height_le))
  · obtain hfull | hmoved := hwidened.moved
    · exact .inl hfull
    · right
      rw [max_eq_right hwidened.zoom, hmoved, hmotion]
      exact (widening_isFlow.add _ (bounded_max hv₀ _) t dt ht hdt).symm

/-- **The bound on the time.** -/
theorem Follows.arrives (h : P.Follows first v₀ t crop v) (hfirst : P.Sized first)
    (hpos : 0 < first.height) (hcrop : P.Sized crop) (hcropPos : 0 < crop.height)
    (hv₀ : |v₀| ≤ zoomMaxSpeed) (ht : 0 ≤ t)
    (hlong : 2 * Real.log ((P.fullFrame : CropRect ℝ).height / first.height) + 0.5 ≤ t) :
    crop.height = (P.fullFrame : CropRect ℝ).height := by
  obtain hfull | hmotion := h
  · exact hfull
  have hahead : Real.log first.height ≤ Real.log (P.fullFrame : CropRect ℝ).height :=
    Real.log_le_log hpos hfirst.height_le
  obtain ⟨-, -, harrives⟩ := advanceMotion_outward (x := (Real.log first.height, max 0 v₀))
    zoomMaxSpeed_pos zoomMaxAcceleration_pos (bounded_max hv₀ _) hahead (le_max_left _ _) ht
  have htime : (Real.log (P.fullFrame : CropRect ℝ).height - Real.log first.height) / zoomMaxSpeed +
      zoomMaxSpeed / zoomMaxAcceleration ≤ t := by
    rw [Real.log_div fullFrame_height_pos.ne' hpos.ne'] at hlong
    refine le_trans (le_of_eq ?_) hlong
    norm_num [zoomMaxSpeed, zoomMaxAcceleration]
    ring
  have hreached := harrives htime
  change _ ≤ (P.widening t (Real.log first.height, max 0 v₀)).1 at hreached
  rw [← hmotion] at hreached
  exact le_antisymm hcrop.height_le
    ((Real.log_le_log_iff fullFrame_height_pos hcropPos).mp hreached)

end Run

section Plan

variable {P} {ms : List (FrameMeasurement ℝ)} {plan : CropPlan ℝ (PlannerFrameTrace ℝ)}

theorem initialState_sized : ∀ p ∈ (initialState : SeedState ℝ).previous, P.Sized p :=
  fun _ => nofun

/-- **A frame of the run**, with the crop before it. -/
theorem plan_widened (hplan : P.plan ms = .ok plan) {k : ℕ} {m m' : FrameMeasurement ℝ}
    (hm : ms[k]? = some m) (hm' : ms[k + 1]? = some m') (hbox : m'.detectorBounds = none) :
    ∃ st st' previous crop dt, P.stateAfter initialState (ms.take (k + 1)) = .ok st ∧
      P.stateAfter initialState (ms.take (k + 2)) = .ok st' ∧
      plan.crops[k]? = some previous ∧ plan.crops[k + 1]? = some crop ∧ P.Sized crop ∧
      0 ≤ dt ∧ dt = ((m'.timestampMs - m.timestampMs : ℤ) : ℝ) / 1000 ∧
      P.Widened dt previous crop st.velocities.2.2 st'.velocities := by
  obtain ⟨-, st, previous, -, -, -, hst, hprevious, -, hheld, htimestamp⟩ := plan_frame hplan hm
  obtain ⟨before, st', crop, trace, hbefore, hframe, hst', hcrop, -, -, -⟩ := plan_frame hplan hm'
  obtain rfl := Except.ok.inj (hst.symm.trans hbefore)
  have hsized := stateAfter_sized initialState_sized hst
  obtain ⟨dt, hdt, hwidened⟩ := frame_widened
    (stateAfter_speedLimited initialState_speedLimited hst) hheld (hsized previous hheld) hbox hframe
  obtain ⟨hnonneg, helapsed⟩ := elapsed_nonneg hdt
  exact ⟨st, st', previous, crop, dt, hst, hst', hprevious, hcrop, frame_sized hsized hframe,
    hnonneg, helapsed _ htimestamp, hwidened⟩

/-- **A run of frames without a box** is one motion, from the frame before it. -/
theorem plan_follows (hplan : P.plan ms = .ok plan) {i n : ℕ} {m₀ m : FrameMeasurement ℝ}
    (hm₀ : ms[i]? = some m₀) (hm : ms[i + n]? = some m)
    (hrun : ∀ k m, i < k → k ≤ i + n → ms[k]? = some m → m.detectorBounds = none) :
    ∃ st₀ st first crop, P.stateAfter initialState (ms.take (i + 1)) = .ok st₀ ∧
      P.stateAfter initialState (ms.take (i + n + 1)) = .ok st ∧
      plan.crops[i]? = some first ∧ plan.crops[i + n]? = some crop ∧
      0 ≤ ((m.timestampMs - m₀.timestampMs : ℤ) : ℝ) / 1000 ∧
      P.Follows first st₀.velocities.2.2 (((m.timestampMs - m₀.timestampMs : ℤ) : ℝ) / 1000) crop
        st.velocities.2.2 := by
  induction n generalizing m with
  | zero =>
    obtain rfl := Option.some.inj (hm₀.symm.trans hm)
    obtain ⟨-, st, crop, -, -, -, hst, hcrop, -, -, -⟩ := plan_frame hplan hm₀
    have hv := stateAfter_speedLimited initialState_speedLimited hst
    refine ⟨st, st, crop, crop, hst, hst, hcrop, hcrop, by simp, .inr ?_⟩
    rw [sub_self, Int.cast_zero, zero_div]
    exact (widening_isFlow.zero _ (bounded_max hv.zoom _)).symm
  | succ n ih =>
    obtain ⟨m', hm'⟩ : ∃ m', ms[i + n]? = some m' := by
      obtain ⟨hlt, -⟩ := List.getElem?_eq_some_iff.mp hm
      exact ⟨_, List.getElem?_eq_getElem (by omega)⟩
    obtain ⟨st₀, st, first, previous, hst₀, hst, hfirst, hprevious, hnonneg, hfollows⟩ :=
      ih hm' fun k m hlt hle => hrun k m hlt (by omega)
    obtain ⟨st₁, st', previous', crop, dt, hst₁, hst', hprevious', hcrop, hsized, hdt, helapsed,
      hwidened⟩ := plan_widened hplan hm' hm (hrun _ m (by omega) (by omega) hm)
    obtain rfl := Except.ok.inj (hst.symm.trans hst₁)
    obtain rfl := Option.some.inj (hprevious.symm.trans hprevious')
    have hv := stateAfter_speedLimited initialState_speedLimited hst₀
    have htotal : ((m.timestampMs - m₀.timestampMs : ℤ) : ℝ) / 1000 =
        ((m'.timestampMs - m₀.timestampMs : ℤ) : ℝ) / 1000 + dt := by
      rw [helapsed]
      push_cast
      ring
    rw [htotal]
    exact ⟨st₀, st', first, crop, hst₀, hst', hfirst, hcrop, add_nonneg hnonneg hdt,
      hfollows.widened hwidened hsized hv.zoom hnonneg hdt⟩

/-- **Widening.** Along every accepted sequence of measurements, on each frame of a run of frames
without a box: the crop is not lower than the one before, nor higher than the full frame; its center
is the one before, moved only into the positions that the crop's size leaves in the source; no pan
and no inward zoom is carried. From twice the logarithm of how far the height has to grow, and a half
second more, after the frame before the run on, the crop has the size of the full frame. -/
theorem plan_widens (hplan : P.plan ms = .ok plan) {i n : ℕ} {m₀ m : FrameMeasurement ℝ}
    (hm₀ : ms[i]? = some m₀) (hm : ms[i + n + 1]? = some m)
    (hrun : ∀ k m, i < k → k ≤ i + n + 1 → ms[k]? = some m → m.detectorBounds = none) :
    ∃ first previous crop st, plan.crops[i]? = some first ∧
      plan.crops[i + n]? = some previous ∧ plan.crops[i + n + 1]? = some crop ∧
      P.stateAfter initialState (ms.take (i + n + 2)) = .ok st ∧
      0 < first.height ∧ previous.height ≤ crop.height ∧
      crop.height ≤ (P.fullFrame : CropRect ℝ).height ∧
      crop.center.x =
        min (max previous.center.x (crop.width / 2)) (P.sourceWidth - crop.width / 2) ∧
      crop.center.y =
        min (max previous.center.y (crop.height / 2)) (P.sourceHeight - crop.height / 2) ∧
      st.velocities.1 = 0 ∧ st.velocities.2.1 = 0 ∧ 0 ≤ st.velocities.2.2 ∧
      (2 * Real.log ((P.fullFrame : CropRect ℝ).height / first.height) + 0.5 ≤
          ((m.timestampMs - m₀.timestampMs : ℤ) : ℝ) / 1000 →
        crop.height = (P.fullFrame : CropRect ℝ).height ∧
          crop.width = (P.fullFrame : CropRect ℝ).width) := by
  obtain ⟨st₀, st, first, crop, hst₀, hst, hfirst, hcrop, hnonneg, hfollows⟩ :=
    plan_follows hplan hm₀ (n := n + 1) hm hrun
  have hget : ∀ k, k ≤ i + n + 1 → ∃ m', ms[k]? = some m' := by
    intro k hk
    obtain ⟨hlt, -⟩ := List.getElem?_eq_some_iff.mp hm
    exact ⟨_, List.getElem?_eq_getElem (by omega)⟩
  -- the first frame of the run, and the last
  obtain ⟨m₁, hm₁⟩ := hget (i + 1) (by omega)
  obtain ⟨_, _, first', _, _, -, -, hfirst', -, -, -, -, hwidened₁⟩ :=
    plan_widened hplan hm₀ hm₁ (hrun _ _ (by omega) (by omega) hm₁)
  obtain rfl := Option.some.inj (hfirst.symm.trans hfirst')
  obtain ⟨m', hm'⟩ := hget (i + n) (by omega)
  obtain ⟨_, st', previous, crop', _, -, hst', hprevious, hcrop', hsized, -, -, hwidened⟩ :=
    plan_widened hplan hm' hm (hrun _ _ (by omega) (by omega) hm)
  obtain rfl := Except.ok.inj (hst.symm.trans hst')
  obtain rfl := Option.some.inj (hcrop.symm.trans hcrop')
  obtain ⟨_, st, _, _, -, -, hst₁, hcrop₁, -, hheld, -⟩ := plan_frame hplan hm₀
  obtain rfl := Option.some.inj (hfirst.symm.trans hcrop₁)
  obtain rfl := Except.ok.inj (hst₀.symm.trans hst₁)
  refine ⟨first, previous, crop, _, hfirst, hprevious, hcrop, hst, hwidened₁.height_pos,
    hwidened.height_le, hsized.height_le, hwidened.center_x, hwidened.center_y, hwidened.x,
    hwidened.y, hwidened.zoom, fun hlong => ?_⟩
  have hfull := hfollows.arrives (stateAfter_sized initialState_sized hst₀ _ hheld)
    hwidened₁.height_pos hsized (hwidened.height_pos.trans_le hwidened.height_le)
    (stateAfter_speedLimited initialState_speedLimited hst₀).zoom hnonneg hlong
  exact ⟨hfull, hsized.width_eq_fullFrame hfull⟩

theorem plan_widens_hdShot : ∃ plan previous crop, hdPlanner.plan hdShot = .ok plan ∧
    plan.crops[1]? = some previous ∧ plan.crops[2]? = some crop ∧ previous.height ≤ crop.height := by
  obtain ⟨plan, hplan, -⟩ := hdPlanner.plan_safe hdShot_legal
  have hrun : ∀ k m, 1 < k → k ≤ 1 + 0 + 1 → hdShot[k]? = some m → m.detectorBounds = none := by
    intro k m hlt hle hm
    obtain rfl : k = 2 := by omega
    obtain rfl := Option.some.inj hm
    rfl
  obtain ⟨first, previous, crop, st, -, hprevious, hcrop, -, -, hle, -⟩ :=
    plan_widens hplan (i := 1) (n := 0) rfl rfl hrun
  exact ⟨plan, previous, crop, hplan, hprevious, hcrop, hle⟩

end Plan

end BoulderFrame.DeterministicCropPlanner
