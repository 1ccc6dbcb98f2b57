import BoulderFrame.Framing.LookaheadSafety
import BoulderFrame.Framing.SeedWidening
import BoulderFrame.Media.PixelCrop

/-!
# Plans that can be rendered

The crops of a plan pass the check before rendering, whatever the optimizer answered. A frame is
then cut along whole pixels, so that its crop is refused if it is less than one pixel wide or high.
The planner follows the detector's boxes to any size: it keeps its crops above a height that the
boxes and the full frame are above, and below no other.

## Main definitions

* `DeterministicCropPlanner.Above`: a box that only crops of at least a given height hold

## Main results

* `DeterministicCropPlanner.plan_above`: every crop is at least as high as the boxes require
* `LookaheadCropPlanner.plan_renderable`: which crops of a plan are rendered
-/

namespace BoulderFrame

namespace DeterministicCropPlanner

variable (P : DeterministicCropPlanner)

/-- A crop that holds the box has at least the height. -/
def Above (height : ℝ) (box : Rect ℝ) : Prop :=
  height ≤ box.height ∨ height * P.aspectRatio.valueFloat ≤ box.width

variable {P} {height : ℝ}

/-- Containment keeps a crop above the height that the box and the full frame are above. -/
theorem contain_above {c crop : CropRect ℝ} {b : Rect ℝ} {limited : Bool}
    (hc : c.width = c.height * P.aspectRatio.valueFloat)
    (hfull : height ≤ (P.fullFrame : CropRect ℝ).height) (hb : P.Above height b)
    (h : P.contain c b = .ok (crop, limited)) : height ≤ crop.height := by
  unfold contain at h
  split_ifs at h with hin
  · obtain ⟨rfl, -⟩ := Prod.mk.inj (Except.ok.inj h)
    obtain hb | hb := hb
    · exact hb.trans hin.height_le
    · have hwidth := hb.trans hin.width_le
      rw [hc] at hwidth
      exact le_of_mul_le_mul_right hwidth aspect_pos
  · obtain ⟨crop', hclamp, h⟩ := Except.bind_eq_ok.mp h
    obtain ⟨rfl, -⟩ := Prod.mk.inj (Except.ok.inj h)
    obtain rfl := clamp_eq_ok hclamp
    exact hfull
  · obtain ⟨crop', hclamp, h⟩ := Except.bind_eq_ok.mp h
    obtain ⟨rfl, -⟩ := Prod.mk.inj (Except.ok.inj h)
    obtain rfl := clamp_eq_ok hclamp
    refine le_min ?_ hfull
    obtain hb | hb := hb
    · exact hb.trans ((le_max_right _ _).trans (le_max_left _ _))
    · exact ((le_div_iff₀ aspect_pos).mpr hb).trans (le_max_right _ _)

/-- **One frame** keeps the crop above the height: with a box it holds the box or has the size of the
full frame, and without one it does not shrink. -/
theorem frame_above {st st' : SeedState ℝ} {m : FrameMeasurement ℝ} {crop : CropRect ℝ}
    {trace : PlannerFrameTrace ℝ} (hsized : ∀ p ∈ st.previous, P.Sized p)
    (hv : SpeedLimited st.velocities) (hst : ∀ p ∈ st.previous, height ≤ p.height)
    (hfull : height ≤ (P.fullFrame : CropRect ℝ).height)
    (hbox : ∀ b ∈ m.detectorBounds, P.Above height b)
    (h : P.frame st m = .ok ((crop, trace), st')) : height ≤ crop.height := by
  obtain ⟨dt, c, -, hc, hcorrected, -, -⟩ := iteration_eq_ok h
  cases hbounds : m.detectorBounds with
  | some b =>
    rw [hbounds] at hcorrected
    obtain ⟨clamped, hclamp, hcontain⟩ := Except.bind_eq_ok.mp hcorrected
    have hbounded := bounded_sized (candidate_width_eq hsized hc)
    exact contain_above (clamp_sized hclamp hbounded).width_eq hfull (hbox b hbounds) hcontain
  | none =>
    cases hprevious : st.previous with
    | some previous =>
      obtain ⟨_, -, hwidened⟩ := frame_widened hv hprevious (hsized previous hprevious) hbounds h
      exact (hst previous hprevious).trans hwidened.height_le
    | none =>
      rw [hbounds] at hc hcorrected
      simp only [candidate, missCandidate, hprevious] at hc
      obtain rfl := Except.ok.inj hc
      obtain ⟨-, hheight, -⟩ := corrected_missed hcorrected
      rw [hheight, bounded, if_neg (by simp)]
      exact hfull

/-- **A run of frames** keeps it. -/
theorem stateAfter_above {st st' : SeedState ℝ} {ms : List (FrameMeasurement ℝ)}
    (hsized : ∀ p ∈ st.previous, P.Sized p) (hv : SpeedLimited st.velocities)
    (hst : ∀ p ∈ st.previous, height ≤ p.height) (hfull : height ≤ (P.fullFrame : CropRect ℝ).height)
    (hboxes : ∀ m ∈ ms, ∀ b ∈ m.detectorBounds, P.Above height b)
    (h : P.stateAfter st ms = .ok st') : ∀ p ∈ st'.previous, height ≤ p.height := by
  induction ms generalizing st with
  | nil =>
    obtain rfl := Except.ok.inj h
    exact hst
  | cons m rest ih =>
    obtain ⟨⟨⟨crop, trace⟩, next⟩, hframe, h⟩ := Except.bind_eq_ok.mp h
    have hprevious := (frame_previous hframe).1
    have habove := frame_above hsized hv hst hfull (hboxes m (List.mem_cons_self ..)) hframe
    have hone : P.stateAfter st [m] = .ok next := by rw [stateAfter, hframe]; rfl
    refine ih (stateAfter_sized hsized hone) (stateAfter_speedLimited hv hone) ?_
      (fun m' hm' => hboxes m' (List.mem_cons_of_mem _ hm')) h
    rw [hprevious]
    rintro _ ⟨⟩
    exact habove

/-- **The crops of a plan** are at least as high as a height that the full frame and every box are
above. -/
theorem plan_above {ms : List (FrameMeasurement ℝ)} {plan : CropPlan ℝ (PlannerFrameTrace ℝ)}
    (hplan : P.plan ms = .ok plan) (hfull : height ≤ (P.fullFrame : CropRect ℝ).height)
    (hboxes : ∀ m ∈ ms, ∀ b ∈ m.detectorBounds, P.Above height b) {i : ℕ}
    {m : FrameMeasurement ℝ} (hm : ms[i]? = some m) :
    ∃ crop, plan.crops[i]? = some crop ∧ P.Sized crop ∧ height ≤ crop.height := by
  obtain ⟨-, st, crop, -, -, -, hst, hcrop, -, hprevious, -⟩ := plan_frame hplan hm
  refine ⟨crop, hcrop, stateAfter_sized initialState_sized hst crop hprevious, ?_⟩
  exact stateAfter_above initialState_sized initialState_speedLimited (fun _ => nofun) hfull
    (fun m' hm' => hboxes m' (List.mem_of_mem_take hm')) hst crop hprevious

/-- The full frame of a source of two pixels in both directions holds a whole pixel. -/
theorem fullFrame_pixel (hwidth : 2 ≤ P.sourceWidth) (hheight : 2 ≤ P.sourceHeight) :
    max 1 (1 / P.aspectRatio.valueFloat) ≤ (P.fullFrame : CropRect ℝ).height := by
  have hw : (2 : ℝ) ≤ P.sourceWidth := by exact_mod_cast hwidth
  have hh : (2 : ℝ) ≤ P.sourceHeight := by exact_mod_cast hheight
  have hall : ∀ a : AspectRatio, max 1 (1 / (a.valueFloat : ℝ)) ≤
      (fullFrameCrop P.sourceWidth P.sourceHeight a : CropRect ℝ).height := by
    intro a
    simp only [fullFrameCrop]
    split
    · cases a <;> norm_num [AspectRatio.valueFloat] <;> linarith
    · cases a <;> norm_num [AspectRatio.valueFloat] <;> rw [le_div_iff₀ (by norm_num)] <;> linarith
  exact hall _

/-- A crop that is high enough has a whole pixel in both directions. -/
theorem Sized.pixel {crop : CropRect ℝ} (hc : P.Sized crop)
    (h : max 1 (1 / P.aspectRatio.valueFloat) ≤ crop.height) : 1 ≤ crop.width ∧ 1 ≤ crop.height := by
  obtain ⟨hone, haspect⟩ := max_le_iff.mp h
  rw [div_le_iff₀ aspect_pos] at haspect
  exact ⟨hc.width_eq ▸ haspect, hone⟩

/-- A box of a whole pixel in both directions is held by such crops only. -/
theorem above_pixel {b : Rect ℝ} (hwidth : 1 ≤ b.width) (hheight : 1 ≤ b.height) :
    P.Above (max 1 (1 / P.aspectRatio.valueFloat)) b := by
  obtain hmax | hmax := max_choice (1 : ℝ) (1 / P.aspectRatio.valueFloat)
  · rw [hmax]
    exact .inl hheight
  · rw [hmax]
    right
    rw [one_div_mul_cancel aspect_pos.ne']
    exact hwidth

end DeterministicCropPlanner

namespace LookaheadCropPlanner

open DeterministicCropPlanner

variable {P : LookaheadCropPlanner} {linprog : Linprog ℝ} {ms : List (FrameMeasurement ℝ)}
  {plan : CropPlan ℝ (LookaheadPlannerFrameTrace ℝ)} {metadata : MediaMetadata}

theorem outputAspect_eq (a : AspectRatio) :
    ((outputDimensions a).1 / (outputDimensions a).2 : ℝ) = a.valueFloat := by
  cases a <;> norm_num [outputDimensions, AspectRatio.valueFloat]

/-- A crop that passes the geometry check of the planner passes the check before rendering. -/
theorem validCrop_of_geometry {crop : CropRect ℝ} (h : ¬ P.invalidGeometry crop)
    (hdisplay : metadata.displayDimensions =
      (P.seedPlanner.sourceWidth, P.seedPlanner.sourceHeight)) :
    ValidCrop metadata P.seedPlanner.aspectRatio crop := by
  simp only [invalidGeometry, not_or, not_not, not_le, Bool.not_eq_false] at h
  obtain ⟨hw, hh, ⟨hx, -, hr⟩, ⟨hy, -, hb⟩, haspect⟩ := h
  refine ⟨hw, hh, hx, hy, ?_, ?_, ?_⟩
  · rw [hdisplay]
    exact hr
  · rw [hdisplay]
    exact hb
  · rw [outputAspect_eq]
    exact isclose_mono (by norm_num [solverFeasibilityTolerance]) haspect

/-- Every crop of a plan has passed the geometry check, and there is one for each measurement. -/
theorem plan_geometry (h : P.plan linprog ms = .ok plan) :
    plan.crops.length = ms.length ∧ ∀ crop ∈ plan.crops, ¬ P.invalidGeometry crop := by
  by_cases hne : ms = []
  · subst hne
    obtain ⟨seed, hseed, h⟩ := Except.bind_eq_ok.mp h
    obtain rfl := Except.ok.inj hseed
    rw [if_pos (show (CropPlan.ofFrames [] : CropPlan ℝ (PlannerFrameTrace ℝ)).crops = [] from rfl)]
      at h
    obtain rfl := Except.ok.inj h
    exact ⟨rfl, fun crop hcrop => nomatch hcrop⟩
  · obtain ⟨seed, -, ⟨hlength, -⟩, -⟩ := plan_verified P linprog hne h
    refine ⟨hlength, ?_⟩
    obtain ⟨seed, originsX, originsY, -, -, -, -, -, -, hgeometry, -, hplan⟩ := (plan_eq_ok hne).mp h
    unfold CropPlan.make at hplan
    split_ifs at hplan
    obtain rfl := Except.ok.inj hplan
    exact hgeometry

/-- **The plans that are rendered.** The crops of every plan, whatever the optimizer answered, pass
the check before rendering. A crop of a plan is cut out of a frame of the display's size exactly if
it has at least one pixel in both directions. All of them do if the source has two pixels in both
directions and every box has one. -/
theorem plan_renderable (h : P.plan linprog ms = .ok plan)
    (hdisplay : metadata.displayDimensions =
      (P.seedPlanner.sourceWidth, P.seedPlanner.sourceHeight))
    (hcount : metadata.expectedFrameCount = ms.length)
    {resize : Image Bgr → ℤ × ℤ → Except Raised (Option (Image Bgr))}
    (hresize : FrameResizes resize) :
    validateCropPath (plan.crops.map CropRect.floats) metadata P.seedPlanner.aspectRatio = .ok () ∧
    (∀ crop ∈ plan.crops, ∀ image : Image Bgr,
      ((image.width : ℤ), (image.height : ℤ)) = metadata.displayDimensions →
      ((∃ resized, cropAndResizeFrame resize (some image) crop.floats
          (outputDimensions P.seedPlanner.aspectRatio) = .ok resized) ↔
        1 ≤ crop.width ∧ 1 ≤ crop.height)) ∧
    (2 ≤ P.seedPlanner.sourceWidth → 2 ≤ P.seedPlanner.sourceHeight →
      (∀ m ∈ ms, ∀ box ∈ m.detectorBounds, 1 ≤ box.width ∧ 1 ≤ box.height) →
      ∀ crop ∈ plan.crops, 1 ≤ crop.width ∧ 1 ≤ crop.height) := by
  obtain ⟨hlength, hgeometry⟩ := plan_geometry h
  refine ⟨validateCropPath_eq_ok.mpr ⟨?_, ?_⟩, fun crop hcrop image hsize => ?_, ?_⟩
  · rw [List.length_map, hlength, hcount]
  · rintro _ hmem
    obtain ⟨crop, hcrop, rfl⟩ := List.mem_map.mp hmem
    exact ⟨crop, rfl, validCrop_of_geometry (hgeometry crop hcrop) hdisplay⟩
  · have hvalid := validCrop_of_geometry (hgeometry crop hcrop) hdisplay
    have hright := hvalid.right_le
    have hbottom := hvalid.bottom_le
    rw [← hsize] at hright hbottom
    have houtput : 0 < (outputDimensions P.seedPlanner.aspectRatio).1 ∧
        0 < (outputDimensions P.seedPlanner.aspectRatio).2 := by
      cases P.seedPlanner.aspectRatio <;> decide
    exact cropAndResizeFrame_ok_iff hresize hvalid.x_nonneg hvalid.y_nonneg hvalid.width_pos.le
      hvalid.height_pos.le (by exact_mod_cast hright) (by exact_mod_cast hbottom) houtput
  · intro hwidth hheight hboxes crop hcrop
    obtain ⟨i, hi⟩ := List.mem_iff_getElem?.mp hcrop
    obtain ⟨m, hm⟩ : ∃ m, ms[i]? = some m := by
      have hlt := (List.getElem?_eq_some_iff.mp hi).1
      exact ⟨_, List.getElem?_eq_getElem (hlength ▸ hlt)⟩
    have hne : ms ≠ [] := List.ne_nil_of_mem (List.mem_of_getElem? hm)
    obtain ⟨seed, hseed, ⟨-, -, -, hsize⟩, -⟩ := plan_verified P linprog hne h
    obtain ⟨seedCrop, hseedCrop, hsized, habove⟩ := plan_above hseed
      (fullFrame_pixel hwidth hheight)
      (fun m hm b hb => above_pixel (hboxes m hm b hb).1 (hboxes m hm b hb).2) hm
    obtain ⟨hw, hh⟩ := hsize i crop seedCrop hi hseedCrop
    rw [hw, hh]
    exact hsized.pixel habove

end LookaheadCropPlanner

/-! ## A shot of a small box -/

namespace DeterministicCropPlanner

variable {P : DeterministicCropPlanner}

/-- Containment makes a crop no higher than it and the box require. -/
theorem contain_height_le {c crop : CropRect ℝ} {b : Rect ℝ} {limited : Bool} {height : ℝ}
    (hc : c.height ≤ height) (hbox : b.height ≤ height ∧ b.width ≤ height * P.aspectRatio.valueFloat)
    (hfull : ¬ P.Limited b) (h : P.contain c b = .ok (crop, limited)) : crop.height ≤ height := by
  unfold contain at h
  split_ifs at h with hin hlimited
  · obtain ⟨rfl, -⟩ := Prod.mk.inj (Except.ok.inj h)
    exact hc
  · exact absurd hlimited hfull
  · obtain ⟨crop', hclamp, h⟩ := Except.bind_eq_ok.mp h
    obtain ⟨rfl, -⟩ := Prod.mk.inj (Except.ok.inj h)
    obtain rfl := clamp_eq_ok hclamp
    exact (min_le_left _ _).trans
      (max_le (max_le hc hbox.1) ((div_le_iff₀ aspect_pos).mpr hbox.2))

/-- The first crop is no higher than its box requires for the framing profile. -/
theorem first_height_le {m : FrameMeasurement ℝ} {b : Rect ℝ} {crop : CropRect ℝ}
    {trace : PlannerFrameTrace ℝ} {st : SeedState ℝ} {height : ℝ}
    (hbounds : m.detectorBounds = some b) (hheight : b.height / P.targetHeightFraction ≤ height)
    (hbox : b.height ≤ height ∧ b.width ≤ height * P.aspectRatio.valueFloat)
    (hfull : ¬ P.Limited b) (h : P.frame initialState m = .ok ((crop, trace), st)) :
    crop.height ≤ height := by
  obtain ⟨dt, c, -, hc, hcorrected, -, -⟩ := iteration_eq_ok h
  rw [hbounds] at hc hcorrected
  obtain ⟨desired, hdesired, hc⟩ := Except.bind_eq_ok.mp hc
  obtain rfl := Except.ok.inj hc
  have hsized := desiredCrop_sized hdesired
  obtain ⟨clamped, hclamp, hcontain⟩ := Except.bind_eq_ok.mp hcorrected
  obtain rfl := clamp_eq_ok hclamp
  refine contain_height_le ?_ hbox hfull hcontain
  have hdesired' : desired.height ≤ height := by
    obtain rfl := clamp_eq_ok hdesired
    have hle : min (P.fullFrame : CropRect ℝ).height (b.height / P.targetHeightFraction) ≤
        (P.fullFrame : CropRect ℝ).height := min_le_left _ _
    rw [if_neg (not_lt.mpr (width_le_fullFrame_iff.mpr hle))]
    exact (min_le_right _ _).trans hheight
  have hwidth := width_le_fullFrame_iff.mpr hsized.height_le
  rw [← hsized.width_eq] at hwidth
  rw [bounded, if_neg (not_or.mpr ⟨hwidth.not_gt, hsized.height_le.not_gt⟩)]
  exact hdesired'

/-- A planner of a full-HD source, tight and in its own shape. -/
def tightPlanner : DeterministicCropPlanner :=
  { hdPlanner with aspectRatio := .landscape, profile := .tight }

/-- A sampled box of less than a pixel. -/
noncomputable def smallShot : List (FrameMeasurement ℝ) := [⟨some ⟨700, 500, 1 / 10, 3 / 10⟩, 0, 1, true⟩]

theorem smallShot_legal : tightPlanner.Legal smallShot := by
  refine ⟨by simp [smallShot], by simp [smallShot], ?_⟩
  simp only [smallShot, List.forall_mem_cons, Option.mem_def, Option.some.injEq, forall_eq',
    List.not_mem_nil, false_implies, implies_true, and_true]
  exact ⟨by norm_num, by norm_num, by norm_num, by norm_num [Rect.right, tightPlanner, hdPlanner],
    by norm_num, by norm_num [Rect.bottom, tightPlanner, hdPlanner]⟩

end DeterministicCropPlanner

namespace LookaheadCropPlanner

open DeterministicCropPlanner

/-- An array of the requested size, all black. -/
def resizeBlack (_ : Image Bgr) (size : ℤ × ℤ) : Except Raised (Option (Image Bgr)) :=
  .ok (some ⟨size.2.toNat, size.1.toNat, fun _ _ => ⟨0, 0, 0⟩⟩)

theorem resizeBlack_resizes : FrameResizes resizeBlack := fun _ _ _ _ hw hh =>
  ⟨_, rfl, Int.toNat_of_nonneg hw.le, Int.toNat_of_nonneg hh.le⟩

def threeFrames : MediaMetadata := .probed 1920 1080 30 (1 / 10) "h264" 0 none

theorem plan_renderable_hdShot :
    ∃ plan, (⟨hdPlanner⟩ : LookaheadCropPlanner).plan exactLinprog hdShot = .ok plan ∧
      validateCropPath (plan.crops.map CropRect.floats) threeFrames .portrait = .ok () ∧
      ∀ crop ∈ plan.crops, 1 ≤ crop.width ∧ 1 ≤ crop.height := by
  obtain ⟨plan, hplan⟩ := plan_exact (P := ⟨hdPlanner⟩) hdShot_legal exactLinprog_exact
  obtain ⟨hvalid, -, hpixel⟩ := plan_renderable hplan
    (show threeFrames.displayDimensions = (1920, 1080) from rfl) (by rw [hdShot]; decide +kernel) resizeBlack_resizes
  refine ⟨plan, hplan, hvalid, hpixel (by decide) (by decide) ?_⟩
  simp only [hdShot, List.forall_mem_cons, Option.mem_def, Option.some.injEq, forall_eq',
    reduceCtorEq, List.not_mem_nil, false_implies, implies_true, and_true]
  norm_num

/-- **A box of less than a pixel** is followed with a crop of less than a pixel, which no frame is
cut to. -/
theorem smallShot_unrenderable :
    tightPlanner.Legal smallShot ∧ FrameResizes resizeBlack ∧
      ∃ plan crop, (⟨tightPlanner⟩ : LookaheadCropPlanner).plan exactLinprog smallShot = .ok plan ∧
        crop ∈ plan.crops ∧ ¬ ∃ resized, cropAndResizeFrame resizeBlack
          (some ⟨1080, 1920, fun _ _ => ⟨0, 0, 0⟩⟩) crop.floats (outputDimensions .landscape) =
            .ok resized := by
  obtain ⟨plan, hplan⟩ := plan_exact (P := ⟨tightPlanner⟩) smallShot_legal exactLinprog_exact
  have hm : smallShot[0]? = some ⟨some ⟨700, 500, 1 / 10, 3 / 10⟩, 0, 1, true⟩ := rfl
  obtain ⟨seed, hseed, ⟨hlength, -, -, hsize⟩, -⟩ := plan_verified _ _ (List.cons_ne_nil _ _) hplan
  obtain ⟨before, st, seedCrop, trace, hbefore, hframe, -, hseedCrop, -⟩ := plan_frame hseed hm
  obtain rfl := Except.ok.inj hbefore
  obtain ⟨crop, hcrop⟩ : ∃ crop, plan.crops[0]? = some crop :=
    ⟨_, List.getElem?_eq_getElem (by rw [hlength]; exact Nat.one_pos)⟩
  have hheight : seedCrop.height ≤ 1 / 2 := by
    refine first_height_le rfl ?_ ⟨by norm_num, ?_⟩ ?_ hframe
    · norm_num [targetHeightFraction, tightPlanner, FramingProfile.targetHeightFraction]
    · norm_num [tightPlanner, AspectRatio.valueFloat]
    · norm_num [Limited, fullFrame, fullFrameCrop, tightPlanner, hdPlanner, AspectRatio.valueFloat]
  refine ⟨smallShot_legal, resizeBlack_resizes, plan, crop, hplan, List.mem_of_getElem? hcrop, ?_⟩
  have hvalid := validCrop_of_geometry ((plan_geometry hplan).2 crop (List.mem_of_getElem? hcrop))
    (show threeFrames.displayDimensions = (1920, 1080) from rfl)
  rw [cropAndResizeFrame_ok_iff resizeBlack_resizes hvalid.x_nonneg hvalid.y_nonneg
    hvalid.width_pos.le hvalid.height_pos.le (by exact_mod_cast hvalid.right_le)
    (by exact_mod_cast hvalid.bottom_le) (by decide), (hsize 0 crop seedCrop hcrop hseedCrop).2]
  rintro ⟨-, hone⟩
  linarith

end LookaheadCropPlanner

end BoulderFrame
