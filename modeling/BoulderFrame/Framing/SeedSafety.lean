import BoulderFrame.Framing.Seed
import BoulderFrame.Library.Frames

/-!
# Safety of the causal crop planner

On legal measurements the causal planner never raises, and every frame's crop lies in the source,
has the requested shape, and contains the frame's box unless no crop of that shape can. The
invariant carried from frame to frame is that the previous crop is framed; what a frame does to it
is one chain: the candidate keeps its shape, bounding caps its size, the shift brings it into the
source, and containment may only grow it up to the full frame.

## Main definitions

* `Shaped`, `Framed`: the requested shape, and also inside the source
* `LegalBox`, `Legal`: boxes inside the source, and timestamps that increase
* `FrameSafe`: what holds of a frame's crop and trace

## Main results

* `contain_safe`: containment holds the box unless it is larger than the full frame
* `frame_safe`: one frame keeps the invariant
* `plan_safe`: the planner returns, and every frame is safe
-/

namespace BoulderFrame.DeterministicCropPlanner

variable (P : DeterministicCropPlanner)

/-- A crop of the requested aspect ratio and positive size. -/
structure Shaped (c : CropRect ℝ) : Prop where
  width_eq : c.width = c.height * P.aspectRatio.valueFloat
  height_pos : 0 < c.height

/-- A shaped crop inside the source, no larger than the full frame. -/
structure Framed (c : CropRect ℝ) : Prop extends Shaped P c where
  height_le : c.height ≤ (P.fullFrame : CropRect ℝ).height
  x_nonneg : 0 ≤ c.x
  right_le : c.right ≤ P.sourceWidth
  y_nonneg : 0 ≤ c.y
  bottom_le : c.bottom ≤ P.sourceHeight

/-- A box of positive size inside the source. -/
structure LegalBox (b : Rect ℝ) : Prop where
  width_pos : 0 < b.width
  height_pos : 0 < b.height
  x_nonneg : 0 ≤ b.x
  right_le : b.right ≤ P.sourceWidth
  y_nonneg : 0 ≤ b.y
  bottom_le : b.bottom ≤ P.sourceHeight

/-- The box is wider or taller than the full frame. -/
def Limited (b : Rect ℝ) : Prop :=
  (P.fullFrame : CropRect ℝ).width < b.width ∨ (P.fullFrame : CropRect ℝ).height < b.height

/-- What holds of a frame's crop and trace. -/
structure FrameSafe (m : FrameMeasurement ℝ) (crop : CropRect ℝ)
    (trace : PlannerFrameTrace ℝ) : Prop where
  framed : P.Framed crop
  limited_iff : trace.sourceAspectLimited = true ↔ ∃ b ∈ m.detectorBounds, P.Limited b
  contains : ∀ b ∈ m.detectorBounds, trace.sourceAspectLimited = false → crop.Contains b

/-- Timestamps are not negative and increase; boxes have positive size and lie in the source. -/
structure Legal (ms : List (FrameMeasurement ℝ)) : Prop where
  increasing : ms.Pairwise fun m m' => m.timestampMs < m'.timestampMs
  nonneg : ∀ m ∈ ms, 0 ≤ m.timestampMs
  boxes : ∀ m ∈ ms, ∀ b ∈ m.detectorBounds, P.LegalBox b

/-! ## The full frame and the shift into the source -/

section Shape

variable {P}

theorem aspect_pos : 0 < (P.aspectRatio.valueFloat : ℝ) := P.aspectRatio.valueFloat_pos

theorem fullFrame_width :
    (P.fullFrame : CropRect ℝ).width = P.fullFrame.height * P.aspectRatio.valueFloat :=
  fullFrameCrop_width _

theorem fullFrame_height_pos : 0 < (P.fullFrame : CropRect ℝ).height :=
  fullFrameCrop_height_pos _ P.sourceWidth_pos P.sourceHeight_pos

theorem fullFrame_width_le : (P.fullFrame : CropRect ℝ).width ≤ P.sourceWidth :=
  fullFrameCrop_width_le _ P.sourceHeight_pos

theorem fullFrame_height_le : (P.fullFrame : CropRect ℝ).height ≤ P.sourceHeight :=
  fullFrameCrop_height_le _ P.sourceHeight_pos

/-- Two shapes compare in width as in height. -/
theorem width_le_fullFrame_iff {h : ℝ} :
    h * P.aspectRatio.valueFloat ≤ (P.fullFrame : CropRect ℝ).width ↔
      h ≤ (P.fullFrame : CropRect ℝ).height := by
  rw [fullFrame_width, mul_le_mul_iff_left₀ aspect_pos]

theorem Shaped.width_pos {c : CropRect ℝ} (hc : P.Shaped c) : 0 < c.width := by
  rw [hc.width_eq]
  exact mul_pos hc.height_pos aspect_pos

theorem Shaped.width_le {c : CropRect ℝ} (hc : P.Shaped c)
    (hh : c.height ≤ (P.fullFrame : CropRect ℝ).height) :
    c.width ≤ (P.fullFrame : CropRect ℝ).width := by
  rw [hc.width_eq]
  exact width_le_fullFrame_iff.mpr hh

theorem Framed.width_le {c : CropRect ℝ} (hc : P.Framed c) :
    c.width ≤ (P.fullFrame : CropRect ℝ).width := hc.toShaped.width_le hc.height_le

theorem shaped_fullFrame (p : Point ℝ) :
    P.Shaped (.centered p P.fullFrame.width P.fullFrame.height) :=
  ⟨fullFrame_width, fullFrame_height_pos⟩

/-- **The shift into the source** frames a shaped crop no larger than the full frame. -/
theorem clamp_framed {c : CropRect ℝ} (hc : P.Shaped c)
    (hh : c.height ≤ (P.fullFrame : CropRect ℝ).height) :
    ∃ c', P.clamp c = .ok c' ∧ P.Framed c' ∧
      c' = ⟨min (max c.x 0) (P.sourceWidth - c.width), min (max c.y 0) (P.sourceHeight - c.height),
        c.width, c.height⟩ := by
  have hw := (hc.width_le hh).trans fullFrame_width_le
  have hh' := hh.trans fullFrame_height_le
  refine ⟨_, clampCrop_ok hw hh', ⟨⟨hc.width_eq, hc.height_pos⟩, hh, ?_, ?_, ?_, ?_⟩, rfl⟩
  · exact le_min (le_max_right _ _) (by linarith)
  · have := min_le_right (max c.x 0) (P.sourceWidth - c.width)
    simp only [CropRect.right]
    linarith
  · exact le_min (le_max_right _ _) (by linarith)
  · have := min_le_right (max c.y 0) (P.sourceHeight - c.height)
    simp only [CropRect.bottom]
    linarith

/-- On one axis, the shift into the source keeps a box that lies in it. -/
theorem shift_contains {x w b size source : ℝ} (hx : x ≤ b) (hr : b + size ≤ x + w) (hb : 0 ≤ b)
    (hs : b + size ≤ source) :
    min (max x 0) (source - w) ≤ b ∧ b + size ≤ min (max x 0) (source - w) + w := by
  refine ⟨(min_le_left _ _).trans (max_le hx hb), ?_⟩
  rcases min_choice (max x 0) (source - w) with h | h <;> rw [h]
  · linarith [le_max_left x 0]
  · linarith

end Shape

/-! ## The candidate keeps its shape -/

section Candidates

variable {P}

theorem desiredCrop_framed {b : Rect ℝ} (hb : 0 < b.height) :
    ∃ d, P.desiredCrop b = .ok d ∧ P.Framed d := by
  have hf : (0 : ℝ) < P.targetHeightFraction := P.profile.targetHeightFraction_pos
  have hle : min P.fullFrame.height (b.height / P.targetHeightFraction) ≤
      (P.fullFrame : CropRect ℝ).height := min_le_left _ _
  obtain ⟨d, hd, hfr, -⟩ := clamp_framed (P := P)
    (c := .centered b.center (min P.fullFrame.height (b.height / P.targetHeightFraction) *
      P.aspectRatio.valueFloat) (min P.fullFrame.height (b.height / P.targetHeightFraction)))
    ⟨rfl, lt_min fullFrame_height_pos (div_pos hb hf)⟩ hle
  refine ⟨d, ?_, hfr⟩
  rw [desiredCrop, if_neg (not_lt.mpr (width_le_fullFrame_iff.mpr hle))]
  exact hd

theorem widthFor_eq (h : ℝ) : P.widthFor h = h * P.aspectRatio.valueFloat := by
  unfold widthFor
  split_ifs with hh
  · rw [hh, fullFrame_width]
  · rfl

/-- The zoom never fails on positive heights, and its size is shaped. -/
theorem zoom_shaped {previous desired : CropRect ℝ} (hp : P.Shaped previous)
    (hd : P.Shaped desired) (scaleAdjusting : Bool) (v dt : ℝ) :
    ∃ w h v', P.zoom scaleAdjusting previous desired v dt = .ok (w, h, v') ∧
      w = h * P.aspectRatio.valueFloat ∧ 0 < h := by
  unfold zoom
  split_ifs with hmove hs
  -- the gate is open
  · simp only [checkedLog_of_pos hp.height_pos, checkedLog_of_pos hd.height_pos, Except.ok_bind,
      Except.map_ok_eq, Except.pure_eq_ok]
    split_ifs
    · exact ⟨_, _, _, rfl, widthFor_eq _, hd.height_pos⟩
    · exact ⟨_, _, _, rfl, widthFor_eq _, Real.exp_pos _⟩
    · exact ⟨_, _, _, rfl, hp.width_eq, hp.height_pos⟩
  -- the gate is closed and the zoom brakes
  · simp only [checkedLog_of_pos hp.height_pos, Except.ok_bind, Except.pure_eq_ok, reduceCtorEq,
      if_false]
    split_ifs
    · exact ⟨_, _, _, rfl, widthFor_eq _, Real.exp_pos _⟩
    · exact ⟨_, _, _, rfl, hp.width_eq, hp.height_pos⟩
  · exact ⟨_, _, _, rfl, hp.width_eq, hp.height_pos⟩

theorem adjust_shaped {previous desired : CropRect ℝ} (hp : P.Shaped previous)
    (hd : P.Shaped desired) (scaleAdjusting centerAdjusting : Bool) (vs : ℝ × ℝ × ℝ) (dt : ℝ) :
    ∃ c vs', P.adjust previous desired scaleAdjusting centerAdjusting vs dt = .ok (c, vs') ∧
      P.Shaped c := by
  obtain ⟨w, h, v', hz, hw, hh⟩ := zoom_shaped hp hd scaleAdjusting vs.2.2 dt
  unfold adjust
  split_ifs
  · exact ⟨_, _, rfl, hp⟩
  · simp only [hz, Except.ok_bind, Except.pure_eq_ok]
    exact ⟨_, _, rfl, hw, hh⟩

theorem missCandidate_shaped {st : SeedState ℝ} (hst : ∀ p ∈ st.previous, P.Framed p) (dt : ℝ) :
    ∃ c, P.missCandidate st dt = .ok c ∧ P.Shaped c.candidate := by
  unfold missCandidate
  cases hp : st.previous with
  | none => exact ⟨_, rfl, fullFrame_width, fullFrame_height_pos⟩
  | some previous =>
    obtain ⟨c, vs', hc, hs⟩ := adjust_shaped (hst previous hp).toShaped
      (shaped_fullFrame previous.center) true false (0, 0, max 0 st.velocities.2.2) dt
    simp only [hc, Except.ok_bind]
    exact ⟨_, rfl, hs⟩

theorem detectedCandidate_shaped {st : SeedState ℝ} (hst : ∀ p ∈ st.previous, P.Framed p)
    {b : Rect ℝ} (hb : 0 < b.height) (dt : ℝ) :
    ∃ c, P.detectedCandidate st b dt = .ok c ∧ P.Shaped c.candidate := by
  obtain ⟨d, hd, hdf⟩ := desiredCrop_framed (P := P) hb
  unfold detectedCandidate
  simp only [hd, Except.ok_bind]
  cases hp : st.previous with
  | none => exact ⟨_, rfl, hdf.toShaped⟩
  | some previous =>
    have hpf := hst previous hp
    simp only [divide_of_ne hpf.height_pos.ne', divide_of_ne hpf.toShaped.width_pos.ne',
      Except.ok_bind]
    -- the gates may be in any position
    generalize outsideDeadband (K := ℝ) (_ - 1) _ = scale
    generalize (outsideDeadband (K := ℝ) _ _ || outsideDeadband (K := ℝ) _ _) = center
    obtain ⟨c, vs', hc, hs⟩ := adjust_shaped hpf.toShaped hdf.toShaped scale center st.velocities dt
    simp only [hc, Except.ok_bind]
    exact ⟨_, rfl, hs⟩

theorem candidate_shaped {st : SeedState ℝ} (hst : ∀ p ∈ st.previous, P.Framed p)
    {box : Option (Rect ℝ)} (hbox : ∀ b ∈ box, 0 < b.height) (dt : ℝ) :
    ∃ c, P.candidate st box dt = .ok c ∧ P.Shaped c.candidate := by
  cases box with
  | none => exact missCandidate_shaped hst dt
  | some b => exact detectedCandidate_shaped hst (hbox b rfl) dt

theorem bounded_shaped {c : CropRect ℝ} (hc : P.Shaped c) :
    P.Shaped (P.bounded c) ∧ (P.bounded c).height ≤ (P.fullFrame : CropRect ℝ).height := by
  unfold bounded
  split_ifs with h
  · exact ⟨shaped_fullFrame _, le_rfl⟩
  · exact ⟨hc, not_lt.mp (not_or.mp h).2⟩

end Candidates

/-! ## Containment -/

section Containment

variable {P}

theorem Framed.not_limited {c : CropRect ℝ} {b : Rect ℝ} (hc : P.Framed c) (h : c.Contains b) :
    ¬ P.Limited b :=
  not_or.mpr ⟨(h.width_le.trans hc.width_le).not_gt, (h.height_le.trans hc.height_le).not_gt⟩

/-- **Containment**: the corrected crop is framed, and holds the box unless the box is larger than
the full frame, which is what the flag says. -/
theorem contain_safe {c : CropRect ℝ} {b : Rect ℝ} (hc : P.Framed c) (hb : P.LegalBox b) :
    ∃ c' limited, P.contain c b = .ok (c', limited) ∧ P.Framed c' ∧
      (limited = true ↔ P.Limited b) ∧ (limited = false → c'.Contains b) := by
  unfold contain
  split_ifs with hin hlim
  · exact ⟨c, false, rfl, hc, by simpa using hc.not_limited hin, fun _ => hin⟩
  · obtain ⟨c', hc', hfr, -⟩ := clamp_framed (shaped_fullFrame (P := P) b.center) le_rfl
    simp only [hc', Except.ok_bind]
    exact ⟨c', true, rfl, hfr, iff_of_true rfl hlim, by simp⟩
  · obtain ⟨hbw, hbh⟩ : b.width ≤ (P.fullFrame : CropRect ℝ).width ∧
        b.height ≤ (P.fullFrame : CropRect ℝ).height := by
      simpa [not_or] using hlim
    -- the required height fits the full frame, so it is the height taken
    dsimp only
    set required := max (max c.height b.height) (b.width / P.aspectRatio.valueFloat)
    have hreq : required ≤ (P.fullFrame : CropRect ℝ).height := by
      refine max_le (max_le hc.height_le hbh) ?_
      rw [div_le_iff₀ aspect_pos, ← fullFrame_width]
      exact hbw
    rw [min_eq_left hreq]
    have hwidth : (if required = c.height then c.width
        else required * P.aspectRatio.valueFloat) = required * P.aspectRatio.valueFloat := by
      split_ifs with h
      · rw [h, hc.width_eq]
      · rfl
    rw [hwidth]
    have hch : c.height ≤ required := (le_max_left _ _).trans (le_max_left _ _)
    have hbr : b.height ≤ required := (le_max_right _ _).trans (le_max_left _ _)
    have hbwr : b.width ≤ required * P.aspectRatio.valueFloat := by
      rw [← div_le_iff₀ aspect_pos]
      exact le_max_right _ _
    obtain ⟨c', hc', hfr, rfl⟩ := clamp_framed (P := P)
      (c := ⟨max (min c.x b.x) (b.right - required * P.aspectRatio.valueFloat),
        max (min c.y b.y) (b.bottom - required), required * P.aspectRatio.valueFloat, required⟩)
      ⟨rfl, hc.height_pos.trans_le hch⟩ hreq
    simp only [hc', Except.ok_bind]
    refine ⟨_, false, rfl, hfr, by simpa [Limited] using ⟨hbw, hbh⟩, fun _ => ?_⟩
    have hr := hb.right_le
    have hbt := hb.bottom_le
    simp only [Rect.right, Rect.bottom] at hr hbt
    have hx := shift_contains
      (x := max (min c.x b.x) (b.right - required * P.aspectRatio.valueFloat))
      (w := required * P.aspectRatio.valueFloat)
      (max_le (min_le_right _ _) (by simp only [Rect.right]; linarith))
      (by have := le_max_right (min c.x b.x) (b.right - required * P.aspectRatio.valueFloat)
          simp only [Rect.right] at this ⊢
          linarith) hb.x_nonneg hr
    have hy := shift_contains (x := max (min c.y b.y) (b.bottom - required)) (w := required)
      (max_le (min_le_right _ _) (by simp only [Rect.bottom]; linarith))
      (by have := le_max_right (min c.y b.y) (b.bottom - required)
          simp only [Rect.bottom] at this ⊢
          linarith) hb.y_nonneg hbt
    exact ⟨hx.1, hy.1, hx.2, hy.2⟩

theorem corrected_safe {candidate : CropRect ℝ} (hc : P.Shaped candidate) (box : Option (Rect ℝ))
    (hbox : ∀ b ∈ box, P.LegalBox b) :
    ∃ crop limited, P.corrected candidate box = .ok (crop, limited) ∧ P.Framed crop ∧
      (limited = true ↔ ∃ b ∈ box, P.Limited b) ∧
      ∀ b ∈ box, limited = false → crop.Contains b := by
  obtain ⟨hs, hle⟩ := bounded_shaped hc
  obtain ⟨crop, hcrop, hfr, -⟩ := clamp_framed hs hle
  unfold corrected
  simp only [hcrop, Except.ok_bind]
  cases box with
  | none => exact ⟨crop, false, rfl, hfr, by simp, by simp⟩
  | some b =>
    obtain ⟨c', limited, h, hfr', hlim, hin⟩ := contain_safe hfr (hbox b rfl)
    exact ⟨c', limited, h, hfr', by simpa using hlim, by simpa using hin⟩

end Containment

/-! ## One frame, and all of them -/

section Frames

variable {P}

theorem elapsed_ok {previous : Option ℤ} {t : ℤ} (ht : 0 ≤ t) (hp : ∀ p ∈ previous, p < t) :
    ∃ dt : ℝ, elapsed previous t = .ok dt := by
  unfold elapsed
  rw [if_neg ht.not_gt]
  cases previous with
  | none => exact ⟨_, rfl⟩
  | some p => exact ⟨_, if_neg (hp p rfl).not_ge⟩

/-- **One frame** is safe and keeps the invariant. -/
theorem frame_safe {st : SeedState ℝ} {m : FrameMeasurement ℝ}
    (hst : ∀ p ∈ st.previous, P.Framed p) (ht : 0 ≤ m.timestampMs)
    (hp : ∀ p ∈ st.previousTimestamp, p < m.timestampMs)
    (hb : ∀ b ∈ m.detectorBounds, P.LegalBox b) :
    ∃ crop trace st', P.frame st m = .ok ((crop, trace), st') ∧ P.FrameSafe m crop trace ∧
      st'.previous = some crop ∧ st'.previousTimestamp = some m.timestampMs := by
  obtain ⟨dt, hdt⟩ := elapsed_ok ht hp
  obtain ⟨c, hc, hs⟩ := candidate_shaped hst (fun b h => (hb b h).height_pos) dt
  obtain ⟨crop, limited, hcor, hfr, hlim, hin⟩ := corrected_safe hs m.detectorBounds hb
  unfold frame
  simp only [hdt, hc, hcor, Except.ok_bind]
  exact ⟨_, _, _, rfl, ⟨hfr, hlim, hin⟩, rfl, rfl⟩

/-- **Every run** over legal measurements is safe on each frame. -/
theorem planFrom_safe {st : SeedState ℝ} {ms : List (FrameMeasurement ℝ)}
    (hst : ∀ p ∈ st.previous, P.Framed p)
    (hp : ∀ p ∈ st.previousTimestamp, ∀ m ∈ ms, p < m.timestampMs) (hms : P.Legal ms) :
    ∃ frames, P.planFrom st ms = .ok frames ∧
      List.Forall₂ (fun m frame => P.FrameSafe m frame.1 frame.2) ms frames := by
  induction ms generalizing st with
  | nil => exact ⟨[], rfl, .nil⟩
  | cons m rest ih =>
    obtain ⟨crop, trace, st', hf, hsafe, hprev, htime⟩ := frame_safe hst
      (hms.nonneg m (List.mem_cons_self ..)) (fun p h => hp p h m (List.mem_cons_self ..))
      (hms.boxes m (List.mem_cons_self ..))
    obtain ⟨hlt, hinc⟩ := List.pairwise_cons.mp hms.increasing
    have hst' : ∀ p ∈ st'.previous, P.Framed p := by
      rw [hprev]
      rintro p ⟨⟩
      exact hsafe.framed
    have hp' : ∀ p ∈ st'.previousTimestamp, ∀ m' ∈ rest, p < m'.timestampMs := by
      rw [htime]
      rintro p ⟨⟩
      exact hlt
    obtain ⟨frames, hframes, hall⟩ := ih hst' hp'
      ⟨hinc, fun m' h => hms.nonneg m' (List.mem_cons_of_mem _ h),
        fun m' h => hms.boxes m' (List.mem_cons_of_mem _ h)⟩
    refine ⟨(crop, trace) :: frames, ?_, .cons hsafe hall⟩
    simp only [planFrom, hf, hframes, Except.ok_bind, Except.pure_eq_ok]

variable (P)

/-- **The causal planner is total and safe** on legal measurements: it returns one crop and one
trace record per measurement, and each frame is safe. -/
theorem plan_safe {ms : List (FrameMeasurement ℝ)} (hms : P.Legal ms) :
    ∃ plan, P.plan ms = .ok plan ∧ plan.crops.length = ms.length ∧
      ∀ (i : ℕ) m crop trace, ms[i]? = some m → plan.crops[i]? = some crop →
        plan.trace[i]? = some trace → P.FrameSafe m crop trace := by
  have hst : ∀ p ∈ (initialState : SeedState ℝ).previous, P.Framed p := by simp [initialState]
  obtain ⟨frames, hframes, hall⟩ := planFrom_safe hst (by simp [initialState]) hms
  refine ⟨.ofFrames frames, by simp [plan, hframes], ?_, ?_⟩
  · simp [CropPlan.ofFrames, hall.length_eq]
  · intro i m crop trace hm hcrop htrace
    simp only [CropPlan.ofFrames, List.getElem?_map, Option.map_eq_some_iff] at hcrop htrace
    obtain ⟨f, hf, rfl⟩ := hcrop
    obtain ⟨f', hf', rfl⟩ := htrace
    obtain rfl : f = f' := Option.some.inj (hf.symm.trans hf')
    exact hall.at hm hf

/-- **Well-framed shots**: on legal measurements the planner returns, and every crop lies in the
source, has positive size and the requested aspect ratio, is no larger than the full frame, and
contains the frame's box unless the box is wider or taller than the full frame, which is what the
trace records. -/
theorem plan_wellFramed {ms : List (FrameMeasurement ℝ)} (hms : P.Legal ms) :
    ∃ plan, P.plan ms = .ok plan ∧ plan.crops.length = ms.length ∧
      ∀ (i : ℕ) m crop trace, ms[i]? = some m → plan.crops[i]? = some crop →
        plan.trace[i]? = some trace →
        (0 ≤ crop.x ∧ crop.right ≤ P.sourceWidth ∧ 0 ≤ crop.y ∧ crop.bottom ≤ P.sourceHeight) ∧
        (0 < crop.width ∧ 0 < crop.height) ∧
        crop.width / crop.height = P.aspectRatio.valueFloat ∧
        (crop.width ≤ (P.fullFrame : CropRect ℝ).width ∧
          crop.height ≤ (P.fullFrame : CropRect ℝ).height) ∧
        (trace.sourceAspectLimited = true ↔ ∃ b ∈ m.detectorBounds,
          (P.fullFrame : CropRect ℝ).width < b.width ∨
            (P.fullFrame : CropRect ℝ).height < b.height) ∧
        ∀ b ∈ m.detectorBounds, trace.sourceAspectLimited = false → crop.Contains b := by
  obtain ⟨plan, hplan, hlen, hsafe⟩ := P.plan_safe hms
  refine ⟨plan, hplan, hlen, fun i m crop trace hm hcrop htrace => ?_⟩
  obtain ⟨hfr, hlim, hin⟩ := hsafe i m crop trace hm hcrop htrace
  refine ⟨⟨hfr.x_nonneg, hfr.right_le, hfr.y_nonneg, hfr.bottom_le⟩,
    ⟨hfr.toShaped.width_pos, hfr.height_pos⟩, ?_, ⟨hfr.width_le, hfr.height_le⟩, hlim, hin⟩
  rw [hfr.width_eq, mul_div_cancel_left₀ _ hfr.height_pos.ne']

end Frames

/-! ## A shot of a full-HD source -/

def hdPlanner : DeterministicCropPlanner := ⟨1920, 1080, .portrait, .balanced, by decide, by decide⟩

/-- A sampled box, a held one nearer to the edge, and a miss. -/
noncomputable def hdShot : List (FrameMeasurement ℝ) :=
  [⟨some ⟨900, 400, 100, 300⟩, 0, 1, true⟩, ⟨some ⟨1800, 400, 120, 300⟩, 40, 1, false⟩,
    ⟨none, 80, 0, true⟩]

theorem hdShot_legal : hdPlanner.Legal hdShot := by
  refine ⟨by simp [hdShot], by simp [hdShot], ?_⟩
  simp only [hdShot, List.forall_mem_cons, Option.mem_def, Option.some.injEq, forall_eq', reduceCtorEq,
    false_implies, implies_true, List.not_mem_nil, and_true]
  constructor <;>
  exact ⟨by norm_num, by norm_num, by norm_num, by norm_num [Rect.right, hdPlanner], by norm_num,
    by norm_num [Rect.bottom, hdPlanner]⟩

theorem plan_wellFramed_hdShot :
    ∃ plan, hdPlanner.plan hdShot = .ok plan ∧ plan.crops.length = 3 := by
  obtain ⟨plan, hplan, hlen, -⟩ := plan_wellFramed hdPlanner hdShot_legal
  exact ⟨plan, hplan, hlen⟩

end BoulderFrame.DeterministicCropPlanner
