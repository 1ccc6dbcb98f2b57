import BoulderFrame.Detector.Yolo
import BoulderFrame.Framing.AxisOptimum
import BoulderFrame.Framing.LookaheadAxes

/-!
# The look-ahead planner never fails on legal measurements

With an exact optimizer the look-ahead planner returns on every sequence of legal measurements.
The causal seed is safe, so no sampled box is refused and no legal interval is empty; an origin is
legal exactly when its crop lies in the source and holds the sampled box, so the solved crops pass
the last checks.

## Main results

* `LookaheadCropPlanner.axisInterval_total`: the legal origins of a safe frame
* `LookaheadCropPlanner.solveAxis_exact`: an axis is solved at legal origins
* `LookaheadCropPlanner.plan_exact`: the planner returns
* `LookaheadCropPlanner.plan_total`: none of its checks refuses anything
-/

namespace BoulderFrame

open LinearProgramming

namespace LookaheadCropPlanner

variable {P : LookaheadCropPlanner}

/-- A crop of the requested shape inside the source passes the geometry check. -/
theorem not_invalidGeometry {crop : CropRect ℝ} (hc : P.seedPlanner.Shaped crop) (hx : 0 ≤ crop.x)
    (hr : crop.right ≤ P.seedPlanner.sourceWidth) (hy : 0 ≤ crop.y)
    (hb : crop.bottom ≤ P.seedPlanner.sourceHeight) : ¬ P.invalidGeometry crop := by
  have hh := hc.height_pos
  have hw := hc.width_pos
  have hratio : crop.width / crop.height = P.seedPlanner.aspectRatio.valueFloat := by
    rw [hc.width_eq, mul_div_cancel_left₀ _ hh.ne']
  unfold invalidGeometry
  rw [hratio, isclose_self le_rfl]
  simp only [CropRect.right, CropRect.bottom] at hr hb ⊢
  rintro (h | h | h | h | h)
  · linarith
  · linarith
  · exact h ⟨hx, by linarith, hr⟩
  · exact h ⟨hy, by linarith, hb⟩
  · cases h

/-- A box that fits the crop of a safe frame lies in it. -/
theorem contains_of_feasible {m : FrameMeasurement ℝ} {crop : CropRect ℝ}
    {trace : PlannerFrameTrace ℝ} (h : P.seedPlanner.FrameSafe m crop trace)
    (hf : feasible m crop = true) : ∀ box ∈ m.detectorBounds, crop.Contains box := by
  intro box hbox
  refine h.contains box hbox ?_
  simp only [feasible, Bool.and_eq_true, Option.any_eq_true_iff_get] at hf
  obtain ⟨-, hsome, hw, hh⟩ := hf
  have hget : m.detectorBounds.get hsome = box := by simp [Option.mem_def.mp hbox]
  rw [hget] at hw hh
  rw [← Bool.not_eq_true, h.limited_iff]
  rintro ⟨b, hb, hlim⟩
  obtain rfl := Option.some.inj (hbox.symm.trans hb)
  have := h.framed.width_le
  have := h.framed.height_le
  simp only [decide_eq_true_eq] at hw hh
  rcases hlim with hlim | hlim <;> linarith

/-- A box of a safe frame that its crop does not hold is limited by the source. -/
theorem not_rejectedSample {m : FrameMeasurement ℝ} {crop : CropRect ℝ}
    {trace : PlannerFrameTrace ℝ} (h : P.seedPlanner.FrameSafe m crop trace) :
    rejectedSample m crop trace = false := by
  cases hbox : m.detectorBounds with
  | none => simp [rejectedSample, hbox]
  | some box =>
    cases hlim : trace.sourceAspectLimited with
    | true => simp [rejectedSample, hlim]
    | false =>
      have hin := h.contains box hbox hlim
      cases hs : m.detectionSampled with
      | false => simp [rejectedSample, hs]
      | true => simp [rejectedSample, feasible, hs, hbox, hin.width_le, hin.height_le]

/-! ## Legal origins -/

variable (P) in
/-- At the origin, the crop lies in the source on the axis and holds the box that constrains it. -/
def LegalOrigin (horizontal possible : Bool) (crop : CropRect ℝ) (m : FrameMeasurement ℝ)
    (origin : ℝ) : Prop :=
  0 ≤ origin ∧ origin + crop.extent horizontal ≤ P.source horizontal ∧
    (possible = true → ∀ box ∈ m.detectorBounds,
      origin ≤ box.near horizontal ∧ box.far horizontal ≤ origin + crop.extent horizontal)

/-- The interval of an axis holds exactly the legal origins, if there is one. -/
theorem axisInterval_legal {horizontal possible : Bool} {crop : CropRect ℝ}
    {m : FrameMeasurement ℝ} {origin : ℝ} (h : P.LegalOrigin horizontal possible crop m origin) :
    ∃ item, P.axisInterval horizontal crop m possible = .ok item ∧ ∀ o,
      item.originLower ≤ o ∧ o ≤ item.originUpper ↔ P.LegalOrigin horizontal possible crop m o := by
  unfold axisInterval
  simp only [elementary_nextDown, elementary_nextUp, ite_self]
  split
  -- a box constrains the origin
  · rename_i box hbox
    have hiff : ∀ o, max 0 (box.far horizontal - crop.extent horizontal) ≤ o ∧
        o ≤ min (P.source horizontal - crop.extent horizontal) (box.near horizontal) ↔
          P.LegalOrigin horizontal true crop m o := by
      intro o
      rw [LegalOrigin, hbox, max_le_iff, le_min_iff]
      constructor
      · rintro ⟨⟨h1, h2⟩, h3, h4⟩
        refine ⟨h1, by linarith, fun _ b hb => ?_⟩
        obtain rfl := Option.some.inj hb
        exact ⟨h4, by linarith⟩
      · rintro ⟨h1, h2, h3⟩
        obtain ⟨h4, h5⟩ := h3 rfl box rfl
        exact ⟨⟨h1, by linarith⟩, by linarith, h4⟩
    obtain ⟨hl, hu⟩ := (hiff origin).mpr h
    rw [if_neg (not_lt.mpr (hl.trans hu))]
    exact ⟨_, rfl, hiff⟩
  -- only the source does
  · rename_i p _ _ hnone
    have hiff : ∀ o, 0 ≤ o ∧ o ≤ P.source horizontal - crop.extent horizontal ↔
        P.LegalOrigin horizontal p crop m o := by
      intro o
      rw [LegalOrigin]
      constructor
      · rintro ⟨h1, h2⟩
        exact ⟨h1, by linarith, fun hp b hb => absurd (Option.mem_def.mp hb) (hnone b hp)⟩
      · rintro ⟨h1, h2, -⟩
        exact ⟨h1, by linarith⟩
    obtain ⟨hl, hu⟩ := (hiff origin).mpr h
    rw [if_neg (not_lt.mpr (hl.trans hu))]
    exact ⟨_, rfl, hiff⟩

/-- The origin of the crop of a safe frame is legal. -/
theorem legalOrigin_seed {m : FrameMeasurement ℝ} {crop : CropRect ℝ}
    {trace : PlannerFrameTrace ℝ} (h : P.seedPlanner.FrameSafe m crop trace) (horizontal : Bool) :
    P.LegalOrigin horizontal (feasible m crop) crop m (crop.origin horizontal) := by
  have hf := h.framed
  cases horizontal
  · exact ⟨hf.y_nonneg, hf.bottom_le, fun hp box hb =>
      ⟨(contains_of_feasible h hp box hb).2.1, (contains_of_feasible h hp box hb).2.2.2⟩⟩
  · exact ⟨hf.x_nonneg, hf.right_le, fun hp box hb =>
      ⟨(contains_of_feasible h hp box hb).1, (contains_of_feasible h hp box hb).2.2.1⟩⟩

/-! ## One axis -/

section Axis

variable {ms : List (FrameMeasurement ℝ)} {seed : CropPlan ℝ (PlannerFrameTrace ℝ)}
  (hlen : seed.crops.length = ms.length)
  (hsafe : ∀ (i : ℕ) m crop trace, ms[i]? = some m → seed.crops[i]? = some crop →
    seed.trace[i]? = some trace → P.seedPlanner.FrameSafe m crop trace)
include hlen hsafe

/-- A safe causal plan has an axis problem, and its legal intervals hold the legal origins. -/
theorem axisProblem_total (horizontal : Bool) : ∃ A, P.axisProblem seed.crops ms
    (possible ms seed.crops) (intervals ms) horizontal = .ok A ∧
      A.horizontal = horizontal ∧ A.source = P.source horizontal ∧ A.crops = seed.crops ∧
      A.legal.length = seed.crops.length ∧
      ∀ (i : ℕ) m crop item, ms[i]? = some m → seed.crops[i]? = some crop →
        A.legal[i]? = some item →
          (item.originLower ≤ crop.origin horizontal ∧ crop.origin horizontal ≤ item.originUpper) ∧
          ∀ o, item.originLower ≤ o ∧ o ≤ item.originUpper ↔
            P.LegalOrigin horizontal (feasible m crop) crop m o := by
  have hframe : ∀ (i : ℕ) m crop, ms[i]? = some m → seed.crops[i]? = some crop →
      P.LegalOrigin horizontal (feasible m crop) crop m (crop.origin horizontal) := by
    intro i m crop hm hcrop
    have hi : i < seed.trace.length := by
      rw [← seed.length_eq]
      exact (List.getElem?_eq_some_iff.mp hcrop).1
    exact legalOrigin_seed (hsafe i m crop _ hm hcrop (List.getElem?_eq_getElem hi)) horizontal
  obtain ⟨legal, hlegal⟩ : ∃ legal,
      P.axisIntervals seed.crops ms (possible ms seed.crops) horizontal = .ok legal := by
    refine Except.mapM_total ?_
    rintro ⟨crop, m, p⟩ hmem
    obtain ⟨i, hi⟩ := List.mem_iff_getElem?.mp hmem
    rw [List.getElem?_zip_eq_some, List.getElem?_zip_eq_some] at hi
    obtain ⟨hcrop, hm, hp⟩ := hi
    dsimp only at hcrop hm hp ⊢
    rw [possible, List.getElem?_zipWith, hm, hcrop] at hp
    obtain rfl := Option.some.inj hp
    obtain ⟨item, hitem, -⟩ := axisInterval_legal (hframe i m crop hm hcrop)
    exact ⟨item, hitem⟩
  obtain ⟨hl, hentry⟩ := axisIntervals_eq_ok hlen hlegal
  refine ⟨_, axisProblem_eq_ok.mpr ⟨legal, hlegal, rfl⟩, rfl, rfl, rfl, hl, ?_⟩
  intro i m crop item hm hcrop hitem
  obtain ⟨item', hitem', hiff⟩ := axisInterval_legal (hframe i m crop hm hcrop)
  obtain rfl := Except.ok.inj ((hentry i crop m item hcrop hm hitem).symm.trans hitem')
  exact ⟨(hiff _).mpr (hframe i m crop hm hcrop), hiff⟩

/-- **An axis** of a safe causal plan is solved at legal origins. -/
theorem solveAxis_exact {linprog : Linprog ℝ} (hex : ExactLinprog linprog) (hne : ms ≠ [])
    (hseed : P.seedPlanner.plan ms = .ok seed) (horizontal : Bool) :
    ∃ origins, P.solveAxis linprog seed.crops ms (possible ms seed.crops) (intervals ms)
      horizontal = .ok origins ∧ origins.length = ms.length ∧
      ∀ (i : ℕ) m crop origin, ms[i]? = some m → seed.crops[i]? = some crop →
        origins[i]? = some origin →
          P.LegalOrigin horizontal (feasible m crop) crop m origin := by
  obtain ⟨A, hA, hh, hs, hc, hl, hlegal⟩ := axisProblem_total hlen hsafe horizontal
  have hcount : A.count = ms.length := by rw [AxisProblem.count, hc, hlen]
  unfold solveAxis
  rw [hA, Except.ok_bind]
  rcases Nat.lt_or_ge 1 ms.length with hn | hn
  · obtain ⟨hreg, -⟩ := axisProblem_regular hseed hn hA
    obtain ⟨st, hst, -⟩ := hreg.path_optimal hex
    obtain ⟨hlenO, horigins, -⟩ := hreg.runPasses_verified hst
    refine ⟨st.origins, (solve_eq_ok (hcount.symm ▸ hn)).mpr ⟨st, hst, rfl⟩,
      hlenO.trans hcount, fun i m crop origin hm hcrop ho => ?_⟩
    have hi : i < A.legal.length := by
      rw [hl]
      exact (List.getElem?_eq_some_iff.mp hcrop).1
    obtain ⟨item, hitem⟩ : ∃ item, A.legal[i]? = some item := ⟨_, List.getElem?_eq_getElem hi⟩
    exact ((hlegal i m crop item hm hcrop hitem).2 origin).mp (horigins i origin item ho hitem)
  · have h1 : ms.length = 1 := by have := List.length_pos_iff.mpr hne; omega
    obtain ⟨m, rfl⟩ := List.length_eq_one_iff.mp h1
    obtain ⟨crop, hcrop⟩ := List.length_eq_one_iff.mp (hlen.trans h1)
    obtain ⟨item, hitem⟩ := List.length_eq_one_iff.mp (hl.trans (hlen.trans h1))
    obtain ⟨hmem, hiff⟩ := hlegal 0 m crop item rfl (by rw [hcrop]; rfl) (by rw [hitem]; rfl)
    refine ⟨[crop.origin horizontal], ?_, rfl, fun i m' crop' origin hm hcrop' ho => ?_⟩
    · unfold AxisProblem.solve
      rw [hc, hcrop, hitem, hh]
      exact if_pos hmem
    · obtain rfl : i = 0 := by
        have := (List.getElem?_eq_some_iff.mp ho).1
        simpa using this
      obtain rfl : m = m' := by simpa using hm
      obtain rfl : crop = crop' := by simpa [hcrop] using hcrop'
      obtain rfl : crop.origin horizontal = origin := by simpa using ho
      exact (hiff _).mp hmem

end Axis

/-! ## The whole plan -/

variable {ms : List (FrameMeasurement ℝ)} (hms : P.seedPlanner.Legal ms) {linprog : Linprog ℝ}
  (hex : ExactLinprog linprog)
include hms hex

/-- **The look-ahead planner returns** on legal measurements. -/
theorem plan_exact : ∃ plan, P.plan linprog ms = .ok plan := by
  rcases eq_or_ne ms [] with rfl | hne
  · exact ⟨_, rfl⟩
  obtain ⟨seed, hseed, hlen, hsafe⟩ := P.seedPlanner.plan_safe hms
  obtain ⟨originsX, hX, hlenX, hlegalX⟩ := solveAxis_exact hlen hsafe hex hne hseed true
  obtain ⟨originsY, hY, hlenY, hlegalY⟩ := solveAxis_exact hlen hsafe hex hne hseed false
  have hlenM := moved_length (hlenX.trans hlen.symm) (hlenY.trans hlen.symm)
  have hframe : ∀ (i : ℕ) crop, seed.crops[i]? = some crop → ∃ m trace, ms[i]? = some m ∧
      P.seedPlanner.FrameSafe m crop trace := by
    intro i crop hcrop
    have hi := (List.getElem?_eq_some_iff.mp hcrop).1
    have hm : ms[i]? = some ms[i] := List.getElem?_eq_getElem (by omega)
    exact ⟨_, _, hm, hsafe i _ crop _ hm hcrop
      (List.getElem?_eq_getElem (by rw [← seed.length_eq]; exact hi))⟩
  -- every moved crop keeps its size and lies at legal origins
  have hmoved : ∀ (i : ℕ) c, (moved originsX originsY seed.crops)[i]? = some c →
      ∃ m crop trace, ms[i]? = some m ∧ seed.crops[i]? = some crop ∧
        P.seedPlanner.FrameSafe m crop trace ∧ c.width = crop.width ∧ c.height = crop.height ∧
        P.LegalOrigin true (feasible m crop) crop m c.x ∧
        P.LegalOrigin false (feasible m crop) crop m c.y := by
    intro i c hc
    obtain ⟨x, y, crop, hx, hy, hcrop, rfl⟩ := moved_eq_some.mp hc
    obtain ⟨m, trace, hm, hfs⟩ := hframe i crop hcrop
    exact ⟨m, crop, trace, hm, hcrop, hfs, rfl, rfl, hlegalX i m crop x hm hcrop hx,
      hlegalY i m crop y hm hcrop hy⟩
  refine ⟨_, (plan_eq_ok hne).mpr ⟨seed, originsX, originsY, hseed, fun crop hcrop => ?_,
    fun m hm => ?_, fun q hq => ?_, hX, hY, fun c hc => ?_, fun q hq => ?_,
    dif_pos (by rw [hlenM, hlen, traces_length (hlenM.trans hlen) hlen])⟩⟩
  · obtain ⟨i, hi⟩ := List.mem_iff_getElem?.mp hcrop
    obtain ⟨m, trace, -, hf, -⟩ := hframe i crop hi
    exact not_invalidGeometry hf.toShaped hf.x_nonneg hf.right_le hf.y_nonneg hf.bottom_le
  · rintro ⟨box, hbox, h⟩
    have hb := hms.boxes m hm box hbox
    rcases h with h | h
    · exact absurd hb.width_pos h.not_gt
    · exact absurd hb.height_pos h.not_gt
  · obtain ⟨i, hi⟩ := List.mem_iff_getElem?.mp hq
    rw [List.getElem?_zip_eq_some, List.getElem?_zip_eq_some] at hi
    exact not_rejectedSample (hsafe i _ _ _ hi.1 hi.2.1 hi.2.2)
  · obtain ⟨i, hi⟩ := List.mem_iff_getElem?.mp hc
    obtain ⟨m, crop, trace, -, -, hfs, hw, hh, hx, hy⟩ := hmoved i c hi
    have hshape : P.seedPlanner.Shaped c :=
      ⟨by rw [hw, hh, hfs.framed.width_eq], by rw [hh]; exact hfs.framed.height_pos⟩
    refine not_invalidGeometry hshape hx.1 ?_ hy.1 ?_
    · rw [CropRect.right, hw]
      exact hx.2.1
    · rw [CropRect.bottom, hh]
      exact hy.2.1
  · obtain ⟨i, hi⟩ := List.mem_iff_getElem?.mp hq
    rw [List.getElem?_zip_eq_some, List.getElem?_zip_eq_some, possible,
      List.getElem?_zipWith_eq_some] at hi
    obtain ⟨hc, hm, m', crop', hm', hcrop', hp⟩ := hi
    obtain ⟨m, crop, trace, hm'', hcrop, -, hw, hh, hx, hy⟩ := hmoved i _ hc
    obtain rfl := Option.some.inj (hm'.symm.trans hm)
    obtain rfl := Option.some.inj (hm''.symm.trans hm')
    obtain rfl := Option.some.inj (hcrop.symm.trans hcrop')
    rw [uncontained, Bool.and_eq_false_imp]
    intro hpossible
    rw [← hp] at hpossible
    rw [Option.any_eq_false_iff_get]
    intro hbox
    obtain ⟨hx1, hx2⟩ := hx.2.2 hpossible _ (Option.get_mem hbox)
    obtain ⟨hy1, hy2⟩ := hy.2.2 hpossible _ (Option.get_mem hbox)
    rw [decide_eq_false_iff_not, not_not]
    refine ⟨hx1, hy1, ?_, ?_⟩
    · rw [CropRect.right, hw]
      exact hx2
    · rw [CropRect.bottom, hh]
      exact hy2

/-- **No check refuses anything** on legal measurements: the causal planner returns, no sampled box
is rejected, no legal interval is empty, every program of every pass is feasible and bounded below,
and every pass accepts its answer. The boxes that the detector decodes are legal whatever its model
returns. -/
theorem plan_total :
    (∃ plan, P.plan linprog ms = .ok plan) ∧
      (∃ seed, P.seedPlanner.plan ms = .ok seed ∧
        (∀ q ∈ ms.zip (seed.crops.zip seed.trace), rejectedSample q.1 q.2.1 q.2.2 = false) ∧
        ∀ horizontal, ∃ A, P.axisProblem seed.crops ms (possible ms seed.crops) (intervals ms)
            horizontal = .ok A ∧
          (∀ item ∈ A.legal, item.originLower ≤ item.originUpper) ∧
          (2 ≤ ms.length → ∀ k < 6, ∃ st st', A.runPasses linprog k = .ok st ∧
            (∃ x, (A.program k st).Feasible x) ∧ (A.program k st).BoundedBelow ∧
            A.solvePass linprog k st = .ok st')) ∧
      ∀ scoreThreshold rows detections, OnnxYolo26Detector.detect scoreThreshold
          P.seedPlanner.sourceWidth P.seedPlanner.sourceHeight rows = .ok detections →
        ∀ d ∈ detections, P.seedPlanner.LegalBox d.bounds := by
  refine ⟨plan_exact hms hex, ?_, fun _ _ _ => OnnxYolo26Detector.detect_legal⟩
  obtain ⟨seed, hseed, hlen, hsafe⟩ := P.seedPlanner.plan_safe hms
  refine ⟨seed, hseed, fun q hq => ?_, fun horizontal => ?_⟩
  · obtain ⟨i, hi⟩ := List.mem_iff_getElem?.mp hq
    rw [List.getElem?_zip_eq_some, List.getElem?_zip_eq_some] at hi
    exact not_rejectedSample (hsafe i _ _ _ hi.1 hi.2.1 hi.2.2)
  · obtain ⟨A, hA, -, -, hc, hl, hlegal⟩ := axisProblem_total hlen hsafe horizontal
    refine ⟨A, hA, fun item hitem => ?_, fun hn k hk => ?_⟩
    · obtain ⟨i, hi⟩ := List.mem_iff_getElem?.mp hitem
      have hlt := (List.getElem?_eq_some_iff.mp hi).1
      obtain ⟨hlower, hupper⟩ := (hlegal i _ _ item
        (List.getElem?_eq_getElem (show i < ms.length by omega))
        (List.getElem?_eq_getElem (show i < seed.crops.length by omega)) hi).1
      exact hlower.trans hupper
    · exact (axisProblem_regular hseed hn hA).1.solvePass_total hex hk

omit hms hex in
theorem plan_total_hdShot :
    ∃ plan, (⟨DeterministicCropPlanner.hdPlanner⟩ : LookaheadCropPlanner).plan exactLinprog
      DeterministicCropPlanner.hdShot = .ok plan :=
  (plan_total (P := ⟨DeterministicCropPlanner.hdPlanner⟩) DeterministicCropPlanner.hdShot_legal
    exactLinprog_exact).1

end LookaheadCropPlanner

end BoulderFrame
