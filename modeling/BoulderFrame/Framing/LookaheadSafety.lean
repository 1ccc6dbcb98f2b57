import BoulderFrame.Framing.LookaheadTotal

/-!
# The look-ahead planner verifies its own result

Whatever the optimizer answers, a plan that is returned keeps the sizes of the causal crops, lies
in the source, holds every sampled box that fits, and moves within the limits up to the excesses
that the optimizer reported. None of this rests on the optimizer: the checks after each pass and
after both axes carry it.

## Main results

* `LookaheadCropPlanner.solveAxis_verified`: the motion of a solved axis
* `LookaheadCropPlanner.plan_verified`: what holds of every returned plan
-/

namespace BoulderFrame

open LinearProgramming

namespace LookaheadCropPlanner

/-- A solved axis has one origin per frame. -/
theorem solveAxis_length {K : Type} [Field K] [LinearOrder K] [IsStrictOrderedRing K]
    [Elementary K] {P : LookaheadCropPlanner} {linprog : Linprog K} {ms : List (FrameMeasurement K)}
    {seed : CropPlan K (PlannerFrameTrace K)} {horizontal : Bool} {origins : List K}
    (hseed : P.seedPlanner.plan ms = .ok seed) (hne : ms ≠ [])
    (h : P.solveAxis linprog seed.crops ms (possible ms seed.crops) (intervals ms) horizontal =
      .ok origins) : origins.length = ms.length := by
  obtain ⟨A, hA, h⟩ := Except.bind_eq_ok.mp h
  have hlen := (DeterministicCropPlanner.plan_timestamps hseed).1
  rcases Nat.lt_or_ge 1 ms.length with hn | hn
  · obtain ⟨hreg, hcount⟩ := axisProblem_regular hseed hn hA
    obtain ⟨st, hst, rfl⟩ := (solve_eq_ok (hcount.symm ▸ hn)).mp h
    rw [← hcount]
    exact (hreg.runPasses_verified hst).1
  · have h1 : ms.length = 1 := by have := List.length_pos_iff.mpr hne; omega
    obtain ⟨legal, hlegal, rfl⟩ := axisProblem_eq_ok.mp hA
    rw [h1]
    refine solve_length ?_ ?_ h
    · exact (axisIntervals_eq_ok hlen hlegal).1
    · exact hlen.trans h1

/-- A returned plan moves the causal crops to solved origins, and traces the moved crops. -/
theorem plan_solved {K : Type} [Field K] [LinearOrder K] [IsStrictOrderedRing K] [Elementary K]
    {P : LookaheadCropPlanner} {linprog : Linprog K} {ms : List (FrameMeasurement K)} (hne : ms ≠ [])
    {plan : CropPlan K (LookaheadPlannerFrameTrace K)} (h : P.plan linprog ms = .ok plan) :
    ∃ (seed : CropPlan K (PlannerFrameTrace K)) (origins : Bool → List K),
      P.seedPlanner.plan ms = .ok seed ∧
      (∀ horizontal, P.solveAxis linprog seed.crops ms (possible ms seed.crops) (intervals ms)
        horizontal = .ok (origins horizontal)) ∧
      plan.crops = moved (origins true) (origins false) seed.crops ∧
      plan.trace = P.traces plan.crops seed ms (intervals ms) ∧
      ∀ horizontal A, P.axisProblem seed.crops ms (possible ms seed.crops) (intervals ms)
        horizontal = .ok A → P.centers horizontal plan.crops = A.path (origins horizontal) := by
  obtain ⟨seed, originsX, originsY, hseed, -, -, -, hX, hY, -, -, hplan⟩ := (plan_eq_ok hne).mp h
  unfold CropPlan.make at hplan
  split_ifs at hplan
  obtain rfl := Except.ok.inj hplan
  have hlen := (DeterministicCropPlanner.plan_timestamps hseed).1
  refine ⟨seed, fun horizontal => if horizontal then originsX else originsY, hseed, ?_, rfl, rfl,
    fun horizontal A hA => ?_⟩
  · rintro (_ | _)
    · exact hY
    · exact hX
  · obtain ⟨legal, -, rfl⟩ := axisProblem_eq_ok.mp hA
    exact centers_moved ((solveAxis_length hseed hne hX).trans hlen.symm)
      ((solveAxis_length hseed hne hY).trans hlen.symm) horizontal rfl rfl rfl

variable {P : LookaheadCropPlanner} {linprog : Linprog ℝ} {ms : List (FrameMeasurement ℝ)}
  {seed : CropPlan ℝ (PlannerFrameTrace ℝ)} {horizontal : Bool} {origins : List ℝ}

/-- **A solved axis** moves within the limits up to the excesses that were reported. -/
theorem solveAxis_verified (hseed : P.seedPlanner.plan ms = .ok seed) (hn : 2 ≤ ms.length)
    (h : P.solveAxis linprog seed.crops ms (possible ms seed.crops) (intervals ms) horizontal =
      .ok origins) :
    ∃ A s a, P.axisProblem seed.crops ms (possible ms seed.crops) (intervals ms) horizontal =
        .ok A ∧
      A.reportedOptimum linprog 0 = some s ∧ A.reportedOptimum linprog 1 = some a ∧
      (∀ i, i + 1 < ms.length → |A.shot.velocity (A.path origins) i| ≤
        panMaxSpeed + max 0 s + 3 * solverFeasibilityTolerance) ∧
      ∀ i < ms.length, |A.shot.acceleration (A.path origins) i| ≤
        panMaxAcceleration + max 0 a + 3 * solverFeasibilityTolerance := by
  obtain ⟨A, hA, h⟩ := Except.bind_eq_ok.mp h
  obtain ⟨hreg, hcount⟩ := axisProblem_regular hseed hn hA
  obtain ⟨st, hst, rfl⟩ := (solve_eq_ok (hcount.symm ▸ hn)).mp h
  obtain ⟨-, -, hreported⟩ := AxisProblem.runPasses_state hst
  obtain ⟨-, -, hspeed, hacceleration⟩ := hreg.runPasses_verified hst
  rw [hcount] at hspeed hacceleration
  exact ⟨A, _, _, hA, hreported 0 (by omega), hreported 1 (by omega), hspeed, hacceleration⟩

/-- **Every returned plan**, whatever the optimizer answered, has one crop per measurement of the
causal crop's size, inside the source; it holds every sampled box that fits, so a sampled box
outside its crop is limited by the source; and each axis moves within the limits up to the reported
excesses and three tolerances. -/
theorem plan_verified (P : LookaheadCropPlanner) (linprog : Linprog ℝ)
    {ms : List (FrameMeasurement ℝ)} (hne : ms ≠ [])
    {plan : CropPlan ℝ (LookaheadPlannerFrameTrace ℝ)} (h : P.plan linprog ms = .ok plan) :
    ∃ seed, P.seedPlanner.plan ms = .ok seed ∧
      (plan.crops.length = ms.length ∧ plan.trace.length = ms.length ∧
        seed.crops.length = ms.length ∧
        ∀ (i : ℕ) crop seedCrop, plan.crops[i]? = some crop → seed.crops[i]? = some seedCrop →
          crop.width = seedCrop.width ∧ crop.height = seedCrop.height) ∧
      (∀ crop ∈ plan.crops, 0 ≤ crop.x ∧ crop.right ≤ P.seedPlanner.sourceWidth ∧ 0 ≤ crop.y ∧
        crop.bottom ≤ P.seedPlanner.sourceHeight) ∧
      (∀ (i : ℕ) m crop seedCrop trace, ms[i]? = some m → plan.crops[i]? = some crop →
        seed.crops[i]? = some seedCrop → plan.trace[i]? = some trace →
        m.detectionSampled = true → ∀ box ∈ m.detectorBounds,
          (box.width ≤ seedCrop.width → box.height ≤ seedCrop.height → crop.Contains box) ∧
          (¬ crop.Contains box → trace.sourceAspectLimited = true)) ∧
      (2 ≤ ms.length → ∀ horizontal, ∃ A s a,
        P.axisProblem seed.crops ms (possible ms seed.crops) (intervals ms) horizontal = .ok A ∧
        A.reportedOptimum linprog 0 = some s ∧ A.reportedOptimum linprog 1 = some a ∧
        (∀ i, i + 1 < ms.length → |A.shot.velocity (P.centers horizontal plan.crops) i| ≤
          0.25 + max 0 s + 3 * solverFeasibilityTolerance) ∧
        ∀ i < ms.length, |A.shot.acceleration (P.centers horizontal plan.crops) i| ≤
          0.5 + max 0 a + 3 * solverFeasibilityTolerance) := by
  obtain ⟨seed, originsX, originsY, hseed, -, -, hrejected, hX, hY, hgeo, hcontained, hplan⟩ :=
    (plan_eq_ok hne).mp h
  unfold CropPlan.make at hplan
  split_ifs at hplan
  obtain rfl := Except.ok.inj hplan
  have hlen := (DeterministicCropPlanner.plan_timestamps hseed).1
  have hlenX : originsX.length = seed.crops.length :=
    (solveAxis_length hseed hne hX).trans hlen.symm
  have hlenY : originsY.length = seed.crops.length :=
    (solveAxis_length hseed hne hY).trans hlen.symm
  have hmoved := (moved_length hlenX hlenY).trans hlen
  refine ⟨seed, hseed, ⟨hmoved, traces_length hmoved hlen, hlen, ?_⟩, fun crop hcrop => ?_, ?_,
    fun hn horizontal => ?_⟩
  · intro i crop seedCrop hcrop hseedCrop
    obtain ⟨x, y, crop', -, -, hcrop', rfl⟩ := moved_eq_some.mp hcrop
    obtain rfl := Option.some.inj (hseedCrop.symm.trans hcrop')
    exact ⟨rfl, rfl⟩
  · have := hgeo crop hcrop
    simp only [invalidGeometry, not_or, not_not] at this
    obtain ⟨-, -, hx, hy, -⟩ := this
    exact ⟨hx.1, hx.2.2, hy.1, hy.2.2⟩
  · intro i m crop seedCrop trace hm hcrop hseedCrop htrace hsampled box hbox
    have hfeasible : feasible m seedCrop =
        (decide (box.width ≤ seedCrop.width) && decide (box.height ≤ seedCrop.height)) := by
      rw [feasible, hsampled, Option.mem_def.mp hbox]
      simp
    -- a box that fits constrains the camera, so the last check has seen it
    have hin : box.width ≤ seedCrop.width → box.height ≤ seedCrop.height → crop.Contains box := by
      intro hw hh
      have := hcontained (crop, m, feasible m seedCrop) (List.mem_of_getElem? (i := i) (by
        rw [List.getElem?_zip_eq_some, List.getElem?_zip_eq_some, possible,
          List.getElem?_zipWith_eq_some]
        exact ⟨hcrop, hm, m, seedCrop, hm, hseedCrop, rfl⟩))
      rw [hfeasible] at this
      simpa [uncontained, Option.mem_def.mp hbox, hw, hh] using this
    refine ⟨hin, fun hout => ?_⟩
    obtain ⟨causal, hcausal, hlim, -⟩ := traces_eq_some htrace
    rw [hlim]
    have := hrejected (m, seedCrop, causal) (List.mem_of_getElem? (i := i) (by
      rw [List.getElem?_zip_eq_some, List.getElem?_zip_eq_some]
      exact ⟨hm, hseedCrop, hcausal⟩))
    have hnot : (decide (box.width ≤ seedCrop.width) &&
        decide (box.height ≤ seedCrop.height)) = false := by
      rw [Bool.eq_false_iff]
      intro hfit
      rw [Bool.and_eq_true, decide_eq_true_eq, decide_eq_true_eq] at hfit
      exact hout (hin hfit.1 hfit.2)
    simpa [rejectedSample, hsampled, Option.mem_def.mp hbox, hfeasible, hnot] using this
  · have hsolved : P.solveAxis linprog seed.crops ms (possible ms seed.crops) (intervals ms)
        horizontal = .ok (if horizontal then originsX else originsY) := by
      cases horizontal
      · exact hY
      · exact hX
    obtain ⟨A, s, a, hA, hs, ha, hspeed, hacceleration⟩ := solveAxis_verified hseed hn hsolved
    obtain ⟨legal, -, rfl⟩ := axisProblem_eq_ok.mp hA
    rw [← centers_moved (P := P) hlenX hlenY horizontal rfl rfl rfl] at hspeed hacceleration
    exact ⟨_, s, a, hA, hs, ha, hspeed, hacceleration⟩

theorem plan_verified_hdShot :
    ∃ plan, (⟨DeterministicCropPlanner.hdPlanner⟩ : LookaheadCropPlanner).plan exactLinprog
        DeterministicCropPlanner.hdShot = .ok plan ∧ plan.crops.length = 3 := by
  obtain ⟨plan, hplan⟩ := plan_exact (P := ⟨DeterministicCropPlanner.hdPlanner⟩)
    DeterministicCropPlanner.hdShot_legal exactLinprog_exact
  obtain ⟨seed, -, ⟨hlen, -⟩, -⟩ := plan_verified ⟨DeterministicCropPlanner.hdPlanner⟩ exactLinprog
    (by simp [DeterministicCropPlanner.hdShot]) hplan
  exact ⟨plan, hplan, hlen⟩

end LookaheadCropPlanner

end BoulderFrame
