import BoulderFrame.Framing.LookaheadSafety

/-!
# What the look-ahead planner optimizes

With an exact optimizer the camera path of each axis minimizes the six objectives of the shot one
after the other among the legal paths, each up to the tolerance of its lock. The objectives are
those of the path itself; the auxiliary variables, rows and weights of the linear programs do not
appear.

## Main results

* `LookaheadCropPlanner.solveAxis_optimal`: the path of a solved axis is lexicographically optimal
* `LookaheadCropPlanner.plan_optimal`: so is each axis of a returned plan
-/

namespace BoulderFrame

open LinearProgramming LexMin

namespace LookaheadCropPlanner

variable {P : LookaheadCropPlanner} {linprog : Linprog ℝ} {ms : List (FrameMeasurement ℝ)}

/-- **A solved axis** has a lexicographically optimal path, up to the tolerance of the locks. -/
theorem solveAxis_optimal {seed : CropPlan ℝ (PlannerFrameTrace ℝ)} (hex : ExactLinprog linprog)
    (hseed : P.seedPlanner.plan ms = .ok seed) (hn : 2 ≤ ms.length) {horizontal : Bool}
    {A : AxisProblem ℝ} (hA : P.axisProblem seed.crops ms (possible ms seed.crops) (intervals ms)
      horizontal = .ok A) {origins : List ℝ}
    (h : P.solveAxis linprog seed.crops ms (possible ms seed.crops) (intervals ms) horizontal =
      .ok origins) :
    A.path origins ∈ A.legalPaths ∧
      IsLexMinima A.legalPaths A.shot.objective (A.optima linprog) solverFeasibilityTolerance 6 ∧
      (∀ k < 5, A.shot.objective k (A.path origins) ≤
        A.optima linprog k + solverFeasibilityTolerance) ∧
      A.shot.objective 5 (A.path origins) = A.optima linprog 5 ∧
      ∀ c, (fun _ => c) ∈ A.legalPaths →
        (∀ i < ms.length, |c - A.shot.seed i| ≤ A.shot.radius i) →
          A.shot.objective 3 (A.path origins) ≤ solverFeasibilityTolerance := by
  obtain ⟨hreg, hcount⟩ := axisProblem_regular hseed hn hA
  unfold solveAxis at h
  rw [hA, Except.ok_bind, solve_eq_ok (hcount.symm ▸ hn)] at h
  obtain ⟨st, hst, rfl⟩ := h
  obtain ⟨st', hst', hlegal, hopt, hlast⟩ := hreg.path_optimal hex
  obtain rfl := Except.ok.inj (hst.symm.trans hst')
  have hmin := hreg.isLexMinima_optima hex
  exact ⟨hlegal, hmin, hopt, hlast, fun c hc hzone =>
    hreg.travel_le_of_const hmin hc (by rwa [hcount]) (hopt 3 (by omega))⟩

/-- **Every axis of an accepted shot** follows a legal center path on which each of the first five
objectives exceeds its lexicographic minimum by the tolerance at most and the last attains it. If
one center is legal and inside the deadzone on every frame, the path travels by the tolerance at
most. -/
theorem plan_optimal (P : LookaheadCropPlanner) {linprog : Linprog ℝ}
    (hex : ExactLinprog linprog) {ms : List (FrameMeasurement ℝ)} (hn : 2 ≤ ms.length)
    {plan : CropPlan ℝ (LookaheadPlannerFrameTrace ℝ)} (h : P.plan linprog ms = .ok plan)
    (horizontal : Bool) :
    ∃ seed A origins, P.seedPlanner.plan ms = .ok seed ∧
      P.axisProblem seed.crops ms (possible ms seed.crops) (intervals ms) horizontal = .ok A ∧
      P.solveAxis linprog seed.crops ms (possible ms seed.crops) (intervals ms) horizontal =
        .ok origins ∧
      A.path origins = P.centers horizontal plan.crops ∧ A.path origins ∈ A.legalPaths ∧
      (∃ m, IsLexMinima A.legalPaths A.shot.objective m solverFeasibilityTolerance 6 ∧
        (∀ k < 5, A.shot.objective k (A.path origins) ≤ m k + solverFeasibilityTolerance) ∧
        A.shot.objective 5 (A.path origins) = m 5) ∧
      ∀ c, (fun _ => c) ∈ A.legalPaths →
        (∀ i < ms.length, |c - A.shot.seed i| ≤ A.shot.radius i) →
          A.shot.objective 3 (A.path origins) ≤ solverFeasibilityTolerance := by
  have hne : ms ≠ [] := List.length_pos_iff.mp (by omega)
  obtain ⟨seed, origins, hseed, hsolved, -, -, hcenters⟩ := plan_solved hne h
  obtain ⟨A, hA, -⟩ := Except.bind_eq_ok.mp (hsolved horizontal)
  obtain ⟨hlegal, hmin, hopt, hlast, hstill⟩ := solveAxis_optimal hex hseed hn hA
    (hsolved horizontal)
  exact ⟨seed, A, _, hseed, hA, hsolved horizontal, (hcenters horizontal A hA).symm, hlegal,
    ⟨_, hmin, hopt, hlast⟩, hstill⟩

theorem plan_optimal_hdShot : ∃ plan A,
    (⟨DeterministicCropPlanner.hdPlanner⟩ : LookaheadCropPlanner).plan exactLinprog
      DeterministicCropPlanner.hdShot = .ok plan ∧
    (⟨DeterministicCropPlanner.hdPlanner⟩ : LookaheadCropPlanner).centers true plan.crops ∈
      AxisProblem.legalPaths (K := ℝ) A := by
  obtain ⟨plan, hplan⟩ := plan_exact (P := ⟨DeterministicCropPlanner.hdPlanner⟩)
    DeterministicCropPlanner.hdShot_legal exactLinprog_exact
  obtain ⟨seed, A, origins, -, -, -, hpath, hlegal, -⟩ := plan_optimal
    ⟨DeterministicCropPlanner.hdPlanner⟩ exactLinprog_exact
    (by simp [DeterministicCropPlanner.hdShot]) hplan true
  exact ⟨plan, A, hplan, hpath ▸ hlegal⟩

end LookaheadCropPlanner

end BoulderFrame
