import BoulderFrame.Framing.AxisPasses
import BoulderFrame.Library.LexMin

/-!
# The passes with an exact optimizer

An exact optimizer finds an optimum of every feasible program that is bounded below. With it every
pass returns: the optimum of a pass meets its own lock, so the next program is feasible, and no
check refuses an exact solution. The camera path of the last pass then minimizes the objectives of
the shot lexicographically, up to the tolerance of the locks.

## Main definitions

* `ExactLinprog`: the optimizer finds an exact optimum whenever there is one
* `exactLinprog`: an optimizer that does

## Main results

* `AxisProblem.Regular.runPasses_exact`: with an exact optimizer the passes return, each at an
  optimum of its program
* `AxisProblem.Regular.isLexMinima_optima`: the reported optima are the lexicographic minima
* `AxisProblem.Regular.path_optimal`: the returned path attains them up to the tolerance
-/

namespace BoulderFrame

open LinearProgramming LookaheadCropPlanner LexMin

variable {K : Type} [Field K] [LinearOrder K]

/-- The optimizer answers with an exact optimum whenever the program is feasible and bounded
below. -/
def ExactLinprog (linprog : Linprog K) : Prop :=
  ∀ call P, (∃ x, P.Feasible x) → P.BoundedBelow → ∃ (x : List K) (message : String),
    x.length = P.bounds.length ∧ P.IsOptimum (vec x) ∧
      linprog call P = .ok ⟨true, 0, message, x.map some, some (P.objective.eval (vec x))⟩

open Classical in
/-- An optimizer that chooses an optimum when there is one, and reports infeasibility otherwise. -/
noncomputable def exactLinprog : Linprog K := fun _ P =>
  if h : ∃ x, P.IsOptimum x then
    .ok ⟨true, 0, "", (List.range P.bounds.length).map fun i => some (h.choose i),
      some (P.objective.eval h.choose)⟩
  else .ok ⟨false, 2, "The problem is infeasible.", [], none⟩

theorem exactLinprog_exact [IsStrictOrderedRing K] : ExactLinprog (exactLinprog (K := K)) := by
  intro call P hf hb
  have h := LinearProgram.exists_isOptimum hf hb
  have hopt := h.choose_spec
  have hvec : vec ((List.range P.bounds.length).map h.choose) = h.choose := by
    funext i
    rcases Nat.lt_or_ge i P.bounds.length with hi | hi
    · exact vec_of_getElem? (by rw [List.getElem?_map, List.getElem?_range hi]; rfl)
    · rw [vec_of_length_le (by simpa using hi), hopt.feasible.support i hi]
  refine ⟨(List.range P.bounds.length).map h.choose, "", by simp, by rw [hvec]; exact hopt, ?_⟩
  rw [hvec, exactLinprog, dif_pos h, List.map_map]
  rfl

namespace AxisProblem

variable {A : AxisProblem K} [IsStrictOrderedRing K] {linprog : Linprog K}

/-- There is a legal path: the lower ends of the intervals. -/
theorem Regular.exists_legalPath (hA : A.Regular) : ∃ c, c ∈ A.legalPaths := by
  have hsource : (0 : K) < A.source := by exact_mod_cast hA.source_pos
  refine ⟨vec (A.legal.map (·.centerLower)), fun i item hitem => ?_⟩
  rw [vec_of_getElem? (by rw [List.getElem?_map, hitem, Option.map_some])]
  refine ⟨le_rfl, ?_⟩
  have hi : i < A.count := by rw [← hA.legal_length]; exact (List.getElem?_eq_some_iff.mp hitem).1
  obtain ⟨hle, hlower, hupper⟩ := hA.consistent i _ item (List.getElem?_eq_getElem hi) hitem
  rw [hlower, hupper]
  gcongr

/-- **One pass** with an exact optimizer returns at an optimum of its program. -/
theorem Regular.solvePass_exact (hA : A.Regular) (hex : ExactLinprog linprog) {k : ℕ}
    {st : PassState K} (hlen : st.bounds.length = A.variableCount)
    (hfeasible : ∃ x, (A.program k st).Feasible x)
    (hadm : ∀ x, (A.program k st).Feasible x → A.Admissible x) :
    ∃ (x : List K) (st' : PassState K) (message : String),
      linprog ⟨A.horizontal, k⟩ (A.program k st) =
        .ok ⟨true, 0, message, x.map some, some (A.cost k (vec x))⟩ ∧
      (A.program k st).IsOptimum (vec x) ∧ A.solvePass linprog k st = .ok st' ∧
      ∀ i < A.count, A.path st'.origins i = vec x i := by
  obtain ⟨x, message, hxlen, hopt, hlin⟩ := hex ⟨A.horizontal, k⟩ (A.program k st) hfeasible
    ⟨0, fun x hx => by
      change 0 ≤ (A.objective k).eval x
      rw [hA.eval_objective]
      exact (hadm x hx).cost_nonneg hA k⟩
  have hxlen : x.length = A.variableCount := hxlen.trans hlen
  have hx := hadm _ hopt.feasible
  have htol := solverFeasibilityTolerance_nonneg (K := K)
  have hcount : A.count ≤ A.variableCount := (A.columns.1.ge.trans hA.speedIndex_lt.le)
  have hn : (x.take A.count).length = A.count := by rw [List.length_take, hxlen]; omega
  have htake : ∀ i < A.shot.frames, vec (x.take A.count) i = vec x i := fun i hi => vec_take hi
  change linprog _ _ = .ok ⟨true, 0, message, x.map some, some ((A.objective k).eval (vec x))⟩
    at hlin
  rw [hA.eval_objective] at hlin
  -- the centers are legal, so they are kept as they are
  obtain ⟨canonical, hcan, hsnd⟩ := hA.canonicalOrigins_legal hn (fun i item hitem => by
    have hi : i < A.count := by
      rw [← hA.legal_length]; exact (List.getElem?_eq_some_iff.mp hitem).1
    rw [htake i hi]
    exact hx.legal i item hitem)
  have hpath := (hA.canonicalOrigins_path hn hcan).2.1
  have hfinal : canonical.map Prod.snd ++ x.drop A.count = x := by
    rw [hsnd, List.take_append_drop]
  refine ⟨x, _, message, hlin, hopt, solvePass_eq_ok.mpr ⟨_, x, A.cost k (vec x), canonical,
    invoke_eq_ok.mpr ⟨hlin, rfl, rfl⟩, accept_eq_ok.mpr ⟨rfl, ?_, ?_, ?_, ?_⟩, hcan, ?_, ?_, ?_,
    rfl⟩, fun i hi => ?_⟩
  · simp
  · simpa using hxlen
  · simp
  · rw [hA.eval_objective, sub_self, abs_zero]
    exact htol
  · rw [hfinal]
    have hrows := hopt.feasible.rows
    simp only [rowsViolated, List.any_eq_false, decide_eq_true_eq, not_lt, gt_iff_lt]
    exact fun r hr => (sub_nonpos.mpr (hrows r hr)).trans htol
  · rw [hfinal, boundsViolated_eq_false]
    intro i value b hv hb
    have hlower := hopt.feasible.lower i b hb
    have hupper := hopt.feasible.upper i b hb
    rw [vec_of_getElem? hv] at hlower hupper
    exact ⟨by linarith, fun u hu => by linarith [hupper u hu]⟩
  · rw [hfinal, hA.validateAxisMotion_eq_ok]
    refine ⟨fun i hi => ?_, fun i hi => ?_⟩
    · rw [Shot.velocity_congr htake hi]
      have := hx.speed i hi
      linarith [le_max_right 0 (vec x A.speedIndex)]
    · rw [Shot.acceleration, Shot.velocityChange_congr htake hi]
      have := hx.acceleration i hi
      rw [Shot.acceleration] at this
      linarith [le_max_right 0 (vec x A.accelerationIndex)]
  · rw [lock_origins, ← hpath, hsnd]
    exact htake i hi

/-- **Every pass returns** with an exact optimizer, at an optimum of its program; the origins are
those of the last optimum, and the program of the next pass is feasible. -/
theorem Regular.runPasses_exact (hA : A.Regular) (hex : ExactLinprog linprog) :
    ∀ k ≤ 6, ∃ st, A.runPasses linprog k = .ok st ∧
      (k ≤ 5 → ∃ x, (A.program k (A.locked (A.optima linprog) k)).Feasible x) ∧
      ∀ j < k, ∃ x, (A.program j (A.locked (A.optima linprog) j)).IsOptimum x ∧
        A.optima linprog j = A.cost j x ∧
        (j + 1 = k → ∀ i < A.count, A.path st.origins i = x i) := by
  intro k
  induction k with
  | zero =>
    intro _
    obtain ⟨c, hc⟩ := hA.exists_legalPath
    exact ⟨_, rfl, fun _ => ⟨_, hA.feasible_initial_iff.mpr (encode_admissible hA hc)⟩, by simp⟩
  | succ k ih =>
    intro hk
    obtain ⟨st, hst, hfeasible, hopts⟩ := ih (by omega)
    obtain ⟨hb, hr, -⟩ := runPasses_state hst
    have hprogram : A.program k st = A.program k (A.locked (A.optima linprog) k) := by
      simp only [program, hb, hr]
    have hlen : st.bounds.length = A.variableCount := hb ▸ hA.locked_bounds_length
    have hfeas : ∃ x, (A.program k st).Feasible x := hprogram ▸ hfeasible (by omega)
    obtain ⟨x, st', message, hlin, hopt, hpass, hpath⟩ := hA.solvePass_exact hex hlen hfeas
      (fun x hx => by
        rw [hprogram] at hx
        exact ((hA.feasible_locked_iff (by omega)).mp hx).1)
    have hrun : A.runPasses linprog (k + 1) = .ok st' := Except.bind_eq_ok.mpr ⟨st, hst, hpass⟩
    have hoptimum : A.optima linprog k = A.cost k (vec x) := by
      rw [optima, reportedOptimum, hst]
      dsimp only
      rw [hlin]
      rfl
    rw [hprogram] at hopt
    obtain ⟨hadm, hlocks⟩ := (hA.feasible_locked_iff (by omega)).mp hopt.feasible
    refine ⟨st', hrun, fun hk5 => ⟨vec x, (hA.feasible_locked_iff hk5).mpr ⟨hadm, ?_⟩⟩, ?_⟩
    -- the optimum meets its own lock
    · rw [Nat.forall_lt_succ_right]
      refine ⟨hlocks, ?_⟩
      rw [hoptimum]
      have := solverFeasibilityTolerance_nonneg (K := K)
      linarith [le_max_right 0 (A.cost k (vec x))]
    · rw [Nat.forall_lt_succ_right]
      refine ⟨fun j hj => ?_, vec x, hopt, hoptimum, fun _ => hpath⟩
      obtain ⟨y, hy, hyo, -⟩ := hopts j hj
      exact ⟨y, hy, hyo, fun h => by omega⟩

/-- Every pass is reached; its program is feasible and bounded below, and its checks accept. -/
theorem Regular.solvePass_total (hA : A.Regular) (hex : ExactLinprog linprog) {k : ℕ} (hk : k < 6) :
    ∃ st st', A.runPasses linprog k = .ok st ∧ (∃ x, (A.program k st).Feasible x) ∧
      (A.program k st).BoundedBelow ∧ A.solvePass linprog k st = .ok st' := by
  obtain ⟨st', hst', -⟩ := hA.runPasses_exact hex (k + 1) (by omega)
  obtain ⟨st, hst, hpass⟩ := Except.bind_eq_ok.mp hst'
  obtain ⟨st'', hst'', hfeasible, -⟩ := hA.runPasses_exact hex k (by omega)
  obtain ⟨hb, hr, -⟩ := runPasses_state hst
  have hprogram : A.program k st = A.program k (A.locked (A.optima linprog) k) := by
    simp only [program, hb, hr]
  refine ⟨st, st', hst, by rw [hprogram]; exact hfeasible (by omega), ⟨0, fun x hx => ?_⟩, hpass⟩
  rw [hprogram, hA.feasible_locked_iff (by omega)] at hx
  change 0 ≤ (A.objective k).eval x
  rw [hA.eval_objective]
  exact hx.1.cost_nonneg hA k

/-! ## Lexicographic minima -/

/-- An optimum of a pass is a point that the earlier minima lock, of least cost among them. -/
theorem Regular.isOptimum_locked (hA : A.Regular) {o : ℕ → K} {k : ℕ} (hk : k ≤ 5)
    (ho : ∀ j < k, 0 ≤ o j) {x : ℕ → K} (hx : (A.program k (A.locked o k)).IsOptimum x) :
    x ∈ Locked {y | A.Admissible y} A.cost o solverFeasibilityTolerance k ∧
      ∀ y ∈ Locked {y | A.Admissible y} A.cost o solverFeasibilityTolerance k,
        A.cost k x ≤ A.cost k y := by
  have hlocked : ∀ y, (A.program k (A.locked o k)).Feasible y ↔
      y ∈ Locked {y | A.Admissible y} A.cost o solverFeasibilityTolerance k := by
    intro y
    rw [hA.feasible_locked_iff hk]
    refine and_congr_right fun _ => forall₂_congr fun j hj => ?_
    rw [max_eq_right (ho j hj)]
  refine ⟨(hlocked x).mp hx.feasible, fun y hy => ?_⟩
  have := hx.le y ((hlocked y).mpr hy)
  rwa [program, hA.eval_objective, hA.eval_objective] at this

theorem Regular.optima_nonneg (hA : A.Regular) (hex : ExactLinprog linprog) {j : ℕ} (hj : j < 6) :
    0 ≤ A.optima linprog j := by
  obtain ⟨_, -, -, hopts⟩ := hA.runPasses_exact hex 6 le_rfl
  obtain ⟨x, hx, ho, -⟩ := hopts j hj
  rw [ho]
  exact ((hA.feasible_locked_iff (by omega)).mp hx.feasible).1.cost_nonneg hA j

/-- A vector of least cost among the locked ones carries a path of least objective. -/
theorem Regular.isLeast_of_isOptimum (hA : A.Regular) {o : ℕ → K} {k : ℕ} (hk : k ≤ 5)
    (ho : ∀ j < k, 0 ≤ o j) {x : ℕ → K} (hx : (A.program k (A.locked o k)).IsOptimum x) :
    IsLeast (A.shot.objective k '' Locked A.legalPaths A.shot.objective o
      solverFeasibilityTolerance k) (A.cost k x) ∧ A.shot.objective k x = A.cost k x := by
  obtain ⟨hmem, hmin⟩ := hA.isOptimum_locked hk ho hx
  exact isLeast_decode A.encode id
    (fun c hc => encode_admissible hA hc) (fun y hy => hy.legal)
    (fun j _ y hy => hy.objective_le hA j) (fun j _ c _ => cost_encode j) hmem hmin

/-- **The reported optima** are the lexicographic minima of the shot's objectives. -/
theorem Regular.isLexMinima_optima (hA : A.Regular) (hex : ExactLinprog linprog) :
    IsLexMinima A.legalPaths A.shot.objective (A.optima linprog) solverFeasibilityTolerance 6 := by
  intro k hk
  obtain ⟨_, -, -, hopts⟩ := hA.runPasses_exact hex 6 le_rfl
  obtain ⟨x, hx, ho, -⟩ := hopts k hk
  rw [ho]
  exact (hA.isLeast_of_isOptimum (by omega) (fun j hj => hA.optima_nonneg hex (by omega)) hx).1

/-- **The returned path** is legal, attains the last minimum, and exceeds the earlier ones by the
tolerance at most. -/
theorem Regular.path_optimal (hA : A.Regular) (hex : ExactLinprog linprog) :
    ∃ st, A.runPasses linprog 6 = .ok st ∧ A.path st.origins ∈ A.legalPaths ∧
      (∀ k < 5, A.shot.objective k (A.path st.origins) ≤
        A.optima linprog k + solverFeasibilityTolerance) ∧
      A.shot.objective 5 (A.path st.origins) = A.optima linprog 5 := by
  obtain ⟨st, hst, -, hopts⟩ := hA.runPasses_exact hex 6 le_rfl
  obtain ⟨x, hx, ho, hpath⟩ := hopts 5 (by omega)
  have hpath : ∀ i < A.shot.frames, A.path st.origins i = x i := hpath rfl
  have hnonneg : ∀ j < 5, 0 ≤ A.optima linprog j := fun j hj => hA.optima_nonneg hex (by omega)
  obtain ⟨⟨hadm, hlocks⟩, -⟩ := hA.isOptimum_locked le_rfl hnonneg hx
  refine ⟨st, hst, fun i item hitem => ?_, fun k hk => ?_, ?_⟩
  · rw [hpath i (by
      change i < A.count
      rw [← hA.legal_length]; exact (List.getElem?_eq_some_iff.mp hitem).1)]
    exact hadm.legal i item hitem
  · rw [Shot.objective_congr hpath]
    exact (hadm.objective_le hA k).trans (hlocks k hk)
  · rw [Shot.objective_congr hpath, ho]
    exact (hA.isLeast_of_isOptimum le_rfl hnonneg hx).2

/-- **A still camera**: if one center is legal and inside the deadzone on every frame, the returned
path travels by the tolerance at most. -/
theorem Regular.travel_le_of_const (hA : A.Regular) {m : ℕ → K} (hm : IsLexMinima A.legalPaths
    A.shot.objective m solverFeasibilityTolerance 6) {c : K} (hlegal : (fun _ => c) ∈ A.legalPaths)
    (hdeadzone : ∀ i < A.count, |c - A.shot.seed i| ≤ A.shot.radius i) {path : ℕ → K}
    (hpath : A.shot.objective 3 path ≤ m 3 + solverFeasibilityTolerance) :
    A.shot.objective 3 path ≤ solverFeasibilityTolerance := by
  have hzero : ∀ k < 4, A.shot.objective k (fun _ => c) = 0 := fun k hk =>
    Shot.objective_const (by simp only [shot, panMaxSpeed]; positivity)
      (by simp only [shot, panMaxAcceleration]; positivity) hdeadzone hk
  have htol := solverFeasibilityTolerance_nonneg (K := K)
  have hnonneg : ∀ j < 6, 0 ≤ m j := by
    intro j hj
    obtain ⟨⟨x, -, hx⟩, -⟩ := hm j hj
    rw [← hx]
    exact Shot.objective_nonneg hA.dt_pos j x
  have hm3 : m 3 ≤ 0 := by
    refine (hm 3 (by omega)).2 ⟨_, ⟨hlegal, fun j hj => ?_⟩, hzero 3 (by omega)⟩
    rw [hzero j (by omega)]
    linarith [hnonneg j (by omega)]
  linarith

end AxisProblem

end BoulderFrame
