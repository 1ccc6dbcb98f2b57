import BoulderFrame.Framing.CameraPath
import BoulderFrame.Framing.Lookahead

/-!
# What the linear programs of an axis say

The rows and bounds of the base program say that the first columns are a legal camera path and
that the other columns bound its motion and its distance from the seed. Every objective of a
vector that meets them is at least the objective of its camera path, and the vector that stores
the motion and the distances of a path exactly has the same objectives as the path.

## Main definitions

* `AxisProblem.shot`: the shot that the rows and weights of the axis describe
* `AxisProblem.Regular`: at least two frames, positive intervals, consistent legal intervals
* `AxisProblem.legalPaths`: the center paths inside the legal intervals
* `AxisProblem.Admissible`: what the rows and bounds of the base program say of a vector
* `AxisProblem.encode`: the vector of a path

## Main results

* `AxisProblem.feasible_initial_iff`: the base program is feasible at the admissible vectors
* `AxisProblem.objective_le`, `AxisProblem.objective_encode`: the objectives of a vector and of
  its path
-/

namespace BoulderFrame

open LinearProgramming LookaheadCropPlanner

variable {K : Type} [Field K] [LinearOrder K]

/-- A nonempty interval of origins, with the centers that a crop of the given extent has there. -/
structure AxisInterval.Consistent (item : AxisInterval K) (extent : K) (source : ℤ) : Prop where
  lower_le_upper : item.originLower ≤ item.originUpper
  centerLower_eq : item.centerLower = (item.originLower + extent / 2) / source
  centerUpper_eq : item.centerUpper = (item.originUpper + extent / 2) / source

namespace AxisProblem

variable (A : AxisProblem K)

/-- The shot that the rows and weights of the axis describe. -/
def shot : Shot K where
  frames := A.count
  dt := vec A.intervals
  seed := vec A.seedCenters
  radius := vec (A.crops.map A.radius)
  maxSpeed := panMaxSpeed
  maxAcceleration := panMaxAcceleration

/-- At least two frames, positive intervals between them, and consistent legal intervals. -/
structure Regular : Prop where
  two_le : 2 ≤ A.count
  legal_length : A.legal.length = A.count
  intervals_length : A.intervals.length + 1 = A.count
  intervals_pos : ∀ dt ∈ A.intervals, 0 < dt
  source_pos : 0 < A.source
  consistent : ∀ (i : ℕ) (crop : CropRect K) (item : AxisInterval K), A.crops[i]? = some crop →
    A.legal[i]? = some item → item.Consistent (crop.extent A.horizontal) A.source

/-- The center paths inside the legal intervals. -/
def legalPaths : Set (ℕ → K) :=
  {c | ∀ i item, A.legal[i]? = some item → item.centerLower ≤ c i ∧ c i ≤ item.centerUpper}

/-- What the rows and bounds of the base program say of a vector. -/
structure Admissible (x : ℕ → K) : Prop where
  support : ∀ i, A.variableCount ≤ i → x i = 0
  legal : x ∈ A.legalPaths
  nonneg : ∀ i, A.count ≤ i → 0 ≤ x i
  speed : ∀ i, i + 1 < A.count → |A.shot.velocity x i| ≤ panMaxSpeed + x A.speedIndex
  travel : ∀ i, i + 1 < A.count → |x (i + 1) - x i| ≤ x (A.travelStart + i)
  acceleration : ∀ i < A.count,
    |A.shot.acceleration x i| ≤ panMaxAcceleration + x A.accelerationIndex
  variation : ∀ i < A.count, |A.shot.velocityChange x i| ≤ x (A.variationStart + i)
  deadzone : ∀ i < A.count,
    x (A.deviationStart + i) - A.shot.radius i ≤ x (A.deadzoneStart + i)
  deviation : ∀ i < A.count, |x i - A.shot.seed i| ≤ x (A.deviationStart + i)

omit [Field K] [LinearOrder K] in
/-- The layout of the columns. -/
theorem columns : A.speedIndex = A.count ∧ A.accelerationIndex = A.count + 1 ∧
    A.deadzoneStart = A.count + 2 ∧ A.travelStart = A.deadzoneStart + A.count ∧
    A.variationStart = A.travelStart + A.count - 1 ∧ A.deviationStart = A.variationStart + A.count ∧
    A.variableCount = A.deviationStart + A.count :=
  ⟨rfl, rfl, rfl, rfl, rfl, rfl, rfl⟩

section Parts

variable {A}

/-! ## The bounds -/

theorem Regular.bounds_length (hA : A.Regular) : A.bounds.length = A.variableCount := by
  have h := hA.legal_length
  simp only [bounds, List.length_append, List.length_map, List.length_replicate, variableCount,
    deviationStart, variationStart, travelStart, deadzoneStart]
  omega

theorem Regular.bounds_of_lt (hA : A.Regular) {i : ℕ} (hi : i < A.count) :
    A.bounds[i]? = (A.legal[i]?).map fun item => (item.centerLower, some item.centerUpper) := by
  rw [bounds, List.getElem?_append_left (by rw [List.length_map, hA.legal_length]; exact hi),
    List.getElem?_map]

theorem Regular.bounds_of_le (hA : A.Regular) {i : ℕ} (hi : A.count ≤ i)
    (hv : i < A.variableCount) : A.bounds[i]? = some (0, none) := by
  have h := hA.legal_length
  rw [bounds, List.getElem?_append_right (by rw [List.length_map, h]; exact hi), List.length_map, h,
    List.getElem?_replicate, if_pos (by omega)]

/-! ## Transitions and weights -/

section Shot

variable (hA : A.Regular)
include hA

theorem Regular.dt_pos : ∀ i, i + 1 < A.shot.frames → 0 < A.shot.dt i := by
  intro i hi
  have h := hA.intervals_length
  exact hA.intervals_pos _ (List.mem_of_getElem?
    (getElem?_eq_vec (i := i) (by simp only [shot] at hi; omega)))

theorem Regular.transitions_length : (transitions A.intervals).length = A.count := by
  have h := hA.intervals_length
  have h2 := hA.two_le
  simp only [transitions, List.length_append, List.length_cons, List.length_map, List.length_range,
    List.length_nil]
  omega

/-- The transition at a frame is the change of velocity there, over the frame's span. -/
theorem Regular.transitions_eq {i : ℕ} (hi : i < A.count) :
    ∃ e, (transitions A.intervals)[i]? = some (e, A.shot.span i) ∧
      ∀ x, LinearExpr.eval e x = A.shot.velocityChange x i := by
  have hl := hA.intervals_length
  have h2 : 2 ≤ A.shot.frames := hA.two_le
  obtain rfl | ⟨j, rfl, hj⟩ | ⟨j, rfl, hj⟩ := Shot.frame_cases (S := A.shot) hi h2
  -- from rest to the first velocity
  · refine ⟨_, by rw [transitions, List.cons_append, List.getElem?_cons_zero, Shot.span_first h2]; rfl,
      fun x => ?_⟩
    rw [Shot.velocityChange_first h2]
    simp only [LinearExpr.eval_cons, LinearExpr.eval_nil, Shot.velocity, shot]
    ring
  -- between two velocities
  · have hj' : j + 2 < A.count := hj
    refine ⟨_, by
      rw [transitions, List.cons_append, List.getElem?_cons_succ, List.getElem?_append_left
        (by rw [List.length_map, List.length_range]; omega), List.getElem?_map,
        List.getElem?_range (by omega), Shot.span_inner hj]
      rfl, fun x => ?_⟩
    rw [Shot.velocityChange_inner hj]
    simp only [LinearExpr.eval_cons, LinearExpr.eval_nil, Shot.velocity, shot]
    ring
  -- from the last velocity to rest
  · have hj' : A.intervals.length = j + 1 := by
      have : A.count = j + 2 := hj
      omega
    refine ⟨_, by
      rw [transitions, List.cons_append, List.getElem?_cons_succ, List.getElem?_append_right
        (by rw [List.length_map, List.length_range]; omega), List.length_map, List.length_range,
        hj', Shot.span_last hj, Nat.add_sub_cancel, Nat.sub_self]
      rfl, fun x => ?_⟩
    rw [Shot.velocityChange_last hj]
    simp only [LinearExpr.eval_cons, LinearExpr.eval_nil, Shot.velocity, shot]
    ring

theorem Regular.weights_eq {i : ℕ} (hi : i < A.count) : vec A.weights i = A.shot.span i := by
  have hl := hA.intervals_length
  have h2 : 2 ≤ A.shot.frames := hA.two_le
  refine vec_of_getElem? ?_
  rw [weights, List.getElem?_map, List.getElem?_range hi, Option.map_some]
  congr 1
  obtain rfl | ⟨j, rfl, hj⟩ | ⟨j, rfl, hj⟩ := Shot.frame_cases (S := A.shot) hi h2
  · rw [if_pos rfl, Shot.span_first h2]
    rfl
  · have hj' : j + 2 < A.count := hj
    rw [if_neg (by omega), if_neg (by omega), Shot.span_inner hj]
    rfl
  · have hj' : A.count = j + 2 := hj
    rw [if_neg (by omega), if_pos (by omega), Shot.span_last hj, show A.intervals.length - 1 = j by omega]
    rfl

end Shot

/-! ## The rows -/

section Rows

variable [IsStrictOrderedRing K]

/-- A pair of rows, one for each sign, bounds a magnitude. -/
theorem forall_sign_iff {v b c : K} : (∀ sign ∈ [(1 : K), -1], sign * v - b ≤ c) ↔ |v| ≤ c + b := by
  rw [List.forall_mem_cons, List.forall_mem_singleton, abs_le]
  constructor
  · rintro ⟨h1, h2⟩
    constructor <;> linarith
  · rintro ⟨h1, h2⟩
    constructor <;> linarith

/-- A loop that emits two such pairs of rows bounds two magnitudes. -/
theorem signedRows_iff {x : ℕ → K} (e e' : K → LinearExpr K) {v v' b b' c c' : K}
    (h : ∀ sign, (e sign).eval x = sign * v - b) (h' : ∀ sign, (e' sign).eval x = sign * v' - b') :
    (∀ r ∈ [(1 : K), -1].flatMap fun sign => [(⟨e sign, c⟩ : Row K), ⟨e' sign, c'⟩],
      r.coefficients.eval x ≤ r.limit) ↔ |v| ≤ c + b ∧ |v'| ≤ c' + b' := by
  rw [List.forall_mem_flatMap, ← forall_sign_iff, ← forall_sign_iff, ← forall₂_and]
  refine forall₂_congr fun sign _ => ?_
  rw [List.forall_mem_cons, List.forall_mem_singleton, h, h']

variable (hA : A.Regular) {x : ℕ → K}
include hA

theorem Regular.motionRows_iff : (∀ r ∈ A.motionRows, r.coefficients.eval x ≤ r.limit) ↔
    ∀ i, i + 1 < A.count → |A.shot.velocity x i| ≤ panMaxSpeed + x A.speedIndex ∧
      |x (i + 1) - x i| ≤ x (A.travelStart + i) := by
  have hl := hA.intervals_length
  have hrows : ∀ i dt, _ ↔ |(x (i + 1) - x i) / dt| ≤ panMaxSpeed + x A.speedIndex ∧
      |x (i + 1) - x i| ≤ 0 + x (A.travelStart + i) := fun i dt =>
    signedRows_iff
      (fun sign => [(i, -sign / dt), (i + 1, sign / dt), (A.speedIndex, -1)])
      (fun sign => [(i, -sign), (i + 1, sign), (A.travelStart + i, -1)])
      (fun sign => by simp only [LinearExpr.eval_cons, LinearExpr.eval_nil]; ring)
      (fun sign => by simp only [LinearExpr.eval_cons, LinearExpr.eval_nil]; ring)
  rw [motionRows, List.forall_mem_zipIdx_flatMap]
  constructor
  · intro h i hi
    have := (hrows i _).mp (h i _ (getElem?_eq_vec (by omega)))
    rwa [zero_add] at this
  · intro h i dt hdt
    have hi := (List.getElem?_eq_some_iff.mp hdt).1
    have := h i (by omega)
    rw [Shot.velocity, show A.shot.dt i = dt from vec_of_getElem? hdt] at this
    exact (hrows i dt).mpr (by rwa [zero_add])

theorem Regular.transitionRows_iff : (∀ r ∈ A.transitionRows, r.coefficients.eval x ≤ r.limit) ↔
    ∀ i < A.count, |A.shot.acceleration x i| ≤ panMaxAcceleration + x A.accelerationIndex ∧
      |A.shot.velocityChange x i| ≤ x (A.variationStart + i) := by
  have hrows : ∀ i (e : LinearExpr K) d, _ ↔
      |e.eval x / d| ≤ panMaxAcceleration + x A.accelerationIndex ∧
        |e.eval x| ≤ 0 + x (A.variationStart + i) := fun i e d =>
    signedRows_iff
      (fun sign => e.map (fun t => (t.1, sign * t.2 / d)) ++ [(A.accelerationIndex, -1)])
      (fun sign => e.map (fun t => (t.1, sign * t.2)) ++ [(A.variationStart + i, -1)])
      (fun sign => by
        have hscale : e.map (fun t => (t.1, sign * t.2 / d)) =
            e.map fun t => (t.1, sign / d * t.2) :=
          List.map_congr_left fun t _ => by rw [div_mul_eq_mul_div]
        rw [hscale, LinearExpr.eval_append, LinearExpr.eval_scale, LinearExpr.eval_cons,
          LinearExpr.eval_nil]
        ring)
      (fun sign => by
        rw [LinearExpr.eval_append, LinearExpr.eval_scale, LinearExpr.eval_cons,
          LinearExpr.eval_nil]
        ring)
  rw [transitionRows, List.forall_mem_zipIdx_flatMap]
  constructor
  · intro h i hi
    obtain ⟨e, he, heval⟩ := hA.transitions_eq hi
    have := (hrows i e _).mp (h i _ he)
    rwa [zero_add, heval] at this
  · rintro h i ⟨e', d'⟩ hi'
    have hi := (List.getElem?_eq_some_iff.mp hi').1
    rw [hA.transitions_length] at hi
    obtain ⟨e, he, heval⟩ := hA.transitions_eq hi
    obtain ⟨rfl, rfl⟩ : e = e' ∧ A.shot.span i = d' := by
      simpa using Option.some.inj (he.symm.trans hi')
    exact (hrows i e _).mpr (by rw [zero_add, heval]; exact h i hi)

omit hA in
theorem deviationRows_iff : (∀ r ∈ A.deviationRows, r.coefficients.eval x ≤ r.limit) ↔
    ∀ i < A.count, x (A.deviationStart + i) - A.shot.radius i ≤ x (A.deadzoneStart + i) ∧
      |x i - A.shot.seed i| ≤ x (A.deviationStart + i) := by
  have hrows : ∀ i center radius, (∀ r ∈ [(⟨[(A.deviationStart + i, 1),
      (A.deadzoneStart + i, -1)], radius⟩ : Row K), ⟨[(i, 1), (A.deviationStart + i, -1)], center⟩,
      ⟨[(i, -1), (A.deviationStart + i, -1)], -center⟩], r.coefficients.eval x ≤ r.limit) ↔
      x (A.deviationStart + i) - radius ≤ x (A.deadzoneStart + i) ∧
        |x i - center| ≤ x (A.deviationStart + i) := by
    intro i center radius
    rw [List.forall_mem_cons, List.forall_mem_cons, List.forall_mem_singleton, abs_le]
    simp only [LinearExpr.eval_cons, LinearExpr.eval_nil]
    constructor
    · rintro ⟨h1, h2, h3⟩
      exact ⟨by linarith, by linarith, by linarith⟩
    · rintro ⟨h1, h2, h3⟩
      exact ⟨by linarith, by linarith, by linarith⟩
  rw [deviationRows, List.forall_mem_zipIdx_flatMap]
  have hzip : ∀ i crop, A.crops[i]? = some crop → (A.seedCenters.zip A.crops)[i]? =
      some (A.shot.seed i, crop) ∧ A.radius crop = A.shot.radius i := by
    intro i crop hi
    have hs : A.seedCenters[i]? = some (crop.normalizedCenter A.horizontal A.source) := by
      rw [seedCenters, List.getElem?_map, hi, Option.map_some]
    refine ⟨?_, (vec_of_getElem? (by rw [List.getElem?_map, hi, Option.map_some])).symm⟩
    rw [List.getElem?_zip_eq_some]
    exact ⟨by rw [hs]; exact congrArg some (vec_of_getElem? hs).symm, hi⟩
  constructor
  · intro h i hi
    obtain ⟨hz, hr⟩ := hzip i _ (List.getElem?_eq_getElem hi)
    rw [← hr]
    exact (hrows i _ _).mp (h i _ hz)
  · rintro h i ⟨center, crop⟩ hi'
    obtain ⟨-, hcrop⟩ := List.getElem?_zip_eq_some.mp hi'
    have hi : i < A.count := (List.getElem?_eq_some_iff.mp hcrop).1
    obtain ⟨hz, hr⟩ := hzip i _ hcrop
    obtain ⟨rfl, -⟩ : A.shot.seed i = center ∧ crop = crop := by
      simpa using Option.some.inj (hz.symm.trans hi')
    exact (hrows i _ _).mpr (by rw [hr]; exact h i hi)

/-- **The base program** is feasible exactly at the admissible vectors. -/
theorem Regular.feasible_initial_iff {k : ℕ} :
    (A.program k A.initialState).Feasible x ↔ A.Admissible x := by
  have hrows : (∀ r ∈ A.rows, r.coefficients.eval x ≤ r.limit) ↔
      ((∀ r ∈ A.motionRows, r.coefficients.eval x ≤ r.limit) ∧
        ∀ r ∈ A.transitionRows, r.coefficients.eval x ≤ r.limit) ∧
        ∀ r ∈ A.deviationRows, r.coefficients.eval x ≤ r.limit := by
    rw [rows, List.forall_mem_append, List.forall_mem_append]
  rw [hA.motionRows_iff, hA.transitionRows_iff, deviationRows_iff] at hrows
  constructor
  · rintro ⟨hsup, hlow, hup, hr⟩
    obtain ⟨⟨hm, ht⟩, hd⟩ := hrows.mp hr
    refine ⟨fun i hi => hsup i (by rw [← hA.bounds_length] at hi; exact hi), fun i item hi => ?_,
      fun i hi => ?_, fun i hi => (hm i hi).1, fun i hi => (hm i hi).2, fun i hi => (ht i hi).1,
      fun i hi => (ht i hi).2, fun i hi => (hd i hi).1, fun i hi => (hd i hi).2⟩
    · have hb : A.bounds[i]? = some (item.centerLower, some item.centerUpper) := by
        rw [hA.bounds_of_lt (by
          rw [← hA.legal_length]; exact (List.getElem?_eq_some_iff.mp hi).1), hi, Option.map_some]
      exact ⟨hlow i _ hb, hup i _ hb _ rfl⟩
    · rcases Nat.lt_or_ge i A.variableCount with hv | hv
      · exact hlow i _ (hA.bounds_of_le hi hv)
      · exact (hsup i (by rw [← hA.bounds_length] at hv; exact hv)).ge
  · intro h
    refine ⟨fun i hi => h.support i (by rw [← hA.bounds_length]; exact hi), fun i b hb => ?_,
      fun i b hb u hu => ?_, hrows.mpr ⟨⟨fun i hi => ⟨h.speed i hi, h.travel i hi⟩,
        fun i hi => ⟨h.acceleration i hi, h.variation i hi⟩⟩,
        fun i hi => ⟨h.deadzone i hi, h.deviation i hi⟩⟩⟩
    · rcases Nat.lt_or_ge i A.count with hi | hi
      · change A.bounds[i]? = some b at hb
        rw [hA.bounds_of_lt hi, Option.map_eq_some_iff] at hb
        obtain ⟨item, hitem, rfl⟩ := hb
        exact (h.legal i item hitem).1
      · have hv : i < A.variableCount := by
          rw [← hA.bounds_length]; exact (List.getElem?_eq_some_iff.mp hb).1
        obtain rfl := Option.some.inj ((hA.bounds_of_le hi hv).symm.trans hb)
        exact h.nonneg i hi
    · rcases Nat.lt_or_ge i A.count with hi | hi
      · change A.bounds[i]? = some b at hb
        rw [hA.bounds_of_lt hi, Option.map_eq_some_iff] at hb
        obtain ⟨item, hitem, rfl⟩ := hb
        obtain rfl : item.centerUpper = u := by simpa using hu
        exact (h.legal i item hitem).2
      · have hv : i < A.variableCount := by
          rw [← hA.bounds_length]; exact (List.getElem?_eq_some_iff.mp hb).1
        obtain rfl := Option.some.inj ((hA.bounds_of_le hi hv).symm.trans hb)
        cases hu

end Rows

/-! ## The objectives -/

section Objectives

omit [LinearOrder K] in
theorem eval_block (start : ℕ) (l : List K) (x : ℕ → K) :
    LinearExpr.eval (block start l) x = ∑ i ∈ Finset.range l.length, vec l i * x (start + i) := by
  induction l using List.reverseRecOn with
  | nil => rfl
  | append_singleton l a ih =>
    have hblock : block start (l ++ [a]) = block start l ++ [(start + l.length, a)] := by
      simp [block, List.zipIdx_append]
    rw [hblock, LinearExpr.eval_append, ih, List.length_append, List.length_singleton,
      Finset.sum_range_succ, LinearExpr.eval_cons, LinearExpr.eval_nil, add_zero,
      vec_append_right le_rfl, Nat.sub_self]
    congr 1
    exact Finset.sum_congr rfl fun i hi => by rw [vec_append_left (Finset.mem_range.mp hi)]

variable (A) in
/-- The objective of a pass, as a function of the vector. -/
def cost (k : ℕ) (x : ℕ → K) : K :=
  match k with
  | 0 => x A.speedIndex
  | 1 => x A.accelerationIndex
  | 2 => ∑ i ∈ Finset.range A.count, A.shot.span i * x (A.deadzoneStart + i)
  | 3 => ∑ i ∈ Finset.range (A.count - 1), x (A.travelStart + i)
  | 4 => ∑ i ∈ Finset.range A.count, x (A.variationStart + i)
  | _ => ∑ i ∈ Finset.range A.count, A.shot.span i * x (A.deviationStart + i)

theorem Regular.eval_objective (hA : A.Regular) (k : ℕ) (x : ℕ → K) :
    (A.objective k).eval x = A.cost k x := by
  have hweights : ∀ start, LinearExpr.eval (block start A.weights) x =
      ∑ i ∈ Finset.range A.count, A.shot.span i * x (start + i) := by
    intro start
    rw [eval_block, show A.weights.length = A.count by simp [weights]]
    exact Finset.sum_congr rfl fun i hi => by rw [hA.weights_eq (Finset.mem_range.mp hi)]
  have hones : ∀ start n, LinearExpr.eval (block start (List.replicate n 1)) x =
      ∑ i ∈ Finset.range n, x (start + i) := by
    intro start n
    rw [eval_block, List.length_replicate]
    refine Finset.sum_congr rfl fun i hi => ?_
    rw [vec_of_getElem? (a := 1) (by simpa [List.getElem?_replicate] using hi), one_mul]
  match k with
  | 0 => simp [objective, cost]
  | 1 => simp [objective, cost]
  | 2 => exact hweights _
  | 3 => exact hones _ _
  | 4 => exact hones _ _
  | _ + 5 => exact hweights _

variable [IsStrictOrderedRing K]

/-- An admissible vector costs at least what its camera path does. -/
theorem Admissible.objective_le (hA : A.Regular) {x : ℕ → K} (hx : A.Admissible x) (k : ℕ) :
    A.shot.objective k x ≤ A.cost k x := by
  obtain ⟨h1, h2, h3, -⟩ := A.columns
  match k with
  | 0 => exact excess_le_iff.mpr ⟨hx.nonneg _ h1.ge, fun i hi =>
      hx.speed i (by have : i < A.count - 1 := hi; omega)⟩
  | 1 => exact excess_le_iff.mpr ⟨hx.nonneg _ (by omega), hx.acceleration⟩
  | 2 =>
    refine Finset.sum_le_sum fun i hi => ?_
    have hi : i < A.count := Finset.mem_range.mp hi
    exact mul_le_mul_of_nonneg_left (max_le ((sub_le_sub_right (hx.deviation i hi) _).trans
      (hx.deadzone i hi)) (hx.nonneg _ (by omega))) (Shot.span_nonneg hA.dt_pos hi)
  | 3 =>
    refine Finset.sum_le_sum fun i hi => hx.travel i ?_
    have : i < A.count - 1 := Finset.mem_range.mp hi
    omega
  | 4 => exact Finset.sum_le_sum fun i hi => hx.variation i (Finset.mem_range.mp hi)
  | _ + 5 =>
    refine Finset.sum_le_sum fun i hi => ?_
    have hi : i < A.count := Finset.mem_range.mp hi
    exact mul_le_mul_of_nonneg_left (hx.deviation i hi) (Shot.span_nonneg hA.dt_pos hi)

theorem Admissible.cost_nonneg (hA : A.Regular) {x : ℕ → K} (hx : A.Admissible x) (k : ℕ) :
    0 ≤ A.cost k x :=
  (Shot.objective_nonneg hA.dt_pos k x).trans (hx.objective_le hA k)

end Objectives

/-! ## The vector of a path -/

section Encoding

variable (A) in
/-- The path, its excesses, and its motion and distances frame by frame. -/
def encode (c : ℕ → K) (i : ℕ) : K :=
  if i < A.count then c i
  else if i = A.speedIndex then A.shot.objective 0 c
  else if i = A.accelerationIndex then A.shot.objective 1 c
  else if i < A.travelStart then A.shot.outside c (i - A.deadzoneStart)
  else if i < A.variationStart then |c (i - A.travelStart + 1) - c (i - A.travelStart)|
  else if i < A.deviationStart then |A.shot.velocityChange c (i - A.variationStart)|
  else if i < A.variableCount then |c (i - A.deviationStart) - A.shot.seed (i - A.deviationStart)|
  else 0

variable {c : ℕ → K} {i : ℕ}

theorem encode_center (hi : i < A.count) : A.encode c i = c i := if_pos hi

theorem encode_speed : A.encode c A.speedIndex = A.shot.objective 0 c := by
  obtain ⟨h1, -⟩ := A.columns
  rw [encode, if_neg (by omega), if_pos rfl]

theorem encode_acceleration : A.encode c A.accelerationIndex = A.shot.objective 1 c := by
  obtain ⟨h1, h2, -⟩ := A.columns
  rw [encode, if_neg (by omega), if_neg (by omega), if_pos rfl]

theorem encode_deadzone (hi : i < A.count) :
    A.encode c (A.deadzoneStart + i) = A.shot.outside c i := by
  obtain ⟨h1, h2, h3, h4, -⟩ := A.columns
  rw [encode, if_neg (by omega), if_neg (by omega), if_neg (by omega), if_pos (by omega),
    Nat.add_sub_cancel_left]

theorem encode_travel (hi : i + 1 < A.count) :
    A.encode c (A.travelStart + i) = |c (i + 1) - c i| := by
  obtain ⟨h1, h2, h3, h4, h5, -⟩ := A.columns
  rw [encode, if_neg (by omega), if_neg (by omega), if_neg (by omega), if_neg (by omega),
    if_pos (by omega), Nat.add_sub_cancel_left]

theorem encode_variation (hi : i < A.count) :
    A.encode c (A.variationStart + i) = |A.shot.velocityChange c i| := by
  obtain ⟨h1, h2, h3, h4, h5, h6, -⟩ := A.columns
  rw [encode, if_neg (by omega), if_neg (by omega), if_neg (by omega), if_neg (by omega),
    if_neg (by omega), if_pos (by omega), Nat.add_sub_cancel_left]

theorem encode_deviation (hi : i < A.count) :
    A.encode c (A.deviationStart + i) = |c i - A.shot.seed i| := by
  obtain ⟨h1, h2, h3, h4, h5, h6, h7⟩ := A.columns
  rw [encode, if_neg (by omega), if_neg (by omega), if_neg (by omega), if_neg (by omega),
    if_neg (by omega), if_neg (by omega), if_pos (by omega), Nat.add_sub_cancel_left]

theorem encode_support (hA : A.Regular) (hi : A.variableCount ≤ i) : A.encode c i = 0 := by
  have hn := hA.two_le
  obtain ⟨h1, h2, h3, h4, h5, h6, h7⟩ := A.columns
  rw [encode, if_neg (by omega), if_neg (by omega), if_neg (by omega), if_neg (by omega),
    if_neg (by omega), if_neg (by omega), if_neg (by omega)]

/-- The vector of a path costs what the path does. -/
theorem cost_encode (k : ℕ) : A.cost k (A.encode c) = A.shot.objective k c := by
  match k with
  | 0 => exact encode_speed
  | 1 => exact encode_acceleration
  | 2 => exact Finset.sum_congr rfl fun i hi => by rw [encode_deadzone (Finset.mem_range.mp hi)]
  | 3 =>
    refine Finset.sum_congr rfl fun i hi => encode_travel ?_
    have : i < A.count - 1 := Finset.mem_range.mp hi
    omega
  | 4 => exact Finset.sum_congr rfl fun i hi => encode_variation (Finset.mem_range.mp hi)
  | _ + 5 =>
    exact Finset.sum_congr rfl fun i hi => by rw [encode_deviation (Finset.mem_range.mp hi)]

variable [IsStrictOrderedRing K]

theorem encode_nonneg (hi : A.count ≤ i) : 0 ≤ A.encode c i := by
  unfold encode
  rw [if_neg hi.not_gt]
  split_ifs
  · exact excess_nonneg
  · exact excess_nonneg
  · exact le_max_right _ _
  · exact abs_nonneg _
  · exact abs_nonneg _
  · exact abs_nonneg _
  · exact le_rfl

/-- **The vector of a legal path** is admissible. -/
theorem encode_admissible (hA : A.Regular) (hc : c ∈ A.legalPaths) :
    A.Admissible (A.encode c) where
  support _ := encode_support hA
  legal i item hi := by
    rw [encode_center (by rw [← hA.legal_length]; exact (List.getElem?_eq_some_iff.mp hi).1)]
    exact hc i item hi
  nonneg _ := encode_nonneg
  speed i hi := by
    rw [Shot.velocity_congr (fun _ => encode_center) hi, encode_speed]
    exact le_add_excess panMaxSpeed (fun i => |A.shot.velocity c i|)
      (show i < A.count - 1 by omega)
  travel i hi := by
    rw [encode_travel hi, encode_center hi, encode_center (by omega)]
  acceleration i hi := by
    rw [Shot.acceleration, Shot.velocityChange_congr (fun _ => encode_center) hi,
      encode_acceleration]
    exact le_add_excess panMaxAcceleration (fun i => |A.shot.acceleration c i|) hi
  variation i hi := by
    rw [Shot.velocityChange_congr (fun _ => encode_center) hi, encode_variation hi]
  deadzone i hi := by
    rw [encode_deviation hi, encode_deadzone hi]
    exact le_max_left _ _
  deviation i hi := by
    rw [encode_center hi, encode_deviation hi]

end Encoding

end Parts

end AxisProblem

end BoulderFrame
