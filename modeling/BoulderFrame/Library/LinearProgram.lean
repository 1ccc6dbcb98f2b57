import BoulderFrame.Library.Numerals
import Mathlib.Algebra.Module.LinearMap.Defs
import Mathlib.Algebra.Module.Pi
import Mathlib.Algebra.Module.Submodule.LinearMap
import Mathlib.Algebra.Order.Field.Basic
import Mathlib.Algebra.BigOperators.Group.List.Lemmas
import Mathlib.Tactic.FieldSimp
import Mathlib.Tactic.Linarith
import Mathlib.Tactic.Ring

/-!
# Linear programs

A linear function that is bounded below on a nonempty polyhedron attains its minimum there. The
proof needs neither coordinates nor completeness: dropping a constraint either keeps the minimum,
or exhibits a point beyond the dropped hyperplane at least as good as every feasible one, and then
every segment to it meets the hyperplane at a point no worse than where it started.

A program has a sparse objective, sparse rows and a box; its vectors are sequences that vanish
beyond the number of variables.

## Main definitions

* `Satisfies cs x`: the point `x` meets the linear inequalities `cs`
* `LinearExpr`, `LinearExpr.eval`: sparse linear expressions
* `LinearProgram`, `Feasible`, `BoundedBelow`, `IsOptimum`

## Main results

* `exists_minimum`: attainment over any ordered field and any vector space
* `LinearProgram.exists_isOptimum`: a feasible program bounded below has an optimum
-/

namespace LinearProgramming

variable {K : Type} [Field K] [LinearOrder K] [IsStrictOrderedRing K]

/-! ## Attainment -/

section Attainment

variable {V : Type} [AddCommGroup V] [Module K V]

/-- The point meets every inequality `f x ≤ b` of the list. -/
def Satisfies (cs : List ((V →ₗ[K] K) × K)) (x : V) : Prop := ∀ p ∈ cs, p.1 x ≤ p.2

/-- The point meets every equation `f x = b` of the list. -/
def Solves (es : List ((V →ₗ[K] K) × K)) (x : V) : Prop := ∀ p ∈ es, p.1 x = p.2

omit [IsStrictOrderedRing K] in
theorem satisfies_cons {f : V →ₗ[K] K} {b : K} {cs : List ((V →ₗ[K] K) × K)} {x : V} :
    Satisfies ((f, b) :: cs) x ↔ f x ≤ b ∧ Satisfies cs x := by
  simp [Satisfies]

omit [LinearOrder K] [IsStrictOrderedRing K] in
theorem solves_cons {f : V →ₗ[K] K} {b : K} {es : List ((V →ₗ[K] K) × K)} {x : V} :
    Solves ((f, b) :: es) x ↔ f x = b ∧ Solves es x := by
  simp [Solves]

omit [LinearOrder K] [IsStrictOrderedRing K] in
theorem Solves.line {es : List ((V →ₗ[K] K) × K)} {x y : V} (hx : Solves es x) (hy : Solves es y)
    (t : K) : Solves es (x + t • (y - x)) := by
  intro p hp
  simp [hx p hp, hy p hp]

theorem Satisfies.segment {cs : List ((V →ₗ[K] K) × K)} {x y : V} (hx : Satisfies cs x)
    (hy : Satisfies cs y) {t : K} (h0 : 0 ≤ t) (h1 : t ≤ 1) : Satisfies cs (x + t • (y - x)) := by
  intro p hp
  have hxp := hx p hp
  have hyp := hy p hp
  simp only [map_add, map_smul, map_sub, smul_eq_mul]
  nlinarith

/-- A linear function bounded below along a line is constant on it. -/
theorem Solves.eq_of_bounded {es : List ((V →ₗ[K] K) × K)} {c : V →ₗ[K] K} {m : K}
    (hm : ∀ x, Solves es x → m ≤ c x) {x y : V} (hx : Solves es x) (hy : Solves es y) :
    c x ≤ c y := by
  by_contra! h
  have hd : 0 < c x - c y := sub_pos.mpr h
  have hz := hm _ (hx.line hy ((c x - m + 1) / (c x - c y)))
  simp only [map_add, map_smul, map_sub, smul_eq_mul] at hz
  have : (c x - m + 1) / (c x - c y) * (c y - c x) = -(c x - m + 1) := by
    field_simp
    ring
  linarith

/-- From a point inside a halfspace, the segment to a point beyond it that is no worse meets the
bounding hyperplane at a point no worse. -/
theorem exists_crossing {es cs : List ((V →ₗ[K] K) × K)} {f c : V →ₗ[K] K} {b : K} {x y : V}
    (hx : Solves es x) (hxc : Satisfies cs x) (hxf : f x ≤ b) (hy : Solves es y)
    (hyc : Satisfies cs y) (hyf : b < f y) (hle : c y ≤ c x) :
    ∃ z, Solves ((f, b) :: es) z ∧ Satisfies cs z ∧ c z ≤ c x := by
  have hd : 0 < f y - f x := by linarith
  have h0 : 0 ≤ (b - f x) / (f y - f x) := div_nonneg (by linarith) hd.le
  have h1 : (b - f x) / (f y - f x) ≤ 1 := (div_le_one hd).mpr (by linarith)
  refine ⟨x + ((b - f x) / (f y - f x)) • (y - x), ?_, hxc.segment hyc h0 h1, ?_⟩
  · refine solves_cons.mpr ⟨?_, hx.line hy _⟩
    simp only [map_add, map_smul, map_sub, smul_eq_mul]
    rw [div_mul_cancel₀ _ hd.ne']
    ring
  · simp only [map_add, map_smul, map_sub, smul_eq_mul]
    nlinarith

/-- **Attainment**: a linear function bounded below on a nonempty polyhedron has a minimum. The
induction removes the inequalities one by one, turning them into equations. -/
theorem exists_minimum (cs : List ((V →ₗ[K] K) × K)) (c : V →ₗ[K] K) :
    ∀ es : List ((V →ₗ[K] K) × K), (∃ x, Solves es x ∧ Satisfies cs x) →
      (∃ m, ∀ x, Solves es x → Satisfies cs x → m ≤ c x) →
      ∃ x, (Solves es x ∧ Satisfies cs x) ∧ ∀ y, Solves es y → Satisfies cs y → c x ≤ c y := by
  induction cs with
  | nil =>
    rintro es ⟨x, hx, hxc⟩ ⟨m, hm⟩
    exact ⟨x, ⟨hx, hxc⟩, fun y hy _ =>
      Solves.eq_of_bounded (fun z hz => hm z hz (by simp [Satisfies])) hx hy⟩
  | cons p cs ih =>
    obtain ⟨f, b⟩ := p
    rintro es ⟨x, hx, hxc⟩ ⟨m, hm⟩
    obtain ⟨hxf, hxc⟩ := satisfies_cons.mp hxc
    -- without the constraint there is a point at least as good as every feasible one
    obtain ⟨y, ⟨hy, hyc⟩, hyle⟩ : ∃ y, (Solves es y ∧ Satisfies cs y) ∧
        ∀ z, Solves es z → Satisfies ((f, b) :: cs) z → c y ≤ c z := by
      by_cases hbdd : ∃ m, ∀ z, Solves es z → Satisfies cs z → m ≤ c z
      · obtain ⟨y, hy, hmin⟩ := ih es ⟨x, hx, hxc⟩ hbdd
        exact ⟨y, hy, fun z hz hzc => hmin z hz (satisfies_cons.mp hzc).2⟩
      · push Not at hbdd
        obtain ⟨y, hy, hyc, hlt⟩ := hbdd m
        exact ⟨y, ⟨hy, hyc⟩, fun z hz hzc => hlt.le.trans (hm z hz hzc)⟩
    by_cases hyf : f y ≤ b
    · exact ⟨y, ⟨hy, satisfies_cons.mpr ⟨hyf, hyc⟩⟩, hyle⟩
    -- it is infeasible: the minimum lies on the hyperplane
    push Not at hyf
    have hface : ∀ z, Solves es z → Satisfies ((f, b) :: cs) z →
        ∃ w, Solves ((f, b) :: es) w ∧ Satisfies cs w ∧ c w ≤ c z := fun z hz hzc =>
      exists_crossing hz (satisfies_cons.mp hzc).2 (satisfies_cons.mp hzc).1 hy hyc hyf
        (hyle z hz hzc)
    obtain ⟨w, hw, hwc, -⟩ := hface x hx (satisfies_cons.mpr ⟨hxf, hxc⟩)
    have hsub : ∀ z, Solves ((f, b) :: es) z → Satisfies cs z →
        Solves es z ∧ Satisfies ((f, b) :: cs) z := fun z hz hzc =>
      ⟨(solves_cons.mp hz).2, satisfies_cons.mpr ⟨(solves_cons.mp hz).1.le, hzc⟩⟩
    obtain ⟨v, ⟨hv, hvc⟩, hmin⟩ := ih ((f, b) :: es) ⟨w, hw, hwc⟩
      ⟨m, fun z hz hzc => hm z (hsub z hz hzc).1 (hsub z hz hzc).2⟩
    refine ⟨v, hsub v hv hvc, fun z hz hzc => ?_⟩
    obtain ⟨u, hu, huc, hule⟩ := hface z hz hzc
    exact (hmin u hu huc).trans hule

end Attainment

/-! ## Sparse programs -/

/-- Coefficients by column; columns may repeat. -/
abbrev LinearExpr (K : Type) := List (ℕ × K)

namespace LinearExpr

def eval (e : LinearExpr K) (x : ℕ → K) : K := (e.map fun t => t.2 * x t.1).sum

section Eval

omit [LinearOrder K] [IsStrictOrderedRing K]

@[simp] theorem eval_nil (x : ℕ → K) : eval [] x = 0 := rfl

@[simp] theorem eval_cons (t : ℕ × K) (e : LinearExpr K) (x : ℕ → K) :
    eval (t :: e) x = t.2 * x t.1 + eval e x := by
  simp [eval]

@[simp] theorem eval_append (e e' : LinearExpr K) (x : ℕ → K) :
    eval (e ++ e') x = eval e x + eval e' x := by
  simp [eval]

/-- Scaling every coefficient scales the value. -/
theorem eval_scale (a : K) (e : LinearExpr K) (x : ℕ → K) :
    eval (e.map fun t => (t.1, a * t.2)) x = a * eval e x := by
  induction e with
  | nil => simp
  | cons t e ih =>
    simp only [List.map_cons, eval_cons, ih]
    ring

/-- The value as a linear function of the vector. -/
def toLinear (e : LinearExpr K) : (ℕ → K) →ₗ[K] K where
  toFun := eval e
  map_add' x y := by
    induction e with
    | nil => simp
    | cons t e ih =>
      simp only [eval_cons, ih, Pi.add_apply]
      ring
  map_smul' a x := by
    induction e with
    | nil => simp
    | cons t e ih =>
      simp only [eval_cons, ih, Pi.smul_apply, smul_eq_mul, RingHom.id_apply]
      ring

@[simp] theorem toLinear_apply (e : LinearExpr K) (x : ℕ → K) : toLinear e x = eval e x := rfl

end Eval

end LinearExpr

/-- The inequality `coefficients · x ≤ limit`. -/
structure Row (K : Type) where
  coefficients : LinearExpr K
  limit : K

/-- Minimize the objective subject to the rows, each variable between its bounds. -/
structure LinearProgram (K : Type) where
  objective : LinearExpr K
  rows : List (Row K)
  bounds : List (K × Option K)

namespace LinearProgram

variable (P : LinearProgram K)

/-- The vector vanishes beyond the variables and meets the bounds and the rows. -/
structure Feasible (x : ℕ → K) : Prop where
  support : ∀ i, P.bounds.length ≤ i → x i = 0
  lower : ∀ i b, P.bounds[i]? = some b → b.1 ≤ x i
  upper : ∀ i b, P.bounds[i]? = some b → ∀ u ∈ b.2, x i ≤ u
  rows : ∀ r ∈ P.rows, r.coefficients.eval x ≤ r.limit

/-- The objective does not fall below some value on the feasible vectors. -/
def BoundedBelow : Prop := ∃ m, ∀ x, P.Feasible x → m ≤ P.objective.eval x

/-- A feasible vector of least objective. -/
structure IsOptimum (x : ℕ → K) : Prop where
  feasible : P.Feasible x
  le : ∀ y, P.Feasible y → P.objective.eval x ≤ P.objective.eval y

section Locks

variable {P}

omit [IsStrictOrderedRing K]

/-- One more row is one more inequality. -/
theorem feasible_append_row {r : Row K} {x : ℕ → K} :
    Feasible { P with rows := P.rows ++ [r] } x ↔
      P.Feasible x ∧ r.coefficients.eval x ≤ r.limit := by
  constructor
  · intro h
    exact ⟨⟨h.support, h.lower, h.upper, fun r' hr => h.rows r' (List.mem_append_left _ hr)⟩,
      h.rows r (by simp)⟩
  · rintro ⟨h, hr⟩
    refine ⟨h.support, h.lower, h.upper, fun r' hr' => ?_⟩
    rcases List.mem_append.mp hr' with hr' | hr'
    · exact h.rows r' hr'
    · obtain rfl := List.mem_singleton.mp hr'
      exact hr

/-- An upper bound on an unbounded variable is one more inequality. -/
theorem feasible_set_bound {i : ℕ} {l u : K} (hi : P.bounds[i]? = some (l, none)) {x : ℕ → K} :
    Feasible { P with bounds := P.bounds.set i (l, some u) } x ↔ P.Feasible x ∧ x i ≤ u := by
  have hlt : i < P.bounds.length := (List.getElem?_eq_some_iff.mp hi).1
  constructor
  · intro h
    refine ⟨⟨fun j hj => h.support j (by simpa using hj), fun j b hb => ?_, fun j b hb v hv => ?_,
      h.rows⟩, h.upper i (l, some u) (by simp [hlt]) u rfl⟩
    · by_cases hji : i = j
      · subst hji
        obtain rfl : (l, none) = b := Option.some.inj (hi.symm.trans hb)
        exact h.lower i (l, some u) (by simp [hlt])
      · exact h.lower j b (by simpa [List.getElem?_set_ne hji] using hb)
    · by_cases hji : i = j
      · subst hji
        obtain rfl : (l, none) = b := Option.some.inj (hi.symm.trans hb)
        cases hv
      · exact h.upper j b (by simpa [List.getElem?_set_ne hji] using hb) v hv
  · rintro ⟨h, hu⟩
    refine ⟨fun j hj => h.support j (by simpa using hj), fun j b hb => ?_, fun j b hb v hv => ?_,
      h.rows⟩
    · by_cases hji : i = j
      · subst hji
        obtain rfl : (l, some u) = b := by simpa [hlt] using hb
        exact h.lower i (l, none) hi
      · exact h.lower j b (by simpa [List.getElem?_set_ne hji] using hb)
    · by_cases hji : i = j
      · subst hji
        obtain rfl : (l, some u) = b := by simpa [hlt] using hb
        obtain rfl : u = v := by simpa using hv
        exact hu
      · exact h.upper j b (by simpa [List.getElem?_set_ne hji] using hb) v hv

end Locks

/-- The vectors that vanish beyond the variables. -/
def vectors : Submodule K (ℕ → K) where
  carrier := {x | ∀ i, P.bounds.length ≤ i → x i = 0}
  add_mem' hx hy i hi := by simp [hx i hi, hy i hi]
  zero_mem' i _ := rfl
  smul_mem' a x hx i hi := by simp [hx i hi]

/-- Rows and bounds as inequalities between linear functions and numbers. -/
def constraints : List ((P.vectors →ₗ[K] K) × K) :=
  (P.rows.map fun r => (r.coefficients.toLinear ∘ₗ P.vectors.subtype, r.limit)) ++
    (P.bounds.zipIdx.map fun b =>
      (LinearExpr.toLinear [(b.2, -1)] ∘ₗ P.vectors.subtype, -b.1.1)) ++
    P.bounds.zipIdx.flatMap fun b => b.1.2.toList.map fun u =>
      (LinearExpr.toLinear [(b.2, 1)] ∘ₗ P.vectors.subtype, u)

theorem satisfies_constraints_iff (x : P.vectors) :
    Satisfies P.constraints x ↔ P.Feasible x := by
  constructor
  · intro h
    refine ⟨x.2, fun i b hb => ?_, fun i b hb u hu => ?_, fun r hr => ?_⟩
    · have := h (LinearExpr.toLinear [(i, -1)] ∘ₗ P.vectors.subtype, -b.1) (by
        simp only [constraints, List.mem_append, List.mem_map]
        exact .inl (.inr ⟨(b, i), List.mem_zipIdx_iff_getElem?.mpr hb, rfl⟩))
      simpa using this
    · have := h (LinearExpr.toLinear [(i, 1)] ∘ₗ P.vectors.subtype, u) (by
        simp only [constraints, List.mem_append, List.mem_flatMap, List.mem_map]
        exact .inr ⟨(b, i), List.mem_zipIdx_iff_getElem?.mpr hb, u, by simpa using hu, rfl⟩)
      simpa using this
    · exact h (r.coefficients.toLinear ∘ₗ P.vectors.subtype, r.limit) (by
        simp only [constraints, List.mem_append, List.mem_map]
        exact .inl (.inl ⟨r, hr, rfl⟩))
  · intro h p hp
    simp only [constraints, List.mem_append, List.mem_map, List.mem_flatMap] at hp
    rcases hp with (⟨r, hr, rfl⟩ | ⟨⟨b, i⟩, hb, rfl⟩) | ⟨⟨b, i⟩, hb, u, hu, rfl⟩
    · exact h.rows r hr
    · simpa using h.lower i b (List.mem_zipIdx_iff_getElem?.mp hb)
    · simpa using h.upper i b (List.mem_zipIdx_iff_getElem?.mp hb) u (by simpa using hu)

variable {P}

/-- **A feasible program bounded below has an optimum.** -/
theorem exists_isOptimum (hf : ∃ x, P.Feasible x) (hb : P.BoundedBelow) : ∃ x, P.IsOptimum x := by
  obtain ⟨x, hx⟩ := hf
  obtain ⟨m, hm⟩ := hb
  obtain ⟨z, ⟨-, hz⟩, hmin⟩ := exists_minimum P.constraints
    (P.objective.toLinear ∘ₗ P.vectors.subtype) []
    ⟨⟨x, hx.support⟩, by simp [Solves], (P.satisfies_constraints_iff _).mpr hx⟩
    ⟨m, fun y _ hy => hm y ((P.satisfies_constraints_iff y).mp hy)⟩
  refine ⟨z, (P.satisfies_constraints_iff z).mp hz, fun y hy => ?_⟩
  exact hmin ⟨y, hy.support⟩ (by simp [Solves]) ((P.satisfies_constraints_iff _).mpr hy)

end LinearProgram

end LinearProgramming
