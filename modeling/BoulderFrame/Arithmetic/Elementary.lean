import BoulderFrame.Library.Numerals
import Mathlib.Analysis.SpecialFunctions.Log.Basic
import Mathlib.Tactic.Linarith
import Mathlib.Tactic.NormNum

/-!
# The arithmetic of the framing code

The framing code computes with floats and a few functions of Python's `math`. It is modelled over
an arbitrary linearly ordered field `K` that supplies those functions, so that every definition
computes wherever `K` does; the results are stated at `K = ℝ`, where each operation is exact.

## Main definitions

* `Elementary K`: the functions of `math` that the framing code calls
* `copysign`, `isclose`: as `math` documents them
* `PlanError`: what the planning code raises

## Main results

* `isclose_self`, `isclose_mono`: every number is close to itself, and to more with more tolerance
-/

namespace BoulderFrame

/-- The functions of `math` that are not field operations. -/
class Elementary (K : Type) where
  log : K → K
  exp : K → K
  sqrt : K → K
  /-- `nextafter(x, -inf)` -/
  nextDown : K → K
  /-- `nextafter(x, inf)` -/
  nextUp : K → K

/-- Exact arithmetic. There is no next real number: the code asks for one only to undo a rounding
error, and every guard before such a call is false on exact numbers. -/
noncomputable instance : Elementary ℝ where
  log := Real.log
  exp := Real.exp
  sqrt := Real.sqrt
  nextDown := id
  nextUp := id

@[simp] theorem elementary_exp (x : ℝ) : Elementary.exp x = Real.exp x := rfl

@[simp] theorem elementary_nextDown (x : ℝ) : Elementary.nextDown x = x := rfl

@[simp] theorem elementary_nextUp (x : ℝ) : Elementary.nextUp x = x := rfl

variable {K : Type} [Field K] [LinearOrder K]

/-- `copysign(magnitude, sign)`: a zero sign counts as positive. -/
def copysign (magnitude sign : K) : K :=
  if sign < 0 then -|magnitude| else |magnitude|

/-- `isclose(a, b, rel_tol=relTol, abs_tol=absTol)` -/
def isclose (a b relTol absTol : K) : Bool :=
  decide (|a - b| ≤ max (relTol * max |a| |b|) absTol)

theorem isclose_self [IsStrictOrderedRing K] {a relTol absTol : K} (h : 0 ≤ absTol) :
    isclose a a relTol absTol = true := by
  simp [isclose, h]

/-- Numbers that are close are so with a greater tolerance. -/
theorem isclose_mono [IsStrictOrderedRing K] {a b relTol relTol' absTol : K}
    (htol : relTol ≤ relTol') (h : isclose a b relTol absTol = true) :
    isclose a b relTol' absTol = true := by
  have hnonneg : 0 ≤ max |a| |b| := (abs_nonneg a).trans (le_max_left _ _)
  refine decide_eq_true ((of_decide_eq_true h).trans ?_)
  exact max_le_max_right _ (mul_le_mul_of_nonneg_right htol hnonneg)

/-- What the planning code raises, with the exception's text. -/
inductive PlanError
  | valueError (message : String)
  | zeroDivision
  | plannerError (message : String)
  /-- an exception of another class that the optimizer raised and no handler catches -/
  | uncaught (name : String)
  deriving DecidableEq, Repr

/-- `a / b` on Python floats. -/
def divide (a b : K) : Except PlanError K :=
  if b = 0 then .error .zeroDivision else .ok (a / b)

/-- `math.log` -/
def checkedLog [Elementary K] (x : K) : Except PlanError K :=
  if x ≤ 0 then .error (.valueError "math domain error") else .ok (Elementary.log x)

theorem divide_of_ne {a b : K} (h : b ≠ 0) : divide a b = .ok (a / b) := if_neg h

theorem checkedLog_of_pos [Elementary K] {x : K} (h : 0 < x) :
    checkedLog x = .ok (Elementary.log x) := if_neg h.not_ge

end BoulderFrame
