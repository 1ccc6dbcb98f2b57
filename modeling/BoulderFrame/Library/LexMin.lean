import Mathlib.Algebra.Order.Group.Defs
import Mathlib.Order.Bounds.Basic

/-!
# Lexicographic minimization with a tolerance

Objectives are minimized one after the other; each minimum is locked, up to a tolerance, before the
next objective is considered. Two problems that encode and decode each other's points without
raising any objective have the same minima.

## Main definitions

* `Locked L f m tol k`: the points whose first `k` objectives are within `tol` of `m`
* `IsLexMinima L f m tol n`: the first `n` minima, each over the points locked so far

## Main results

* `isLeast_decode`: a minimum of the encoded problem is a minimum of the original one
-/

namespace LexMin

variable {X Y K : Type} [AddCommGroup K] [LinearOrder K]

/-- The points of `L` whose objectives before the `k`-th exceed the minima `m` by at most `tol`. -/
def Locked (L : Set X) (f : ℕ → X → K) (m : ℕ → K) (tol : K) (k : ℕ) : Set X :=
  {x | x ∈ L ∧ ∀ j < k, f j x ≤ m j + tol}

/-- Each of the first `n` values of `m` is the minimum of its objective on the points that the
earlier ones lock. -/
def IsLexMinima (L : Set X) (f : ℕ → X → K) (m : ℕ → K) (tol : K) (n : ℕ) : Prop :=
  ∀ k < n, IsLeast (f k '' Locked L f m tol k) (m k)

section Encoding

variable {L : Set X} {M : Set Y} {f : ℕ → X → K} {g : ℕ → Y → K} {encode : X → Y}
  {decode : Y → X} {m : ℕ → K} {tol : K} {k : ℕ}

/-- Decoding keeps a locked point locked, when it raises no objective. -/
theorem Locked.decode_mem (hdec : ∀ y ∈ M, decode y ∈ L) (hf : ∀ j < k, ∀ y ∈ M, f j (decode y) ≤ g j y)
    {y : Y} (hy : y ∈ Locked M g m tol k) : decode y ∈ Locked L f m tol k :=
  ⟨hdec y hy.1, fun j hj => (hf j hj y hy.1).trans (hy.2 j hj)⟩

/-- Encoding keeps a locked point locked, when it keeps the objectives. -/
theorem Locked.encode_mem (henc : ∀ x ∈ L, encode x ∈ M) (hg : ∀ j < k, ∀ x ∈ L, g j (encode x) = f j x)
    {x : X} (hx : x ∈ Locked L f m tol k) : encode x ∈ Locked M g m tol k :=
  ⟨henc x hx.1, fun j hj => (hg j hj x hx.1).trans_le (hx.2 j hj)⟩

variable (encode decode) in
/-- **A minimum of the encoded problem** is a minimum of the original one, and decoding a minimizer
gives a minimizer. -/
theorem isLeast_decode (henc : ∀ x ∈ L, encode x ∈ M) (hdec : ∀ y ∈ M, decode y ∈ L)
    (hf : ∀ j ≤ k, ∀ y ∈ M, f j (decode y) ≤ g j y) (hg : ∀ j ≤ k, ∀ x ∈ L, g j (encode x) = f j x)
    {y : Y} (hy : y ∈ Locked M g m tol k) (hmin : ∀ z ∈ Locked M g m tol k, g k y ≤ g k z) :
    IsLeast (f k '' Locked L f m tol k) (g k y) ∧ f k (decode y) = g k y := by
  have hlow : ∀ x ∈ Locked L f m tol k, g k y ≤ f k x := fun x hx =>
    (hmin _ (Locked.encode_mem henc (fun j hj => hg j hj.le) hx)).trans_eq (hg k le_rfl x hx.1)
  have hdy : decode y ∈ Locked L f m tol k := Locked.decode_mem hdec (fun j hj => hf j hj.le) hy
  have heq : f k (decode y) = g k y := le_antisymm (hf k le_rfl y hy.1) (hlow _ hdy)
  refine ⟨⟨⟨decode y, hdy, heq⟩, ?_⟩, heq⟩
  rintro _ ⟨x, hx, rfl⟩
  exact hlow x hx

end Encoding

end LexMin
