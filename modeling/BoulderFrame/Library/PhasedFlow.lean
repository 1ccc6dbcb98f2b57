import Mathlib.Algebra.Order.Group.Basic
import Mathlib.Data.Set.Basic
import Mathlib.Tactic.Abel

/-!
# Motions in phases

A controller may recompute its whole plan from the state it is in. Its motion does not depend on
when it does so if the motion is a flow: to move for a time and then, from the state reached, for
another, is to move for both. A motion in phases is a flow if the time that is left of each phase
runs out along the phase, and stays zero in the phases after it.

## Main definitions

* `IsFlow`: a motion that may be recomputed at any time
* `IsPhase`: a motion that lasts for a time that depends on the state
* `andThen`: a phase, and the motion after it

## Main results

* `IsPhase.isFlow`: a phase and a flow make a flow
* `IsPhase.along`: a relation that composes holds along a phase and the motion after it
* `IsFlow.of_charts`: a motion that is a flow in every chart is a flow
-/

variable {T α β ι : Type*} [AddCommGroup T] [LinearOrder T] [IsOrderedAddMonoid T]

omit [IsOrderedAddMonoid T] in
/-- Over times that are not negative, a motion on a set of states that may be recomputed at any
time. -/
structure IsFlow (S : Set α) (φ : T → α → α) : Prop where
  zero : ∀ x ∈ S, φ 0 x = x
  mem : ∀ x ∈ S, ∀ t, 0 ≤ t → φ t x ∈ S
  add : ∀ x ∈ S, ∀ t u, 0 ≤ t → 0 ≤ u → φ (t + u) x = φ u (φ t x)

omit [IsOrderedAddMonoid T] in
/-- A motion that lasts for a time that depends on the state, and runs out along the motion. -/
structure IsPhase (S : Set α) (duration : α → T) (φ : T → α → α) : Prop where
  nonneg : ∀ x ∈ S, 0 ≤ duration x
  zero : ∀ x ∈ S, φ 0 x = x
  mem : ∀ x ∈ S, ∀ t, 0 ≤ t → t ≤ duration x → φ t x ∈ S
  remaining : ∀ x ∈ S, ∀ t, 0 ≤ t → t ≤ duration x → duration (φ t x) = duration x - t
  add : ∀ x ∈ S, ∀ t u, 0 ≤ t → 0 ≤ u → t + u ≤ duration x → φ (t + u) x = φ u (φ t x)

/-- A phase, and from its end on another motion. -/
def andThen (duration : α → T) (φ ψ : T → α → α) (t : T) (x : α) : α :=
  if t < duration x then φ t x else ψ (t - duration x) (φ (duration x) x)

variable {S : Set α} {duration : α → T} {φ ψ : T → α → α}

omit [IsOrderedAddMonoid T] in
theorem andThen_of_lt {t : T} {x : α} (h : t < duration x) : andThen duration φ ψ t x = φ t x :=
  if_pos h

omit [IsOrderedAddMonoid T] in
theorem andThen_of_le {t : T} {x : α} (h : duration x ≤ t) :
    andThen duration φ ψ t x = ψ (t - duration x) (φ (duration x) x) := if_neg h.not_gt

namespace IsPhase

omit [IsOrderedAddMonoid T] in
theorem ends (hφ : IsPhase S duration φ) {x : α} (hx : x ∈ S) :
    φ (duration x) x ∈ {y ∈ S | duration y = 0} :=
  ⟨hφ.mem x hx _ (hφ.nonneg x hx) le_rfl,
    (hφ.remaining x hx _ (hφ.nonneg x hx) le_rfl).trans (sub_self _)⟩

/-- **A phase and a flow** on the states where the phase is over make a flow. -/
theorem isFlow (hφ : IsPhase S duration φ) (hψ : IsFlow {x ∈ S | duration x = 0} ψ) :
    IsFlow S (andThen duration φ ψ) where
  zero x hx := by
    obtain hpos | hover := (hφ.nonneg x hx).lt_or_eq
    · rw [andThen_of_lt hpos, hφ.zero x hx]
    · rw [andThen_of_le hover.ge, ← hover, sub_self, hφ.zero x hx, hψ.zero x ⟨hx, hover.symm⟩]
  mem x hx t ht := by
    obtain hlt | hle := lt_or_ge t (duration x)
    · rw [andThen_of_lt hlt]
      exact hφ.mem x hx t ht hlt.le
    · rw [andThen_of_le hle]
      exact (hψ.mem _ (hφ.ends hx) _ (sub_nonneg.mpr hle)).1
  add x hx t u ht hu := by
    obtain hlt | hle := lt_or_ge t (duration x)
    · -- the rest of the phase is left
      have hmem := hφ.mem x hx t ht hlt.le
      have hleft := hφ.remaining x hx t ht hlt.le
      rw [andThen_of_lt hlt]
      obtain hlt' | hle' := lt_or_ge (t + u) (duration x)
      · rw [andThen_of_lt hlt', andThen_of_lt (by rw [hleft]; exact lt_sub_iff_add_lt'.mpr hlt'),
          hφ.add x hx t u ht hu hlt'.le]
      · have hend : φ (duration x - t) (φ t x) = φ (duration x) x := by
          rw [← hφ.add x hx t _ ht (sub_nonneg.mpr hlt.le) (by rw [add_sub_cancel]),
            add_sub_cancel]
        rw [andThen_of_le hle', andThen_of_le (by rw [hleft]; exact sub_le_iff_le_add'.mpr hle'),
          hleft, hend]
        congr 1
        abel
    · -- the phase is over
      have hmem := hψ.mem _ (hφ.ends hx) _ (sub_nonneg.mpr hle)
      rw [andThen_of_le hle, andThen_of_le (hle.trans (le_add_of_nonneg_right hu)),
        andThen_of_le (hmem.2.trans_le hu), hmem.2, sub_zero, hφ.zero _ hmem.1,
        ← hψ.add _ (hφ.ends hx) _ u (sub_nonneg.mpr hle) hu]
      congr 1
      abel

/-- **A relation that composes** holds along a phase and the motion after it, if it holds along
each of them. -/
theorem along (hφ : IsPhase S duration φ) {R : T → α → α → Prop}
    (htrans : ∀ t u x y z, R t x y → R u y z → R (t + u) x z)
    (hphase : ∀ x ∈ S, ∀ t, 0 ≤ t → t ≤ duration x → R t x (φ t x))
    (hafter : ∀ x ∈ S, duration x = 0 → ∀ t, 0 ≤ t → R t x (ψ t x)) :
    ∀ x ∈ S, ∀ t, 0 ≤ t → R t x (andThen duration φ ψ t x) := by
  intro x hx t ht
  obtain hlt | hle := lt_or_ge t (duration x)
  · rw [andThen_of_lt hlt]
    exact hphase x hx t ht hlt.le
  · have hend := hφ.ends hx
    rw [andThen_of_le hle]
    have h := htrans _ _ _ _ _ (hphase x hx _ (hφ.nonneg x hx) le_rfl)
      (hafter _ hend.1 hend.2 _ (sub_nonneg.mpr hle))
    rwa [add_sub_cancel] at h

end IsPhase

/-- **Charts.** A motion on states with charts is a flow, if in every chart it is the given one. -/
theorem IsFlow.of_charts {D : Set β} {χ : T → β → β} (h : IsFlow D χ) (chart : ι → β → α)
    (hchart : ∀ i, ∀ y ∈ D, ∀ t, 0 ≤ t → φ t (chart i y) = chart i (χ t y))
    (hcover : ∀ x, x ∈ S ↔ ∃ i, ∃ y ∈ D, chart i y = x) : IsFlow S φ where
  zero x hx := by
    obtain ⟨i, y, hy, rfl⟩ := (hcover x).mp hx
    rw [hchart i y hy 0 le_rfl, h.zero y hy]
  mem x hx t ht := by
    obtain ⟨i, y, hy, rfl⟩ := (hcover x).mp hx
    rw [hchart i y hy t ht]
    exact (hcover _).mpr ⟨i, _, h.mem y hy t ht, rfl⟩
  add x hx t u ht hu := by
    obtain ⟨i, y, hy, rfl⟩ := (hcover x).mp hx
    rw [hchart i y hy _ (add_nonneg ht hu), hchart i y hy t ht,
      hchart i _ (h.mem y hy t ht) u hu, h.add y hy t u ht hu]
