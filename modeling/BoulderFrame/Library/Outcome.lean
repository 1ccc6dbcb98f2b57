import Mathlib.Data.List.Forall2

/-!
# Sequencing fallible computations

A run that returns has returned at every step: `x >>= f` is `ok` exactly when `x` is, at some
value, and `f` is there.

## Main results

* `Except.bind_eq_ok`: a sequence returns exactly when its parts do
* `Except.ok_of_guard`: a guarded raise that returned found its condition false
* `Except.mapM_eq_ok`: a loop returns exactly when every iteration does
* `Except.mapM_eq_error_iff`: a loop raises what its first iteration that raises does
* `Except.mapM_zipIdx_eq_ok`, `Except.mapM_zipIdx_eq_error`: the same of a loop with positions
* `Except.Rel.bind_eq`: related computations are continued alike
* `Except.RaisesOnly.bind`: what a sequence may raise
* `Option.mapM_eq_some`: a loop has a result exactly when every iteration does
-/

namespace Except

universe u v w

variable {ε : Type u} {α β : Type v}

@[simp] theorem ok_bind (a : α) (f : α → Except ε β) : (Except.ok a >>= f) = f a := rfl

@[simp] theorem error_bind (e : ε) (f : α → Except ε β) :
    ((Except.error e : Except ε α) >>= f) = .error e := rfl

@[simp] theorem pure_eq_ok (a : α) : (pure a : Except ε α) = .ok a := rfl

@[simp] theorem map_ok_eq (f : α → β) (a : α) : f <$> (Except.ok a : Except ε α) = .ok (f a) := rfl

theorem bind_eq_ok {x : Except ε α} {f : α → Except ε β} {b : β} :
    (x >>= f) = .ok b ↔ ∃ a, x = .ok a ∧ f a = .ok b := by
  cases x with
  | error e => simp
  | ok a => simp

theorem ok_of_guard {p : Prop} [Decidable p] {e : ε} {x : Except ε α} {a : α}
    (h : (if p then .error e else x) = Except.ok a) : ¬ p ∧ x = .ok a := by
  by_cases hp : p
  · rw [if_pos hp] at h
    cases h
  · rw [if_neg hp] at h
    exact ⟨hp, h⟩

/-- A computation that can be evaluated to a result returns it. -/
theorem exists_eq_ok {x : Except ε α} (h : x.toOption.isSome = true) : ∃ a, x = .ok a := by
  cases x with
  | error e => cases h
  | ok a => exact ⟨a, rfl⟩

/-- A loop over a list returns exactly when it does at every entry. -/
theorem mapM_eq_ok {α β : Type} {f : α → Except ε β} {l : List α} {r : List β} :
    l.mapM f = .ok r ↔ List.Forall₂ (fun a b => f a = .ok b) l r := by
  induction l generalizing r with
  | nil =>
    rw [List.mapM_nil, pure_eq_ok, Except.ok.injEq, List.forall₂_nil_left_iff, eq_comm]
  | cons a l ih =>
    rw [List.mapM_cons, bind_eq_ok, List.forall₂_cons_left_iff]
    constructor
    · rintro ⟨b, hb, h⟩
      obtain ⟨bs, hbs, h⟩ := bind_eq_ok.mp h
      obtain rfl := Except.ok.inj h
      exact ⟨b, bs, hb, ih.mp hbs, rfl⟩
    · rintro ⟨b, bs, hb, hbs, rfl⟩
      exact ⟨b, hb, bind_eq_ok.mpr ⟨bs, ih.mpr hbs, rfl⟩⟩

/-- A loop whose every iteration returns, returns. -/
theorem mapM_total {α β : Type} {f : α → Except ε β} {l : List α}
    (h : ∀ a ∈ l, ∃ b, f a = .ok b) : ∃ r, l.mapM f = .ok r := by
  induction l with
  | nil => exact ⟨[], rfl⟩
  | cons a l ih =>
    obtain ⟨b, hb⟩ := h a (List.mem_cons_self ..)
    obtain ⟨r, hr⟩ := ih fun a ha => h a (List.mem_cons_of_mem _ ha)
    exact ⟨b :: r, mapM_eq_ok.mpr (.cons hb (mapM_eq_ok.mp hr))⟩

/-- **A loop raises** what its first iteration that raises does. -/
theorem mapM_eq_error_iff {α β : Type} {f : α → Except ε β} {l : List α} {e : ε} :
    l.mapM f = .error e ↔ ∃ (i : ℕ) (a : α), l[i]? = some a ∧ f a = .error e ∧
      ∀ (j : ℕ) (b : α), j < i → l[j]? = some b → ∃ c, f b = .ok c := by
  induction l with
  | nil => exact iff_of_false (by rintro ⟨⟩) (by rintro ⟨_, _, ⟨⟩, _⟩)
  | cons x l ih =>
    rw [List.mapM_cons]
    cases hx : f x with
    | error e' =>
      rw [error_bind]
      constructor
      · rintro ⟨⟩
        exact ⟨0, x, rfl, hx, fun j _ hj => absurd hj (Nat.not_lt_zero j)⟩
      · rintro ⟨_ | i, a, ha, he, hbefore⟩
        · obtain rfl := Option.some.inj ha
          exact congrArg _ (Except.error.inj (hx.symm.trans he))
        · obtain ⟨c, hc⟩ := hbefore 0 x (Nat.succ_pos i) rfl
          exact absurd (hx.symm.trans hc) (by rintro ⟨⟩)
    | ok y =>
      have hrest : (l.mapM f >>= fun ys => pure (y :: ys)) = .error e ↔ l.mapM f = .error e := by
        cases l.mapM f <;> simp
      rw [ok_bind, hrest, ih]
      constructor
      · rintro ⟨i, a, ha, he, hbefore⟩
        refine ⟨i + 1, a, ha, he, ?_⟩
        rintro (_ | j) b hj hb
        · obtain rfl := Option.some.inj hb
          exact ⟨y, hx⟩
        · exact hbefore j b (Nat.lt_of_succ_lt_succ hj) hb
      · rintro ⟨_ | i, a, ha, he, hbefore⟩
        · obtain rfl := Option.some.inj ha
          exact absurd (hx.symm.trans he) (by rintro ⟨⟩)
        · exact ⟨i, a, ha, he, fun j b hj hb => hbefore (j + 1) b (Nat.succ_lt_succ hj) hb⟩

/-- A loop that raises, raises what one of its iterations raises. -/
theorem mapM_eq_error {α β : Type} {f : α → Except ε β} {l : List α} {e : ε}
    (h : l.mapM f = .error e) : ∃ a ∈ l, f a = .error e := by
  obtain ⟨i, a, ha, he, -⟩ := mapM_eq_error_iff.mp h
  exact ⟨a, List.mem_of_getElem? ha, he⟩

/-- A loop over a list with the positions of its entries. -/
theorem mapM_zipIdx_eq_ok {α β : Type} {f : α × ℕ → Except ε β} {l : List α} {r : List β} :
    l.zipIdx.mapM f = .ok r ↔ r.length = l.length ∧
      ∀ i a, l[i]? = some a → ∃ b, r[i]? = some b ∧ f (a, i) = .ok b := by
  rw [mapM_eq_ok, List.forall₂_iff_get]
  simp only [List.length_zipIdx, List.get_eq_getElem, List.getElem_zipIdx, Nat.zero_add]
  constructor
  · rintro ⟨hlength, h⟩
    refine ⟨hlength.symm, fun i a ha => ?_⟩
    obtain ⟨hi, rfl⟩ := List.getElem?_eq_some_iff.mp ha
    exact ⟨r[i], List.getElem?_eq_getElem _, h i hi (hlength ▸ hi)⟩
  · rintro ⟨hlength, h⟩
    refine ⟨hlength.symm, fun i hi hi' => ?_⟩
    obtain ⟨b, hb, hf⟩ := h i l[i] (List.getElem?_eq_getElem hi)
    obtain ⟨_, hget⟩ := List.getElem?_eq_some_iff.mp hb
    rw [hget]
    exact hf

/-- A loop over a list with positions raises what it does at the first position that raises. -/
theorem mapM_zipIdx_eq_error {α β : Type} {f : α × ℕ → Except ε β} {l : List α} {e : ε} :
    l.zipIdx.mapM f = .error e ↔ ∃ i a, l[i]? = some a ∧ f (a, i) = .error e ∧
      ∀ j b, j < i → l[j]? = some b → ∃ c, f (b, j) = .ok c := by
  have hget : ∀ (i : ℕ) (p : α × ℕ), l.zipIdx[i]? = some p ↔ l[i]? = some p.1 ∧ i = p.2 := by
    rintro i ⟨a, k⟩
    simp [List.getElem?_zipIdx]
  rw [mapM_eq_error_iff]
  simp only [hget, Prod.forall, Prod.exists]
  constructor
  · rintro ⟨i, a, _, ⟨ha, rfl⟩, he, hbefore⟩
    exact ⟨i, a, ha, he, fun j b hj hb => hbefore j b j hj ⟨hb, rfl⟩⟩
  · rintro ⟨i, a, ha, he, hbefore⟩
    refine ⟨i, a, i, ⟨ha, rfl⟩, he, ?_⟩
    rintro j b _ hj ⟨hb, rfl⟩
    exact hbefore j b hj hb

/-- Both computations return related values, or both raise the same. -/
inductive Rel (R : α → β → Prop) : Except ε α → Except ε β → Prop
  | ok {a : α} {b : β} (h : R a b) : Rel R (.ok a) (.ok b)
  | error (e : ε) : Rel R (.error e) (.error e)

/-- Related computations with equal continuations on related values are equal. -/
theorem Rel.bind_eq {γ : Type v} {R : α → β → Prop} {x : Except ε α} {y : Except ε β}
    {f : α → Except ε γ} {g : β → Except ε γ} (h : Rel R x y)
    (hfg : ∀ a b, R a b → f a = g b) : (x >>= f) = (y >>= g) := by
  cases h with
  | ok h => exact hfg _ _ h
  | error e => rfl

/-! ## What a computation may raise -/

/-- Whatever the computation raises has the property. -/
def RaisesOnly (p : ε → Prop) (x : Except ε α) : Prop := ∀ e, x = .error e → p e

namespace RaisesOnly

variable {p : ε → Prop}

theorem ok (a : α) : RaisesOnly p (.ok a) := nofun

theorem error {e : ε} (h : p e) : RaisesOnly p (.error e : Except ε α) := by
  rintro _ ⟨⟩
  exact h

/-- A sequence raises what its first part raises, or what the rest does. -/
theorem bind {x : Except ε α} {f : α → Except ε β} (hx : RaisesOnly p x)
    (hf : ∀ a, x = .ok a → RaisesOnly p (f a)) : RaisesOnly p (x >>= f) := by
  intro e he
  cases h : x with
  | error e' =>
    rw [h, error_bind] at he
    obtain rfl := Except.error.inj he
    exact hx e' h
  | ok a =>
    rw [h, ok_bind] at he
    exact hf a h e he

theorem ite {c : Prop} [Decidable c] {x y : Except ε α} (hx : c → RaisesOnly p x)
    (hy : ¬ c → RaisesOnly p y) : RaisesOnly p (if c then x else y) := by
  split_ifs with h
  · exact hx h
  · exact hy h

end RaisesOnly

end Except

namespace Option

variable {α β : Type}

/-- A loop over a list has a result exactly when it has one at every entry. -/
theorem mapM_eq_some {f : α → Option β} {l : List α} {r : List β} :
    l.mapM f = some r ↔ List.Forall₂ (fun a b => f a = some b) l r := by
  induction l generalizing r with
  | nil => rw [List.mapM_nil, pure_def, Option.some.injEq, List.forall₂_nil_left_iff, eq_comm]
  | cons a l ih =>
    rw [List.mapM_cons, bind_eq_bind, bind_eq_some_iff, List.forall₂_cons_left_iff]
    constructor
    · rintro ⟨b, hb, h⟩
      obtain ⟨bs, hbs, h⟩ := bind_eq_some_iff.mp h
      obtain rfl := Option.some.inj h
      exact ⟨b, bs, hb, ih.mp hbs, rfl⟩
    · rintro ⟨b, bs, hb, hbs, rfl⟩
      exact ⟨b, hb, bind_eq_some_iff.mpr ⟨bs, ih.mpr hbs, rfl⟩⟩

end Option

/-- A member of a list is related to one of the other. -/
theorem List.Forall₂.exists_left {α β : Type} {R : α → β → Prop} {l : List α} {l' : List β}
    (h : List.Forall₂ R l l') {b : β} (hb : b ∈ l') : ∃ a ∈ l, R a b := by
  induction h with
  | nil => cases hb
  | cons hab _ ih =>
    obtain rfl | hb := List.mem_cons.mp hb
    · exact ⟨_, List.mem_cons_self, hab⟩
    · obtain ⟨a, ha, hab⟩ := ih hb
      exact ⟨a, List.mem_cons_of_mem _ ha, hab⟩

/-- **A loop returns** exactly if every iteration does. -/
theorem Except.exists_mapM_iff {ε α β : Type} {f : α → Except ε β} {l : List α} :
    (∃ r, l.mapM f = .ok r) ↔ ∀ a ∈ l, ∃ b, f a = .ok b := by
  refine ⟨?_, Except.mapM_total⟩
  rintro ⟨r, h⟩ a ha
  obtain ⟨b, -, hb⟩ := (Except.mapM_eq_ok.mp h).flip.exists_left ha
  exact ⟨b, hb⟩
