import Mathlib.Data.List.Forall2

/-!
# Lists read side by side

## Main definitions

* `vec`: a list as a vector that vanishes beyond its end

## Main results

* `List.Forall₂.at`: related lists are related at every common index
* `List.forall_mem_zipIdx_flatMap`: what an indexed loop emits, by index
-/

namespace List

variable {α β : Type}

theorem Forall₂.at {r : α → β → Prop} {l : List α} {l' : List β} (h : Forall₂ r l l') {i : ℕ}
    {a : α} {b : β} (ha : l[i]? = some a) (hb : l'[i]? = some b) : r a b := by
  induction h generalizing i with
  | nil => simp at ha
  | cons hr _ ih =>
    cases i with
    | zero =>
      obtain ⟨rfl, rfl⟩ : _ = a ∧ _ = b := ⟨by simpa using ha, by simpa using hb⟩
      exact hr
    | succ i => exact ih (by simpa using ha) (by simpa using hb)

/-- Everything that an indexed loop emits has a property when everything that it emits at each
index does. -/
theorem forall_mem_zipIdx_flatMap {l : List α} {f : α × ℕ → List β} {p : β → Prop} :
    (∀ b ∈ l.zipIdx.flatMap f, p b) ↔ ∀ i a, l[i]? = some a → ∀ b ∈ f (a, i), p b := by
  constructor
  · intro h i a ha b hb
    exact h b (mem_flatMap.mpr ⟨(a, i), mem_zipIdx_iff_getElem?.mpr ha, hb⟩)
  · intro h b hb
    obtain ⟨⟨a, i⟩, ha, hb⟩ := mem_flatMap.mp hb
    exact h i a (mem_zipIdx_iff_getElem?.mp ha) b hb

end List

/-- A list as a vector that vanishes beyond its end. -/
def vec {K : Type} [Zero K] (l : List K) (i : ℕ) : K := l.getD i 0

section Vector

variable {K : Type}

theorem vec_of_getElem? [Zero K] {l : List K} {i : ℕ} {a : K} (h : l[i]? = some a) :
    vec l i = a := by
  simp [vec, h]

theorem getElem?_eq_vec [Zero K] {l : List K} {i : ℕ} (h : i < l.length) :
    l[i]? = some (vec l i) := by
  simp [vec, h]

theorem vec_of_length_le [Zero K] {l : List K} {i : ℕ} (h : l.length ≤ i) : vec l i = 0 := by
  simp [vec, h]

theorem vec_append_left [Zero K] {l l' : List K} {i : ℕ} (h : i < l.length) :
    vec (l ++ l') i = vec l i := by
  simp only [vec, List.getD_eq_getElem?_getD, List.getElem?_append_left h]

theorem vec_append_right [Zero K] {l l' : List K} {i : ℕ} (h : l.length ≤ i) :
    vec (l ++ l') i = vec l' (i - l.length) := by
  simp only [vec, List.getD_eq_getElem?_getD, List.getElem?_append_right h]

theorem vec_take [Zero K] {l : List K} {n i : ℕ} (h : i < n) : vec (l.take n) i = vec l i := by
  simp [vec, h]

end Vector
