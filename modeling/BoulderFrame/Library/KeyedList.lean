import Mathlib.Algebra.BigOperators.Group.List.Basic
import Mathlib.Data.List.Forall2
import Mathlib.Data.List.Induction
import Mathlib.Data.List.Nodup
import Mathlib.Order.Defs.LinearOrder
import Mathlib.Order.Lattice

/-!
# Lists with keys

Items with keys are sorted by their keys, and grouped: an item joins the group of its key, or starts
one. The groups stand in the order of their first items, and so do the items of a group.

## Main definitions

* `addToGroup`, `groupBy`: one item, and all items
* `Grouped key l groups`: what the groups of `l` are

## Main results

* `List.pairwise_mergeSort_key`: distinct keys are strictly increasing when they are sorted
* `List.find?_eq_some_iff_key`: the first item with a property
* `groupBy_grouped`: the groups of all items
* `groupBy_flatMap_perm`: each item is in one group
-/

/-! ## Sorting -/

namespace List

variable {α β : Type}

/-- Related lists with the same keys entry by entry have the same keys. -/
theorem Forall₂.map_eq {γ : Type} {r : α → β → Prop} {l : List α} {l' : List β} {f : α → γ}
    {g : β → γ} (h : Forall₂ r l l') (hkey : ∀ a ∈ l, ∀ b, r a b → g b = f a) :
    l'.map g = l.map f := by
  induction h with
  | nil => rfl
  | cons hr _ ih =>
    obtain ⟨hhead, htail⟩ := forall_mem_cons.mp hkey
    rw [map_cons, map_cons, hhead _ hr, ih htail]

section Key

variable {κ : Type} [LinearOrder κ] {key : α → κ} {l : List α}

/-- A list of distinct keys is strictly increasing when it is sorted. -/
theorem pairwise_mergeSort_key (h : (l.map key).Nodup) :
    ((l.mergeSort fun a b => key a ≤ key b).map key).Pairwise (· < ·) := by
  have hsorted : (l.mergeSort fun a b => key a ≤ key b).Pairwise fun a b => key a ≤ key b := by
    have : (l.mergeSort fun a b => decide (key a ≤ key b)).Pairwise
        fun a b => decide (key a ≤ key b) = true :=
      List.pairwise_mergeSort (by simpa using fun a b c => le_trans)
        (by simpa using fun a b => le_total (key a) (key b)) l
    simpa using this
  have hnodup : ((l.mergeSort fun a b => key a ≤ key b).map key).Nodup :=
    ((l.mergeSort_perm _).map key).nodup_iff.mpr h
  refine (List.pairwise_map.mpr hsorted).imp₂ (fun a b => lt_of_le_of_ne) hnodup

/-- The first entry with a property has the least key of those that have it. -/
theorem find?_eq_some_iff_key (h : (l.map key).Pairwise (· < ·)) {p : α → Bool} {a : α} :
    l.find? p = some a ↔ a ∈ l ∧ p a = true ∧ ∀ b ∈ l, key b < key a → p b = false := by
  induction l with
  | nil => simp
  | cons c l ih =>
    obtain ⟨hhead, htail⟩ := List.pairwise_cons.mp h
    have hlater : ∀ b ∈ l, key c < key b := fun b hb => hhead _ (mem_map_of_mem hb)
    cases hc : p c with
    | true =>
      rw [find?_cons_of_pos hc]
      constructor
      · rintro ⟨⟩
        refine ⟨mem_cons_self .., hc, forall_mem_cons.mpr ⟨fun hlt => absurd hlt (lt_irrefl _), ?_⟩⟩
        intro b hb hlt
        exact absurd (hlater b hb) hlt.not_gt
      · rintro ⟨ha, -, hleast⟩
        obtain rfl | ha := mem_cons.mp ha
        · rfl
        · have := hleast c (mem_cons_self ..) (hlater a ha)
          simp [hc] at this
    | false =>
      rw [find?_cons_of_neg (by simp [hc]), ih htail]
      constructor
      · rintro ⟨ha, hp, hleast⟩
        exact ⟨mem_cons_of_mem _ ha, hp, forall_mem_cons.mpr ⟨fun _ => hc, hleast⟩⟩
      · rintro ⟨ha, hp, hleast⟩
        obtain rfl | ha := mem_cons.mp ha
        · simp [hc] at hp
        · exact ⟨ha, hp, (forall_mem_cons.mp hleast).2⟩

end Key

end List

/-! ## Groups -/

section Groups

variable {α κ : Type} [DecidableEq κ] {key : α → κ}

/-- An item joins the group of its key, or starts one. -/
def addToGroup (key : α → κ) (groups : List (κ × List α)) (a : α) : List (κ × List α) :=
  if key a ∈ groups.map Prod.fst then
    groups.map fun group => if group.1 = key a then (group.1, group.2 ++ [a]) else group
  else groups ++ [(key a, [a])]

/-- The groups of some items. -/
def groupBy (key : α → κ) (l : List α) : List (κ × List α) := l.foldl (addToGroup key) []

/-- Each key has one group, of the items with the key in order. -/
structure Grouped (key : α → κ) (l : List α) (groups : List (κ × List α)) : Prop where
  nodup : (groups.map Prod.fst).Nodup
  mem_keys : ∀ k, k ∈ groups.map Prod.fst ↔ k ∈ l.map key
  items : ∀ group ∈ groups, group.2 = l.filter fun a => key a = group.1

theorem map_fst_addToGroup {groups : List (κ × List α)} {a : α} :
    (addToGroup key groups a).map Prod.fst =
      if key a ∈ groups.map Prod.fst then groups.map Prod.fst else groups.map Prod.fst ++ [key a] := by
  unfold addToGroup
  split_ifs with h
  · rw [List.map_map]
    refine List.map_congr_left fun group _ => ?_
    dsimp only [Function.comp]
    split_ifs <;> rfl
  · rw [List.map_append]
    rfl

theorem filter_key_append {l : List α} {a : α} {k : κ} :
    (l ++ [a]).filter (fun b => key b = k) =
      (l.filter fun b => key b = k) ++ if key a = k then [a] else [] := by
  rw [List.filter_append, List.filter_singleton]
  by_cases h : key a = k <;> simp [h]

/-- One item keeps the groups. -/
theorem Grouped.add {l : List α} {groups : List (κ × List α)} (h : Grouped key l groups) (a : α) :
    Grouped key (l ++ [a]) (addToGroup key groups a) where
  nodup := by
    rw [map_fst_addToGroup]
    split_ifs with ha
    · exact h.nodup
    · exact h.nodup.append (List.nodup_singleton _) (by simpa using ha)
  mem_keys k := by
    rw [map_fst_addToGroup, List.map_append, List.mem_append, ← h.mem_keys k]
    split_ifs with ha
    · refine ⟨.inl, fun hk => hk.elim id fun hk => ?_⟩
      obtain rfl := List.mem_singleton.mp hk
      exact ha
    · exact List.mem_append
  items := by
    intro group hgroup
    rw [filter_key_append]
    unfold addToGroup at hgroup
    split_ifs at hgroup with ha
    · obtain ⟨old, hold, rfl⟩ := List.mem_map.mp hgroup
      have hitems := h.items old hold
      by_cases hkey : old.1 = key a
      · rw [if_pos hkey, if_pos hkey.symm, hitems]
      · rw [if_neg hkey, if_neg fun heq => hkey heq.symm, List.append_nil, hitems]
    · obtain hold | hnew := List.mem_append.mp hgroup
      · have hkey : key a ≠ group.1 := fun heq => ha (heq ▸ List.mem_map_of_mem hold)
        rw [if_neg hkey, List.append_nil, h.items group hold]
      · obtain rfl := List.mem_singleton.mp hnew
        have hnone : l.filter (fun b => key b = key a) = [] := by
          rw [List.filter_eq_nil_iff]
          intro b hb heq
          exact ha ((h.mem_keys _).mpr (of_decide_eq_true heq ▸ List.mem_map_of_mem hb))
        rw [if_pos rfl, hnone, List.nil_append]

theorem groupBy_append {l : List α} {a : α} :
    groupBy key (l ++ [a]) = addToGroup key (groupBy key l) a := by
  rw [groupBy, List.foldl_append]
  rfl

/-- **The groups of all items.** -/
theorem groupBy_grouped (key : α → κ) (l : List α) : Grouped key l (groupBy key l) := by
  induction l using List.reverseRecOn with
  | nil => exact ⟨List.nodup_nil, fun k => Iff.rfl, List.forall_mem_nil _⟩
  | append_singleton l a ih =>
    rw [groupBy_append]
    exact ih.add a

theorem mem_groupBy {l : List α} {group : κ × List α} : group ∈ groupBy key l ↔
    group.1 ∈ l.map key ∧ group.2 = l.filter fun a => key a = group.1 := by
  have h := groupBy_grouped key l
  constructor
  · intro hgroup
    exact ⟨(h.mem_keys _).mp (List.mem_map_of_mem hgroup), h.items group hgroup⟩
  · rintro ⟨hkey, hitems⟩
    obtain ⟨other, hother, hsame⟩ := List.mem_map.mp ((h.mem_keys _).mpr hkey)
    have : other = group := Prod.ext hsame (by rw [h.items other hother, hitems, hsame])
    exact this ▸ hother

/-- An item is added to one group. -/
theorem addToGroup_flatMap_perm {l : List α} {groups : List (κ × List α)} (h : Grouped key l groups)
    (a : α) : ((addToGroup key groups a).flatMap Prod.snd).Perm (groups.flatMap Prod.snd ++ [a]) := by
  unfold addToGroup
  split_ifs with ha
  · obtain ⟨group, hgroup, hkey⟩ := List.mem_map.mp ha
    obtain ⟨earlier, later, rfl⟩ := List.append_of_mem hgroup
    -- no other group has the key
    have hother : ∀ others : List (κ × List α), (∀ other ∈ others, other ∈ earlier ∨ other ∈ later) →
        others.map (fun group => if group.1 = key a then (group.1, group.2 ++ [a]) else group) =
          others := by
      intro others hothers
      refine (List.map_congr_left fun other hmem => if_neg fun hsame => ?_).trans (List.map_id _)
      have hnodup := h.nodup
      rw [List.map_append, List.map_cons, List.nodup_middle, List.nodup_cons, List.mem_append] at hnodup
      refine hnodup.1 ?_
      rw [hkey, ← hsame]
      exact (hothers other hmem).imp List.mem_map_of_mem List.mem_map_of_mem
    rw [List.map_append, List.map_cons, if_pos hkey, hother earlier fun _ => .inl,
      hother later fun _ => .inr]
    simp only [List.flatMap_append, List.flatMap_cons, List.append_assoc]
    exact ((List.perm_append_comm).append_left _).append_left _
  · rw [List.flatMap_append]
    rfl

/-- **Each item** is in one group. -/
theorem groupBy_flatMap_perm (l : List α) : ((groupBy key l).flatMap Prod.snd).Perm l := by
  induction l using List.reverseRecOn with
  | nil => exact .refl _
  | append_singleton l a ih =>
    rw [groupBy_append]
    exact (addToGroup_flatMap_perm (groupBy_grouped key l) a).trans (ih.append_right _)

end Groups
