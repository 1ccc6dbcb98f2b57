import Mathlib.Data.List.Nodup

/-!
# Tables with two unique keys

A table is a list of rows with a primary key and a second unique key. The second key is the
conflict target of an upsert: a row with that key is merged if it may be, otherwise the new row is
inserted, unless its primary key is taken.

## Main definitions

* `KeyedTable primary unique`: rows without duplicate keys
* `KeyedTable.find`, `KeyedTable.lookup`: the row with a primary key, and with a unique key
* `KeyedTable.insert`, `KeyedTable.modify`: a new row, and a change of a row that keeps its keys
* `KeyedTable.upsert`: insert, or merge on conflict

## Main results

* `KeyedTable.lookup_insert`, `KeyedTable.lookup_modify`: the rows after a change, by key
* `KeyedTable.upsert_cases`: what an upsert does
* `KeyedTable.mem_of_upsert`: no row is lost in an upsert
-/

/-- In a list without duplicate keys, a search by key finds the row with that key. -/
theorem List.find?_key_eq_some {α κ : Type} [DecidableEq κ] {key : α → κ} {rows : List α}
    (hrows : (rows.map key).Nodup) {k : κ} {a : α} :
    rows.find? (fun a => key a = k) = some a ↔ a ∈ rows ∧ key a = k := by
  constructor
  · intro h
    exact ⟨List.mem_of_find?_eq_some h, by simpa using List.find?_some h⟩
  · rintro ⟨ha, rfl⟩
    obtain ⟨b, hb⟩ : ∃ b, rows.find? (fun b => key b = key a) = some b :=
      Option.isSome_iff_exists.mp (List.find?_isSome.mpr ⟨a, ha, by simp⟩)
    have hkey : key b = key a := by simpa using List.find?_some hb
    rw [hb, List.inj_on_of_nodup_map hrows (List.mem_of_find?_eq_some hb) ha hkey]

/-- Rows whose primary keys are pairwise different, and whose unique keys are. -/
@[ext]
structure KeyedTable {α ι κ : Type} (primary : α → ι) (unique : α → κ) where
  rows : List α
  primaryKey : (rows.map primary).Nodup
  uniqueKey : (rows.map unique).Nodup

namespace KeyedTable

variable {α ι κ : Type} {primary : α → ι} {unique : α → κ}

/-- The row with the given primary key. -/
def find [DecidableEq ι] (t : KeyedTable primary unique) (i : ι) : Option α :=
  t.rows.find? fun a => primary a = i

theorem find_eq_some [DecidableEq ι] {t : KeyedTable primary unique} {i : ι} {a : α} :
    t.find i = some a ↔ a ∈ t.rows ∧ primary a = i :=
  List.find?_key_eq_some t.primaryKey

section Lookup

variable [DecidableEq κ]

/-- The row with the given unique key. -/
def lookup (t : KeyedTable primary unique) (k : κ) : Option α :=
  t.rows.find? fun a => unique a = k

variable {t : KeyedTable primary unique} {k : κ} {a : α}

theorem lookup_eq_some : t.lookup k = some a ↔ a ∈ t.rows ∧ unique a = k :=
  List.find?_key_eq_some t.uniqueKey

theorem lookup_eq_none : t.lookup k = none ↔ ∀ a ∈ t.rows, unique a ≠ k := by
  simp [lookup]

end Lookup

/-- A row with new keys is added. -/
def insert (t : KeyedTable primary unique) (a : α) (hp : primary a ∉ t.rows.map primary)
    (hu : unique a ∉ t.rows.map unique) : KeyedTable primary unique where
  rows := t.rows ++ [a]
  primaryKey := by
    rw [List.map_append]
    exact List.Nodup.append t.primaryKey (List.nodup_singleton _) (by simpa using hp)
  uniqueKey := by
    rw [List.map_append]
    exact List.Nodup.append t.uniqueKey (List.nodup_singleton _) (by simpa using hu)

/-- A change of rows that keeps their keys. -/
structure Merge (primary : α → ι) (unique : α → κ) where
  apply : α → α
  primary_apply : ∀ a, primary (apply a) = primary a
  unique_apply : ∀ a, unique (apply a) = unique a

section Modify

variable [DecidableEq κ]

/-- The row with the given key is changed. -/
def modify (t : KeyedTable primary unique) (k : κ) (m : Merge primary unique) :
    KeyedTable primary unique where
  rows := t.rows.map fun a => if unique a = k then m.apply a else a
  primaryKey := by
    rw [List.map_map]
    refine (List.map_congr_left fun a _ => ?_) ▸ t.primaryKey
    simp only [Function.comp_apply]
    split_ifs
    · exact (m.primary_apply a).symm
    · rfl
  uniqueKey := by
    rw [List.map_map]
    refine (List.map_congr_left fun a _ => ?_) ▸ t.uniqueKey
    simp only [Function.comp_apply]
    split_ifs
    · exact (m.unique_apply a).symm
    · rfl

variable {t : KeyedTable primary unique}

theorem lookup_insert {a : α} {hp : primary a ∉ t.rows.map primary}
    {hu : unique a ∉ t.rows.map unique} (k : κ) :
    (t.insert a hp hu).lookup k = if unique a = k then some a else t.lookup k := by
  unfold lookup insert
  rw [List.find?_append]
  split_ifs with h
  · have hnone : t.rows.find? (fun b => unique b = k) = none := by
      rw [List.find?_eq_none]
      intro b hb hbk
      exact hu (List.mem_map.mpr ⟨b, hb, by simpa [h] using hbk⟩)
    simp [hnone, h]
  · simp [h]

theorem lookup_modify {k : κ} {m : Merge primary unique} (k' : κ) :
    (t.modify k m).lookup k' = if k' = k then (t.lookup k).map m.apply else t.lookup k' := by
  unfold lookup modify
  rw [List.find?_map]
  have hkey : ∀ a, unique (if unique a = k then m.apply a else a) = unique a := by
    intro a
    split_ifs
    · exact m.unique_apply a
    · rfl
  have hcomp : (fun a => decide (unique a = k')) ∘ (fun a => if unique a = k then m.apply a else a) =
      fun a => decide (unique a = k') := by
    funext a
    simp only [Function.comp_apply, hkey]
  rw [hcomp]
  cases hfind : t.rows.find? (fun a => unique a = k') with
  | none =>
    split_ifs with h
    · rw [← h, hfind]
      rfl
    · rfl
  | some a =>
    have ha : unique a = k' := by simpa using List.find?_some hfind
    split_ifs with h
    · subst h
      rw [hfind, Option.map_some, Option.map_some, if_pos ha]
    · rw [Option.map_some, if_neg (by rw [ha]; exact h)]

/-- A change that keeps the row as it is keeps the table as it is. -/
theorem modify_eq_self {k : κ} {m : Merge primary unique}
    (h : ∀ a, t.lookup k = some a → m.apply a = a) : t.modify k m = t := by
  ext1
  refine (List.map_congr_left fun a ha => ?_).trans (List.map_id _)
  split_ifs with hk
  · exact h a (lookup_eq_some.mpr ⟨ha, hk⟩)
  · rfl

/-- Insert a row, or merge the row with its unique key if that row may be merged. The result holds
the row that was inserted or merged; an insertion fails if the primary key is taken. -/
def upsert [DecidableEq ι] (t : KeyedTable primary unique) (new : α) (m : Merge primary unique)
    (allowed : α → Bool) : Option (KeyedTable primary unique × Option α) :=
  match h : t.lookup (unique new) with
  | some old =>
    if allowed old then some (t.modify (unique new) m, some (m.apply old)) else some (t, none)
  | none =>
    if hp : primary new ∈ t.rows.map primary then none
    else some (t.insert new hp fun hu => by
      obtain ⟨a, ha, hau⟩ := List.mem_map.mp hu
      exact lookup_eq_none.mp h a ha hau, some new)

variable [DecidableEq ι] {new : α} {m : Merge primary unique} {allowed : α → Bool}

theorem upsert_of_some {old : α} (h : t.lookup (unique new) = some old) :
    t.upsert new m allowed = if allowed old then
      some (t.modify (unique new) m, some (m.apply old)) else some (t, none) := by
  unfold upsert
  split
  · rename_i old' h'
    obtain rfl := Option.some.inj (h'.symm.trans h)
    rfl
  · rename_i h'
    rw [h] at h'
    cases h'

theorem upsert_of_none (m : Merge primary unique) (allowed : α → Bool)
    (h : t.lookup (unique new) = none) (hp : primary new ∉ t.rows.map primary) : ∃ hu,
    t.upsert new m allowed = some (t.insert new hp hu, some new) := by
  refine ⟨fun hu => ?_, ?_⟩
  · obtain ⟨a, ha, hau⟩ := List.mem_map.mp hu
    exact lookup_eq_none.mp h a ha hau
  · unfold upsert
    split
    · rename_i old' h'
      rw [h] at h'
      cases h'
    · rw [dif_neg hp]

/-- An upsert returns if the new row's primary key is free. -/
theorem upsert_total (m : Merge primary unique) (allowed : α → Bool)
    (hp : primary new ∉ t.rows.map primary) : ∃ t' out, t.upsert new m allowed = some (t', out) := by
  cases hold : t.lookup (unique new) with
  | some old =>
    rw [upsert_of_some hold]
    split_ifs
    · exact ⟨_, _, rfl⟩
    · exact ⟨_, _, rfl⟩
  | none =>
    obtain ⟨hu, h⟩ := upsert_of_none m allowed hold hp
    exact ⟨_, _, h⟩

/-- **What an upsert that returns does**: it merges the row with its key, leaves a row that may
not be merged, or inserts the row. -/
theorem upsert_cases {t' : KeyedTable primary unique} {out : Option α}
    (h : t.upsert new m allowed = some (t', out)) :
    (∃ old, t.lookup (unique new) = some old ∧ allowed old = true ∧
      t' = t.modify (unique new) m ∧ out = some (m.apply old)) ∨
    (∃ old, t.lookup (unique new) = some old ∧ allowed old = false ∧ t' = t ∧ out = none) ∨
    (t.lookup (unique new) = none ∧ (∃ hp hu, t' = t.insert new hp hu) ∧ out = some new) := by
  cases hold : t.lookup (unique new) with
  | some old =>
    rw [upsert_of_some hold] at h
    split_ifs at h with ha
    · obtain ⟨rfl, rfl⟩ := Prod.mk.inj (Option.some.inj h)
      exact .inl ⟨old, rfl, ha, rfl, rfl⟩
    · obtain ⟨rfl, rfl⟩ := Prod.mk.inj (Option.some.inj h)
      exact .inr (.inl ⟨old, rfl, by simpa using ha, rfl, rfl⟩)
  | none =>
    by_cases hp : primary new ∈ t.rows.map primary
    · exfalso
      unfold upsert at h
      split at h
      · rename_i h'
        rw [hold] at h'
        cases h'
      · rw [dif_pos hp] at h
        cases h
    · obtain ⟨hu, hup⟩ := upsert_of_none m allowed hold hp
      rw [hup] at h
      obtain ⟨rfl, rfl⟩ := Prod.mk.inj (Option.some.inj h)
      exact .inr (.inr ⟨rfl, ⟨hp, hu, rfl⟩, rfl⟩)

section Upsert

variable {t' : KeyedTable primary unique} {out : Option α}

/-- An upsert leaves the rows with other keys. -/
theorem lookup_upsert_of_ne (h : t.upsert new m allowed = some (t', out)) {k : κ}
    (hk : k ≠ unique new) : t'.lookup k = t.lookup k := by
  obtain ⟨old, -, -, rfl, -⟩ | ⟨old, -, -, rfl, -⟩ | ⟨-, ⟨hp, hu, rfl⟩, -⟩ := upsert_cases h
  · rw [lookup_modify, if_neg hk]
  · rfl
  · rw [lookup_insert, if_neg (Ne.symm hk)]

/-- The row that an upsert returns is the row with its key. -/
theorem lookup_upsert_of_some {a : α} (h : t.upsert new m allowed = some (t', some a)) :
    t'.lookup (unique new) = some a := by
  obtain ⟨old, hold, -, rfl, ha⟩ | ⟨old, -, -, -, ha⟩ | ⟨-, ⟨hp, hu, rfl⟩, ha⟩ := upsert_cases h
  · rw [lookup_modify, if_pos rfl, hold, ha, Option.map_some]
  · cases ha
  · rw [lookup_insert, if_pos rfl, ha]

/-- A row is still there after an upsert, unchanged or merged. -/
theorem mem_of_upsert (h : t.upsert new m allowed = some (t', out)) {a : α} (ha : a ∈ t.rows) :
    a ∈ t'.rows ∨ allowed a = true ∧ m.apply a ∈ t'.rows := by
  have hlookup : t.lookup (unique a) = some a := lookup_eq_some.mpr ⟨ha, rfl⟩
  by_cases hk : unique a = unique new
  · obtain ⟨old, hold, hall, rfl, -⟩ | ⟨old, -, -, rfl, -⟩ | ⟨hnone, -, -⟩ := upsert_cases h
    · obtain rfl : a = old := Option.some.inj (hlookup.symm.trans (hk ▸ hold))
      have hmem : (t.modify (unique new) m).lookup (unique new) = some (m.apply a) := by
        rw [lookup_modify, if_pos rfl, hold, Option.map_some]
      exact .inr ⟨hall, (lookup_eq_some.mp hmem).1⟩
    · exact .inl ha
    · rw [← hk, hlookup] at hnone
      cases hnone
  · exact .inl (lookup_eq_some.mp ((lookup_upsert_of_ne h hk).trans hlookup)).1

/-- A property of all rows is kept if the new row has it and a merge keeps it. -/
theorem forall_mem_upsert {P : α → Prop} (h : t.upsert new m allowed = some (t', out))
    (hrows : ∀ a ∈ t.rows, P a) (hnew : P new) (hm : ∀ a, P a → P (m.apply a)) :
    ∀ a ∈ t'.rows, P a := by
  obtain ⟨old, -, -, rfl, -⟩ | ⟨old, -, -, rfl, -⟩ | ⟨-, ⟨hp, hu, rfl⟩, -⟩ := upsert_cases h
  · intro a ha
    obtain ⟨b, hb, rfl⟩ := List.mem_map.mp ha
    split_ifs
    · exact hm b (hrows b hb)
    · exact hrows b hb
  · exact hrows
  · intro a ha
    obtain ha | ha := List.mem_append.mp ha
    · exact hrows a ha
    · exact (List.mem_singleton.mp ha) ▸ hnew

end Upsert

end Modify

end KeyedTable
