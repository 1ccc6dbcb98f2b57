import Mathlib.Data.List.Sort
import Mathlib.Data.String.Basic

/-!
# Dynamic values

Values as a dynamically typed program handles them: JSON values, and what else may stand where one
is expected. An object is the list of its fields, in their order; the order has no meaning, so that
the fields of a well-formed object are looked up through any rearrangement.

## Main definitions

* `FloatValue`, `Value`: floating-point values, and dynamic values over them
* `floatOverflow`: the integers that have no floating-point value
* `Value.field`, `Value.get`: the lookup of a field
* `Value.Occurs`: a value occurs in another, at any depth
* `Value.WellFormed`: no object has two fields of one name
* `Value.setField`: the assignment of a field
* `Value.omitEmpty`: an object some of whose fields may be missing
* `Value.sortKeys`: the fields of all objects in the order of their names

## Main results

* `Value.inductionOn`: induction on values
* `Value.sortFields_swap`: the order of two fields of different names does not matter
* `Value.field_of_perm`: a lookup does not depend on the order of the fields
* `Value.field_sortKeys`: nor on the order at any depth
-/

/-- A floating-point value: a number, or one that is not finite. -/
inductive FloatValue (K : Type)
  | finite (value : K)
  | infinite (negative : Bool)
  | nan
  deriving DecidableEq

/-- An integer of this size or more is not rounded to a floating-point number: its conversion
overflows. -/
def floatOverflow : ℕ := 2 ^ 1024 - 2 ^ 970

/-- A dynamic value; `other` is one of a type that has no place in a record. -/
inductive Value (K : Type)
  | none
  | bool (value : Bool)
  | int (value : ℤ)
  | float (value : FloatValue K)
  | str (text : String)
  | bytes (data : List UInt8)
  | list (items : List (Value K))
  | dict (fields : List (String × Value K))
  | other

namespace Value

variable {K : Type}

/-- A finite number. -/
def number (x : K) : Value K := .float (.finite x)

/-- The field of an object, if it has one of the name. -/
def field : Value K → String → Option (Value K)
  | .dict fields, key => fields.lookup key
  | _, _ => Option.none

@[simp] theorem field_dict (fields : List (String × Value K)) (key : String) :
    (Value.dict fields).field key = fields.lookup key := rfl

/-- The finite number that an integer or a float is. -/
def toNumber [IntCast K] : Value K → Option K
  | .int value => some value
  | .float (.finite value) => some value
  | _ => Option.none

/-- A value counts as true unless it is `none`, zero or empty. -/
def truthy [Zero K] [DecidableEq K] : Value K → Bool
  | .none => false
  | .bool value => value
  | .int value => decide (value ≠ 0)
  | .float (.finite value) => decide (value ≠ 0)
  | .float _ => true
  | .str text => decide (text ≠ "")
  | .bytes data => !data.isEmpty
  | .list items => !items.isEmpty
  | .dict fields => !fields.isEmpty
  | .other => true

/-- The value equals the integer, as numbers and truth values compare. -/
def equalsInt [IntCast K] [DecidableEq K] (n : ℤ) : Value K → Bool
  | .bool value => decide ((if value then 1 else 0) = n)
  | .int value => decide (value = n)
  | .float (.finite value) => decide (value = n)
  | _ => false

def isNone : Value K → Bool
  | .none => true
  | _ => false

/-- The value is the text. -/
def isText (text : String) : Value K → Bool
  | .str text' => decide (text' = text)
  | _ => false

/-- The value is the truth value. -/
def isBool (b : Bool) : Value K → Bool
  | .bool b' => decide (b' = b)
  | _ => false

/-- The field of an object, or `none`. -/
def get (v : Value K) (key : String) : Value K := (v.field key).getD .none

/-! ## Values in values -/

/-- **Induction on values**: on the items of arrays and the fields of objects. -/
theorem inductionOn {P : Value K → Prop} (none : P .none) (bool : ∀ value, P (.bool value))
    (int : ∀ value, P (.int value)) (float : ∀ value, P (.float value))
    (str : ∀ text, P (.str text)) (bytes : ∀ data, P (.bytes data))
    (list : ∀ items, (∀ item ∈ items, P item) → P (.list items))
    (dict : ∀ fields : List (String × Value K), (∀ f ∈ fields, P f.2) → P (.dict fields))
    (other : P .other) (v : Value K) : P v :=
  @Value.rec K P (fun items => ∀ item ∈ items, P item) (fun fields => ∀ f ∈ fields, P f.2)
    (fun f => P f.2) none bool int float str bytes list dict other
    (fun _ hitem => absurd hitem List.not_mem_nil)
    (fun _ _ h hs => List.forall_mem_cons.mpr ⟨h, hs⟩)
    (fun _ hf => absurd hf List.not_mem_nil)
    (fun _ _ h hs => List.forall_mem_cons.mpr ⟨h, hs⟩)
    (fun _ _ h => h) v

/-- A value occurs in another, at any depth. -/
inductive Occurs (w : Value K) : Value K → Prop
  | self : Occurs w w
  | item {items : List (Value K)} {item : Value K} (hitem : item ∈ items) (h : Occurs w item) :
      Occurs w (.list items)
  | field {fields : List (String × Value K)} {f : String × Value K} (hf : f ∈ fields)
      (h : Occurs w f.2) : Occurs w (.dict fields)

/-! ## Well-formed values -/

/-- No object of the value, at any depth, has two fields of one name. -/
inductive WellFormed : Value K → Prop
  | none : WellFormed .none
  | bool (value : Bool) : WellFormed (.bool value)
  | int (value : ℤ) : WellFormed (.int value)
  | float (value : FloatValue K) : WellFormed (.float value)
  | str (text : String) : WellFormed (.str text)
  | bytes (data : List UInt8) : WellFormed (.bytes data)
  | list {items : List (Value K)} (h : ∀ item ∈ items, WellFormed item) : WellFormed (.list items)
  | dict {fields : List (String × Value K)} (hkeys : (fields.map Prod.fst).Nodup)
      (h : ∀ f ∈ fields, WellFormed f.2) : WellFormed (.dict fields)
  | other : WellFormed .other

theorem WellFormed.keys {fields : List (String × Value K)} (h : WellFormed (.dict fields)) :
    (fields.map Prod.fst).Nodup := by
  cases h with
  | dict hkeys h => exact hkeys

theorem WellFormed.fields {fields : List (String × Value K)} (h : WellFormed (.dict fields)) :
    ∀ f ∈ fields, WellFormed f.2 := by
  cases h with
  | dict hkeys h => exact h

end Value

/-! ## Lookups -/

namespace List

variable {α β : Type}

theorem mem_of_lookup {l : List (String × α)} {key : String} {a : α} (h : l.lookup key = some a) :
    (key, a) ∈ l := by
  obtain ⟨l₁, l₂, rfl, -⟩ := lookup_eq_some_iff.mp h
  exact mem_append_right _ mem_cons_self

/-- With different keys, every entry is found. -/
theorem lookup_eq_some_of_nodup {l : List (String × α)} (hkeys : (l.map Prod.fst).Nodup)
    {key : String} {a : α} : l.lookup key = some a ↔ (key, a) ∈ l := by
  refine ⟨mem_of_lookup, fun hmem => ?_⟩
  induction l with
  | nil => cases hmem
  | cons entry l ih =>
    obtain ⟨key', a'⟩ := entry
    rw [map_cons, nodup_cons] at hkeys
    obtain hentry | hmem := mem_cons.mp hmem
    · obtain ⟨rfl, rfl⟩ := Prod.mk.inj hentry
      rw [lookup_cons_self]
    · have hne : (key == key') = false := by
        rw [beq_eq_false_iff_ne]
        intro hkey
        exact hkeys.1 (mem_map.mpr ⟨(key, a), hmem, hkey⟩)
      rw [lookup_cons, hne]
      exact ih hkeys.2 hmem

/-- A lookup does not depend on the order of entries with different keys. -/
theorem lookup_of_perm {l l' : List (String × α)} (hkeys : (l.map Prod.fst).Nodup)
    (h : l.Perm l') (key : String) : l.lookup key = l'.lookup key := by
  have hkeys' : (l'.map Prod.fst).Nodup := (h.map Prod.fst).nodup_iff.mp hkeys
  refine Option.ext fun a => ?_
  rw [lookup_eq_some_of_nodup hkeys, lookup_eq_some_of_nodup hkeys', h.mem_iff]

theorem lookup_map_snd (f : α → β) (l : List (String × α)) (key : String) :
    (l.map fun entry => (entry.1, f entry.2)).lookup key = (l.lookup key).map f := by
  induction l with
  | nil => rfl
  | cons entry l ih =>
    obtain ⟨key', a⟩ := entry
    rw [map_cons, lookup_cons, lookup_cons]
    by_cases hkey : key = key'
    · subst hkey
      rw [beq_self_eq_true]
      rfl
    · rw [beq_eq_false_iff_ne.mpr hkey]
      exact ih

/-- The entries with some keys are left out. -/
theorem lookup_filter_key (p : String → Bool) (l : List (String × α)) (key : String) :
    (l.filter fun entry => p entry.1).lookup key = if p key then l.lookup key else none := by
  induction l with
  | nil => simp
  | cons entry l ih =>
    obtain ⟨key', a⟩ := entry
    rw [filter_cons]
    by_cases hkey : key = key'
    · subst hkey
      by_cases hp : p key
      · rw [if_pos hp, if_pos hp, lookup_cons_self, lookup_cons_self]
      · rw [if_neg hp, ih, if_neg hp, if_neg hp]
    · have hne : (key == key') = false := beq_eq_false_iff_ne.mpr hkey
      rw [lookup_cons, hne]
      by_cases hp : p key'
      · rw [if_pos hp, lookup_cons, hne, ih]
      · rw [if_neg hp, ih]

end List

namespace Value

variable {K : Type}

/-- The fields in the order of their names. -/
def sortFields (fields : List (String × Value K)) : List (String × Value K) :=
  fields.insertionSort fun f g => f.1 ≤ g.1

theorem sortFields_perm (fields : List (String × Value K)) : (sortFields fields).Perm fields :=
  List.perm_insertionSort _ _

theorem pairwise_sortFields (fields : List (String × Value K)) :
    (sortFields fields).Pairwise fun f g => f.1 ≤ g.1 := by
  have htotal : Std.Total fun f g : String × Value K => f.1 ≤ g.1 := ⟨fun f g => le_total f.1 g.1⟩
  have htrans : IsTrans (String × Value K) fun f g => f.1 ≤ g.1 := ⟨fun _ _ _ => le_trans⟩
  exact List.pairwise_insertionSort _ _

/-- Sorting sorted fields changes nothing. -/
theorem sortFields_sortFields (fields : List (String × Value K)) :
    sortFields (sortFields fields) = sortFields fields :=
  (pairwise_sortFields fields).insertionSort_eq

/-- Two fields of different names are inserted in either order. -/
theorem orderedInsert_comm {f g : String × Value K} (h : f.1 ≠ g.1)
    (fields : List (String × Value K)) :
    (fields.orderedInsert (fun f g => f.1 ≤ g.1) g).orderedInsert (fun f g => f.1 ≤ g.1) f =
      (fields.orderedInsert (fun f g => f.1 ≤ g.1) f).orderedInsert (fun f g => f.1 ≤ g.1) g := by
  wlog hlt : f.1 < g.1 generalizing f g
  · exact (this h.symm (lt_of_le_of_ne (not_lt.mp hlt) h.symm)).symm
  induction fields with
  | nil =>
    simp only [List.orderedInsert_nil, List.orderedInsert_cons, if_pos hlt.le, if_neg hlt.not_ge]
  | cons e fields ih =>
    simp only [List.orderedInsert_cons]
    by_cases hg : g.1 ≤ e.1
    · have hf : f.1 ≤ e.1 := hlt.le.trans hg
      simp only [if_pos hg, if_pos hf, List.orderedInsert_cons, if_pos hlt.le, if_neg hlt.not_ge]
    · by_cases hf : f.1 ≤ e.1
      · simp only [if_neg hg, if_pos hf, List.orderedInsert_cons, if_neg hlt.not_ge]
      · simp only [if_neg hg, if_neg hf, List.orderedInsert_cons, ih]

/-- The order of two fields of different names does not matter. -/
theorem sortFields_swap {f g : String × Value K} (h : f.1 ≠ g.1)
    (before after : List (String × Value K)) :
    sortFields (before ++ f :: g :: after) = sortFields (before ++ g :: f :: after) := by
  induction before with
  | nil => exact orderedInsert_comm h _
  | cons e before ih =>
    unfold sortFields at ih ⊢
    rw [List.cons_append, List.cons_append, List.insertionSort_cons, List.insertionSort_cons, ih]

/-- **A lookup** does not depend on the order of the fields. -/
theorem field_of_perm {fields fields' : List (String × Value K)}
    (hkeys : (fields.map Prod.fst).Nodup) (h : fields.Perm fields') (key : String) :
    (Value.dict fields).field key = (Value.dict fields').field key :=
  List.lookup_of_perm hkeys h key

/-! ## Assignment -/

/-- The fields after the assignment of one. -/
def setField (fields : List (String × Value K)) (key : String) (v : Value K) :
    List (String × Value K) :=
  if key ∈ fields.map Prod.fst then fields.map fun f => if f.1 = key then (key, v) else f
  else fields ++ [(key, v)]

theorem lookup_setField_self (fields : List (String × Value K)) (key : String) (v : Value K) :
    (setField fields key v).lookup key = some v := by
  unfold setField
  split_ifs with hkey
  · induction fields with
    | nil => cases hkey
    | cons f fields ih =>
      rw [List.map_cons]
      by_cases hf : f.1 = key
      · rw [if_pos hf, List.lookup_cons_self]
      · rw [if_neg hf, List.lookup_cons, beq_eq_false_iff_ne.mpr (Ne.symm hf)]
        rw [List.map_cons, List.mem_cons] at hkey
        exact ih (hkey.resolve_left (Ne.symm hf))
  · have hnone : fields.lookup key = Option.none := by
      rw [List.lookup_eq_none_iff]
      intro f hf
      rw [bne_iff_ne]
      rintro rfl
      exact hkey (List.mem_map_of_mem hf)
    rw [List.lookup_append, hnone, List.lookup_cons_self]
    rfl

/-- The other fields stay. -/
theorem lookup_setField_of_ne {fields : List (String × Value K)} {key key' : String} {v : Value K}
    (h : key' ≠ key) : (setField fields key v).lookup key' = fields.lookup key' := by
  have hmap : ∀ fields : List (String × Value K),
      (fields.map fun f => if f.1 = key then (key, v) else f).lookup key' =
        fields.lookup key' := by
    intro fields
    induction fields with
    | nil => rfl
    | cons f fields ih =>
      obtain ⟨k, w⟩ := f
      rw [List.map_cons]
      by_cases hk : k = key
      · subst hk
        rw [if_pos rfl, List.lookup_cons, List.lookup_cons, beq_eq_false_iff_ne.mpr h]
        exact ih
      · rw [if_neg hk, List.lookup_cons, List.lookup_cons, ih]
  unfold setField
  split_ifs
  · exact hmap fields
  · rw [List.lookup_append, List.lookup_cons, beq_eq_false_iff_ne.mpr h]
    exact Option.or_none

/-- An assignment keeps a record well formed. -/
theorem WellFormed.setField {fields : List (String × Value K)}
    (h : (Value.dict fields).WellFormed) {key : String} {v : Value K} (hv : v.WellFormed) :
    (Value.dict (Value.setField fields key v)).WellFormed := by
  unfold Value.setField
  split_ifs with hkey
  · refine .dict ?_ fun f hf => ?_
    · have hnames : (fields.map fun f => if f.1 = key then (key, v) else f).map Prod.fst =
          fields.map Prod.fst := by
        rw [List.map_map]
        refine List.map_congr_left fun f _ => ?_
        rw [Function.comp_apply]
        by_cases hf : f.1 = key
        · rw [if_pos hf, hf]
        · rw [if_neg hf]
      rw [hnames]
      exact h.keys
    · obtain ⟨g, hg, rfl⟩ := List.mem_map.mp hf
      by_cases hk : g.1 = key
      · rw [if_pos hk]
        exact hv
      · rw [if_neg hk]
        exact h.fields g hg
  · refine .dict ?_ fun f hf => ?_
    · rw [List.map_append, List.nodup_append]
      refine ⟨h.keys, List.nodup_singleton _, fun a ha b hb => ?_⟩
      obtain rfl := List.mem_singleton.mp hb
      rintro rfl
      exact hkey ha
    · obtain hmem | hmem := List.mem_append.mp hf
      · exact h.fields f hmem
      · rw [List.mem_singleton.mp hmem]
        exact hv

/-! ## Optional fields -/

/-- The fields that have a value. -/
def omitEmpty (fields : List (String × Option (Value K))) : List (String × Value K) :=
  fields.filterMap fun f => f.2.map fun v => (f.1, v)

/-- A field is found if it has a value. -/
theorem lookup_omitEmpty {fields : List (String × Option (Value K))}
    (h : (fields.map Prod.fst).Nodup) (key : String) :
    (omitEmpty fields).lookup key = (fields.lookup key).join := by
  induction fields with
  | nil => rfl
  | cons f fields ih =>
    obtain ⟨name, v⟩ := f
    rw [List.map_cons, List.nodup_cons] at h
    rw [List.lookup_cons]
    by_cases hname : key = name
    · subst hname
      rw [beq_self_eq_true]
      cases v with
      | some v => exact List.lookup_cons_self
      | none =>
        refine (ih h.2).trans ?_
        have hnone : fields.lookup key = Option.none :=
          List.lookup_eq_none_iff.mpr fun f hf => bne_iff_ne.mpr fun heq =>
            h.1 (List.mem_map.mpr ⟨f, hf, heq.symm⟩)
        rw [hnone]
        rfl
    · rw [beq_eq_false_iff_ne.mpr hname, ← ih h.2]
      cases v with
      | none => rfl
      | some v => exact List.lookup_cons.trans (by rw [beq_eq_false_iff_ne.mpr hname]; rfl)

/-! ## Sorted values -/

mutual

/-- The value with the fields of all objects in the order of their names. -/
def sortKeys : Value K → Value K
  | .list items => .list (sortItems items)
  | .dict fields => .dict (sortFields (sortKeysFields fields))
  | .none => .none
  | .bool value => .bool value
  | .int value => .int value
  | .float value => .float value
  | .str text => .str text
  | .bytes data => .bytes data
  | .other => .other

def sortItems : List (Value K) → List (Value K)
  | [] => []
  | item :: items => sortKeys item :: sortItems items

def sortKeysFields : List (String × Value K) → List (String × Value K)
  | [] => []
  | (key, v) :: fields => (key, sortKeys v) :: sortKeysFields fields

end

theorem sortKeysFields_eq (fields : List (String × Value K)) :
    sortKeysFields fields = fields.map fun f => (f.1, sortKeys f.2) := by
  induction fields with
  | nil => rfl
  | cons f fields ih => rw [sortKeysFields, ih, List.map_cons]

theorem sortItems_eq (items : List (Value K)) : sortItems items = items.map sortKeys := by
  induction items with
  | nil => rfl
  | cons item items ih => rw [sortItems, ih, List.map_cons]

theorem field_sortKeys_dict {fields : List (String × Value K)}
    (h : (fields.map Prod.fst).Nodup) (key : String) :
    (Value.dict fields).sortKeys.field key = (fields.lookup key).map sortKeys := by
  have hkeys : ((sortKeysFields fields).map Prod.fst).Nodup := by
    rw [sortKeysFields_eq, List.map_map]
    exact h
  rw [sortKeys, ← field_of_perm hkeys (sortFields_perm _).symm, field_dict, sortKeysFields_eq,
    List.lookup_map_snd]

/-- **A lookup in a sorted value** finds the sorted field. -/
theorem field_sortKeys {v : Value K} (h : v.WellFormed) (key : String) :
    v.sortKeys.field key = (v.field key).map sortKeys := by
  cases v with
  | dict fields => exact field_sortKeys_dict h.keys key
  | _ => rfl

theorem WellFormed.field {v w : Value K} (h : v.WellFormed) {key : String}
    (hw : v.field key = some w) : w.WellFormed := by
  cases v with
  | dict fields => exact h.fields _ (List.mem_of_lookup hw)
  | _ => cases hw

/-- A sorted value is well formed. -/
theorem WellFormed.sortKeys {v : Value K} (h : v.WellFormed) : v.sortKeys.WellFormed := by
  induction h with
  | list h ih =>
    rw [Value.sortKeys, sortItems_eq]
    refine .list fun sorted hsorted => ?_
    obtain ⟨item, hitem, rfl⟩ := List.mem_map.mp hsorted
    exact ih item hitem
  | @dict fields hkeys h ih =>
    rw [Value.sortKeys, sortKeysFields_eq]
    refine .dict ?_ fun f hf => ?_
    · rw [((sortFields_perm _).map Prod.fst).nodup_iff, List.map_map]
      exact hkeys
    · obtain ⟨g, hg, rfl⟩ := List.mem_map.mp ((sortFields_perm _).mem_iff.mp hf)
      exact ih g hg
  | none => exact .none
  | bool => exact .bool _
  | int => exact .int _
  | float => exact .float _
  | str => exact .str _
  | bytes => exact .bytes _
  | other => exact .other

/-! ## Reading a sorted value -/

theorem WellFormed.get {v : Value K} (h : v.WellFormed) (key : String) : (v.get key).WellFormed := by
  unfold Value.get
  cases hv : v.field key with
  | none => exact .none
  | some w => exact h.field hv

theorem get_sortKeys {v : Value K} (h : v.WellFormed) (key : String) :
    v.sortKeys.get key = (v.get key).sortKeys := by
  unfold Value.get
  rw [field_sortKeys h]
  cases v.field key <;> rfl

@[simp] theorem isText_sortKeys (v : Value K) (text : String) :
    v.sortKeys.isText text = v.isText text := by
  cases v <;> rfl

@[simp] theorem isBool_sortKeys (v : Value K) (b : Bool) : v.sortKeys.isBool b = v.isBool b := by
  cases v <;> rfl

@[simp] theorem truthy_sortKeys [Zero K] [DecidableEq K] (v : Value K) :
    v.sortKeys.truthy = v.truthy := by
  cases v with
  | list items =>
    rw [sortKeys, sortItems_eq]
    cases items <;> rfl
  | dict fields =>
    have hempty : (sortFields (sortKeysFields fields)).isEmpty = fields.isEmpty := by
      rw [(sortFields_perm _).isEmpty_eq, sortKeysFields_eq, List.isEmpty_map]
    rw [sortKeys, truthy, truthy, hempty]
  | _ => rfl

end Value
