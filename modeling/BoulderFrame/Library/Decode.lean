import BoulderFrame.Library.Numerals
import BoulderFrame.Library.Value
import Mathlib.Algebra.Order.Field.Basic

/-!
# Decoding JSON into typed values

A decoder reads a JSON value into a typed one that is there already, as the standard library of Go
does: `null` leaves most values as they are, a field is found by its name or, failing that, without
regard to case, and a field that is given twice is decoded twice. Unknown fields are refused.

## Main definitions

* `Decoder`: what reads a JSON value into a typed one
* `Decoder.text`, `Decoder.int64`, `Decoder.float64`, `Decoder.object`: texts, numbers, and objects
  of any fields
* `Decoder.pointer`, `Decoder.slice`, `Decoder.struct`: pointers, slices, and structures

## Main results

* `Decoder.struct_cons`: the fields of an object are decoded one after the other
* `Decoder.slice_list`: so are the items of an array
* `Decoder.object_dict`: an object of any fields keeps fields with different keys
-/

/-- What reads a JSON value into a typed one; it fails on values of another type. -/
abbrev Decoder (K α : Type) := Value K → α → Option α

/-- The items of a slice are the first ones of what has been stored behind it. -/
structure Slice (α : Type) where
  stored : List α
  length : ℕ

namespace Slice

variable {α : Type}

def nil : Slice α := ⟨[], 0⟩

def items (s : Slice α) : List α := s.stored.take s.length

end Slice

namespace Decoder

variable {K α σ : Type}

/-! ## Names -/

/-- A character without regard to case, as far as it may stand for one in ASCII. -/
def foldRune (c : Char) : Char :=
  if c = '\u017F' then 's' else if c = '\u212A' then 'k' else c.toLower

/-- The name that a key stands for: itself, or the first name that differs from it in case only. -/
def nameOf (names : List String) (key : String) : Option String :=
  if key ∈ names then some key
  else names.find? fun name => name.toList.map foldRune == key.toList.map foldRune

theorem nameOf_self {names : List String} {key : String} (h : key ∈ names) :
    nameOf names key = some key := if_pos h

/-! ## Texts and numbers -/

/-- `string` -/
def text : Decoder K String
  | .str value, _ => some value
  | .none, old => some old
  | _, _ => none

/-- `int64`, whose literals have no fraction and no exponent. -/
def int64 : Decoder K ℤ
  | .int value, _ => if -2 ^ 63 ≤ value ∧ value < 2 ^ 63 then some value else none
  | .none, old => some old
  | _, _ => none

section Float

variable [Field K] [LinearOrder K]

/-- A number from this one on is rounded to infinity. -/
def float64Limit : K := 2 ^ 1024 - 2 ^ 970

/-- `float64` -/
def float64 : Decoder K K := fun v old =>
  match v with
  | .none => some old
  | v =>
    match v.toNumber with
    | some value => if |value| < float64Limit then some value else none
    | none => none

mutual

/-- `any` -/
def any : Value K → Option (Value K)
  | .none => some .none
  | .bool value => some (.bool value)
  | .int value => if |(value : K)| < float64Limit then some (.number value) else none
  | .float (.finite value) => if |value| < float64Limit then some (.number value) else none
  | .str value => some (.str value)
  | .list values => do some (.list (← anyItems values))
  | .dict fields => do some (.dict (← anyFields [] fields))
  | _ => none

def anyItems : List (Value K) → Option (List (Value K))
  | [] => some []
  | v :: values => do
    let v ← any v
    let values ← anyItems values
    some (v :: values)

/-- The fields of an object, after those that are there. -/
def anyFields (decoded : List (String × Value K)) :
    List (String × Value K) → Option (List (String × Value K))
  | [] => some decoded
  | (key, v) :: fields => do
    let v ← any v
    anyFields (Value.setField decoded key v) fields

end

/-- `map[string]any`, where `null` is the empty map -/
def object : Decoder K (List (String × Value K))
  | .dict fields, old => anyFields old fields
  | .none, _ => some []
  | _, _ => none

/-- Fields with different keys are kept in their order. -/
theorem anyFields_eq {decoded fields fields' : List (String × Value K)}
    (h : List.Forall₂ (fun f f' => f'.1 = f.1 ∧ any f.2 = some f'.2) fields fields')
    (hkeys : ((decoded ++ fields).map Prod.fst).Nodup) :
    anyFields decoded fields = some (decoded ++ fields') := by
  induction h generalizing decoded with
  | nil => rw [anyFields, List.append_nil]
  | @cons f f' fields fields' hfield _ ih =>
    obtain ⟨_, v⟩ := f
    obtain ⟨key, v'⟩ := f'
    obtain ⟨rfl, hv⟩ := hfield
    -- a new key is appended
    have hnew : key ∉ decoded.map Prod.fst := by
      rw [List.map_append, List.map_cons] at hkeys
      exact fun hmem => (List.nodup_append.mp hkeys).2.2 key hmem key List.mem_cons_self rfl
    rw [anyFields, Option.bind_eq_bind, hv, Option.bind_some, Value.setField, if_neg hnew, ih]
    · rw [List.append_assoc, List.singleton_append]
    · rw [List.append_assoc, List.singleton_append]
      rw [List.map_append, List.map_cons] at hkeys ⊢
      exact hkeys

/-- **An object** whose fields can be decoded has the decoded fields. -/
theorem object_dict {fields fields' : List (String × Value K)}
    (h : List.Forall₂ (fun f f' => f'.1 = f.1 ∧ any f.2 = some f'.2) fields fields')
    (hkeys : (fields.map Prod.fst).Nodup) : object (.dict fields) [] = some fields' :=
  anyFields_eq h hkeys

end Float

/-! ## Pointers, slices and structures -/

/-- A pointer; the zero value is what it points to when there is none. -/
def pointer (zero : α) (decode : Decoder K α) : Decoder K (Option α) := fun v old =>
  match v with
  | .none => some none
  | v => (decode v (old.getD zero)).map some

/-- The items of an array, each into what is stored at its place. -/
def sliceItems (zero : α) (decode : Decoder K α) : List (Value K) → List α → Option (List α)
  | [], stored => some stored
  | v :: values, stored => do
    let item ← decode v (stored.head?.getD zero)
    let items ← sliceItems zero decode values stored.tail
    some (item :: items)

/-- A slice. An empty array, like `null`, drops what is stored. -/
def slice (zero : α) (decode : Decoder K α) : Decoder K (Slice α)
  | .list [], _ => some .nil
  | .list values, old => do
    let stored ← sliceItems zero decode values old.stored
    some ⟨stored, values.length⟩
  | .none, _ => some .nil
  | _, _ => none

/-- A part of a structure. -/
def part (get : σ → α) (set : α → σ → σ) (decode : Decoder K α) : Decoder K σ := fun v old =>
  (decode v (get old)).map fun a => set a old

/-- The field of a structure. -/
def structField (parts : List (String × Decoder K σ)) (old : σ) (field : String × Value K) :
    Option σ := do
  let name ← nameOf (parts.map Prod.fst) field.1
  let decode ← parts.lookup name
  decode field.2 old

/-- A structure, from the decoders of its parts by their names. -/
def struct (parts : List (String × Decoder K σ)) : Decoder K σ
  | .dict fields, old => fields.foldlM (structField parts) old
  | .none, old => some old
  | _, _ => none

theorem struct_dict (parts : List (String × Decoder K σ)) (fields : List (String × Value K))
    (old : σ) : struct parts (.dict fields) old = fields.foldlM (structField parts) old := rfl

theorem structField_eq {parts : List (String × Decoder K σ)} {key : String} {decode : Decoder K σ}
    (h : parts.lookup key = some decode) (v : Value K) (old : σ) :
    structField parts old (key, v) = decode v old := by
  have hmem : key ∈ parts.map Prod.fst := List.mem_map.mpr ⟨_, List.mem_of_lookup h, rfl⟩
  rw [structField, nameOf_self hmem, Option.bind_eq_bind, Option.bind_some, h]
  rfl

/-- **A field** of a structure is decoded before the others. -/
theorem struct_cons {parts : List (String × Decoder K σ)} {key : String} {decode : Decoder K σ}
    (hkey : parts.lookup key = some decode) {v : Value K} {old new : σ}
    (hv : decode v old = some new) (fields : List (String × Value K)) :
    struct parts (.dict ((key, v) :: fields)) old = struct parts (.dict fields) new := by
  rw [struct_dict, struct_dict, List.foldlM_cons, structField_eq hkey, hv]
  rfl

theorem part_eq {get : σ → α} {set : α → σ → σ} {decode : Decoder K α} {v : Value K} {old : σ}
    {a : α} (h : decode v (get old) = some a) : part get set decode v old = some (set a old) := by
  rw [part, h, Option.map_some]

theorem int64_eq {n : ℤ} (h : -2 ^ 63 ≤ n ∧ n < 2 ^ 63) (old : ℤ) :
    int64 (.int n : Value K) old = some n := if_pos h

theorem pointer_eq {zero a : α} {decode : Decoder K α} {v : Value K} {old : Option α}
    (hv : v ≠ .none) (h : decode v (old.getD zero) = some a) :
    pointer zero decode v old = some (some a) := by
  unfold pointer
  split
  · exact absurd rfl hv
  · rw [h, Option.map_some]

theorem pointer_int64 {n : ℤ} (h : -2 ^ 63 ≤ n ∧ n < 2 ^ 63) (old : Option ℤ) :
    pointer 0 int64 (.int n : Value K) old = some (some n) :=
  pointer_eq nofun (int64_eq h _)

/-- **An array** is decoded item by item. -/
theorem slice_list {zero : α} {decode : Decoder K α} {values : List (Value K)} {items : List α}
    (h : List.Forall₂ (fun v item => decode v zero = some item) values items) :
    ∃ s, slice zero decode (.list values) .nil = some s ∧ s.items = items := by
  have hstored : sliceItems zero decode values [] = some items := by
    induction h with
    | nil => rfl
    | cons hitem _ ih =>
      rw [sliceItems, List.head?_nil, Option.getD_none, hitem, List.tail_nil]
      change (sliceItems zero decode _ []).bind _ = _
      rw [ih]
      rfl
  cases h with
  | nil => exact ⟨.nil, rfl, rfl⟩
  | @cons v item values items hitem hitems =>
    refine ⟨⟨item :: items, (v :: values).length⟩, ?_, ?_⟩
    · rw [slice, Slice.nil, hstored]
      · rfl
      · exact List.cons_ne_nil v values
    · exact List.take_of_length_le (by simp [hitems.length_eq])

end Decoder
