import BoulderFrame.Library.Value

/-!
# Files of JSON texts

A program that writes JSON files reads them back as values. How the texts look does not matter: what
is used of them is that they read back as they were written.

## Main definitions

* `Value.Plain`: the values that JSON has a text for
* `JsonError`, `JsonLine`: what a line of a file gives
* `JsonFormat`: how texts of JSON are written, read and digested
* `JsonFormat.Exact`: they are read as they are written

## Main results

* `Value.Plain.sortKeys`: the order of the fields does not matter
-/

variable {K Text : Type}

namespace Value

/-- A value that JSON has a text for: its numbers are finite and its fields have different names. -/
inductive Plain : Value K → Prop
  | none : Plain .none
  | bool (value : Bool) : Plain (.bool value)
  | int (value : ℤ) : Plain (.int value)
  | number (value : K) : Plain (.number value)
  | str (text : String) : Plain (.str text)
  | list {items : List (Value K)} (h : ∀ item ∈ items, Plain item) : Plain (.list items)
  | dict {fields : List (String × Value K)} (hkeys : (fields.map Prod.fst).Nodup)
      (h : ∀ f ∈ fields, Plain f.2) : Plain (.dict fields)

/-- An object whose fields have values in JSON. -/
theorem Plain.fields {fields : List (String × Value K)} (hkeys : (fields.map Prod.fst).Nodup)
    (h : fields.Forall fun f => Plain f.2) : Plain (.dict fields) :=
  .dict hkeys (List.forall_iff_forall_mem.mp h)

theorem Plain.sortKeys {v : Value K} (h : v.Plain) : v.sortKeys.Plain := by
  induction h with
  | none => exact .none
  | bool value => exact .bool value
  | int value => exact .int value
  | number value => exact .number value
  | str text => exact .str text
  | @list items h ih =>
    rw [Value.sortKeys, sortItems_eq]
    refine .list fun item hitem => ?_
    obtain ⟨item, hmem, rfl⟩ := List.mem_map.mp hitem
    exact ih item hmem
  | @dict fields hkeys h ih =>
    have hperm := sortFields_perm (sortKeysFields fields)
    rw [Value.sortKeys]
    refine .dict ?_ fun f hf => ?_
    · rw [(hperm.map Prod.fst).nodup_iff, sortKeysFields_eq, List.map_map]
      exact hkeys
    · have hf := hperm.subset hf
      rw [sortKeysFields_eq] at hf
      obtain ⟨f, hmem, rfl⟩ := List.mem_map.mp hf
      exact ih f hmem

end Value

/-- Why a line has no value: its bytes are none of the encoding, it is no JSON text, one of its
integers has too many digits, or it is nested too deep. -/
inductive JsonError
  | encoding
  | malformed
  | digits
  | depth
  deriving DecidableEq, Repr

/-- What the next line of a file gives: its value, or why it has none. Bytes that are none of the
encoding are found when they are buffered, which may be some lines before their own. -/
abbrev JsonLine (K : Type) := Except JsonError (Value K)

/-- How texts of JSON lines and of single values are written, read and digested. -/
structure JsonFormat (K Text : Type) where
  ofLines : List (Value K) → Text
  lines : Text → List (JsonLine K)
  ofValue : Value K → Text
  value : Text → Option (Value K)
  sha256 : Text → String

/-- The texts are read as they are written. -/
structure JsonFormat.Exact (format : JsonFormat K Text) : Prop where
  lines_ofLines : ∀ {records : List (Value K)}, (∀ record ∈ records, record.Plain) →
    format.lines (format.ofLines records) = records.map .ok
  value_ofValue : ∀ {v : Value K}, v.Plain → format.value (format.ofValue v) = some v
