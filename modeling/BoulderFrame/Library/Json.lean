import Mathlib.Data.Rat.Defs

/-!
# JSON values

## Main definitions

* `Json`: a JSON value, with integers apart from other numbers
-/

/-- A JSON value; the fields of an object have different names. -/
inductive Json
  | null
  | bool (value : Bool)
  | int (value : ℤ)
  | float (value : ℚ)
  | string (text : String)
  | array (items : List Json)
  | object (fields : List (String × Json))
