import BoulderFrame.Library.Value
import Mathlib.Data.List.Infix

/-!
# The sanitizer of the telemetry

Every record of the telemetry is sanitized before it is written: fields whose names may stand for
credentials, locations or media are left out, at every depth, and so are texts with a location,
byte strings, and numbers that are not finite.

## Main definitions

* `normalizedFieldName`, `unsafeField`: the names that are left out
* `matchesUrl`: the texts that are left out
* `sanitizeValue`, `sanitizeRecord`: the sanitizer
* `canonicalJson`: the JSON value that is written for a value

## Main results

* `field_sanitizeValue`: a field with a safe name is kept, sanitized
-/

namespace BoulderFrame

/-! ## Names -/

/-- `_SENSITIVE_FIELD_PARTS` -/
def sensitiveFieldParts : List String :=
  ["access_key", "apikey", "api_key", "authorization", "credential", "diagnostic",
    "encryption_key", "password", "private_key", "secret", "signature", "token"]

/-- `_UNSAFE_FIELD_PARTS` -/
def unsafeFieldParts : List String := ["endpoint", "pixel", "raw_frame", "uri", "url"]

/-- `_UNSAFE_FIELD_NAMES` -/
def unsafeFieldNames : List String :=
  ["binary", "buffer", "bytes", "data", "frame", "image", "media", "payload", "video"]

/-- An underscore stands before a capital letter that ends a row of capitals and starts a word. -/
def separateWords : Char → List Char → List Char
  | previous, c :: next :: rest =>
    if previous.isUpper ∧ c.isUpper ∧ next.isLower then '_' :: c :: separateWords c (next :: rest)
    else c :: separateWords c (next :: rest)
  | _, rest => rest

/-- An underscore stands between a small letter or digit and a capital letter. -/
def separateCapitals : List Char → List Char
  | c :: next :: rest =>
    if (c.isLower ∨ c.isDigit) ∧ next.isUpper then c :: '_' :: separateCapitals (next :: rest)
    else c :: separateCapitals (next :: rest)
  | rest => rest

/-- The small letters of a character, as far as the names distinguish them. -/
def lower (c : Char) : List Char :=
  if c = '\u212A' then ['k'] else if c = '\u0130' then ['i', '\u0307'] else [c.toLower]

/-- `_normalized_field_name`: the words of a name, in small letters and digits. -/
def normalizedFieldName (key : String) : List Char :=
  let separated := (separateCapitals (separateWords ' ' key.toList)).flatMap lower
  let words := separated.splitOnP fun c => !(c.isLower || c.isDigit)
  List.intercalate ['_'] (words.filter (· ≠ []))

/-- The text has the given part. -/
def hasPart (text : List Char) (part : String) : Bool :=
  text.tails.any fun suffix => part.toList.isPrefixOf suffix

/-- `_unsafe_field` -/
def unsafeField (key : String) : Bool :=
  let normalized := normalizedFieldName key
  unsafeFieldNames.any (·.toList == normalized) || sensitiveFieldParts.any (hasPart normalized) ||
    unsafeFieldParts.any (hasPart normalized)

/-! ## Texts -/

/-- A white-space character. -/
def isSpace (c : Char) : Bool :=
  let code := c.toNat
  (9 ≤ code && code ≤ 13) || (28 ≤ code && code ≤ 32) || code == 0x85 || code == 0xA0 ||
    code == 0x1680 || (0x2000 ≤ code && code ≤ 0x200A) || code == 0x2028 || code == 0x2029 ||
    code == 0x202F || code == 0x205F || code == 0x3000

/-- The letter that a character stands for when case is ignored. -/
def foldCase (c : Char) : Char :=
  if c = '\u017F' then 's' else if c = '\u0131' ∨ c = '\u0130' then 'i' else c.toLower

/-- The schemes of `_URL_PATTERN` -/
def urlSchemes : List String := ["http", "https", "s3", "postgres", "postgresql", "redis", "rediss"]

/-- A location starts here: a scheme, the separator, and a character of its path. -/
def startsUrl (text : List Char) : Bool :=
  urlSchemes.any fun scheme =>
    let start := (scheme ++ "://").toList
    start.isPrefixOf (text.map foldCase) && (text.drop start.length).head?.any fun c => !isSpace c

/-- `_URL_PATTERN.search` -/
def matchesUrl (text : String) : Bool := text.toList.tails.any startsUrl

theorem toLower_eq_colon {c : Char} (h : c.toLower = ':') : c = ':' := by
  unfold Char.toLower at h
  split_ifs at h with hc
  · have hlower : 65 ≤ c.val.toNat := hc.1
    have hupper : c.val.toNat ≤ 90 := hc.2
    have hsum := congrArg UInt32.toNat (congrArg Char.val h)
    have hoffset : ('a'.val - 'A'.val).toNat = 32 := by decide
    have hcolon : ':'.val.toNat = 58 := by decide
    rw [UInt32.toNat_add] at hsum
    omega
  · exact h

/-- A text without a colon has no location. -/
theorem matchesUrl_eq_false {text : String} (h : ':' ∉ text.toList) : matchesUrl text = false := by
  rw [matchesUrl, List.any_eq_false]
  intro suffix hsuffix hstarts
  obtain ⟨scheme, -, hscheme⟩ := List.any_eq_true.mp hstarts
  dsimp only at hscheme
  rw [Bool.and_eq_true] at hscheme
  have hprefix := List.isPrefixOf_iff_prefix.mp hscheme.1
  have hmem : ':' ∈ suffix.map foldCase := by
    refine hprefix.subset ?_
    rw [String.toList_append]
    exact List.mem_append_right _ (by decide)
  obtain ⟨c, hc, hfold⟩ := List.mem_map.mp hmem
  have hcolon : c = ':' := by
    unfold foldCase at hfold
    split_ifs at hfold
    · exact absurd hfold (by decide)
    · exact absurd hfold (by decide)
    · exact toLower_eq_colon hfold
  exact h (((List.mem_tails ..).mp hsuffix).subset (hcolon ▸ hc))

/-! ## Values -/

variable {K : Type}

/-- `_finite` -/
def finiteOrNone : FloatValue K → Value K
  | .finite x => .number x
  | _ => .none

mutual

/-- `_sanitize_value` -/
def sanitizeValue : Value K → Value K
  | .none => .none
  | .bool value => .bool value
  | .int value => .int value
  | .float x => finiteOrNone x
  | .str text => if matchesUrl text then .none else .str text
  | .bytes _ => .none
  | .list items => .list (sanitizeItems items)
  | .dict fields => .dict (Value.sortFields (sanitizeFields fields))
  | .other => .none

def sanitizeItems : List (Value K) → List (Value K)
  | [] => []
  | item :: items => sanitizeValue item :: sanitizeItems items

/-- The fields with safe names, sanitized. -/
def sanitizeFields : List (String × Value K) → List (String × Value K)
  | [] => []
  | (key, v) :: fields =>
    if unsafeField key then sanitizeFields fields
    else (key, sanitizeValue v) :: sanitizeFields fields

end

/-- `sanitize_record` -/
def sanitizeRecord (record : List (String × Value K)) : List (String × Value K) :=
  Value.sortFields (sanitizeFields record)

/-- `canonical_json_bytes`, as the JSON value that the bytes stand for. -/
def canonicalJson (v : Value K) : Value K := (sanitizeValue v).sortKeys

theorem sanitizeValue_dict (fields : List (String × Value K)) :
    sanitizeValue (.dict fields) = .dict (sanitizeRecord fields) := by
  rw [sanitizeValue, sanitizeRecord]

theorem sanitizeItems_eq (items : List (Value K)) :
    sanitizeItems items = items.map sanitizeValue := by
  induction items with
  | nil => rfl
  | cons item items ih => rw [sanitizeItems, ih, List.map_cons]

theorem sanitizeFields_eq (fields : List (String × Value K)) :
    sanitizeFields fields = (fields.filter fun f => !unsafeField f.1).map
      fun f => (f.1, sanitizeValue f.2) := by
  induction fields with
  | nil => rfl
  | cons f fields ih =>
    obtain ⟨key, v⟩ := f
    rw [sanitizeFields, List.filter_cons, ih]
    by_cases hkey : unsafeField key
    · simp only [hkey, Bool.not_true, Bool.false_eq_true, if_true, if_false]
    · simp only [hkey, Bool.not_false, Bool.false_eq_true, if_true, if_false, List.map_cons]

theorem nodup_sanitizeFields {fields : List (String × Value K)}
    (h : (fields.map Prod.fst).Nodup) : ((sanitizeFields fields).map Prod.fst).Nodup := by
  rw [sanitizeFields_eq, List.map_map]
  exact h.sublist (List.filter_sublist.map _)

theorem nodup_sanitizeRecord {fields : List (String × Value K)}
    (h : (fields.map Prod.fst).Nodup) : ((sanitizeRecord fields).map Prod.fst).Nodup := by
  rw [sanitizeRecord, ((Value.sortFields_perm _).map Prod.fst).nodup_iff]
  exact nodup_sanitizeFields h

theorem lookup_sanitizeRecord {fields : List (String × Value K)}
    (h : (fields.map Prod.fst).Nodup) {key : String} (hkey : unsafeField key = false) :
    (sanitizeRecord fields).lookup key = (fields.lookup key).map sanitizeValue := by
  have hperm := Value.field_of_perm (nodup_sanitizeFields h) (Value.sortFields_perm _).symm key
  rw [Value.field_dict, Value.field_dict] at hperm
  rw [sanitizeRecord, ← hperm, sanitizeFields_eq, List.lookup_map_snd,
    List.lookup_filter_key fun key => !unsafeField key, hkey]
  rfl

/-- **A sanitized field** is the field, sanitized, if its name is safe. -/
theorem field_sanitizeValue {v : Value K} (h : v.WellFormed) {key : String}
    (hkey : unsafeField key = false) :
    (sanitizeValue v).field key = (v.field key).map sanitizeValue := by
  cases v with
  | dict fields =>
    rw [sanitizeValue_dict]
    exact lookup_sanitizeRecord h.keys hkey
  | float x => cases x <;> rfl
  | str text =>
    rw [sanitizeValue]
    split_ifs <;> rfl
  | _ => rfl

/-- **Sanitizing** keeps values well formed. -/
theorem wellFormed_sanitizeValue {v : Value K} (h : v.WellFormed) :
    (sanitizeValue v).WellFormed := by
  induction h with
  | list h ih =>
    rw [sanitizeValue, sanitizeItems_eq]
    refine .list fun item hitem => ?_
    obtain ⟨raw, hraw, rfl⟩ := List.mem_map.mp hitem
    exact ih raw hraw
  | @dict fields hkeys h ih =>
    rw [sanitizeValue]
    refine .dict ?_ fun f hf => ?_
    · rw [((Value.sortFields_perm _).map Prod.fst).nodup_iff]
      exact nodup_sanitizeFields hkeys
    · rw [(Value.sortFields_perm _).mem_iff, sanitizeFields_eq] at hf
      obtain ⟨raw, hraw, rfl⟩ := List.mem_map.mp hf
      exact ih raw (List.mem_filter.mp hraw).1
  | float x =>
    cases x with
    | finite x => exact .float _
    | _ => exact .none
  | str text =>
    rw [sanitizeValue]
    split_ifs
    · exact .none
    · exact .str _
  | none => exact .none
  | bool => exact .bool _
  | int => exact .int _
  | bytes => exact .none
  | other => exact .none

/-- The JSON value of a record has its fields with safe names. -/
theorem canonicalJson_dict {fields : List (String × Value K)}
    (h : (fields.map Prod.fst).Nodup) :
    ∃ fields', canonicalJson (.dict fields) = .dict fields' ∧ (fields'.map Prod.fst).Nodup ∧
      ∀ key, unsafeField key = false →
        fields'.lookup key = (fields.lookup key).map canonicalJson := by
  have hsorted := Value.field_sortKeys_dict (nodup_sanitizeRecord h)
  rw [Value.sortKeys] at hsorted
  refine ⟨Value.sortFields (Value.sortKeysFields (sanitizeRecord fields)), ?_, ?_,
    fun key hkey => ?_⟩
  · rw [canonicalJson, sanitizeValue_dict, Value.sortKeys]
  · rw [((Value.sortFields_perm _).map Prod.fst).nodup_iff, Value.sortKeysFields_eq, List.map_map]
    exact nodup_sanitizeRecord h
  · rw [← Value.field_dict, hsorted, lookup_sanitizeRecord h hkey, Option.map_map]
    rfl

end BoulderFrame
