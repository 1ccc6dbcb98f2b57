import BoulderFrame.Debug.Sanitize
import BoulderFrame.Domain.Errors
import BoulderFrame.Library.JsonText
import Mathlib.Logic.Relation

/-!
# The canonical bytes of the telemetry

Whatever is handed to the sanitizer, what it returns has none of the names and values that it
removes, at any depth, and is what it returns for itself. So the canonical bytes of a value are
those of its sanitized form, and values that differ only in what is removed have the same bytes:
they cannot be told apart by their digests. Only an integer with very many digits has no bytes.

## Main definitions

* `RawValue`: a value that is handed to the sanitizer
* `RawValue.sanitize`: the sanitizer
* `canonicalJsonBytes`, `deterministicDigest`: the bytes of a value, and their digest
* `Clean`: a value is none of those that are removed
* `RawValue.Edit`: one change of something that is removed
* `RawValue.KeepsLong`: an integer with too many digits is kept

## Main results

* `RawValue.sanitize_eq_iff`: values are sanitized alike exactly if edits lead from one to the other
* `canonicalJsonBytes_canonical`: the canonical bytes
-/

namespace BoulderFrame

open JsonText (FloatText Refusal)

variable {K : Type}

/-! ## What is handed over -/

/-- A value that is handed to the sanitizer; the keys of a mapping may be no texts. -/
inductive RawValue (K : Type)
  | none
  | bool (value : Bool)
  | int (value : ℤ)
  | float (value : FloatValue K)
  | str (text : String)
  | bytes (data : List UInt8)
  | sequence (items : List (RawValue K))
  | mapping (entries : List (Option String × RawValue K))
  | other

namespace RawValue

/-- Induction on the items of sequences and the entries of mappings. -/
theorem inductionOn {P : RawValue K → Prop} (none : P .none) (bool : ∀ value, P (.bool value))
    (int : ∀ value, P (.int value)) (float : ∀ value, P (.float value))
    (str : ∀ text, P (.str text)) (bytes : ∀ data, P (.bytes data))
    (sequence : ∀ items, (∀ item ∈ items, P item) → P (.sequence items))
    (mapping : ∀ entries : List (Option String × RawValue K), (∀ entry ∈ entries, P entry.2) →
      P (.mapping entries))
    (other : P .other) (v : RawValue K) : P v :=
  @RawValue.rec K P (fun items => ∀ item ∈ items, P item)
    (fun entries => ∀ entry ∈ entries, P entry.2) (fun entry => P entry.2)
    none bool int float str bytes sequence mapping other
    (fun _ hitem => absurd hitem List.not_mem_nil)
    (fun _ _ h hs => List.forall_mem_cons.mpr ⟨h, hs⟩)
    (fun _ hentry => absurd hentry List.not_mem_nil)
    (fun _ _ h hs => List.forall_mem_cons.mpr ⟨h, hs⟩)
    (fun _ _ h => h) v

mutual

/-- `_sanitize_value` -/
def sanitize : RawValue K → Value K
  | .none => .none
  | .bool value => .bool value
  | .int value => .int value
  | .float x => finiteOrNone x
  | .str text => if matchesUrl text then .none else .str text
  | .mapping entries => .dict (Value.sortFields (sanitizeEntries entries))
  | .bytes _ => .none
  | .sequence items => .list (sanitizeItems items)
  | .other => .none

def sanitizeItems : List (RawValue K) → List (Value K)
  | [] => []
  | item :: items => sanitize item :: sanitizeItems items

/-- The entries whose keys are texts and safe names, sanitized. -/
def sanitizeEntries : List (Option String × RawValue K) → List (String × Value K)
  | [] => []
  | (.none, _) :: entries => sanitizeEntries entries
  | (.some key, v) :: entries =>
    if unsafeField key then sanitizeEntries entries
    else (key, sanitize v) :: sanitizeEntries entries

end

/-- `sanitize_record` -/
def sanitizeRecord (record : List (Option String × RawValue K)) : List (String × Value K) :=
  Value.sortFields (sanitizeEntries record)

mutual

/-- A sanitized value is handed over. -/
def ofValue : Value K → RawValue K
  | .none => .none
  | .bool value => .bool value
  | .int value => .int value
  | .float x => .float x
  | .str text => .str text
  | .bytes data => .bytes data
  | .list items => .sequence (ofItems items)
  | .dict fields => .mapping (ofFields fields)
  | .other => .other

def ofItems : List (Value K) → List (RawValue K)
  | [] => []
  | item :: items => ofValue item :: ofItems items

def ofFields : List (String × Value K) → List (Option String × RawValue K)
  | [] => []
  | (key, v) :: fields => (some key, ofValue v) :: ofFields fields

end

theorem sanitizeItems_eq (items : List (RawValue K)) :
    sanitizeItems items = items.map sanitize := by
  induction items with
  | nil => rfl
  | cons item items ih => rw [sanitizeItems, ih, List.map_cons]

theorem sanitize_str (text : String) :
    (str text : RawValue K).sanitize = if matchesUrl text then .none else .str text := rfl

theorem sanitize_sequence (items : List (RawValue K)) :
    (sequence items).sanitize = .list (items.map sanitize) :=
  congrArg Value.list (sanitizeItems_eq items)

theorem sanitize_mapping (entries : List (Option String × RawValue K)) :
    (mapping entries).sanitize = .dict (Value.sortFields (sanitizeEntries entries)) := rfl

theorem sanitizeEntries_none (v : RawValue K) (entries : List (Option String × RawValue K)) :
    sanitizeEntries ((.none, v) :: entries) = sanitizeEntries entries := rfl

theorem sanitizeEntries_some (key : String) (v : RawValue K)
    (entries : List (Option String × RawValue K)) : sanitizeEntries ((.some key, v) :: entries) =
      if unsafeField key then sanitizeEntries entries
      else (key, v.sanitize) :: sanitizeEntries entries := rfl

theorem ofItems_eq (items : List (Value K)) : ofItems items = items.map ofValue := by
  induction items with
  | nil => rfl
  | cons item items ih => rw [ofItems, ih, List.map_cons]

theorem ofValue_list (items : List (Value K)) :
    ofValue (.list items) = .sequence (items.map ofValue) :=
  congrArg RawValue.sequence (ofItems_eq items)

theorem ofValue_dict (fields : List (String × Value K)) :
    ofValue (.dict fields) = .mapping (ofFields fields) := rfl

theorem ofFields_cons (key : String) (v : Value K) (fields : List (String × Value K)) :
    ofFields ((key, v) :: fields) = (some key, ofValue v) :: ofFields fields := rfl

theorem sanitizeEntries_append (entries entries' : List (Option String × RawValue K)) :
    sanitizeEntries (entries ++ entries') =
      sanitizeEntries entries ++ sanitizeEntries entries' := by
  induction entries with
  | nil => rfl
  | cons entry entries ih =>
    obtain ⟨_ | key, v⟩ := entry
    · exact ih
    · rw [List.cons_append, sanitizeEntries_some, sanitizeEntries_some, ih]
      split_ifs <;> rfl

/-- A field of a sanitized mapping is an entry, sanitized. -/
theorem mem_sanitizeEntries {entries : List (Option String × RawValue K)} {f : String × Value K} :
    f ∈ sanitizeEntries entries ↔
      unsafeField f.1 = false ∧ ∃ v, (some f.1, v) ∈ entries ∧ sanitize v = f.2 := by
  induction entries with
  | nil => simp [sanitizeEntries]
  | cons entry entries ih =>
    obtain ⟨_ | key, v⟩ := entry
    · rw [sanitizeEntries_none, ih]
      simp only [List.mem_cons, Prod.mk.injEq, reduceCtorEq, false_and, false_or]
    · rw [sanitizeEntries_some]
      by_cases hkey : unsafeField key = true
      · rw [if_pos hkey, ih]
        constructor
        · rintro ⟨hf, w, hw, hsanitize⟩
          exact ⟨hf, w, List.mem_cons_of_mem _ hw, hsanitize⟩
        · rintro ⟨hf, w, hw, hsanitize⟩
          obtain heq | hw := List.mem_cons.mp hw
          · rw [Option.some.inj (congrArg Prod.fst heq), hkey] at hf
            cases hf
          · exact ⟨hf, w, hw, hsanitize⟩
      · rw [if_neg hkey, List.mem_cons, ih]
        constructor
        · rintro (rfl | ⟨hf, w, hw, hsanitize⟩)
          · exact ⟨Bool.eq_false_iff.mpr hkey, v, List.mem_cons_self, rfl⟩
          · exact ⟨hf, w, List.mem_cons_of_mem _ hw, hsanitize⟩
        · rintro ⟨hf, w, hw, hsanitize⟩
          obtain heq | hw := List.mem_cons.mp hw
          · obtain ⟨hname, rfl⟩ := Prod.mk.inj heq
            exact .inl (Prod.ext (Option.some.inj hname) hsanitize.symm)
          · exact .inr ⟨hf, w, hw, hsanitize⟩

/-- What is handed over as a value of the telemetry is sanitized as one. -/
theorem sanitize_ofValue (v : Value K) : (ofValue v).sanitize = sanitizeValue v := by
  induction v using Value.inductionOn with
  | list items ih =>
    rw [ofValue_list, sanitize_sequence, sanitizeValue, BoulderFrame.sanitizeItems_eq,
      List.map_map]
    exact congrArg Value.list (List.map_congr_left ih)
  | dict fields ih =>
    have hfields : sanitizeEntries (ofFields fields) = sanitizeFields fields := by
      induction fields with
      | nil => rfl
      | cons f fields ihfields =>
        obtain ⟨hf, hfields⟩ := List.forall_mem_cons.mp ih
        rw [ofFields_cons, sanitizeEntries_some, sanitizeFields, hf, ihfields hfields]
    rw [ofValue_dict, sanitize_mapping, sanitizeValue, hfields]
  | _ => rfl

/-! ## Sanitized values -/

/-- Sanitizing a sanitized mapping changes nothing. -/
theorem sanitizeFields_sorted {entries : List (Option String × RawValue K)}
    (h : ∀ entry ∈ entries, sanitizeValue entry.2.sanitize = entry.2.sanitize) :
    sanitizeFields (sanitizeRecord entries) = sanitizeRecord entries := by
  have hfields : ∀ f ∈ sanitizeRecord entries,
      unsafeField f.1 = false ∧ sanitizeValue f.2 = f.2 := by
    intro f hf
    obtain ⟨hkey, v, hv, hsanitize⟩ :=
      mem_sanitizeEntries.mp ((Value.sortFields_perm _).mem_iff.mp hf)
    exact ⟨hkey, hsanitize ▸ h _ hv⟩
  rw [sanitizeFields_eq, List.filter_eq_self.mpr fun f hf => by rw [(hfields f hf).1]; rfl]
  refine (List.map_congr_left fun f hf => ?_).trans (List.map_id _)
  exact Prod.ext rfl (hfields f hf).2

/-- **Sanitizing** is idempotent. -/
theorem sanitizeValue_sanitize (v : RawValue K) : sanitizeValue v.sanitize = v.sanitize := by
  induction v using RawValue.inductionOn with
  | float x => cases x <;> rfl
  | str text =>
    rw [sanitize_str]
    split_ifs with hurl
    · rfl
    · rw [sanitizeValue, if_neg hurl]
  | sequence items ih =>
    rw [sanitize_sequence, sanitizeValue, BoulderFrame.sanitizeItems_eq, List.map_map]
    exact congrArg Value.list (List.map_congr_left ih)
  | mapping entries ih =>
    have hsorted := sanitizeFields_sorted ih
    rw [sanitizeRecord] at hsorted
    rw [sanitize_mapping, sanitizeValue, hsorted, Value.sortFields_sortFields]
  | _ => rfl

/-- A sanitized value is sorted. -/
theorem sortKeys_sanitize (v : RawValue K) : v.sanitize.sortKeys = v.sanitize := by
  induction v using RawValue.inductionOn with
  | float x => cases x <;> rfl
  | str text =>
    rw [sanitize_str]
    split_ifs <;> rfl
  | sequence items ih =>
    rw [sanitize_sequence, Value.sortKeys, Value.sortItems_eq, List.map_map]
    exact congrArg Value.list (List.map_congr_left ih)
  | mapping entries ih =>
    have hfields : Value.sortKeysFields (Value.sortFields (sanitizeEntries entries)) =
        Value.sortFields (sanitizeEntries entries) := by
      rw [Value.sortKeysFields_eq]
      refine (List.map_congr_left fun f hf => ?_).trans (List.map_id _)
      obtain ⟨-, v, hv, hsanitize⟩ :=
        mem_sanitizeEntries.mp ((Value.sortFields_perm _).mem_iff.mp hf)
      exact Prod.ext rfl (hsanitize ▸ ih _ hv)
    rw [sanitize_mapping, Value.sortKeys, hfields, Value.sortFields_sortFields]
  | _ => rfl

end RawValue

/-- The value is none of those that are removed. -/
def Clean : Value K → Prop
  | .float (.finite _) => True
  | .float _ => False
  | .str text => matchesUrl text = false
  | .bytes _ => False
  | .dict fields => ∀ key ∈ fields.map Prod.fst, unsafeField key = false
  | .other => False
  | _ => True

namespace RawValue

/-- **Nothing that is removed** is found in a sanitized value, at any depth. -/
theorem clean_of_occurs {v : RawValue K} {w : Value K} (h : Value.Occurs w v.sanitize) :
    Clean w := by
  induction v using RawValue.inductionOn with
  | float x =>
    cases x with
    | finite x => cases h with | self => trivial
    | _ => cases h with | self => trivial
  | str text =>
    rw [sanitize_str] at h
    split_ifs at h with hurl
    · cases h with | self => trivial
    · cases h with | self => exact Bool.eq_false_iff.mpr hurl
  | sequence items ih =>
    rw [sanitize_sequence] at h
    cases h with
    | self => trivial
    | item hsanitized h =>
      obtain ⟨item, hitem, rfl⟩ := List.mem_map.mp hsanitized
      exact ih item hitem h
  | mapping entries ih =>
    rw [sanitize_mapping] at h
    have hfields : ∀ f ∈ Value.sortFields (sanitizeEntries entries), unsafeField f.1 = false ∧
        ∃ v, (some f.1, v) ∈ entries ∧ sanitize v = f.2 := fun f hf =>
      mem_sanitizeEntries.mp ((Value.sortFields_perm _).mem_iff.mp hf)
    cases h with
    | self =>
      intro key hkey
      obtain ⟨f, hf, rfl⟩ := List.mem_map.mp hkey
      exact (hfields f hf).1
    | field hf h =>
      obtain ⟨-, v, hv, hsanitize⟩ := hfields _ hf
      exact ih _ hv (hsanitize ▸ h)
  | _ => cases h with | self => trivial

/-! ## What is removed -/

/-- The sanitizer puts `None` in the place of the value. -/
def removed : RawValue K → Bool
  | .none => true
  | .float (.finite _) => false
  | .float _ => true
  | .str text => matchesUrl text
  | .bytes _ => true
  | .other => true
  | _ => false

/-- The sanitizer leaves out the entries with the key. -/
def removedKey : Option String → Bool
  | .none => true
  | .some key => unsafeField key

/-- One change of what is removed, at any depth: a removed value is another one, an entry with a
removed key is left out, or entries are in another order. -/
inductive Edit : RawValue K → RawValue K → Prop
  | value {v w : RawValue K} (hv : removed v = true) (hw : removed w = true) : Edit v w
  | entry (before after : List (Option String × RawValue K)) {key : Option String} (v : RawValue K)
      (h : removedKey key = true) :
      Edit (.mapping (before ++ (key, v) :: after)) (.mapping (before ++ after))
  | swap (before after : List (Option String × RawValue K))
      {entry entry' : Option String × RawValue K} (h : entry.1 ≠ entry'.1) :
      Edit (.mapping (before ++ entry :: entry' :: after))
        (.mapping (before ++ entry' :: entry :: after))
  | item (before after : List (RawValue K)) {v w : RawValue K} (h : Edit v w) :
      Edit (.sequence (before ++ v :: after)) (.sequence (before ++ w :: after))
  | field (before after : List (Option String × RawValue K)) (key : Option String)
      {v w : RawValue K} (h : Edit v w) :
      Edit (.mapping (before ++ (key, v) :: after)) (.mapping (before ++ (key, w) :: after))

/-- The values differ only in what is removed. -/
def Edited : RawValue K → RawValue K → Prop := Relation.EqvGen Edit

theorem sanitize_of_removed {v : RawValue K} (h : removed v = true) : v.sanitize = .none := by
  cases v with
  | none => rfl
  | float x =>
    cases x with
    | finite => cases h
    | _ => rfl
  | str text => exact if_pos h
  | bytes => rfl
  | other => rfl
  | _ => cases h

theorem sanitizeEntries_of_removed {key : Option String} (h : removedKey key = true)
    (v : RawValue K) (entries : List (Option String × RawValue K)) :
    sanitizeEntries ((key, v) :: entries) = sanitizeEntries entries := by
  cases key with
  | none => rfl
  | some key =>
    rw [sanitizeEntries_some]
    exact if_pos h

theorem sanitizeEntries_of_kept {key : String} (h : unsafeField key = false) (v : RawValue K)
    (entries : List (Option String × RawValue K)) :
    sanitizeEntries ((some key, v) :: entries) = (key, v.sanitize) :: sanitizeEntries entries := by
  rw [sanitizeEntries_some, if_neg (Bool.eq_false_iff.mp h)]

/-- A key is removed, or it is a safe name. -/
theorem removedKey_or (key : Option String) :
    removedKey key = true ∨ ∃ name, key = some name ∧ unsafeField name = false := by
  cases key with
  | none => exact .inl rfl
  | some name =>
    cases hname : unsafeField name with
    | true => exact .inl hname
    | false => exact .inr ⟨name, rfl, hname⟩

/-- **One change of what is removed** is not seen in the sanitized value. -/
theorem Edit.sanitize_eq {v w : RawValue K} (h : Edit v w) : v.sanitize = w.sanitize := by
  induction h with
  | value hv hw => rw [sanitize_of_removed hv, sanitize_of_removed hw]
  | entry before after v h =>
    rw [sanitize_mapping, sanitize_mapping, sanitizeEntries_append, sanitizeEntries_append,
      sanitizeEntries_of_removed h]
  | @swap before after entry entry' h =>
    obtain ⟨key, v⟩ := entry
    obtain ⟨key', v'⟩ := entry'
    rw [sanitize_mapping, sanitize_mapping, sanitizeEntries_append, sanitizeEntries_append]
    obtain hkey | ⟨name, rfl, hname⟩ := removedKey_or key
    · obtain hkey' | ⟨name', rfl, hname'⟩ := removedKey_or key'
      · simp only [sanitizeEntries_of_removed hkey, sanitizeEntries_of_removed hkey']
      · simp only [sanitizeEntries_of_removed hkey, sanitizeEntries_of_kept hname']
    · obtain hkey' | ⟨name', rfl, hname'⟩ := removedKey_or key'
      · simp only [sanitizeEntries_of_removed hkey', sanitizeEntries_of_kept hname]
      · simp only [sanitizeEntries_of_kept hname, sanitizeEntries_of_kept hname']
        rw [Value.sortFields_swap]
        exact fun heq => h (congrArg some heq)
  | item before after h ih =>
    rw [sanitize_sequence, sanitize_sequence, List.map_append, List.map_append,
      List.map_cons, List.map_cons, ih]
  | field before after key h ih =>
    rw [sanitize_mapping, sanitize_mapping, sanitizeEntries_append, sanitizeEntries_append]
    obtain hkey | ⟨name, rfl, hname⟩ := removedKey_or key
    · rw [sanitizeEntries_of_removed hkey, sanitizeEntries_of_removed hkey]
    · rw [sanitizeEntries_of_kept hname, sanitizeEntries_of_kept hname, ih]

theorem Edited.sanitize_eq {v w : RawValue K} (h : Edited v w) : v.sanitize = w.sanitize := by
  induction h with
  | rel _ _ h => exact h.sanitize_eq
  | refl => rfl
  | symm _ _ _ ih => exact ih.symm
  | trans _ _ _ _ _ ih ih' => exact ih.trans ih'

/-! ## Edits to the sanitized value -/

theorem Edited.refl (v : RawValue K) : Edited v v := Relation.EqvGen.refl v

theorem Edited.trans {u v w : RawValue K} (h : Edited u v) (h' : Edited v w) : Edited u w :=
  Relation.EqvGen.trans _ _ _ h h'

/-- Edits in a place are edits of the whole. -/
theorem Edited.lift {f : RawValue K → RawValue K} (hf : ∀ v w, Edit v w → Edit (f v) (f w))
    {v w : RawValue K} (h : Edited v w) : Edited (f v) (f w) := by
  induction h with
  | rel _ _ h => exact .rel _ _ (hf _ _ h)
  | refl => exact .refl _
  | symm _ _ _ ih => exact .symm _ _ ih
  | trans _ _ _ _ _ ih ih' => exact ih.trans ih'

/-- The items of a sequence are sanitized one by one. -/
theorem edited_items {items : List (RawValue K)}
    (h : ∀ item ∈ items, Edited item (ofValue item.sanitize)) (before : List (RawValue K)) :
    Edited (.sequence (before ++ items))
      (.sequence (before ++ ofItems (sanitizeItems items))) := by
  induction items generalizing before with
  | nil => exact .refl _
  | cons item items ih =>
    obtain ⟨hitem, hitems⟩ := List.forall_mem_cons.mp h
    refine (hitem.lift fun _ _ => Edit.item before items).trans ?_
    have hrest := ih hitems (before ++ [ofValue item.sanitize])
    rw [List.append_assoc, List.append_assoc] at hrest
    exact hrest

/-- The entries of a mapping are sanitized or left out one by one. -/
theorem edited_entries {entries : List (Option String × RawValue K)}
    (h : ∀ entry ∈ entries, Edited entry.2 (ofValue entry.2.sanitize))
    (before : List (Option String × RawValue K)) :
    Edited (.mapping (before ++ entries))
      (.mapping (before ++ ofFields (sanitizeEntries entries))) := by
  induction entries generalizing before with
  | nil => exact .refl _
  | cons entry entries ih =>
    obtain ⟨key, v⟩ := entry
    obtain ⟨hv, hentries⟩ := List.forall_mem_cons.mp h
    obtain hkey | ⟨name, rfl, hname⟩ := removedKey_or key
    · rw [sanitizeEntries_of_removed hkey]
      exact .trans (.rel _ _ (.entry before entries v hkey)) (ih hentries before)
    · rw [sanitizeEntries_of_kept hname]
      refine (hv.lift fun _ _ => Edit.field before entries (some name)).trans ?_
      have hrest := ih hentries (before ++ [(some name, ofValue v.sanitize)])
      rw [List.append_assoc, List.append_assoc] at hrest
      exact hrest

/-- A field is moved to its place. -/
theorem edited_orderedInsert (f : String × Value K) (fields : List (String × Value K))
    (before : List (Option String × RawValue K)) :
    Edited (.mapping (before ++ ofFields (f :: fields)))
      (.mapping (before ++ ofFields (fields.orderedInsert (fun f g => f.1 ≤ g.1) f))) := by
  induction fields generalizing before with
  | nil => exact .refl _
  | cons g fields ih =>
    rw [List.orderedInsert_cons]
    by_cases hle : f.1 ≤ g.1
    · rw [if_pos hle]
      exact .refl _
    · rw [if_neg hle]
      have hne : (some f.1, ofValue f.2).1 ≠ (some g.1, ofValue g.2).1 := by
        intro heq
        rw [Option.some.inj heq] at hle
        exact hle le_rfl
      refine .trans (.rel _ _ (.swap before (ofFields fields) hne)) ?_
      have hrest := ih (before ++ [(some g.1, ofValue g.2)])
      rw [List.append_assoc, List.append_assoc] at hrest
      exact hrest

/-- The fields are sorted. -/
theorem edited_sortFields (fields : List (String × Value K))
    (before : List (Option String × RawValue K)) :
    Edited (.mapping (before ++ ofFields fields))
      (.mapping (before ++ ofFields (Value.sortFields fields))) := by
  induction fields generalizing before with
  | nil => exact .refl _
  | cons f fields ih =>
    have hrest := ih (before ++ [(some f.1, ofValue f.2)])
    rw [List.append_assoc, List.append_assoc] at hrest
    exact hrest.trans (edited_orderedInsert f (Value.sortFields fields) before)

/-- A value and its sanitized form differ only in what is removed. -/
theorem edited_sanitize (v : RawValue K) : Edited v (ofValue v.sanitize) := by
  induction v using RawValue.inductionOn with
  | float x =>
    cases x with
    | finite => exact .refl _
    | _ => exact .rel _ _ (.value rfl rfl)
  | str text =>
    rw [sanitize_str]
    split_ifs with hurl
    · exact .rel _ _ (.value hurl rfl)
    · exact .refl _
  | bytes => exact .rel _ _ (.value rfl rfl)
  | other => exact .rel _ _ (.value rfl rfl)
  | sequence items ih =>
    change Edited _ (.sequence (ofItems (sanitizeItems items)))
    exact edited_items ih []
  | mapping entries ih =>
    rw [sanitize_mapping, ofValue_dict]
    exact (edited_entries ih []).trans (edited_sortFields _ [])
  | _ => exact .refl _

/-- **Values are sanitized alike** exactly if they differ only in what is removed. -/
theorem sanitize_eq_iff {v w : RawValue K} : v.sanitize = w.sanitize ↔ Edited v w := by
  refine ⟨fun h => ?_, Edited.sanitize_eq⟩
  exact (edited_sanitize v).trans (h ▸ .symm _ _ (edited_sanitize w))

/-! ## Long integers -/

/-- An integer with too many digits is kept. -/
inductive KeepsLong : RawValue K → Prop
  | int {n : ℤ} (h : JsonText.tooLong n = true) : KeepsLong (.int n)
  | item {items : List (RawValue K)} {v : RawValue K} (hitem : v ∈ items) (h : KeepsLong v) :
      KeepsLong (.sequence items)
  | entry {entries : List (Option String × RawValue K)} {key : String} {v : RawValue K}
      (hentry : (some key, v) ∈ entries) (hkey : unsafeField key = false) (h : KeepsLong v) :
      KeepsLong (.mapping entries)

theorem KeepsLong.occurs {v : RawValue K} (h : KeepsLong v) :
    ∃ n, JsonText.tooLong n = true ∧ Value.Occurs (.int n) v.sanitize := by
  induction h with
  | @int n h => exact ⟨n, h, .self⟩
  | item hitem h ih =>
    obtain ⟨n, hn, hoccurs⟩ := ih
    refine ⟨n, hn, ?_⟩
    rw [sanitize_sequence]
    exact .item (List.mem_map_of_mem hitem) hoccurs
  | @entry entries key v hentry hkey h ih =>
    obtain ⟨n, hn, hoccurs⟩ := ih
    refine ⟨n, hn, ?_⟩
    have hf : (key, v.sanitize) ∈ sanitizeEntries entries :=
      mem_sanitizeEntries.mpr ⟨hkey, v, hentry, rfl⟩
    rw [sanitize_mapping]
    exact .field ((Value.sortFields_perm _).mem_iff.mpr hf) hoccurs

theorem keepsLong_of_occurs {v : RawValue K} {n : ℤ} (hn : JsonText.tooLong n = true)
    (h : Value.Occurs (.int n) v.sanitize) : KeepsLong v := by
  induction v using RawValue.inductionOn with
  | int => cases h with | self => exact .int hn
  | float x => cases x <;> cases h
  | str text =>
    rw [sanitize_str] at h
    split_ifs at h <;> cases h
  | sequence items ih =>
    rw [sanitize_sequence] at h
    cases h with
    | item hsanitized h =>
      obtain ⟨item, hitem, rfl⟩ := List.mem_map.mp hsanitized
      exact .item hitem (ih item hitem h)
  | mapping entries ih =>
    rw [sanitize_mapping] at h
    cases h with
    | field hf h =>
      obtain ⟨hkey, v, hv, hsanitize⟩ :=
        mem_sanitizeEntries.mp ((Value.sortFields_perm _).mem_iff.mp hf)
      exact .entry hv hkey (ih _ hv (hsanitize ▸ h))
  | _ => cases h

end RawValue

/-! ## The bytes -/

section Bytes

variable (texts : FloatText K) (sha256 : List UInt8 → String)

/-- What is raised for an integer with too many digits. -/
def digitsExceeded : Raised :=
  .valueError ("Exceeds the limit (4300 digits) for integer string conversion; " ++
    "use sys.set_int_max_str_digits() to increase the limit")

/-- What `json.dumps` raises. -/
def raisedFor : Refusal → Raised
  | .digits => digitsExceeded
  | .notFinite => .valueError "Out of range float values are not JSON compliant"
  | .type => .other "TypeError"

/-- `canonical_json_bytes` -/
def canonicalJsonBytes (value : RawValue K) : Except Raised (List UInt8) :=
  match JsonText.dumps texts value.sanitize.sortKeys with
  | .error refusal => .error (raisedFor refusal)
  | .ok text =>
    match JsonText.asciiBytes text with
    | some bytes => .ok bytes
    | none => .error (.other "UnicodeEncodeError")

/-- `deterministic_digest` -/
def deterministicDigest (value : RawValue K) : Except Raised String :=
  (canonicalJsonBytes texts value).map sha256

variable {texts}

/-- A sanitized value is refused for nothing but an integer. -/
theorem refusal_of_clean {w : Value K} (h : Clean w) {refusal : Refusal}
    (hw : JsonText.refusal w = some refusal) :
    refusal = .digits ∧ ∃ n, w = .int n ∧ JsonText.tooLong n = true := by
  cases w with
  | int n =>
    rw [JsonText.refusal] at hw
    split_ifs at hw with hlong
    exact ⟨(Option.some.inj hw).symm, n, rfl, hlong⟩
  | float x =>
    cases x with
    | finite => cases hw
    | _ => cases h
  | bytes => cases h
  | other => cases h
  | _ => cases hw

/-- **The bytes of a value** are missing exactly if an integer with too many digits is kept. -/
theorem canonicalJsonBytes_eq_error {v : RawValue K} {e : Raised} :
    canonicalJsonBytes texts v = .error e ↔ v.KeepsLong ∧ e = digitsExceeded := by
  rw [canonicalJsonBytes, RawValue.sortKeys_sanitize]
  cases hdumps : JsonText.dumps texts v.sanitize with
  | error refusal =>
    obtain ⟨w, hw, hrefusal⟩ := JsonText.dumps_eq_error hdumps
    obtain ⟨rfl, n, rfl, hn⟩ := refusal_of_clean (RawValue.clean_of_occurs hw) hrefusal
    have hkeeps := RawValue.keepsLong_of_occurs hn hw
    constructor
    · intro h
      exact ⟨hkeeps, (Except.error.inj h).symm⟩
    · rintro ⟨-, rfl⟩
      rfl
  | ok text =>
    obtain ⟨bytes, hbytes⟩ := JsonText.exists_asciiBytes (JsonText.dumps_ascii hdumps)
    dsimp only
    rw [hbytes]
    constructor
    · intro h
      cases h
    · rintro ⟨hkeeps, -⟩
      obtain ⟨n, hn, hoccurs⟩ := hkeeps.occurs
      have hnone := JsonText.refusal_of_dumps_eq_ok hdumps hoccurs
      rw [JsonText.refusal, if_pos hn] at hnone
      cases hnone

/-- The bytes depend on the sanitized value. -/
theorem canonicalJsonBytes_congr {v w : RawValue K} (h : v.sanitize = w.sanitize) :
    canonicalJsonBytes texts v = canonicalJsonBytes texts w := by
  rw [canonicalJsonBytes, h, canonicalJsonBytes]

variable (texts)

/-- **The canonical bytes**: sanitizing is idempotent and leaves nothing that is removed, at any
depth; a value has the bytes of its sanitized form, unless an integer with too many digits is kept;
and what is removed shows neither in the bytes nor in the digest. -/
theorem canonicalJsonBytes_canonical (v : RawValue K) :
    (RawValue.ofValue v.sanitize).sanitize = v.sanitize ∧
    (∀ record, v = .mapping record → RawValue.sanitizeRecord
      (RawValue.ofFields (RawValue.sanitizeRecord record)) = RawValue.sanitizeRecord record) ∧
    (∀ w, Value.Occurs w v.sanitize → Clean w) ∧
    (∀ e, canonicalJsonBytes texts v = .error e ↔ v.KeepsLong ∧ e = digitsExceeded) ∧
    canonicalJsonBytes texts (.ofValue v.sanitize) = canonicalJsonBytes texts v ∧
    ∀ w, RawValue.Edited v w → canonicalJsonBytes texts v = canonicalJsonBytes texts w ∧
      deterministicDigest texts sha256 v = deterministicDigest texts sha256 w := by
  have hidempotent : ∀ v : RawValue K, (RawValue.ofValue v.sanitize).sanitize = v.sanitize :=
    fun v => (RawValue.sanitize_ofValue _).trans (RawValue.sanitizeValue_sanitize v)
  refine ⟨hidempotent v, ?_, fun w => RawValue.clean_of_occurs,
    fun e => canonicalJsonBytes_eq_error, canonicalJsonBytes_congr (hidempotent v), ?_⟩
  · rintro record rfl
    exact Value.dict.inj (hidempotent (.mapping record))
  · intro w h
    have hbytes : canonicalJsonBytes texts v = canonicalJsonBytes texts w :=
      canonicalJsonBytes_congr (RawValue.sanitize_eq_iff.mpr h)
    exact ⟨hbytes, by rw [deterministicDigest, hbytes, deterministicDigest]⟩

/-- A frame index of 4301 digits has no bytes. -/
theorem canonicalJsonBytes_long : ¬ ∀ v : RawValue ℕ, ∃ bytes,
    canonicalJsonBytes ⟨Nat.toDigits 10, JsonText.toDigits_ascii⟩ v = .ok bytes := by
  intro h
  have hlong : JsonText.tooLong (10 ^ JsonText.maxDigits) = true := by
    have hten : (10 : ℤ).natAbs = 10 := rfl
    rw [JsonText.tooLong, decide_eq_true_eq, Int.natAbs_pow, hten]
  have hkeeps : (RawValue.mapping (K := ℕ)
      [(some "frame_index", .int (10 ^ JsonText.maxDigits))]).KeepsLong :=
    .entry List.mem_cons_self (by decide +kernel) (.int hlong)
  obtain ⟨bytes, hbytes⟩ := h (.mapping [(some "frame_index", .int (10 ^ JsonText.maxDigits))])
  rw [canonicalJsonBytes_eq_error.mpr ⟨hkeeps, rfl⟩] at hbytes
  cases hbytes

end Bytes

end BoulderFrame
