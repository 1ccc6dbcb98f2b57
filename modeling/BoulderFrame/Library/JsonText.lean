import BoulderFrame.Library.Outcome
import BoulderFrame.Library.Value

/-!
# Values as JSON text

A value is written as text in ASCII, without blanks. Texts are escaped; integers are refused from a
number of digits on, and so are numbers that are not finite and values that JSON does not have. The
text of a finite number is given.

## Main definitions

* `escaped`: a text in quotes
* `FloatText`: the texts of finite numbers
* `Refusal`, `refusal`: why a value itself is refused
* `dumps`: the text of a value
* `asciiBytes`: the bytes of a text

## Main results

* `dumps_eq_error`, `refusal_of_dumps_eq_ok`: a value is refused for a value that occurs in it
* `dumps_ascii`: the text is in ASCII
-/

namespace JsonText

/-! ## Texts -/

/-- A digit of a hexadecimal number. -/
def hexDigit (n : ℕ) : Char := Nat.digitChar (n % 16)

/-- The escape of a 16-bit code. -/
def escapeCode (n : ℕ) : List Char :=
  ['\\', 'u', hexDigit (n / 4096), hexDigit (n / 256), hexDigit (n / 16), hexDigit n]

/-- A character in a quoted text: codes beyond 16 bits are written as two. -/
def escapeChar (c : Char) : List Char :=
  if c = '"' then ['\\', '"']
  else if c = '\\' then ['\\', '\\']
  else if c = '\n' then ['\\', 'n']
  else if c = '\r' then ['\\', 'r']
  else if c = '\t' then ['\\', 't']
  else if c = '\x08' then ['\\', 'b']
  else if c = '\x0c' then ['\\', 'f']
  else if 32 ≤ c.toNat ∧ c.toNat ≤ 126 then [c]
  else if c.toNat < 65536 then escapeCode c.toNat
  else escapeCode (0xD800 + (c.toNat - 65536) / 1024) ++ escapeCode (0xDC00 + c.toNat % 1024)

/-- A text in quotes. -/
def escaped (text : String) : List Char := '"' :: (text.toList.flatMap escapeChar ++ ['"'])

/-- Every character of the text is in ASCII. -/
def Ascii (text : List Char) : Prop := ∀ c ∈ text, c.toNat < 128

theorem ascii_of_all {text : List Char} (h : text.all (·.toNat < 128) = true) : Ascii text :=
  fun c hc => of_decide_eq_true (List.all_eq_true.mp h c hc)

theorem Ascii.append {s t : List Char} (hs : Ascii s) (ht : Ascii t) : Ascii (s ++ t) :=
  List.forall_mem_append.mpr ⟨hs, ht⟩

theorem Ascii.cons {c : Char} {s : List Char} (hc : c.toNat < 128) (hs : Ascii s) :
    Ascii (c :: s) :=
  List.forall_mem_cons.mpr ⟨hc, hs⟩

theorem hexDigit_ascii (n : ℕ) : (hexDigit n).toNat < 128 := by
  have hdigits : ∀ d < 16, (Nat.digitChar d).toNat < 128 := by decide
  exact hdigits _ (Nat.mod_lt _ (by decide))

theorem escapeCode_ascii (n : ℕ) : Ascii (escapeCode n) :=
  .cons (by decide) (.cons (by decide) (.cons (hexDigit_ascii _) (.cons (hexDigit_ascii _)
    (.cons (hexDigit_ascii _) (.cons (hexDigit_ascii _) fun _ h => absurd h List.not_mem_nil)))))

theorem escapeChar_ascii (c : Char) : Ascii (escapeChar c) := by
  have hpair : ∀ d : Char, d.toNat < 128 → Ascii ['\\', d] := fun d hd =>
    .cons (by decide) (.cons hd fun _ h => absurd h List.not_mem_nil)
  unfold escapeChar
  split_ifs with _ _ _ _ _ _ _ hprintable
  · exact hpair _ (by decide)
  · exact hpair _ (by decide)
  · exact hpair _ (by decide)
  · exact hpair _ (by decide)
  · exact hpair _ (by decide)
  · exact hpair _ (by decide)
  · exact hpair _ (by decide)
  · exact .cons (by omega) fun _ h => absurd h List.not_mem_nil
  · exact escapeCode_ascii _
  · exact (escapeCode_ascii _).append (escapeCode_ascii _)

theorem escaped_ascii (text : String) : Ascii (escaped text) := by
  refine .cons (by decide) (.append ?_ (ascii_of_all (by decide)))
  intro c hc
  obtain ⟨d, -, hc⟩ := List.mem_flatMap.mp hc
  exact escapeChar_ascii d c hc

/-! ## Numbers -/

/-- The texts of finite numbers. -/
structure FloatText (K : Type) where
  text : K → List Char
  ascii : ∀ x, Ascii (text x)

/-- The number of digits up to which integers are written. -/
def maxDigits : ℕ := 4300

/-- The integer has more digits. -/
def tooLong (n : ℤ) : Bool := decide (10 ^ maxDigits ≤ n.natAbs)

def intText (n : ℤ) : List Char :=
  if n < 0 then '-' :: Nat.toDigits 10 n.natAbs else Nat.toDigits 10 n.natAbs

theorem toDigits_ascii (n : ℕ) : Ascii (Nat.toDigits 10 n) := by
  intro c hc
  have hdigit := Nat.isDigit_of_mem_toDigits (by decide) (by decide) hc
  rw [Char.isDigit, Bool.and_eq_true, decide_eq_true_eq, decide_eq_true_eq] at hdigit
  have hle : c.val.toNat ≤ '9'.val.toNat := hdigit.2
  have hnine : '9'.val.toNat = 57 := by decide
  change c.val.toNat < 128
  omega

theorem intText_ascii (n : ℤ) : Ascii (intText n) := by
  unfold intText
  split_ifs
  · exact .cons (by decide) (toDigits_ascii _)
  · exact toDigits_ascii _

/-! ## Values -/

variable {K : Type}

/-- Why a value is refused. -/
inductive Refusal
  | digits
  | notFinite
  | type
  deriving DecidableEq, Repr

/-- Texts with commas between them. -/
def joined : List (List Char) → List Char
  | [] => []
  | [part] => part
  | part :: next :: parts => part ++ ',' :: joined (next :: parts)

theorem joined_ascii {parts : List (List Char)} (h : ∀ part ∈ parts, Ascii part) :
    Ascii (joined parts) := by
  induction parts with
  | nil => exact fun _ hc => absurd hc List.not_mem_nil
  | cons part parts ih =>
    obtain ⟨hpart, hparts⟩ := List.forall_mem_cons.mp h
    cases parts with
    | nil => exact hpart
    | cons next parts => exact hpart.append (.cons (by decide) (ih hparts))

/-- Why a value itself is refused, if it is. -/
def refusal : Value K → Option Refusal
  | .int n => if tooLong n then some .digits else none
  | .float (.finite _) => none
  | .float _ => some .notFinite
  | .bytes _ => some .type
  | .other => some .type
  | _ => none

section Dumps

variable (texts : FloatText K)

mutual

/-- The text of a value. -/
def dumps : Value K → Except Refusal (List Char)
  | .none => .ok "null".toList
  | .bool value => .ok (if value then "true".toList else "false".toList)
  | .int n => if tooLong n then .error .digits else .ok (intText n)
  | .float (.finite x) => .ok (texts.text x)
  | .float _ => .error .notFinite
  | .str text => .ok (escaped text)
  | .list items => do
    let parts ← dumpsItems items
    return '[' :: (joined parts ++ [']'])
  | .dict fields => do
    let parts ← dumpsFields fields
    return '\x7b' :: (joined parts ++ ['\x7d'])
  | .bytes _ => .error .type
  | .other => .error .type

def dumpsItems : List (Value K) → Except Refusal (List (List Char))
  | [] => .ok []
  | item :: items => do
    let part ← dumps item
    let parts ← dumpsItems items
    return part :: parts

def dumpsFields : List (String × Value K) → Except Refusal (List (List Char))
  | [] => .ok []
  | (key, v) :: fields => do
    let part ← dumps v
    let parts ← dumpsFields fields
    return (escaped key ++ ':' :: part) :: parts

end

variable {texts}

theorem dumpsItems_eq (items : List (Value K)) :
    dumpsItems texts items = items.mapM (dumps texts) := by
  induction items with
  | nil => rfl
  | cons item items ih =>
    rw [dumpsItems, ih, List.mapM_cons]

/-- The part of a field. -/
def dumpsField (texts : FloatText K) (f : String × Value K) : Except Refusal (List Char) :=
  dumps texts f.2 >>= fun part => pure (escaped f.1 ++ ':' :: part)

theorem dumpsFields_eq (fields : List (String × Value K)) :
    dumpsFields texts fields = fields.mapM (dumpsField texts) := by
  induction fields with
  | nil => rfl
  | cons f fields ih =>
    rw [dumpsFields, ih, List.mapM_cons, dumpsField]
    cases dumps texts f.2 <;> rfl

/-- **A refused value** has a value in it that is refused itself. -/
theorem dumps_eq_error {v : Value K} {e : Refusal} (h : dumps texts v = .error e) :
    ∃ w, Value.Occurs w v ∧ refusal w = some e := by
  induction v using Value.inductionOn with
  | int n =>
    refine ⟨_, .self, ?_⟩
    rw [dumps] at h
    rw [refusal]
    split_ifs at h with hlong
    rw [if_pos hlong, Except.error.inj h]
  | float x =>
    refine ⟨_, .self, ?_⟩
    cases x with
    | finite x => cases h
    | _ => exact congrArg some (Except.error.inj h)
  | bytes => exact ⟨_, .self, congrArg some (Except.error.inj h)⟩
  | other => exact ⟨_, .self, congrArg some (Except.error.inj h)⟩
  | list items ih =>
    rw [dumps, dumpsItems_eq] at h
    cases hparts : items.mapM (dumps texts) with
    | ok parts =>
      rw [hparts] at h
      cases h
    | error e' =>
      rw [hparts] at h
      obtain rfl := Except.error.inj h
      obtain ⟨item, hitem, hraise⟩ := Except.mapM_eq_error hparts
      obtain ⟨w, hw, hrefusal⟩ := ih item hitem hraise
      exact ⟨w, .item hitem hw, hrefusal⟩
  | dict fields ih =>
    rw [dumps, dumpsFields_eq] at h
    cases hparts : fields.mapM (dumpsField texts) with
    | ok parts =>
      rw [hparts] at h
      cases h
    | error e' =>
      rw [hparts] at h
      obtain rfl := Except.error.inj h
      obtain ⟨f, hf, hraise⟩ := Except.mapM_eq_error hparts
      cases hv : dumps texts f.2 with
      | ok part =>
        rw [dumpsField, hv] at hraise
        cases hraise
      | error e'' =>
        rw [dumpsField, hv] at hraise
        obtain rfl := Except.error.inj hraise
        obtain ⟨w, hw, hrefusal⟩ := ih f hf hv
        exact ⟨w, .field hf hw, hrefusal⟩
  | _ => cases h

/-- A value that is written has no value in it that is refused. -/
theorem refusal_of_dumps_eq_ok {v w : Value K} {text : List Char} (h : dumps texts v = .ok text)
    (hw : Value.Occurs w v) : refusal w = none := by
  induction hw generalizing text with
  | self =>
    cases w with
    | int n =>
      rw [dumps] at h
      obtain ⟨hlong, -⟩ := Except.ok_of_guard h
      rw [refusal, if_neg hlong]
    | float x =>
      cases x with
      | finite x => rfl
      | _ => cases h
    | bytes => cases h
    | other => cases h
    | _ => rfl
  | @item items item hitem hw ih =>
    rw [dumps, dumpsItems_eq] at h
    obtain ⟨parts, hparts, -⟩ := Except.bind_eq_ok.mp h
    obtain ⟨part, hpart⟩ := Except.exists_mapM_iff.mp ⟨parts, hparts⟩ item hitem
    exact ih hpart
  | @field fields f hf hw ih =>
    rw [dumps, dumpsFields_eq] at h
    obtain ⟨parts, hparts, -⟩ := Except.bind_eq_ok.mp h
    obtain ⟨part, hpart⟩ := Except.exists_mapM_iff.mp ⟨parts, hparts⟩ f hf
    obtain ⟨text, htext, -⟩ := Except.bind_eq_ok.mp hpart
    exact ih htext

/-- **The text of a value** is in ASCII. -/
theorem dumps_ascii {v : Value K} {text : List Char} (h : dumps texts v = .ok text) :
    Ascii text := by
  induction v using Value.inductionOn generalizing text with
  | none =>
    rw [← Except.ok.inj h]
    exact ascii_of_all (by decide)
  | bool value =>
    rw [← Except.ok.inj h]
    refine ascii_of_all ?_
    cases value <;> decide
  | int n =>
    rw [dumps] at h
    obtain ⟨-, h⟩ := Except.ok_of_guard h
    rw [← Except.ok.inj h]
    exact intText_ascii n
  | float x =>
    cases x with
    | finite x =>
      rw [← Except.ok.inj h]
      exact texts.ascii x
    | _ => cases h
  | str text' =>
    rw [← Except.ok.inj h]
    exact escaped_ascii text'
  | list items ih =>
    rw [dumps, dumpsItems_eq] at h
    obtain ⟨parts, hparts, h⟩ := Except.bind_eq_ok.mp h
    rw [← Except.ok.inj h]
    refine .cons (by decide) (.append (joined_ascii fun part hpart => ?_)
      (ascii_of_all (by decide)))
    obtain ⟨item, hitem, hdumps⟩ := (Except.mapM_eq_ok.mp hparts).exists_left hpart
    exact ih item hitem hdumps
  | dict fields ih =>
    rw [dumps, dumpsFields_eq] at h
    obtain ⟨parts, hparts, h⟩ := Except.bind_eq_ok.mp h
    rw [← Except.ok.inj h]
    refine .cons (by decide) (.append (joined_ascii fun part hpart => ?_)
      (ascii_of_all (by decide)))
    obtain ⟨f, hf, hdumps⟩ := (Except.mapM_eq_ok.mp hparts).exists_left hpart
    obtain ⟨text, htext, hpart⟩ := Except.bind_eq_ok.mp hdumps
    rw [← Except.ok.inj hpart]
    exact (escaped_ascii _).append (.cons (by decide) (ih f hf htext))
  | bytes => cases h
  | other => cases h

end Dumps

/-! ## Bytes -/

/-- The bytes of a text in ASCII. -/
def asciiBytes (text : List Char) : Option (List UInt8) :=
  text.mapM fun c => if c.toNat < 128 then some c.toNat.toUInt8 else none

/-- A text in ASCII has its bytes. -/
theorem exists_asciiBytes {text : List Char} (h : Ascii text) :
    ∃ bytes, asciiBytes text = some bytes := by
  induction text with
  | nil => exact ⟨[], rfl⟩
  | cons c text ih =>
    obtain ⟨hc, htext⟩ := List.forall_mem_cons.mp h
    obtain ⟨bytes, hbytes⟩ := ih htext
    refine ⟨c.toNat.toUInt8 :: bytes, Option.mapM_eq_some.mpr (.cons (if_pos hc) ?_)⟩
    exact Option.mapM_eq_some.mp hbytes

end JsonText
