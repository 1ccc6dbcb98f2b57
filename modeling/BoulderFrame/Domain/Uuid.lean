import Mathlib.Init

/-!
# UUIDs

A UUID is known by its canonical text: 32 lower-case hexadecimal digits in groups of 8, 4, 4, 4
and 12, with hyphens between them.

## Main definitions

* `Uuid`: a UUID, with its canonical text
* `HexDigest`: the text of a SHA-256 digest
-/

namespace BoulderFrame

/-- A lower-case hexadecimal digit. -/
def isHexDigit (c : Char) : Bool :=
  ('0' ≤ c && c ≤ '9') || ('a' ≤ c && c ≤ 'f')

/-- The characters of a canonical text. -/
def isCanonicalUuid (text : List Char) : Bool :=
  text.length == 36 && text.zipIdx.all fun (c, i) =>
    if i ∈ [8, 13, 18, 23] then c == '-' else isHexDigit c

/-- A UUID, in its canonical text. -/
structure Uuid where
  text : String
  canonical : isCanonicalUuid text.toList
  deriving DecidableEq, Repr

/-- `hexdigest`: 64 lower-case hexadecimal digits. -/
structure HexDigest where
  text : String
  canonical : text.toList.length = 64 ∧ text.toList.all isHexDigit
  deriving DecidableEq

theorem Uuid.ext_text {id id' : Uuid} (h : id.text = id'.text) : id = id' := by
  cases id
  cases id'
  cases h
  rfl

theorem Uuid.length_text (id : Uuid) : id.text.toList.length = 36 := by
  have h := id.canonical
  simp only [isCanonicalUuid, Bool.and_eq_true, beq_iff_eq] at h
  exact h.1

theorem Uuid.mem_text (id : Uuid) {c : Char} (h : c ∈ id.text.toList) :
    c = '-' ∨ isHexDigit c = true := by
  have hall := id.canonical
  simp only [isCanonicalUuid, Bool.and_eq_true, List.all_eq_true] at hall
  obtain ⟨i, hi⟩ := List.mem_iff_getElem?.mp h
  have := hall.2 (c, i) (List.mem_zipIdx_iff_getElem?.mpr hi)
  by_cases hgroup : i ∈ [8, 13, 18, 23]
  · rw [if_pos hgroup] at this
    exact .inl (beq_iff_eq.mp this)
  · rw [if_neg hgroup] at this
    exact .inr this

theorem HexDigest.mem_text (digest : HexDigest) {c : Char} (h : c ∈ digest.text.toList) :
    isHexDigit c = true :=
  List.all_eq_true.mp digest.canonical.2 c h

/-- Three UUIDs between fixed texts, and the rest, are determined by the whole text. -/
theorem Uuid.append_injective₃ {a b c d rest rest' : String} {id₁ id₂ id₃ id₁' id₂' id₃' : Uuid}
    (h : a ++ id₁.text ++ b ++ id₂.text ++ c ++ id₃.text ++ d ++ rest =
      a ++ id₁'.text ++ b ++ id₂'.text ++ c ++ id₃'.text ++ d ++ rest') :
    id₁ = id₁' ∧ id₂ = id₂' ∧ id₃ = id₃' ∧ rest = rest' := by
  have hchars := congrArg String.toList h
  simp only [String.toList_append, List.append_assoc] at hchars
  obtain ⟨h₁, hchars⟩ := List.append_inj (List.append_cancel_left hchars)
    (id₁.length_text.trans id₁'.length_text.symm)
  obtain ⟨h₂, hchars⟩ := List.append_inj (List.append_cancel_left hchars)
    (id₂.length_text.trans id₂'.length_text.symm)
  obtain ⟨h₃, hchars⟩ := List.append_inj (List.append_cancel_left hchars)
    (id₃.length_text.trans id₃'.length_text.symm)
  exact ⟨Uuid.ext_text (String.toList_inj.mp h₁), Uuid.ext_text (String.toList_inj.mp h₂),
    Uuid.ext_text (String.toList_inj.mp h₃), String.toList_inj.mp (List.append_cancel_left hchars)⟩

/-- A UUID from its canonical text. -/
def Uuid.ofCanonical (text : String) : Option Uuid :=
  if h : isCanonicalUuid text.toList then some ⟨text, h⟩ else none

theorem Uuid.ofCanonical_text (id : Uuid) : Uuid.ofCanonical id.text = some id := dif_pos id.canonical

/-- Texts that differ in their first characters. -/
theorem append_ne_of_take {a b x y : String} {n : Nat} (ha : n ≤ a.toList.length)
    (hb : n ≤ b.toList.length) (h : a.toList.take n ≠ b.toList.take n) : a ++ x ≠ b ++ y := by
  intro heq
  have hchars := congrArg (List.take n ∘ String.toList) heq
  simp only [Function.comp_apply, String.toList_append, List.take_append_of_le_length ha,
    List.take_append_of_le_length hb] at hchars
  exact h hchars

end BoulderFrame
