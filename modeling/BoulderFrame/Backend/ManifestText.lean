import BoulderFrame.Library.Decode
import BoulderFrame.Debug.Sanitize

/-!
# Safe texts of a manifest

The backend shows texts of a manifest to the client only if they look like no location and no
credential, and it refuses fields whose names may stand for one.

## Main definitions

* `summaryFieldName`, `versionIdentifier`: the accepted names and versions
* `unsafeManifestField`, `safeManifestText`: the refused names, and the accepted texts

## Main results

* `safeManifestText_length`: an accepted text is not empty, and is not longer than allowed
-/

namespace BoulderFrame

namespace Domain

/-! ## Names and versions -/

def isLowerOrDigit (c : Char) : Bool := c.isLower || c.isDigit

/-- `summaryFieldName.MatchString` -/
def summaryFieldName (key : String) : Bool :=
  match key.toList with
  | [] => false
  | c :: rest =>
    c.isLower && decide (rest.length ≤ 63) && rest.all fun c => isLowerOrDigit c || c == '_'

/-- `versionIdentifier.MatchString` -/
def versionIdentifier (version : String) : Bool :=
  let chars := version.toList
  decide (1 ≤ chars.length) && decide (chars.length ≤ 128) &&
    chars.all fun c => c.isAlphanum || c ∈ ['.', '_', '-']

/-- `unicode.ToLower`, as far as ASCII letters come of it. -/
def toLower (c : Char) : Char :=
  if c = '\u212A' then 'k' else if c = '\u0130' then 'i' else c.toLower

def unsafeManifestFieldParts : List String :=
  ["url", "uri", "href", "token", "secret", "password", "credential", "authorization", "cookie",
    "signature", "accesskey", "storagekey", "objectkey", "endpoint"]

def unsafeManifestField (field : String) : Bool :=
  let field := (field.toList.map toLower).filter (· ∉ ['_', '-', '.'])
  unsafeManifestFieldParts.any (hasPart field)

/-! ## Texts -/

/-- The bytes of a text. -/
def byteLength (text : String) : ℕ := (text.toList.map Char.utf8Size).sum

def isWordChar (c : Char) : Bool := c.isAlphanum || c == '_'

/-- A word starts or ends between two characters. -/
def atBoundary (before after : Option Char) : Bool :=
  before.any isWordChar != after.any isWordChar

/-- An access key starts here: its prefix and 16 letters or digits, and no more. -/
def startsAccessKey (before : Option Char) (text : List Char) : Bool :=
  let folded := text.map Decoder.foldRune
  atBoundary before text.head? && ["akia", "asia"].any (·.toList.isPrefixOf folded) &&
    decide (20 ≤ text.length) && ((folded.drop 4).take 16).all isLowerOrDigit &&
    atBoundary text[19]? text[20]?

/-- A character of the credentials after a scheme. -/
def isCredentialChar (c : Char) : Bool :=
  isLowerOrDigit c || c ∈ ['.', '_', '~', '+', '/', '=', '-']

/-- The header of an authorization starts here: a scheme, spaces, and credentials. -/
def startsAuthorization (before : Option Char) (text : List Char) : Bool :=
  let folded := text.map Decoder.foldRune
  let isSpace := (· ∈ ['\t', '\n', '\x0c', '\r', ' '])
  atBoundary before text.head? && ["bearer", "basic"].any fun scheme =>
    let rest := folded.drop scheme.toList.length
    scheme.toList.isPrefixOf folded && rest.head?.any isSpace &&
      (rest.dropWhile isSpace).head?.any isCredentialChar

/-- A pattern starts at some place of a text, of which the character before is given. -/
def matchesAt (starts : Option Char → List Char → Bool) : Option Char → List Char → Bool
  | before, [] => starts before []
  | before, c :: text => starts before (c :: text) || matchesAt starts (some c) text

def unsafeTextParts : List String :=
  ["://", "www.", "x-amz-", "private/debug/", "access_key", "secret", "token", "password",
    "authorization", "credential", "signature"]

def safeManifestText (value : String) (maxLen : ℕ) : Bool :=
  let chars := value.toList
  let lower := chars.map toLower
  decide (value ≠ "") && decide (byteLength value ≤ maxLen) &&
    !(chars.any (· ∈ ['\x00', '\r', '\n', '\t']) || unsafeTextParts.any (hasPart lower) ||
      matchesAt startsAccessKey none chars || matchesAt startsAuthorization none chars)

theorem safeManifestText_length {value : String} {maxLen : ℕ}
    (h : safeManifestText value maxLen = true) : value ≠ "" ∧ byteLength value ≤ maxLen := by
  unfold safeManifestText at h
  dsimp only at h
  rw [Bool.and_eq_true, Bool.and_eq_true] at h
  exact ⟨of_decide_eq_true h.1.1, of_decide_eq_true h.1.2⟩

end Domain

end BoulderFrame
