import RegistryGate.Text.Blank
import RegistryGate.Text.Split
import RegistryGate.Text.Word

/-!
# Redaction of credentials

Texts for the log lose the secrets of three kinds of credential: the value behind a scheme
(`Bearer …`, `Authorization: token …`), access tokens known by their marks, and web tokens of three
segments. A credential counts only where a word can begin, and the text is read from the left: what
one credential takes is not looked at again. What leads to a secret stays, the secret is masked.
-/

namespace RegistryGate.Log

open Text

/-- What stands in a log in place of a secret. -/
def mask : List Char := "***REDACTED***".toList

/-- A credential at the head of a text: `lead` is kept and `secret` masked. -/
structure Sighting where
  lead : List Char
  secret : List Char
deriving DecidableEq

/-! ## Parts of credentials -/

def isValueChar (c : Char) : Bool := !(isBlankChar c || c == '"' || c == '\'' || c == ',')

def isTokenChar (c : Char) : Bool := isAsciiAlnum c.toNat || c == '_'

def isSegmentChar (c : Char) : Bool := isTokenChar c || c == '-'

/-- The quotation mark at the head of a text, if there is one, and the rest. -/
def splitQuote : List Char → List Char × List Char
  | '"' :: rest => (['"'], rest)
  | '\'' :: rest => (['\''], rest)
  | text => ([], text)

def splitBlanks (text : List Char) : List Char × List Char :=
  (text.takeWhile isBlankChar, text.dropWhile isBlankChar)

/-- The colon or equals sign at the head of a text and the rest. -/
def splitAssignment? : List Char → Option (List Char × List Char)
  | ':' :: rest => some ([':'], rest)
  | '=' :: rest => some (['='], rest)
  | _ => none

/-! ## Kinds of credentials -/

def bearerWord : List Char := "Bearer".toList

def authorizationWord : List Char := "Authorization".toList

def tokenWord : List Char := "token".toList

/-- How the realm begins that a challenge names where a credential has its token. -/
def realmMark : List Char := "realm=".toList

/-- The word `Bearer` with blanks at the head of a text, and the rest, unless that is a realm. -/
def bearerLead? (text : List Char) : Option (List Char × List Char) := do
  let (blanks, value) := splitBlanks (← after? bearerWord text)
  if blanks.isEmpty || realmMark.isPrefixOf value then none else some (bearerWord ++ blanks, value)

/-- The word `Authorization` set to `token`, however the two are quoted, with blanks at the head of
a text, and the rest. -/
def authorizationLead? (text : List Char) : Option (List Char × List Char) := do
  let (quote, rest) := splitQuote (← after? authorizationWord text)
  let (before, rest) := splitBlanks rest
  let (assignment, rest) ← splitAssignment? rest
  let (behind, rest) := splitBlanks rest
  let (inner, rest) := splitQuote rest
  let (blanks, value) := splitBlanks (← after? tokenWord rest)
  if blanks.isEmpty then none
  else some (authorizationWord ++ quote ++ before ++ assignment ++ behind ++ inner ++ tokenWord ++
    blanks, value)

/-- The value behind a scheme. -/
def schemeValue? (text : List Char) : Option Sighting := do
  let (lead, value) ← (bearerLead? text).or (authorizationLead? text)
  let secret := value.takeWhile isValueChar
  if secret.isEmpty then none else some ⟨lead, secret⟩

def tokenMarks : List (List Char) :=
  ["ghp_", "gho_", "ghu_", "ghs_", "ghr_", "github_pat_"].map String.toList

def accessToken? (text : List Char) : Option Sighting := do
  let mark ← tokenMarks.find? (·.isPrefixOf text)
  let body := (text.drop mark.length).takeWhile isTokenChar
  if body.isEmpty then none else some ⟨[], mark ++ body⟩

def webTokenMark : List Char := "eyJ".toList

/-- A web token: three segments, of which the first begins as an encoded object does and the second
has a character. -/
def webToken? (text : List Char) : Option Sighting := do
  let rest ← after? webTokenMark text
  let payload ← after? ['.'] (rest.dropWhile isSegmentChar)
  let signature ← after? ['.'] (payload.dropWhile isSegmentChar)
  if (payload.takeWhile isSegmentChar).isEmpty then none
  else some ⟨[], webTokenMark ++ rest.takeWhile isSegmentChar ++
    '.' :: payload.takeWhile isSegmentChar ++ '.' :: signature.takeWhile isSegmentChar⟩

/-- The credential at the head of a text. -/
def sighting? (text : List Char) : Option Sighting :=
  ((schemeValue? text).or (accessToken? text)).or (webToken? text)

/-! ## Scrubbing -/

/-- The text with its credentials masked, where `afterWordChar` tells whether a word character
stands before it and its first `taken` characters belong to a credential that is already masked. -/
def scrubFrom (afterWordChar : Bool) (taken : Nat) : List Char → List Char
  | [] => []
  | c :: rest =>
    match taken with
    | left + 1 => scrubFrom (isWordChar c) left rest
    | 0 =>
      match if afterWordChar then none else sighting? (c :: rest) with
      | some found =>
        found.lead ++ mask ++
          scrubFrom (isWordChar c) (found.lead.length + found.secret.length - 1) rest
      | none => c :: scrubFrom (isWordChar c) 0 rest

/-- The characters with every credential masked. -/
def scrubChars (text : List Char) : List Char := scrubFrom false 0 text

def scrub (text : String) : String := .ofList (scrubChars text.toList)

end RegistryGate.Log
