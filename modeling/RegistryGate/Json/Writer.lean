import RegistryGate.Datum
import RegistryGate.Number.Numeral

/-!
# Writing JSON

Strings are written in one of two ways: with every character but the quote, the backslash and the
controls as it is, or in ASCII alone, where a character beyond U+FFFF takes the escapes of a
surrogate pair. A document has a space behind each comma and colon. `write` refuses what has no
document: bytes and exceptions, integers that are too long, and containers that nest too deep.
-/

namespace RegistryGate.Json

def numberEscape (code : Nat) : List Char := '\\' :: 'u' :: Text.hexFixed 4 code

/-- The escape that every string needs for a code point, if any: the quote, the backslash, and the
controls below the space. -/
def escape? (code : Nat) : Option (List Char) :=
  if code = 0x22 then some ['\\', '"']
  else if code = 0x5c then some ['\\', '\\']
  else if code = 0x0a then some ['\\', 'n']
  else if code = 0x0d then some ['\\', 'r']
  else if code = 0x09 then some ['\\', 't']
  else if code = 0x0c then some ['\\', 'f']
  else if code = 0x08 then some ['\\', 'b']
  else if code < 0x20 then some (numberEscape code)
  else none

/-- A character of a string that may hold any character. -/
def stringChar (c : Char) : List Char := (escape? c.toNat).getD [c]

def string (text : List Char) : List Char := '"' :: (text.flatMap stringChar ++ ['"'])

/-- A code point of a string in ASCII. -/
def asciiPoint (point : CodePoint) : List Char :=
  let code := point.val
  match escape? code with
  | some escape => escape
  | none =>
    if code < 0x7f then [Char.ofNat code]
    else if code < 0x10000 then numberEscape code
    else
      numberEscape (0xd800 + (code - 0x10000) / 0x400) ++
        numberEscape (0xdc00 + (code - 0x10000) % 0x400)

def asciiString (text : WideText) : List Char := '"' :: (text.points.flatMap asciiPoint ++ ['"'])

def number (value : Binary64) : String :=
  match value with
  | .nan => "NaN"
  | .infinite negative => if negative then "-Infinity" else "Infinity"
  | value => value.text

/-- Texts with a comma and a space between them. -/
def commaSeparated : List (List Char) → List Char
  | [] => []
  | [text] => text
  | text :: rest => text ++ ',' :: ' ' :: commaSeparated rest

mutual

/-- The text of a document in ASCII. Sequences of every kind are arrays. Bytes and exceptions have no
text, and `write` refuses a value that holds any. -/
def document : Datum WideText → List Char
  | .null => "null".toList
  | .bool value => (if value then "true" else "false").toList
  | .int value => (toString value).toList
  | .real value => (number value).toList
  | .text value => asciiString value
  | .list items => '[' :: (commaSeparated (documentItems items) ++ [']'])
  | .tuple items => '[' :: (commaSeparated (documentItems items) ++ [']'])
  | .mapping entries => '\x7b' :: (commaSeparated (documentMembers entries) ++ ['\x7d'])
  | .bytes _ => []
  | .failure _ => []

def documentItems : List (Datum WideText) → List (List Char)
  | [] => []
  | item :: rest => document item :: documentItems rest

def documentMembers : List (WideText × Datum WideText) → List (List Char)
  | [] => []
  | (key, value) :: rest =>
    (asciiString key ++ ':' :: ' ' :: document value) :: documentMembers rest

end

/-! ## Values without a document -/

/-- What keeps a value from being written. -/
inductive WriteError where
  /-- Bytes and exceptions have no form in a document. -/
  | wrongType
  | tooManyDigits
  | tooDeep
deriving DecidableEq, Inhabited

mutual

/-- The first thing that keeps a value from being written where `depth` levels of containers are
left. An empty container is a level too. -/
def obstacle? (depth : Nat) : Datum WideText → Option WriteError
  | .null => none
  | .bool _ => none
  | .int value =>
    if maxDigits < (toString value.natAbs).length then some .tooManyDigits else none
  | .real _ => none
  | .text _ => none
  | .bytes _ => some .wrongType
  | .list items =>
    match depth with
    | 0 => some .tooDeep
    | depth + 1 => obstacleIn? depth items
  | .tuple items =>
    match depth with
    | 0 => some .tooDeep
    | depth + 1 => obstacleIn? depth items
  | .mapping entries =>
    match depth with
    | 0 => some .tooDeep
    | depth + 1 => obstacleAmong? depth entries
  | .failure _ => some .wrongType

def obstacleIn? (depth : Nat) : List (Datum WideText) → Option WriteError
  | [] => none
  | item :: rest => (obstacle? depth item).or (obstacleIn? depth rest)

def obstacleAmong? (depth : Nat) : List (WideText × Datum WideText) → Option WriteError
  | [] => none
  | (_, value) :: rest => (obstacle? depth value).or (obstacleAmong? depth rest)

end

/-- The document of a value whose containers nest at most `depth` levels deep. -/
def write (depth : Nat) (value : Datum WideText) : Except WriteError (List Char) :=
  match obstacle? depth value with
  | some error => .error error
  | none => .ok (document value)

end RegistryGate.Json
