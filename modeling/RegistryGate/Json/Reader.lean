import RegistryGate.Datum
import RegistryGate.Number.Numeral

/-!
# Reading JSON

A document is read from code points, so that an escape may name a lone surrogate. Beside the
standard grammar the numbers `NaN`, `Infinity` and `-Infinity` are accepted. Of a repeated key the
last value counts. How deep containers nest is limited by an argument, and how long numbers are by
`maxDigits`. There are two dialects, which share the grammar and differ in how they take the limits
and the surrogates.
-/

namespace RegistryGate

def CodePoint.is (point : CodePoint) (c : Char) : Bool := point.val == c.toNat

namespace Json

abbrev Document := Datum WideText

abbrev Input := List CodePoint

/-- How strict a reader is. -/
inductive Dialect where
  /-- Lone surrogates are let through, every container counts as a level, and the limit on digits is
  one on those of an integer. -/
  | lenient
  /-- A string with a lone surrogate is refused, an empty container is no level of its own, and the
  limit on digits holds for the whole part of every number and counts its sign. -/
  | strict
deriving DecidableEq, Inhabited

inductive ReadError where
  | malformed
  | tooManyDigits
  | tooDeep
deriving DecidableEq, Inhabited

def isGap (point : CodePoint) : Bool :=
  point.is ' ' || point.is '\t' || point.is '\n' || point.is '\r'

def skipGaps (input : Input) : Input := input.dropWhile isGap

/-- The input behind a given word at its start. -/
def word? : List Char → Input → Option Input
  | [], input => some input
  | _, [] => none
  | c :: more, point :: rest => if point.is c then word? more rest else none

/-! ## Strings -/

/-- A code point of a string as it is written. -/
inductive Piece where
  | plain (point : CodePoint)
  | escaped (point : CodePoint)
deriving DecidableEq

/-- The code point that the letter of a short escape stands for. -/
def shortEscape? (letter : CodePoint) : Option CodePoint :=
  if letter.is '"' then some 0x22
  else if letter.is '\\' then some 0x5c
  else if letter.is '/' then some 0x2f
  else if letter.is 'b' then some 0x08
  else if letter.is 'f' then some 0x0c
  else if letter.is 'n' then some 0x0a
  else if letter.is 'r' then some 0x0d
  else if letter.is 't' then some 0x09
  else none

/-- The code point that four hexadecimal digits name. -/
def hexEscape? (a b c d : CodePoint) : Option CodePoint := do
  let a ← Text.hexValue? a.val
  let b ← Text.hexValue? b.val
  let c ← Text.hexValue? c.val
  let d ← Text.hexValue? d.val
  return CodePoint.ofNat (a * 4096 + b * 256 + c * 16 + d)

/-- The pieces of a string up to its closing quote, and the input behind it. Controls below the
space have to be escaped. -/
def readPieces : Input → Option (List Piece × Input)
  | [] => none
  | point :: rest =>
    if point.is '"' then some ([], rest)
    else if point.val < 0x20 then none
    else if point.is '\\' then
      match rest with
      | [] => none
      | letter :: rest =>
        if letter.is 'u' then
          match rest with
          | a :: b :: c :: d :: rest =>
            match hexEscape? a b c d, readPieces rest with
            | some code, some (pieces, rest) => some (.escaped code :: pieces, rest)
            | _, _ => none
          | _ => none
        else
          match shortEscape? letter, readPieces rest with
          | some code, some (pieces, rest) => some (.plain code :: pieces, rest)
          | _, _ => none
    else
      match readPieces rest with
      | some (pieces, rest) => some (.plain point :: pieces, rest)
      | none => none

/-- Whether two code points are the first and the second half of a surrogate pair. -/
def arePair (high low : CodePoint) : Bool :=
  0xd800 ≤ high.val && high.val < 0xdc00 && 0xdc00 ≤ low.val && low.val < 0xe000

/-- The code point that a surrogate pair stands for. -/
def joinPair (high low : CodePoint) : CodePoint :=
  CodePoint.ofNat (0x10000 + (high.val - 0xd800) * 0x400 + (low.val - 0xdc00))

/-- The code points of a string: two adjacent escapes that name a surrogate pair are one. -/
def joinPieces : List Piece → List CodePoint
  | [] => []
  | .plain point :: rest => point :: joinPieces rest
  | [.escaped point] => [point]
  | .escaped point :: .plain next :: rest => point :: next :: joinPieces rest
  | .escaped high :: .escaped low :: rest =>
    if arePair high low then joinPair high low :: joinPieces rest
    else high :: joinPieces (.escaped low :: rest)

/-- Whether a string may hold given code points. -/
def Dialect.admits (dialect : Dialect) (points : List CodePoint) : Bool :=
  match dialect with
  | .lenient => true
  | .strict => !points.any CodePoint.isSurrogate

def readString (dialect : Dialect) (input : Input) : Except ReadError (WideText × Input) :=
  match readPieces input with
  | some (pieces, rest) =>
    let points := joinPieces pieces
    if dialect.admits points then .ok (⟨points⟩, rest) else .error .malformed
  | none => .error .malformed

/-! ## Numbers -/

def isDigit (point : CodePoint) : Bool := 0x30 ≤ point.val && point.val ≤ 0x39

def digitsValue (digits : Input) : Nat :=
  digits.foldl (fun value point => value * 10 + (point.val - 0x30)) 0

/-- The digits of the whole part and the input behind: a zero alone, or digits that do not begin
with one. -/
def readWhole (input : Input) : Option (Input × Input) :=
  match input with
  | [] => none
  | first :: rest =>
    if first.is '0' then some ([first], rest)
    else if isDigit first then some (first :: rest.takeWhile isDigit, rest.dropWhile isDigit)
    else none

/-- The digits behind a point. A point without digits is left in place. -/
def readFraction (input : Input) : Option (Input × Input) :=
  match input with
  | point :: first :: rest =>
    if point.is '.' && isDigit first then
      some (first :: rest.takeWhile isDigit, rest.dropWhile isDigit)
    else none
  | _ => none

/-- The power of ten of an exponent. An `e` without digits is left in place. -/
def readExponent (input : Input) : Option (Int × Input) :=
  match input with
  | mark :: rest =>
    if mark.is 'e' || mark.is 'E' then
      let (negative, rest) := match rest with
        | sign :: more =>
          if sign.is '-' then (true, more) else if sign.is '+' then (false, more) else (false, rest)
        | [] => (false, rest)
      let digits := rest.takeWhile isDigit
      if digits.isEmpty then none
      else
        let power : Int := digitsValue digits
        some (if negative then -power else power, rest.dropWhile isDigit)
    else none
  | [] => none

/-- Whether a number is too long, given its sign, the length of its whole part, and whether it is an
integer. -/
def Dialect.tooLong (dialect : Dialect) (negative : Bool) (whole : Nat) (integer : Bool) : Bool :=
  match dialect with
  | .lenient => integer && decide (maxDigits < whole)
  | .strict => decide (maxDigits < whole + negative.toNat)

/-- Whether there is a minus sign, and the input behind it. -/
def readSign : Input → Bool × Input
  | [] => (false, [])
  | sign :: rest => if sign.is '-' then (true, rest) else (false, sign :: rest)

/-- A number. With a fraction or an exponent it is held in double precision, else it is an
integer. -/
def readNumber (dialect : Dialect) (input : Input) : Except ReadError (Document × Input) :=
  let (negative, unsigned) := readSign input
  match readWhole unsigned with
  | none => .error .malformed
  | some (whole, rest) =>
    let (fraction, afterFraction) := (readFraction rest).getD ([], rest)
    let power := readExponent afterFraction
    if dialect.tooLong negative whole.length (fraction.isEmpty && power.isNone) then
      .error .tooManyDigits
    else
      match power with
      | some (power, rest) =>
        .ok (.real (.ofDecimal negative (digitsValue (whole ++ fraction))
          (power - fraction.length)), rest)
      | none =>
        if fraction.isEmpty then
          let value : Int := digitsValue whole
          .ok (.int (if negative then -value else value), rest)
        else
          .ok (.real (.ofDecimal negative (digitsValue (whole ++ fraction)) (-fraction.length)),
            afterFraction)

/-! ## Values -/

def words : List (String × Document) :=
  [("null", .null), ("true", .bool true), ("false", .bool false), ("NaN", .real .nan),
   ("Infinity", .real (.infinite false)), ("-Infinity", .real (.infinite true))]

/-- The value that the word at the start of the input stands for. -/
def readWord? (input : Input) : Option (Document × Input) :=
  words.findSome? fun entry => (word? entry.1.toList input).map (entry.2, ·)

/-- The items of an array up to its end, given how one item is read. An item takes at least one code
point, so the length of the input bounds their number. -/
def readItems (item : Input → Except ReadError (Document × Input)) :
    (bound : Nat) → Input → Except ReadError (List Document × Input)
  | 0, _ => .error .malformed
  | bound + 1, input => do
    let (value, rest) ← item (skipGaps input)
    match skipGaps rest with
    | [] => .error .malformed
    | mark :: rest =>
      if mark.is ',' then
        let (values, rest) ← readItems item bound rest
        return (value :: values, rest)
      else if mark.is ']' then return ([value], rest)
      else .error .malformed

/-- The members of an object up to its end, given how one value is read. -/
def readMembers (dialect : Dialect) (item : Input → Except ReadError (Document × Input)) :
    (bound : Nat) → Input → Except ReadError (List (WideText × Document) × Input)
  | 0, _ => .error .malformed
  | bound + 1, input => do
    match skipGaps input with
    | [] => .error .malformed
    | quote :: rest =>
      if !quote.is '"' then .error .malformed
      else
        let (key, rest) ← readString dialect rest
        match skipGaps rest with
        | [] => .error .malformed
        | colon :: rest =>
          if !colon.is ':' then .error .malformed
          else
            let (value, rest) ← item (skipGaps rest)
            match skipGaps rest with
            | [] => .error .malformed
            | mark :: rest =>
              if mark.is ',' then
                let (members, rest) ← readMembers dialect item bound rest
                return ((key, value) :: members, rest)
              else if mark.is '\x7d' then return ([(key, value)], rest)
              else .error .malformed

def readArray (item : Input → Except ReadError (Document × Input)) (input : Input) :
    Except ReadError (Document × Input) :=
  match skipGaps input with
  | [] => .error .malformed
  | first :: rest =>
    if first.is ']' then .ok (.list [], rest)
    else do
      let (values, rest) ← readItems item (first :: rest).length (first :: rest)
      return (.list values, rest)

def readObject (dialect : Dialect) (item : Input → Except ReadError (Document × Input))
    (input : Input) : Except ReadError (Document × Input) :=
  match skipGaps input with
  | [] => .error .malformed
  | first :: rest =>
    if first.is '\x7d' then .ok (.mapping [], rest)
    else do
      let (members, rest) ← readMembers dialect item (first :: rest).length (first :: rest)
      return (.mapping (Entries.ofPairs members), rest)

/-- Whether a container can be begun where no level is left. -/
def Dialect.opensAtLimit (dialect : Dialect) : Bool := dialect == .strict

/-- A value, given whether a container may begin here and how what is in it is read. -/
def readLevel (dialect : Dialect) (opens : Bool)
    (item : Input → Except ReadError (Document × Input)) (input : Input) :
    Except ReadError (Document × Input) :=
  match input with
  | [] => .error .malformed
  | first :: rest =>
    if first.is '"' then do
      let (text, rest) ← readString dialect rest
      return (.text text, rest)
    else if first.is '[' then
      if opens then readArray item rest else .error .tooDeep
    else if first.is '\x7b' then
      if opens then readObject dialect item rest else .error .tooDeep
    else
      match readWord? input with
      | some found => .ok found
      | none => readNumber dialect input

/-- A value whose containers are nested at most `depth` levels deep. -/
def readValue (dialect : Dialect) : (depth : Nat) → Input → Except ReadError (Document × Input)
  | 0 => readLevel dialect dialect.opensAtLimit fun _ => .error .tooDeep
  | depth + 1 => readLevel dialect true (readValue dialect depth)

def read (depth : Nat) (input : Input) (dialect : Dialect := .lenient) :
    Except ReadError Document := do
  let (value, rest) ← readValue dialect depth (skipGaps input)
  if (skipGaps rest).isEmpty then return value else .error .malformed

end Json

end RegistryGate
