import RegistryGate.Datum
import RegistryGate.Log.Directive
import RegistryGate.Number.Decimal

/-!
# Conversions

How the argument of a field is written: its conversion reads it as a text, a character or a number, if it
is one, and its layout brings that to its width and its precision.
-/

namespace RegistryGate.Log

/-- What is wrong with a template or with its arguments. -/
inductive TemplateFault where
  | openKey
  /-- A letter stands for no conversion, or a width or a precision is too large to be read. -/
  | unknownConversion
  | missingConversion
  /-- A field has a key and the arguments have none. -/
  | noKeys
  | missingKey (key : String)
  | tooFewArguments
  | tooManyArguments
  /-- An argument is not of the kind that is asked for, mostly a number. -/
  | notNumeric
  /-- A number is beyond all bounds, or beyond those of what is asked for. -/
  | infinite
  | notANumber
deriving DecidableEq

/-! ## Reading an argument -/

/-- What a conversion makes of an argument. -/
inductive Operand where
  | text (value : List Char)
  | character (c : Char)
  | integer (base : Base) (value : Int)
  | real (style : Style) (upper : Bool) (value : Binary64)

/-- An argument that is an integer, or a truth value, which counts as one or zero. -/
def wholeNumber : Datum String → Except TemplateFault Int
  | .int value => .ok value
  | .bool value => .ok (if value then 1 else 0)
  | _ => .error .notNumeric

/-- An argument as an integer. A number loses its fraction. -/
def truncated : Datum String → Except TemplateFault Int
  | .real .nan => .error .notANumber
  | .real value =>
    match value.truncate? with
    | some integer => .ok integer
    | none => .error .infinite
  | value => wholeNumber value

/-- An argument in double precision. -/
def inDoublePrecision : Datum String → Except TemplateFault Binary64
  | .real value => .ok value
  | value => do
    match Binary64.ofInt? (← wholeNumber value) with
    | some number => .ok number
    | none => .error .infinite

/-- An argument as a character: a text of one character, or the number of one. -/
def singleCharacter : Datum String → Except TemplateFault Char
  | .text value =>
    match value.toList with
    | [c] => .ok c
    | _ => .error .notNumeric
  | value => do
    let code ← wholeNumber value
    if code.toNat.isValidChar ∧ 0 ≤ code then .ok (Char.ofNat code.toNat) else .error .infinite

/-- A character of a text in ASCII, by its number if it is beyond that. -/
def asciiEscape (c : Char) : List Char :=
  if c.toNat < 0x80 then [c]
  else if c.toNat ≤ 0xff then '\\' :: 'x' :: Text.hexFixed 2 c.toNat
  else if c.toNat ≤ 0xffff then '\\' :: 'u' :: Text.hexFixed 4 c.toNat
  else '\\' :: 'U' :: Text.hexFixed 8 c.toNat

namespace Conversion

/-- The argument as the conversion writes it. -/
def read : Conversion → Datum String → Except TemplateFault Operand
  | .display, value => .ok (.text value.display.toList)
  | .shown, value => .ok (.text value.shown.toList)
  | .ascii, value => .ok (.text (value.shown.toList.flatMap asciiEscape))
  | .integer .decimal, value => (truncated value).map (.integer .decimal)
  | .integer base, value => (wholeNumber value).map (.integer base)
  | .real style upper, value => (inDoublePrecision value).map (.real style upper)
  | .character, value => (singleCharacter value).map .character
  | .unknown, _ => .error .unknownConversion
  | .missing, _ => .error .missingConversion

end Conversion

/-! ## Writing an argument -/

/-- What is written for an argument, not yet brought to its width. -/
structure Draft where
  sign : List Char := []
  /-- The mark of the base. -/
  mark : List Char := []
  body : List Char
  /-- Whether zeros can be put before the body. -/
  isNumber : Bool := true

def Draft.written (draft : Draft) : List Char := draft.sign ++ draft.mark ++ draft.body

namespace Base

def radix : Base → Nat
  | decimal => 10
  | octal => 8
  | hexadecimal _ => 16

def mark : Base → List Char
  | decimal => []
  | octal => ['0', 'o']
  | hexadecimal false => ['0', 'x']
  | hexadecimal true => ['0', 'X']

/-- The digits of a number. -/
def digits : Base → Nat → List Char
  | hexadecimal true, value => (Nat.toDigits 16 value).map Char.toUpper
  | base, value => Nat.toDigits base.radix value

end Base

/-- The digits of a fraction, with six places or digits if no precision is given. -/
def Style.digits (style : Style) (point upper : Bool) (precision : Option Nat) (num den : Nat) :
    List Char :=
  let mark := if upper then 'E' else 'e'
  match style with
  | exponential => Decimal.exponential point mark (precision.getD 6) num den
  | fixed => Decimal.fixed point (precision.getD 6) num den
  | general => Decimal.general point mark (precision.getD 6) num den

/-- A directive whose width and precision are known. -/
structure Layout where
  directive : Directive
  left : Bool
  width : Nat
  precision : Option Nat

namespace Layout

def sign (layout : Layout) (negative : Bool) : List Char :=
  if negative then ['-']
  else if layout.directive.plus then ['+']
  else if layout.directive.blank then [' ']
  else []

/-- A text, cut off at the precision. -/
def text (layout : Layout) (value : List Char) : Draft where
  body := match layout.precision with
    | some precision => value.take precision
    | none => value
  isNumber := false

/-- An integer, with as many digits at least as the precision says. -/
def integer (layout : Layout) (base : Base) (value : Int) : Draft where
  sign := layout.sign (decide (value < 0))
  mark := if layout.directive.alternate then base.mark else []
  body :=
    let digits := base.digits value.natAbs
    List.replicate (layout.precision.getD 0 - digits.length) '0' ++ digits

def real (layout : Layout) (style : Style) (upper : Bool) : Binary64 → Draft
  | .finite negative mantissa exponent =>
    let (num, den) :=
      if 0 ≤ exponent then (mantissa * Nat.pow 2 exponent.toNat, 1)
      else (mantissa, Nat.pow 2 (-exponent).toNat)
    { sign := layout.sign negative
      body := style.digits layout.directive.alternate upper layout.precision num den }
  | .infinite negative =>
    { sign := layout.sign negative
      body := (if upper then "INF" else "inf").toList }
  | .nan =>
    { sign := layout.sign false
      body := (if upper then "NAN" else "nan").toList }

def draft (layout : Layout) : Operand → Draft
  | .text value => layout.text value
  | .character c => { body := [c], isNumber := false }
  | .integer base value => layout.integer base value
  | .real style upper value => layout.real style upper value

/-- A draft brought to its width, by blanks or by zeros behind the sign. -/
def place (layout : Layout) (draft : Draft) : List Char :=
  let room := layout.width - draft.written.length
  if layout.left then draft.written ++ List.replicate room ' '
  else if layout.directive.zero && draft.isNumber then
    draft.sign ++ draft.mark ++ List.replicate room '0' ++ draft.body
  else List.replicate room ' ' ++ draft.written

def write (layout : Layout) (operand : Operand) : List Char := layout.place (layout.draft operand)

end Layout

end RegistryGate.Log
