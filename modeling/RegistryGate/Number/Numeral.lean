import RegistryGate.Text.Blank
import RegistryGate.Text.Digit
import RegistryGate.Text.Wide

/-!
# Integers in text

An integer is read from a text with white space around it, a sign, digits of any script, and single
underscores between digits. A text that is ASCII throughout is trimmed of the ASCII blanks only.
More than 4300 digits are refused.
-/

namespace RegistryGate

/-- The greatest count of digits that an integer is read from. -/
def maxDigits : Nat := 4300

namespace Numeral

/-- A code point as the reader sees it: in a text beyond ASCII, white space is a space and a decimal
digit of any script its ASCII digit, and what is neither cannot occur in a numeral. -/
def plain (code : Nat) : Nat :=
  if code < 0x7f then code
  else if Text.isBlank code then 0x20
  else match Text.digitValue? code with
    | some value => 0x30 + value
    | none => 0x3f

/-- The blanks that may surround a numeral: the space, tab, line feed, line and page breaks, and
carriage return. -/
def isSpace (code : Nat) : Bool := code == 0x20 || (0x9 ≤ code && code ≤ 0xd)

def strip (codes : List Nat) : List Nat :=
  ((codes.dropWhile isSpace).reverse.dropWhile isSpace).reverse

/-- Reads digits with single underscores between them. `afterDigit` says that the last code read was
a digit, `value` and `count` are the number read so far and its count of digits. -/
def digits? (afterDigit : Bool) (value count : Nat) : List Nat → Option (Nat × Nat)
  | [] => if afterDigit then some (value, count) else none
  | code :: rest =>
    if 0x30 ≤ code ∧ code ≤ 0x39 then digits? true (value * 10 + (code - 0x30)) (count + 1) rest
    else if code = 0x5f ∧ afterDigit then digits? false value count rest
    else none

/-- An unsigned numeral within the limit on digits. -/
def unsigned? (codes : List Nat) : Option Nat :=
  let written := codes.filter (· != 0x5f)
  if maxDigits < written.length then none
  else (digits? false 0 0 codes).map (·.1)

/-- The integer that a text is a numeral of. -/
def int? (text : WideText) : Option Int :=
  let codes := text.points.map (·.val)
  let codes := strip (if codes.all (· < 0x80) then codes else codes.map plain)
  match codes with
  | 0x2d :: rest => (unsigned? rest).map fun n => -(n : Int)
  | 0x2b :: rest => (unsigned? rest).map Int.ofNat
  | _ => (unsigned? codes).map Int.ofNat

end Numeral

end RegistryGate
