/-!
# Hexadecimal digits

Numbers written in base sixteen with a fixed count of digits, in either case, and the digits read
back.
-/

namespace RegistryGate.Text

/-- The digit of a value below sixteen, letters in lower case. -/
def hexDigit (value : Nat) : Char :=
  if value < 10 then Char.ofNat (0x30 + value) else Char.ofNat (0x57 + value)

def hexDigitUpper (value : Nat) : Char :=
  if value < 10 then Char.ofNat (0x30 + value) else Char.ofNat (0x37 + value)

/-- The value of a digit of either case. -/
def hexValue? (code : Nat) : Option Nat :=
  if 0x30 ≤ code ∧ code ≤ 0x39 then some (code - 0x30)
  else if 0x61 ≤ code ∧ code ≤ 0x66 then some (code - 0x57)
  else if 0x41 ≤ code ∧ code ≤ 0x46 then some (code - 0x37)
  else none

/-- The last `width` digits of a number, the most significant first. -/
def hexFixed : (width : Nat) → (value : Nat) → List Char
  | 0, _ => []
  | width + 1, value => hexFixed width (value / 16) ++ [hexDigit (value % 16)]

theorem hexValue?_hexDigit {value : Nat} (h : value < 16) :
    hexValue? (hexDigit value).toNat = some value := by
  have all : ∀ v < 16, hexValue? (hexDigit v).toNat = some v := by decide
  exact all value h

theorem hexValue?_hexDigitUpper {value : Nat} (h : value < 16) :
    hexValue? (hexDigitUpper value).toNat = some value := by
  have all : ∀ v < 16, hexValue? (hexDigitUpper v).toNat = some v := by decide
  exact all value h

theorem length_hexFixed (width value : Nat) : (hexFixed width value).length = width := by
  induction width generalizing value with
  | zero => rfl
  | succ width ih => simp [hexFixed, ih]

end RegistryGate.Text
