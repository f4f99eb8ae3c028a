import RegistryGate.Number.Binary64

/-!
# Decimal notation

Fractions in decimal notation with a given count of places or of digits. They are rounded correctly;
a half goes to the even neighbour.
-/

namespace RegistryGate

namespace Decimal

open Binary64 (roundHalfEven)

/-- A natural number with a count of digits at least. -/
def padded (count value : Nat) : List Char :=
  let digits := Nat.toDigits 10 value
  List.replicate (count - digits.length) '0' ++ digits

/-- Digits with a point before the places. Without places the point stands only if it is asked
for. -/
def pointed (point : Bool) (whole places : List Char) : List Char :=
  if places.isEmpty && !point then whole else whole ++ '.' :: places

/-- A fraction with a count of places. -/
def fixed (point : Bool) (places num den : Nat) : List Char :=
  let digits := padded (places + 1) (roundHalfEven (num * Nat.pow 10 places) den)
  let whole := digits.length - places
  pointed point (digits.take whole) (digits.drop whole)

/-- The power of ten that the first digit of a positive fraction stands for. -/
def magnitude (num den : Nat) : Int :=
  if den ≤ num then ((Nat.toDigits 10 (num / den)).length : Int) - 1
  else -((Nat.toDigits 10 ((den - 1) / num)).length : Int)

/-- The first digits of a fraction, and the power of ten that the first of them stands for. -/
def significant (count num den : Nat) : List Char × Int :=
  if num = 0 then (List.replicate count '0', 0)
  else
    let power := magnitude num den
    let dropped := power + 1 - count
    let digits :=
      if 0 ≤ dropped then roundHalfEven num (den * Nat.pow 10 dropped.toNat)
      else roundHalfEven (num * Nat.pow 10 (-dropped).toNat) den
    -- Rounding up to the next power of ten gives one digit more.
    if digits = Nat.pow 10 count then (Nat.toDigits 10 (digits / 10), power + 1)
    else (Nat.toDigits 10 digits, power)

/-- A power of ten behind its mark, with a sign and two digits at least. -/
def powerOfTen (mark : Char) (power : Int) : List Char :=
  mark :: (if power < 0 then '-' else '+') :: padded 2 power.natAbs

/-- A fraction as one digit with a count of places and a power of ten. -/
def exponential (point : Bool) (mark : Char) (places num den : Nat) : List Char :=
  let (digits, power) := significant (places + 1) num den
  pointed point (digits.take 1) (digits.drop 1) ++ powerOfTen mark power

/-- A fraction with a count of digits, one at least, around the point if the first digit is neither too
far before it nor behind it, and before a power of ten otherwise. Zeros at the end are left out, unless
the point is asked for. -/
def general (point : Bool) (mark : Char) (precision num den : Nat) : List Char :=
  let count := max 1 precision
  let (digits, power) := significant count num den
  let kept (places : List Char) : List Char :=
    if point then places else (places.reverse.dropWhile (· == '0')).reverse
  if -4 ≤ power ∧ power < count then
    if power < 0 then
      pointed point ['0'] (kept (List.replicate (-power - 1).toNat '0' ++ digits))
    else
      let whole := power.toNat + 1
      pointed point (digits.take whole) (kept (digits.drop whole))
  else pointed point (digits.take 1) (kept (digits.drop 1)) ++ powerOfTen mark power

end Decimal

/-- A rational with one place. A negative one keeps its sign even where it rounds to zero. -/
def tenths (value : Rat) : String :=
  let sign := if value < 0 then "-" else ""
  sign ++ String.ofList (Decimal.fixed false 1 value.num.natAbs value.den)

end RegistryGate
