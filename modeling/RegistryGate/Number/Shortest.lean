import RegistryGate.Number.Binary64

/-!
# Shortest decimal form

The text of a double-precision number is the fewest decimal digits that are read back as the same
number, and of several such decimals the nearest. The digits stand around a point for magnitudes
from `10 ^ -4` up to `10 ^ 16`, and before a power of ten otherwise.
-/

namespace RegistryGate.Binary64

/-- A positive finite number together with the bounds of the interval that rounds to it, all three
over one denominator. -/
structure Interval where
  value : Nat
  lower : Nat
  upper : Nat
  den : Nat
  /-- Whether the bounds themselves round to the number. -/
  closed : Bool

/-- The interval that rounds to `mantissa * 2 ^ exponent`: half a unit to either side, but a quarter
below the least mantissa of an exponent, and its ends belong to it when the mantissa is even. -/
def interval (mantissa : Nat) (exponent : Int) : Interval :=
  let unit := if 0 ≤ exponent then Nat.pow 2 exponent.toNat else 1
  let den := if 0 ≤ exponent then 1 else Nat.pow 2 (-exponent).toNat
  let below := if mantissa = Nat.pow 2 52 ∧ minExponent < exponent then 1 else 2
  { value := 4 * mantissa * unit
    lower := (4 * mantissa - below) * unit
    upper := (4 * mantissa + 2) * unit
    den := 4 * den
    closed := mantissa % 2 = 0 }

namespace Interval

def decimal (digits : Nat) (power : Int) : Nat × Nat :=
  if 0 ≤ power then (digits * Nat.pow 10 power.toNat, 1)
  else (digits, Nat.pow 10 (-power).toNat)

def holds (i : Interval) (digits : Nat) (power : Int) : Bool :=
  let (num, den) := decimal digits power
  let low := compare (i.lower * den) (num * i.den)
  let high := compare (num * i.den) (i.upper * den)
  (low == .lt || (i.closed && low == .eq)) && (high == .lt || (i.closed && high == .eq))

/-- Twice the distance test: whether the first decimal is nearer to the number than the next one on
the same grid, a tie going to the even digit. -/
def prefersFirst (i : Interval) (digits : Nat) (power : Int) : Bool :=
  let (num, den) := decimal (2 * digits + 1) power
  match compare (2 * i.value * den) (num * i.den) with
  | .lt => true
  | .eq => digits % 2 = 0
  | .gt => false

/-- The digits of the number cut off below `10 ^ power`. -/
def digitsAt (i : Interval) (power : Int) : Nat :=
  if 0 ≤ power then i.value / (i.den * Nat.pow 10 power.toNat)
  else i.value * Nat.pow 10 (-power).toNat / i.den

/-- The decimal on the grid `10 ^ power` that is read back as the number, if one of the two
neighbours of the number on the grid is. -/
def onGrid? (i : Interval) (power : Int) : Option Nat :=
  let digits := i.digitsAt power
  match i.holds digits power, i.holds (digits + 1) power with
  | true, true => some (if i.prefersFirst digits power then digits else digits + 1)
  | true, false => some digits
  | false, true => some (digits + 1)
  | false, false => none

/-- The first decimal found while the grid is made finer. -/
def search (i : Interval) : (steps : Nat) → (power : Int) → Nat × Int
  | 0, power => (i.digitsAt power, power)
  | steps + 1, power =>
    match i.onGrid? power with
    | some digits => (digits, power)
    | none => i.search steps (power - 1)

/-- The number of digits before the point, or less than one for a number below a tenth. -/
def magnitude (i : Interval) : Int :=
  let guess : Int := ((i.value.log2 : Int) - i.den.log2) * 30103 / 100000 - 1
  let reaches (power : Int) : Bool :=
    let (num, den) := decimal 1 power
    num * i.den ≤ i.value * den
  if reaches (guess + 2) then guess + 3
  else if reaches (guess + 1) then guess + 2
  else if reaches guess then guess + 1
  else guess

end Interval

/-- A number without its trailing zeros, and how many there were; the first argument bounds their
count. -/
def dropZeros : (bound : Nat) → Nat → Nat × Nat
  | 0, n => (n, 0)
  | bound + 1, n =>
    if n % 10 = 0 then
      let (rest, count) := dropZeros bound (n / 10)
      (rest, count + 1)
    else (n, 0)

/-- The digits of the shortest decimal of a positive finite number, and the place of the point: the
number is `0.d₁d₂… * 10 ^ place`. -/
def shortest (mantissa : Nat) (exponent : Int) : List Char × Int :=
  let i := interval mantissa exponent
  let (digits, power) := i.search 17 (i.magnitude - 1)
  let (digits, dropped) := dropZeros 20 digits
  let text := Nat.toDigits 10 digits
  (text, power + dropped + text.length)

/-- Digits around a point, for a place of the point that is neither too small nor too large. -/
def positional (digits : List Char) (place : Int) : List Char :=
  if place ≤ 0 then '0' :: '.' :: (List.replicate (-place).toNat '0' ++ digits)
  else if digits.length ≤ place.toNat then
    digits ++ List.replicate (place.toNat - digits.length) '0' ++ ['.', '0']
  else digits.take place.toNat ++ '.' :: digits.drop place.toNat

/-- One digit, the others behind a point, and the power of ten with a sign and two digits at
least. -/
def scientific (digits : List Char) (place : Int) : List Char :=
  let power := place - 1
  let written := Nat.toDigits 10 power.natAbs
  let padded := if written.length < 2 then '0' :: written else written
  let mantissa := match digits with
    | first :: more@(_ :: _) => first :: '.' :: more
    | short => short
  mantissa ++ 'e' :: (if power < 0 then '-' else '+') :: padded

def text : Binary64 → String
  | .nan => "nan"
  | .infinite negative => if negative then "-inf" else "inf"
  | .finite negative mantissa exponent =>
    let magnitude :=
      if mantissa = 0 then ['0', '.', '0']
      else
        let (digits, place) := shortest mantissa exponent
        if -4 < place ∧ place ≤ 16 then positional digits place else scientific digits place
    String.ofList (if negative then '-' :: magnitude else magnitude)

end RegistryGate.Binary64
