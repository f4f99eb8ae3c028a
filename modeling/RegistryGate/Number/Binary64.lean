/-!
# Double-precision numbers

Numbers with a fraction are held in double precision: a sign, a mantissa below `2 ^ 53` and a power
of two, or an infinity, or not a number. A ratio is rounded to the nearest such number, a tie to the
even mantissa. All arithmetic is exact, so every comparison is one of rationals.
-/

namespace RegistryGate

/-- A double-precision number. A finite one is `± mantissa * 2 ^ exponent` in its canonical form:
the exponent is the least possible, at least -1074, for which the mantissa is below `2 ^ 53`. -/
inductive Binary64 where
  | finite (negative : Bool) (mantissa : Nat) (exponent : Int)
  | infinite (negative : Bool)
  | nan
deriving DecidableEq, Inhabited

namespace Binary64

def minExponent : Int := -1074

def maxExponent : Int := 971

/-- `num / den` divided by `2 ^ exponent`, as a fraction of natural numbers. -/
def scale (num den : Nat) (exponent : Int) : Nat × Nat :=
  if 0 ≤ exponent then (num, den <<< exponent.toNat) else (num <<< (-exponent).toNat, den)

/-- The natural number nearest to a fraction; a tie goes to the even neighbour. -/
def roundHalfEven (num den : Nat) : Nat :=
  let floor := num / den
  let rest := 2 * (num % den)
  if den < rest ∨ (rest = den ∧ floor % 2 = 1) then floor + 1 else floor

/-- The exponent at which the fraction has a mantissa of 53 binary digits, or the least one. -/
def exponentOf (num den : Nat) : Int :=
  let guess : Int := (num.log2 : Int) - den.log2 - 52
  let scaled := scale num den guess
  max minExponent (if scaled.1 / scaled.2 < Nat.pow 2 52 then guess - 1 else guess)

/-- The number nearest to a fraction. -/
def ofRatio (negative : Bool) (num den : Nat) : Binary64 :=
  if num = 0 then .finite negative 0 minExponent
  else
    let exponent := exponentOf num den
    let scaled := scale num den exponent
    let mantissa := roundHalfEven scaled.1 scaled.2
    let (mantissa, exponent) :=
      if mantissa = Nat.pow 2 53 then (Nat.pow 2 52, exponent + 1) else (mantissa, exponent)
    if maxExponent < exponent then .infinite negative else .finite negative mantissa exponent

/-- The number nearest to `digits * 10 ^ exponent`. Beyond the range of the format the answer does
not depend on the digits, so no large power is computed. -/
def ofDecimal (negative : Bool) (digits : Nat) (exponent : Int) : Binary64 :=
  if digits = 0 then .finite negative 0 minExponent
  else
    let magnitude : Int := (digits.log2 : Int) * 3 / 10 + exponent
    if 320 < magnitude then .infinite negative
    else if magnitude < -2 * digits.log2 - 400 then .finite negative 0 minExponent
    else if 0 ≤ exponent then ofRatio negative (digits * Nat.pow 10 exponent.toNat) 1
    else ofRatio negative digits (Nat.pow 10 (-exponent).toNat)

/-- The number nearest to an integer, unless it is beyond the greatest finite number. -/
def ofInt? (value : Int) : Option Binary64 :=
  match ofRatio (decide (value < 0)) value.natAbs 1 with
  | .infinite _ => none
  | number => some number

/-- The exact value of a finite number. -/
def toRat? : Binary64 → Option Rat
  | .finite negative mantissa exponent =>
    let magnitude : Rat :=
      if 0 ≤ exponent then (mantissa * Nat.pow 2 exponent.toNat : Nat)
      else mkRat mantissa (Nat.pow 2 (-exponent).toNat)
    some (if negative then -magnitude else magnitude)
  | _ => none

def isPositive : Binary64 → Bool
  | .finite negative mantissa _ => !negative && mantissa != 0
  | .infinite negative => !negative
  | .nan => false

def isNonpositive : Binary64 → Bool
  | .finite negative mantissa _ => negative || mantissa == 0
  | .infinite negative => negative
  | .nan => false

def isZero : Binary64 → Bool
  | .finite _ mantissa _ => mantissa == 0
  | _ => false

/-- The integer that is left when the fraction of a finite number is dropped. -/
def truncate? : Binary64 → Option Int
  | .finite negative mantissa exponent =>
    let magnitude : Nat :=
      if 0 ≤ exponent then mantissa * Nat.pow 2 exponent.toNat else mantissa >>> (-exponent).toNat
    some (if negative then -magnitude else magnitude)
  | _ => none

theorem not_isNonpositive_of_isPositive {x : Binary64} (h : x.isPositive = true) :
    x.isNonpositive = false := by
  cases x with
  | finite negative mantissa _ => cases negative <;> simp_all [isPositive, isNonpositive]
  | infinite negative => simp_all [isPositive, isNonpositive]
  | nan => rfl

end Binary64

end RegistryGate
