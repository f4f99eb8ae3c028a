/-!
# Directives of fields

Between the percent sign of a field, with its key if it has one, and its letter stands a directive: flags
first, then the least width, then a point with the precision, then perhaps one of three letters that say
nothing. Each part can be left out. The letter says how the argument is written.
-/

namespace RegistryGate.Log

/-- How a width or a precision is given: by its digits, or by an asterisk, which takes an argument. -/
inductive Extent where
  | given (value : Nat)
  | taken
deriving DecidableEq

structure Directive where
  /-- The argument is put to the left of its width. -/
  left : Bool := false
  /-- A number that is not negative has a plus sign. -/
  plus : Bool := false
  /-- A number that is not negative has a blank where a sign would be. -/
  blank : Bool := false
  /-- A number has the mark of its base, or its point in any case. -/
  alternate : Bool := false
  /-- A number has zeros up to its width. -/
  zero : Bool := false
  width : Option Extent := none
  precision : Option Extent := none
deriving DecidableEq

namespace Directive

/-- The part of a directive that was read last. -/
inductive Part where
  | flags
  | width
  /-- The asterisk for the width. -/
  | widthTaken
  | point
  | precision
  /-- The asterisk for the precision. -/
  | precisionTaken
  /-- One of the letters that say nothing. -/
  | size
deriving DecidableEq

/-- The directive with a flag. -/
def flag? (directive : Directive) : Char → Option Directive
  | '-' => some { directive with left := true }
  | '+' => some { directive with plus := true }
  | ' ' => some { directive with blank := true }
  | '#' => some { directive with alternate := true }
  | '0' => some { directive with zero := true }
  | _ => none

def digit? (c : Char) : Option Nat :=
  if '0' ≤ c ∧ c ≤ '9' then some (c.toNat - '0'.toNat) else none

/-- An extent with one more digit. -/
def appendDigit : Option Extent → Nat → Extent
  | some (.given value), digit => .given (10 * value + digit)
  | _, digit => .given digit

def widthDigit? (directive : Directive) (c : Char) : Option (Part × Directive) :=
  (digit? c).map fun digit =>
    (.width, { directive with width := some (appendDigit directive.width digit) })

def precisionDigit? (directive : Directive) (c : Char) : Option (Part × Directive) :=
  (digit? c).map fun digit =>
    (.precision, { directive with precision := some (appendDigit directive.precision digit) })

def widthAsterisk? (directive : Directive) (c : Char) : Option (Part × Directive) :=
  if c = '*' then some (.widthTaken, { directive with width := some .taken }) else none

def precisionAsterisk? (directive : Directive) (c : Char) : Option (Part × Directive) :=
  if c = '*' then some (.precisionTaken, { directive with precision := some .taken }) else none

/-- A point alone stands for the precision zero. -/
def point? (directive : Directive) (c : Char) : Option (Part × Directive) :=
  if c = '.' then some (.point, { directive with precision := some (.given 0) }) else none

def size? (directive : Directive) (c : Char) : Option (Part × Directive) :=
  if c = 'h' ∨ c = 'l' ∨ c = 'L' then some (.size, directive) else none

/-- The directive with a character behind the given part, unless the character is the letter of the
field. -/
def extend? (directive : Directive) (part : Part) (c : Char) : Option (Part × Directive) :=
  match part with
  | .flags =>
    ((directive.flag? c).map (Part.flags, ·)).or <| (directive.widthAsterisk? c).or <|
      (directive.widthDigit? c).or <| (directive.point? c).or (directive.size? c)
  | .width => (directive.widthDigit? c).or <| (directive.point? c).or (directive.size? c)
  | .widthTaken => (directive.point? c).or (directive.size? c)
  | .point => (directive.precisionAsterisk? c).or <| (directive.precisionDigit? c).or (directive.size? c)
  | .precision => (directive.precisionDigit? c).or (directive.size? c)
  | .precisionTaken => directive.size? c
  | .size => none

end Directive

/-! ## Letters -/

/-- How an integer is written. -/
inductive Base where
  | decimal
  | octal
  | hexadecimal (upper : Bool)
deriving DecidableEq

/-- How a number with a fraction is written: before a power of ten, around a point, or as fits it. -/
inductive Style where
  | exponential
  | fixed
  | general
deriving DecidableEq

inductive Conversion where
  /-- The argument as text. -/
  | display
  /-- The argument as messages show it. -/
  | shown
  /-- The argument as messages show it, all beyond ASCII written by its number. -/
  | ascii
  | integer (base : Base)
  | real (style : Style) (upper : Bool)
  | character
  | unknown
  /-- The template ends before the letter. -/
  | missing
deriving DecidableEq

/-- The conversion that a letter asks for. -/
def Conversion.ofLetter : Char → Conversion
  | 's' => .display
  | 'r' => .shown
  | 'a' => .ascii
  | 'd' => .integer .decimal
  | 'i' => .integer .decimal
  | 'u' => .integer .decimal
  | 'o' => .integer .octal
  | 'x' => .integer (.hexadecimal false)
  | 'X' => .integer (.hexadecimal true)
  | 'e' => .real .exponential false
  | 'E' => .real .exponential true
  | 'f' => .real .fixed false
  | 'F' => .real .fixed true
  | 'g' => .real .general false
  | 'G' => .real .general true
  | 'c' => .character
  | _ => .unknown

end RegistryGate.Log
