import RegistryGate.Number.Shortest

/-!
# Seconds

A time limit is configured as an integer or as a double-precision number, and is shown as it was
given.
-/

namespace RegistryGate

inductive Seconds where
  | whole (value : Int)
  | real (value : Binary64)
deriving DecidableEq, Inhabited

namespace Seconds

def text : Seconds → String
  | .whole value => toString value
  | .real value => value.text

/-- Whether no time is left from the start. -/
def isNonpositive : Seconds → Bool
  | .whole value => value ≤ 0
  | .real value => value.isNonpositive

/-- The exact number of seconds, of a finite time. -/
def toRat? : Seconds → Option Rat
  | .whole value => some value
  | .real value => value.toRat?

end Seconds

end RegistryGate
