import RegistryGate.Text.Split
import RegistryGate.Text.Utf8

/-!
# Log files

A log file is named below the log directory, which lies in the working directory. Only these two
directories exist, so a file can be made directly in one of them and nowhere deeper.
-/

namespace RegistryGate.Log

def directory : String := "logs"

/-- The place of a file: the steps to it from the working directory, or a path that leaves that
directory. -/
inductive Place where
  | inside (steps : List String)
  | outside (path : String)
deriving DecidableEq

/-- Follows a step from a directory, which is given by the steps to it, last one first. A step up
from the working directory leads out. -/
def follow (below : List String) (step : String) : Option (List String) :=
  if step = "" ∨ step = "." then some below
  else if step = ".." then
    match below with
    | [] => none
    | _ :: above => some above
  else some (step :: below)

namespace Place

def ofName (name : String) : Place :=
  if name.toList.head? = some '/' then .outside name
  else
    match ((Text.splitOn '/' name.toList).map String.ofList).foldlM follow [directory] with
    | some below => .inside below.reverse
    | none => .outside name

def longestName : Nat := 255

def isFileName (name : String) : Bool :=
  !name.toList.contains '\x00' && (Text.utf8 name.toList).length ≤ longestName

/-- Whether a file can be opened at a place for writing at its end. Outside the working directory
only the form of the path is known. -/
def canOpen : Place → Bool
  | .inside [name] => isFileName name && name != directory
  | .inside [parent, name] => parent == directory && isFileName name
  | .inside _ => false
  | .outside path => !path.toList.contains '\x00'

def path? : Place → Option String
  | .inside steps => some ("/".intercalate steps)
  | .outside _ => none

end Place

end RegistryGate.Log
