import RegistryGate.Event

/-!
# Log lines

How an entry of the log is written: the time, the logger and the line it came from, its level and
its text, in columns. Times are those of the Gregorian calendar at zero longitude, to the second.
-/

namespace RegistryGate.Log

/-! ## Calendar -/

structure Date where
  year : Int
  month : Nat
  day : Nat
deriving DecidableEq

/-- The day that is the given number of days after the first of January 1970. Years are counted from
the first of March, so that the leap day is their last day, in cycles of four centuries. -/
def Date.ofDays (days : Int) : Date :=
  let shifted := days + 719468
  let cycle := Int.fdiv shifted 146097
  let ofCycle := (Int.fmod shifted 146097).toNat
  let year := (ofCycle - ofCycle / 1460 + ofCycle / 36524 - ofCycle / 146096) / 365
  let ofYear := ofCycle - (365 * year + year / 4 - year / 100)
  let month := (5 * ofYear + 2) / 153
  { year := 400 * cycle + year + (if month < 10 then 0 else 1)
    month := if month < 10 then month + 3 else month - 9
    day := ofYear - (153 * month + 2) / 5 + 1 }

def twoDigits (n : Nat) : String := (if n < 10 then "0" else "") ++ toString n

/-- The date and the time of day, from the seconds since the start of 1970. A fraction of a second
is dropped. -/
def stamp (seconds : Rat) : String :=
  let whole := seconds.floor
  let date := Date.ofDays (Int.fdiv whole 86400)
  let ofDay := (Int.fmod whole 86400).toNat
  toString date.year ++ "-" ++ twoDigits date.month ++ "-" ++ twoDigits date.day ++ " " ++
    twoDigits (ofDay / 3600) ++ ":" ++ twoDigits (ofDay / 60 % 60) ++ ":" ++ twoDigits (ofDay % 60)

/-! ## Columns -/

/-- The blanks that a text lacks to a width. -/
def padding (width : Nat) (text : String) : String :=
  String.ofList (List.replicate (width - text.length) ' ')

def alignRight (width : Nat) (text : String) : String := padding width text ++ text

def alignLeft (width : Nat) (text : String) : String := text ++ padding width text

def line (created : Rat) (logger : String) (number : Int) (level : Level) (text : String) :
    String :=
  stamp created ++ " - " ++ alignRight 25 logger ++ ":" ++ alignLeft 4 (toString number) ++ " - " ++
    alignLeft 7 level.name ++ " - " ++ text ++ "\n"

end RegistryGate.Log
