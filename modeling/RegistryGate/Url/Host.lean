import RegistryGate.Text.Split
import RegistryGate.Url.Percent

/-!
# Hosts

The host of a URL is an address in brackets, an address of four numbers, or a name. A name is in
lower case; what looks like an address has to be one.
-/

namespace RegistryGate.Host

/-- Whether a text is four runs of digits with one character of any kind between each two. `left`
counts the characters still to come between runs, `digit` says that the run has begun. -/
def looksNumeric (left : Nat) (digit : Bool) : List Char → Bool
  | [] => digit && left == 0
  | c :: rest =>
    (c.isDigit && looksNumeric left true rest) ||
      (digit && left != 0 && looksNumeric (left - 1) false rest)

/-- The number of one to three digits, at most 255, without a zero before it. -/
def octet? (digits : List Char) : Option Nat :=
  if digits.isEmpty || 3 < digits.length || !digits.all Char.isDigit then none
  else if digits.length ≠ 1 ∧ digits.head? = some '0' then none
  else
    let value := digits.foldl (fun value c => value * 10 + (c.toNat - 0x30)) 0
    if value ≤ 255 then some value else none

def isNumericAddress (text : List Char) : Bool :=
  let parts := Text.splitOn '.' text
  parts.length == 4 && parts.all fun part => (octet? part).isSome

def isHexGroup (text : List Char) : Bool :=
  !text.isEmpty && text.length ≤ 4 && text.all Percent.isHex

/-- The groups of an address of eight groups; one of four numbers at its end counts as two. -/
def addressGroups? (text : List Char) : Option (List (List Char)) :=
  let parts := Text.splitOn ':' text
  if parts.length < 3 then none
  else
    match parts.getLast? with
    | some last =>
      if last.contains '.' then
        if isNumericAddress last then some (parts.dropLast ++ [['0'], ['0']]) else none
      else some parts
    | none => none

/-- Whether groups make an address: eight of them, or fewer with one gap that stands for the missing
ones. -/
def isGroupAddress (groups : List (List Char)) : Bool :=
  let inner := (groups.drop 1).dropLast
  match inner.findIdx? List.isEmpty with
  | none => groups.length == 8 && groups.all isHexGroup
  | some index =>
    let before := groups.take (index + 1)
    let after := groups.drop (index + 2)
    let openStart := before == [[]]
    let openEnd := after == [[]]
    let before := if openStart then [] else before
    let after := if openEnd then [] else after
    groups.length ≤ 9 && before.all isHexGroup && after.all isHexGroup &&
      before.length + after.length < 8

/-- Whether a text is an address of eight groups, with a zone behind a percent sign or without. -/
def isBracketAddress (text : List Char) : Bool :=
  match Text.splitOn '%' text with
  | [address] => ((addressGroups? address).map isGroupAddress).getD false
  | [address, zone] =>
    !zone.isEmpty && ((addressGroups? address).map isGroupAddress).getD false
  | _ => false

/-- The characters that stand for themselves in the name of a host. -/
def isNameChar (c : Char) : Bool :=
  Percent.isUnreserved c || "!$&'()*+,;=\"`\x7b\x7d%|\\".toList.contains c

/-- The host as it stands in a URL: none if it looks like an address and is none, or if its name is
not ASCII. An address in brackets loses them. -/
def normalize? (host : List Char) : Option (List Char) :=
  if host.isEmpty then some []
  else if looksNumeric 3 false host then
    if isNumericAddress host then some host else none
  else if host.head? = some '[' ∧ host.getLast? = some ']' then
    let inner := (host.drop 1).dropLast
    if isBracketAddress inner then some inner else none
  else if host.all (·.toNat < 0x80) then
    some (Percent.encodeKeeping isNameChar (host.map Char.toLower))
  else none

end RegistryGate.Host
