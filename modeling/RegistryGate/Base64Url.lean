/-!
# Base64url without padding

Bytes are written three at a time as four characters of the URL-safe alphabet, with no padding at
the end. The reader accepts the plain alphabet too, and padding where it closes a group; it says
what is wrong with any other text. The unused low bits of the last character of an incomplete group
are not looked at.
-/

namespace RegistryGate.Base64Url

/-! ## Writing -/

/-- The character of six bits. -/
def digit (sextet : Nat) : Char :=
  if sextet < 26 then Char.ofNat (0x41 + sextet)
  else if sextet < 52 then Char.ofNat (0x61 + (sextet - 26))
  else if sextet < 62 then Char.ofNat (0x30 + (sextet - 52))
  else if sextet = 62 then '-'
  else '_'

def encode : List UInt8 → List Char
  | [] => []
  | [a] => [digit (a.toNat / 4), digit (a.toNat % 4 * 16)]
  | [a, b] =>
    [digit (a.toNat / 4), digit (a.toNat % 4 * 16 + b.toNat / 16), digit (b.toNat % 16 * 4)]
  | a :: b :: c :: rest =>
    digit (a.toNat / 4) :: digit (a.toNat % 4 * 16 + b.toNat / 16) ::
      digit (b.toNat % 16 * 4 + c.toNat / 64) :: digit (c.toNat % 64) :: encode rest

/-! ## Reading -/

inductive DecodeError where
  | notAscii
  | leadingPadding
  /-- Something follows the padding that closes a group. -/
  | dataAfterPadding
  | foreignCharacter
  /-- A character of the alphabet follows padding that closes no group. -/
  | splitPadding
  /-- The last group has one character; the count of all characters of the alphabet is given. -/
  | loneCharacter (count : Nat)
  /-- The last group is neither complete nor padded. -/
  | missingPadding
deriving DecidableEq, Inhabited

def DecodeError.message : DecodeError → String
  | .notAscii => "string argument should contain only ASCII characters"
  | .leadingPadding => "Leading padding not allowed"
  | .dataAfterPadding => "Excess data after padding"
  | .foreignCharacter => "Only base64 data is allowed"
  | .splitPadding => "Discontinuous padding not allowed"
  | .loneCharacter count =>
    "Invalid base64-encoded string: number of data characters (" ++ toString count ++
      ") cannot be 1 more than a multiple of 4"
  | .missingPadding => "Incorrect padding"

/-- The six bits of a character of the plain or the URL-safe alphabet. -/
def sextet? (c : Char) : Option Nat :=
  let code := c.toNat
  if 0x41 ≤ code ∧ code ≤ 0x5a then some (code - 0x41)
  else if 0x61 ≤ code ∧ code ≤ 0x7a then some (code - 0x61 + 26)
  else if 0x30 ≤ code ∧ code ≤ 0x39 then some (code - 0x30 + 52)
  else if c = '+' ∨ c = '-' then some 62
  else if c = '/' ∨ c = '_' then some 63
  else none

/-- The bytes of a group of two, three or four characters. -/
def groupBytes : List Nat → List UInt8
  | [a, b] => [.ofNat (a * 4 + b / 16)]
  | [a, b, c] => [.ofNat (a * 4 + b / 16), .ofNat (b % 16 * 16 + c / 4)]
  | [a, b, c, d] =>
    [.ofNat (a * 4 + b / 16), .ofNat (b % 16 * 16 + c / 4), .ofNat (c % 4 * 64 + d)]
  | _ => []

/-- Reads characters into groups. `groups` counts the complete groups so far, `pending` holds the
group being read, `padded` says that padding was seen since the last character, and `pads` how much
of it counts towards closing the group. -/
def scan (groups : Nat) (pending : List Nat) (padded : Bool) (pads : Nat) :
    List Char → Except DecodeError (List UInt8)
  | [] =>
    match pending with
    | [] => .ok []
    | [_] => .error (.loneCharacter (groups * 4 + 1))
    | _ => .error .missingPadding
  | c :: rest =>
    if c = '=' then
      if pending.length < 2 then scan groups pending true pads rest
      else if pending.length + pads < 3 then scan groups pending true (pads + 1) rest
      else if rest.isEmpty then .ok (groupBytes pending)
      else .error .dataAfterPadding
    else
      match sextet? c with
      | none => .error .foreignCharacter
      | some value =>
        if padded then .error .splitPadding
        else if pending.length = 3 then
          (scan (groups + 1) [] false 0 rest).map (groupBytes (pending ++ [value]) ++ ·)
        else scan groups (pending ++ [value]) false 0 rest

/-- The text with as much padding as makes its length a multiple of four. -/
def pad (text : List Char) : List Char :=
  text ++ List.replicate ((4 - text.length % 4) % 4) '='

def decode (text : List Char) : Except DecodeError (List UInt8) :=
  if text.any (0x80 ≤ ·.toNat) then .error .notAscii
  else if text.head? = some '=' then .error .leadingPadding
  else scan 0 [] false 0 (pad text)

end RegistryGate.Base64Url
