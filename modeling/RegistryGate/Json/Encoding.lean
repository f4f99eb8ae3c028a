import RegistryGate.Text.Utf8

/-!
# The encoding of a document

A document may come in UTF-8, UTF-16 or UTF-32, with or without a byte order mark. Without one the
zero bytes among the first four tell, because a document begins with two ASCII characters.
Surrogates are let through in every encoding.
-/

namespace RegistryGate.Json

/-- An encoding, and the order of the bytes in a unit of it. -/
inductive Encoding where
  | utf8
  | utf16 (bigEndian : Bool)
  | utf32 (bigEndian : Bool)
deriving DecidableEq, Inhabited

/-- The encoding of a document and its bytes without the mark. -/
def detect (bytes : List UInt8) : Encoding × List UInt8 :=
  match bytes with
  | 0x00 :: 0x00 :: 0xfe :: 0xff :: rest => (.utf32 true, rest)
  | 0xff :: 0xfe :: 0x00 :: 0x00 :: rest => (.utf32 false, rest)
  | 0xfe :: 0xff :: rest => (.utf16 true, rest)
  | 0xff :: 0xfe :: rest => (.utf16 false, rest)
  | 0xef :: 0xbb :: 0xbf :: rest => (.utf8, rest)
  | a :: b :: c :: d :: _ =>
    if a = 0 then (if b = 0 then .utf32 true else .utf16 true, bytes)
    else if b = 0 then (if c = 0 ∧ d = 0 then .utf32 false else .utf16 false, bytes)
    else (.utf8, bytes)
  | [a, b] =>
    if a = 0 then (.utf16 true, bytes) else if b = 0 then (.utf16 false, bytes) else (.utf8, bytes)
  | _ => (.utf8, bytes)

/-- The units of two bytes each, unless a byte is left over. -/
def units16 (bigEndian : Bool) : List UInt8 → Option (List Nat)
  | [] => some []
  | [_] => none
  | a :: b :: rest =>
    let unit := if bigEndian then a.toNat * 256 + b.toNat else b.toNat * 256 + a.toNat
    (units16 bigEndian rest).map (unit :: ·)

def units32 (bigEndian : Bool) : List UInt8 → Option (List Nat)
  | [] => some []
  | a :: b :: c :: d :: rest =>
    let high := if bigEndian then a.toNat * 256 + b.toNat else d.toNat * 256 + c.toNat
    let low := if bigEndian then c.toNat * 256 + d.toNat else b.toNat * 256 + a.toNat
    (units32 bigEndian rest).map ((high * 65536 + low) :: ·)
  | _ => none

/-- The code points of units of sixteen bits: a surrogate pair is one, a lone surrogate itself. -/
def joinUnits : List Nat → List CodePoint
  | [] => []
  | [unit] => [CodePoint.ofNat unit]
  | high :: low :: rest =>
    if 0xd800 ≤ high ∧ high < 0xdc00 ∧ 0xdc00 ≤ low ∧ low < 0xe000 then
      CodePoint.ofNat (0x10000 + (high - 0xd800) * 0x400 + (low - 0xdc00)) :: joinUnits rest
    else CodePoint.ofNat high :: joinUnits (low :: rest)

def decode (bytes : List UInt8) : Option (List CodePoint) :=
  match detect bytes with
  | (.utf8, rest) => Text.readUtf8 rest
  | (.utf16 bigEndian, rest) => (units16 bigEndian rest).map joinUnits
  | (.utf32 bigEndian, rest) => do
    let units ← units32 bigEndian rest
    if units.all (· < 0x110000) then some (units.map CodePoint.ofNat) else none

end RegistryGate.Json
