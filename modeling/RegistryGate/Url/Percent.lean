import RegistryGate.Text.Hex
import RegistryGate.Text.Utf8

/-!
# Percent encoding

A character that may not stand for itself in a part of a URL is written as the bytes of its UTF-8
form, each as a percent sign and two hexadecimal digits.
-/

namespace RegistryGate.Percent

/-- The characters that stand for themselves in every part of a URL. -/
def isUnreserved (c : Char) : Bool :=
  let code := c.toNat
  (0x41 ≤ code && code ≤ 0x5a) || (0x61 ≤ code && code ≤ 0x7a) || (0x30 ≤ code && code ≤ 0x39) ||
    c == '-' || c == '.' || c == '_' || c == '~'

def escapeByte (byte : UInt8) : List Char :=
  ['%', Text.hexDigitUpper (byte.toNat / 16), Text.hexDigitUpper (byte.toNat % 16)]

/-- A character as it stands in a part of a URL, given which characters stand for themselves. -/
def encodeChar (safe : Char → Bool) (c : Char) : List Char :=
  if safe c then [c] else (Text.utf8Point (.ofChar c)).flatMap escapeByte

/-- A text as one segment of a path: only unreserved characters stand for themselves. A surrogate
has no encoding. -/
def encodeSegment? (text : WideText) : Option (List Char) :=
  text.toChars?.map (·.flatMap (encodeChar isUnreserved))

def isHex (c : Char) : Bool := (Text.hexValue? c.toNat).isSome

/-- A text as a part of a URL that may hold escapes already, which are kept. -/
def encodeKeeping (safe : Char → Bool) : List Char → List Char
  | [] => []
  | '%' :: a :: b :: rest =>
    if isHex a && isHex b then '%' :: a :: b :: encodeKeeping safe rest
    else encodeChar safe '%' ++ encodeKeeping safe (a :: b :: rest)
  | c :: rest => encodeChar safe c ++ encodeKeeping safe rest

def decode : List Char → List UInt8
  | [] => []
  | '%' :: a :: b :: rest =>
    match Text.hexValue? a.toNat, Text.hexValue? b.toNat with
    | some high, some low => .ofNat (high * 16 + low) :: decode rest
    | _, _ => 0x25 :: decode (a :: b :: rest)
  | c :: rest => Text.utf8Point (.ofChar c) ++ decode rest

end RegistryGate.Percent
