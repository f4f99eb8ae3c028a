import RegistryGate.Text.Wide

/-!
# UTF-8

Code points written as one to four bytes and read back. The reader also accepts the three bytes of
a surrogate; a text that is to be a string refuses them afterwards. Overlong forms and numbers
above the last code point are refused everywhere.
-/

namespace RegistryGate.Text

/-- The bytes of a code point, a surrogate included. -/
def utf8Point (point : CodePoint) : List UInt8 :=
  let code := point.val
  if code < 0x80 then [UInt8.ofNat code]
  else if code < 0x800 then [UInt8.ofNat (0xc0 + code / 64), UInt8.ofNat (0x80 + code % 64)]
  else if code < 0x10000 then
    [UInt8.ofNat (0xe0 + code / 4096), UInt8.ofNat (0x80 + code / 64 % 64),
      UInt8.ofNat (0x80 + code % 64)]
  else
    [UInt8.ofNat (0xf0 + code / 262144), UInt8.ofNat (0x80 + code / 4096 % 64),
      UInt8.ofNat (0x80 + code / 64 % 64), UInt8.ofNat (0x80 + code % 64)]

def utf8 (text : List Char) : List UInt8 := text.flatMap fun c => utf8Point (.ofChar c)

/-- The bytes of a wide text, unless a surrogate stands in it. -/
def utf8? (text : WideText) : Option (List UInt8) := text.toChars?.map utf8

def isContinuation (byte : UInt8) : Bool := 0x80 ≤ byte && byte < 0xc0

/-- The code points of a byte sequence, surrogates let through. -/
def readUtf8 : List UInt8 → Option (List CodePoint)
  | [] => some []
  | a :: rest =>
    if a < 0x80 then (readUtf8 rest).map (CodePoint.ofNat a.toNat :: ·)
    else match rest with
      | [] => none
      | b :: rest =>
        if !isContinuation b then none
        else if 0xc2 ≤ a && a < 0xe0 then
          (readUtf8 rest).map (CodePoint.ofNat ((a.toNat - 0xc0) * 64 + (b.toNat - 0x80)) :: ·)
        else match rest with
          | [] => none
          | c :: rest =>
            if !isContinuation c then none
            else if 0xe0 ≤ a && a < 0xf0 then
              let code := (a.toNat - 0xe0) * 4096 + (b.toNat - 0x80) * 64 + (c.toNat - 0x80)
              if code < 0x800 then none else (readUtf8 rest).map (CodePoint.ofNat code :: ·)
            else match rest with
              | [] => none
              | d :: rest =>
                if !isContinuation d || !(0xf0 ≤ a && a < 0xf5) then none
                else
                  let code := (a.toNat - 0xf0) * 262144 + (b.toNat - 0x80) * 4096 +
                    (c.toNat - 0x80) * 64 + (d.toNat - 0x80)
                  if code < 0x10000 ∨ 0x110000 ≤ code then none
                  else (readUtf8 rest).map (CodePoint.ofNat code :: ·)

def readUtf8String? (bytes : List UInt8) : Option String :=
  (readUtf8 bytes).bind fun points => (WideText.mk points).toString?

end RegistryGate.Text
