import RegistryGate.Text.Wide
import RegistryGate.Text.Hex
import RegistryGate.Text.Printable

/-!
# Quoted text

How a text is shown inside a message: between quotes, with what cannot be printed written by its
number. The apostrophe is the usual quote; the double quote is taken when the text holds an
apostrophe and no double quote.
-/

namespace RegistryGate.Text

def quoteFor (text : WideText) : Char :=
  if text.points.any (·.val == 0x27) && !text.points.any (·.val == 0x22) then '"' else '\''

/-- One code point of quoted text: the quote and the backslash are escaped by a backslash, tab and
line ends by a letter, and whatever cannot be printed by two, four or eight hexadecimal digits. -/
def quotePoint (quote : Char) (point : CodePoint) : List Char :=
  let code := point.val
  if code = quote.toNat then ['\\', quote]
  else if code = 0x5c then ['\\', '\\']
  else if code = 0x09 then ['\\', 't']
  else if code = 0x0a then ['\\', 'n']
  else if code = 0x0d then ['\\', 'r']
  else if isPrintable code then point.toChar?.toList
  else if code ≤ 0xff then '\\' :: 'x' :: hexFixed 2 code
  else if code ≤ 0xffff then '\\' :: 'u' :: hexFixed 4 code
  else '\\' :: 'U' :: hexFixed 8 code

def quoted (text : WideText) : String :=
  let quote := quoteFor text
  String.ofList (quote :: (text.points.flatMap (quotePoint quote) ++ [quote]))

/-- One byte of a quoted byte string: printable ASCII stands for itself. -/
def quoteByte (quote : Char) (byte : UInt8) : List Char :=
  let code := byte.toNat
  if code = quote.toNat then ['\\', quote]
  else if code = 0x5c then ['\\', '\\']
  else if code = 0x09 then ['\\', 't']
  else if code = 0x0a then ['\\', 'n']
  else if code = 0x0d then ['\\', 'r']
  else if 0x20 ≤ code ∧ code < 0x7f then [Char.ofNat code]
  else '\\' :: 'x' :: hexFixed 2 code

/-- A byte string as messages show it: marked by the letter b before the quote. -/
def quotedBytes (bytes : List UInt8) : String :=
  let quote := if bytes.contains 0x27 && !bytes.contains 0x22 then '"' else '\''
  String.ofList ('b' :: quote :: (bytes.flatMap (quoteByte quote) ++ [quote]))

end RegistryGate.Text
