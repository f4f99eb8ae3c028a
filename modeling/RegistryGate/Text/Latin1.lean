/-!
# Latin-1

The characters below U+0100 as single bytes.
-/

namespace RegistryGate.Text

/-- The bytes of a text, unless it holds a character beyond U+00FF. -/
def latin1? (text : List Char) : Option (List UInt8) :=
  if text.all (·.toNat < 0x100) then some (text.map fun c => .ofNat c.toNat) else none

/-- The text of bytes. -/
def readLatin1 (bytes : List UInt8) : List Char := bytes.map fun byte => Char.ofNat byte.toNat

theorem latin1?_eq_some {text : List Char} (small : ∀ c ∈ text, c.toNat < 0x100) :
    latin1? text = some (text.map fun c => .ofNat c.toNat) := by
  refine if_pos (List.all_eq_true.mpr fun c member => ?_)
  exact decide_eq_true (small c member)

theorem latin1?_isSome_iff {text : List Char} :
    (latin1? text).isSome = true ↔ ∀ c ∈ text, c.toNat < 0x100 := by
  unfold latin1?
  split <;> simp_all

end RegistryGate.Text
