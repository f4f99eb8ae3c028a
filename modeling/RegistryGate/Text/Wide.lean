/-!
# Texts of code points

A document from the network can name a surrogate by its number, which no `String` can hold. A wide
text is a sequence of arbitrary code points; a `String` is one of them, and a wide text without
surrogates is a `String` again.
-/

namespace RegistryGate

/-- A Unicode code point; unlike a `Char` it may be a surrogate. -/
abbrev CodePoint := Fin 0x110000

namespace CodePoint

/-- The code point with a number, which is taken modulo the count of code points. -/
def ofNat (code : Nat) : CodePoint := ⟨code % 0x110000, Nat.mod_lt code (Nat.succ_pos 0x10ffff)⟩

def ofChar (c : Char) : CodePoint :=
  ⟨c.toNat, by
    have valid : c.toNat < 0xd800 ∨ 0xdfff < c.toNat ∧ c.toNat < 0x110000 := c.valid
    omega⟩

/-- Whether a code point is one half of a surrogate pair. -/
def isSurrogate (c : CodePoint) : Bool := 0xd800 ≤ c.val && c.val ≤ 0xdfff

/-- The character at a code point, if there is one. -/
def toChar? (c : CodePoint) : Option Char :=
  if c.isSurrogate then none else some (Char.ofNat c.val)

theorem isSurrogate_ofChar (c : Char) : (ofChar c).isSurrogate = false := by
  have valid : c.toNat < 0xd800 ∨ 0xdfff < c.toNat ∧ c.toNat < 0x110000 := c.valid
  simp only [isSurrogate, Bool.and_eq_false_iff, decide_eq_false_iff_not]
  simp only [ofChar]
  omega

theorem toChar?_ofChar (c : Char) : (ofChar c).toChar? = some c := by
  rw [toChar?, isSurrogate_ofChar]
  simp [ofChar]

theorem ofChar_of_toChar? {point : CodePoint} {c : Char} (read : point.toChar? = some c) :
    ofChar c = point := by
  unfold toChar? at read
  split at read
  · cases read
  case isFalse other =>
    cases read
    have valid : point.val.isValidChar := by
      simp only [isSurrogate, Bool.and_eq_true, decide_eq_true_eq, not_and] at other
      have bound := point.isLt
      simp only [Nat.isValidChar]
      omega
    apply Fin.ext
    show (Char.ofNat point.val).toNat = point.val
    rw [Char.ofNat, dif_pos valid]
    rfl

end CodePoint

/-- A text in which surrogates may stand alone. -/
structure WideText where
  points : List CodePoint
deriving DecidableEq, Inhabited

namespace WideText

def ofChars (text : List Char) : WideText := ⟨text.map CodePoint.ofChar⟩

def ofString (text : String) : WideText := ofChars text.toList

instance : Coe String WideText := ⟨ofString⟩

instance : Append WideText := ⟨fun a b => ⟨a.points ++ b.points⟩⟩

/-- The characters of the text, unless a surrogate stands in it. -/
def toChars? (text : WideText) : Option (List Char) := text.points.mapM CodePoint.toChar?

def toString? (text : WideText) : Option String := text.toChars?.map String.ofList

def length (text : WideText) : Nat := text.points.length

def isEmpty (text : WideText) : Bool := text.points.isEmpty

theorem toChars?_ofChars (text : List Char) : (ofChars text).toChars? = some text := by
  induction text with
  | nil => rfl
  | cons c rest ih =>
    simp only [toChars?, ofChars, List.map_cons, List.mapM_cons] at ih ⊢
    simp [CodePoint.toChar?_ofChar, ih]

theorem ofChars_of_toChars? {text : WideText} {chars : List Char} (read : text.toChars? = some chars) :
    ofChars chars = text := by
  obtain ⟨points⟩ := text
  simp only [toChars?] at read
  induction points generalizing chars with
  | nil =>
    cases read
    rfl
  | cons point points ih =>
    simp only [List.mapM_cons, Option.bind_eq_bind, Option.bind_eq_some_iff] at read
    obtain ⟨c, first, rest, later, made⟩ := read
    cases made
    have behind := ih later
    simp only [ofChars, mk.injEq] at behind ⊢
    rw [List.map_cons, CodePoint.ofChar_of_toChar? first, behind]

theorem toString?_ofString (text : String) : (ofString text).toString? = some text := by
  simp [toString?, ofString, toChars?_ofChars]

theorem isEmpty_ofString {text : String} : (ofString text).isEmpty = true ↔ text = "" := by
  simp [isEmpty, ofString, ofChars]

theorem ofString_injective {a b : String} (h : ofString a = ofString b) : a = b := by
  have := congrArg toString? h
  simpa [toString?_ofString] using this

end WideText

end RegistryGate
