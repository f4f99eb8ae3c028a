import RegistryGate.Text.Ranges

/-!
# White space

The code points that count as white space when text is trimmed and when credentials are looked
for, and the trimming itself. Trimming is a fixed point of itself: what is left neither begins
nor ends with white space. Dropping a trailing character takes off just its occurrences at the end
(`dropTrailing_eq_iff`).
-/

namespace RegistryGate.Text

/-- The ranges of white space: the ASCII blanks with the four information separators, the next-line
control, and the space separators of Unicode. -/
def blankRanges : List (Nat × Nat) :=
  [(0x9, 0xd), (0x1c, 0x20), (0x85, 0x85), (0xa0, 0xa0), (0x1680, 0x1680), (0x2000, 0x200a),
   (0x2028, 0x2029), (0x202f, 0x202f), (0x205f, 0x205f), (0x3000, 0x3000)]

def isBlank (code : Nat) : Bool := covers blankRanges code

def isBlankChar (c : Char) : Bool := isBlank c.toNat

def trimRight (text : List Char) : List Char := (text.reverse.dropWhile isBlankChar).reverse

/-- The text without the white space at either end. -/
def trim (text : List Char) : List Char := trimRight (text.dropWhile isBlankChar)

/-- The text without the given character at its end, however often it stands there. -/
def dropTrailing (c : Char) (text : List Char) : List Char :=
  (text.reverse.dropWhile (· == c)).reverse

theorem dropTrailing_concat_self (c : Char) (text : List Char) :
    dropTrailing c (text ++ [c]) = dropTrailing c text := by
  simp [dropTrailing]

theorem dropTrailing_of_getLast?_ne {c : Char} {text : List Char} (h : text.getLast? ≠ some c) :
    dropTrailing c text = text := by
  rcases List.eq_nil_or_concat text with rfl | ⟨initial, last, rfl⟩
  · rfl
  · have different : last ≠ c := by simpa using h
    simp [dropTrailing, different]

/-- What is left does not end in the character, and the text is that with the character behind it some
number of times. -/
theorem dropTrailing_eq_iff {c : Char} {text left : List Char} :
    dropTrailing c text = left ↔
      left.getLast? ≠ some c ∧ ∃ count, text = left ++ List.replicate count c := by
  constructor
  · rintro rfl
    constructor
    · intro last
      rw [dropTrailing, List.getLast?_reverse] at last
      have := List.head?_dropWhile_not (· == c) text.reverse
      rw [last] at this
      simp at this
    · refine ⟨(text.reverse.takeWhile (· == c)).length, ?_⟩
      have same : text.reverse.takeWhile (· == c) =
          List.replicate (text.reverse.takeWhile (· == c)).length c := by
        refine List.eq_replicate_of_mem fun d member => ?_
        simpa using List.all_eq_true.mp List.all_takeWhile d member
      have split := List.takeWhile_append_dropWhile (p := (· == c)) (l := text.reverse)
      calc text = (text.reverse.takeWhile (· == c) ++ text.reverse.dropWhile (· == c)).reverse := by
            rw [split, List.reverse_reverse]
        _ = dropTrailing c text ++ (text.reverse.takeWhile (· == c)).reverse := by
            rw [List.reverse_append, dropTrailing]
        _ = _ := by rw [same, List.reverse_replicate, List.length_replicate]
  · rintro ⟨last, count, rfl⟩
    induction count with
    | zero => rw [List.replicate_zero, List.append_nil, dropTrailing_of_getLast?_ne last]
    | succ count ih =>
      rw [List.replicate_succ', ← List.append_assoc, dropTrailing_concat_self, ih]

end RegistryGate.Text
