import RegistryGate.Json.Reader
import RegistryGate.Json.Writer

/-!
# Documents read back

What is written for a string is read as that string (`readString_string`), the numeral of an integer as
the integer if it is short enough (`readNumber_toString`), and an object as the mapping of its members
(`read_object`), in either dialect. Each part is read with the rest of the document behind it, so that
the results can be put one after another. A value can be written exactly if it holds nothing that has no
text, no integer that is too long, and no containers that nest too deep (`write_eq_ok_iff`).
-/

namespace RegistryGate.Json

/-- A text as the reader gets it. -/
def written (text : List Char) : Input := text.map CodePoint.ofChar

theorem written_append (a b : List Char) : written (a ++ b) = written a ++ written b :=
  List.map_append

theorem written_cons (c : Char) (text : List Char) :
    written (c :: text) = CodePoint.ofChar c :: written text := rfl

theorem is_ofChar (c d : Char) : (CodePoint.ofChar c).is d = decide (c = d) := by
  simp only [CodePoint.is, CodePoint.ofChar, Bool.beq_eq_decide_eq, Char.toNat_inj]

/-! ## Strings -/

variable {dialect : Dialect} {rest : Input}

theorem readPieces_quote : readPieces (CodePoint.ofChar '"' :: rest) = some ([], rest) := by
  rw [readPieces.eq_def]
  simp only [is_ofChar, decide_true, if_true]

theorem readPieces_plain {c : Char} (quote : c ≠ '"') (backslash : c ≠ '\\')
    (printable : 0x20 ≤ c.toNat) :
    readPieces (CodePoint.ofChar c :: rest) =
      (readPieces rest).map fun found => (.plain (CodePoint.ofChar c) :: found.1, found.2) := by
  have control : ¬ (CodePoint.ofChar c).val < 0x20 := Nat.not_lt.mpr printable
  rw [readPieces.eq_def]
  simp only [is_ofChar, quote, backslash, control, decide_false, Bool.false_eq_true, if_false]
  cases readPieces rest <;> rfl

theorem readPieces_short {letter : Char} {point : CodePoint} (number : letter ≠ 'u')
    (stands : shortEscape? (CodePoint.ofChar letter) = some point) :
    readPieces (written ['\\', letter] ++ rest) =
      (readPieces rest).map fun found => (.plain point :: found.1, found.2) := by
  have control : ¬ (CodePoint.ofChar '\\').val < 0x20 := by decide
  show readPieces (CodePoint.ofChar '\\' :: CodePoint.ofChar letter :: rest) = _
  rw [readPieces.eq_def]
  simp only [is_ofChar, control, number, stands, decide_false, decide_true, if_true, if_false,
    Char.reduceEq, Bool.false_eq_true]
  cases readPieces rest <;> rfl

theorem hexValue?_ofChar {value : Nat} (small : value < 16) :
    Text.hexValue? (CodePoint.ofChar (Text.hexDigit value)).val = some value :=
  Text.hexValue?_hexDigit small

theorem readPieces_number {code : Nat} (small : code < 0x10000) :
    readPieces (written (numberEscape code) ++ rest) =
      (readPieces rest).map fun found => (.escaped (CodePoint.ofNat code) :: found.1, found.2) := by
  have control : ¬ (CodePoint.ofChar '\\').val < 0x20 := by decide
  have whole : code / 16 / 16 / 16 % 16 * 4096 + code / 16 / 16 % 16 * 256 + code / 16 % 16 * 16 +
      code % 16 = code := by omega
  have read : hexEscape? (CodePoint.ofChar (Text.hexDigit (code / 16 / 16 / 16 % 16)))
      (CodePoint.ofChar (Text.hexDigit (code / 16 / 16 % 16)))
      (CodePoint.ofChar (Text.hexDigit (code / 16 % 16)))
      (CodePoint.ofChar (Text.hexDigit (code % 16))) = some (CodePoint.ofNat code) := by
    simp only [hexEscape?, hexValue?_ofChar (Nat.mod_lt _ (show 16 > 0 by decide)),
      Option.bind_eq_bind, Option.bind_some, Option.pure_def, whole]
  show readPieces (CodePoint.ofChar '\\' :: CodePoint.ofChar 'u' ::
    CodePoint.ofChar (Text.hexDigit (code / 16 / 16 / 16 % 16)) ::
    CodePoint.ofChar (Text.hexDigit (code / 16 / 16 % 16)) ::
    CodePoint.ofChar (Text.hexDigit (code / 16 % 16)) ::
    CodePoint.ofChar (Text.hexDigit (code % 16)) :: rest) = _
  rw [readPieces.eq_def]
  simp only [is_ofChar, control, read, decide_false, decide_true, if_true, if_false, Char.reduceEq,
    Bool.false_eq_true]
  cases readPieces rest <;> rfl

/-- A code has a short escape, an escape by its number, or none. -/
theorem escape?_cases (code : Nat) :
    (∃ letter, ∃ point : CodePoint, escape? code = some ['\\', letter] ∧ letter ≠ 'u' ∧
      shortEscape? (CodePoint.ofChar letter) = some point ∧ point.val = code) ∨
    (code < 0x20 ∧ escape? code = some (numberEscape code)) ∨
    (0x20 ≤ code ∧ code ≠ 0x22 ∧ code ≠ 0x5c ∧ escape? code = none) := by
  unfold escape?
  by_cases quote : code = 0x22
  · exact .inl ⟨'"', 0x22, by rw [if_pos quote], by decide, by decide, quote.symm⟩
  rw [if_neg quote]
  by_cases backslash : code = 0x5c
  · exact .inl ⟨'\\', 0x5c, by rw [if_pos backslash], by decide, by decide, backslash.symm⟩
  rw [if_neg backslash]
  by_cases newline : code = 0x0a
  · exact .inl ⟨'n', 0x0a, by rw [if_pos newline], by decide, by decide, newline.symm⟩
  rw [if_neg newline]
  by_cases carriage : code = 0x0d
  · exact .inl ⟨'r', 0x0d, by rw [if_pos carriage], by decide, by decide, carriage.symm⟩
  rw [if_neg carriage]
  by_cases tab : code = 0x09
  · exact .inl ⟨'t', 0x09, by rw [if_pos tab], by decide, by decide, tab.symm⟩
  rw [if_neg tab]
  by_cases page : code = 0x0c
  · exact .inl ⟨'f', 0x0c, by rw [if_pos page], by decide, by decide, page.symm⟩
  rw [if_neg page]
  by_cases backspace : code = 0x08
  · exact .inl ⟨'b', 0x08, by rw [if_pos backspace], by decide, by decide, backspace.symm⟩
  rw [if_neg backspace]
  by_cases control : code < 0x20
  · exact .inr (.inl ⟨control, by rw [if_pos control]⟩)
  · exact .inr (.inr ⟨by omega, quote, backslash, by rw [if_neg control]⟩)

/-- The piece that a character is written as. -/
def pieceOf (c : Char) : Piece :=
  if escape? c.toNat = some (numberEscape c.toNat) then .escaped (.ofChar c) else .plain (.ofChar c)

theorem numberEscape_ne_short (code : Nat) (letter : Char) :
    some ['\\', letter] ≠ some (numberEscape code) := by
  intro same
  have lengths := congrArg (Option.map List.length) same
  simp [numberEscape, Text.length_hexFixed] at lengths

theorem pieceOf_eq_escaped {c : Char} {point : CodePoint} (escaped : pieceOf c = .escaped point) :
    point.val < 0x20 := by
  unfold pieceOf at escaped
  split at escaped
  case isTrue numbered =>
    cases escaped
    rcases escape?_cases c.toNat with ⟨letter, point, short, -⟩ | ⟨control, -⟩ | ⟨-, -, -, none⟩
    · exact absurd (short.symm.trans numbered) (numberEscape_ne_short _ _)
    · exact control
    · cases none.symm.trans numbered
  case isFalse => cases escaped

/-- What is written for a character is read as one piece. -/
theorem readPieces_stringChar (c : Char) :
    readPieces (written (stringChar c) ++ rest) =
      (readPieces rest).map fun found => (pieceOf c :: found.1, found.2) := by
  unfold stringChar pieceOf
  rcases escape?_cases c.toNat with ⟨letter, point, short, number, stands, same⟩ |
    ⟨control, numbered⟩ | ⟨printable, quote, backslash, none⟩
  · have whole : point = CodePoint.ofChar c := Fin.ext same
    rw [short, if_neg (numberEscape_ne_short _ _), Option.getD_some,
      readPieces_short number stands, whole]
  · have whole : CodePoint.ofNat c.toNat = CodePoint.ofChar c := by
      apply Fin.ext
      exact Nat.mod_eq_of_lt (by omega)
    rw [numbered, if_pos rfl, Option.getD_some, readPieces_number (by omega), whole]
  · have notQuote : c ≠ '"' := by
      rintro rfl
      exact quote rfl
    have notBackslash : c ≠ '\\' := by
      rintro rfl
      exact backslash rfl
    rw [none, if_neg (by rintro ⟨⟩), Option.getD_none]
    exact readPieces_plain notQuote notBackslash printable

theorem readPieces_string (text : List Char) :
    readPieces (written (text.flatMap stringChar) ++ CodePoint.ofChar '"' :: rest) =
      some (text.map pieceOf, rest) := by
  induction text with
  | nil => exact readPieces_quote
  | cons c text ih =>
    rw [List.flatMap_cons, written_append, List.append_assoc, readPieces_stringChar, ih]
    rfl

def Piece.point : Piece → CodePoint
  | .plain point => point
  | .escaped point => point

/-- Escapes of controls are never joined, because no control is a surrogate. -/
theorem joinPieces_of_controls {pieces : List Piece}
    (low : ∀ point, Piece.escaped point ∈ pieces → point.val < 0x20) :
    joinPieces pieces = pieces.map Piece.point := by
  fun_induction joinPieces pieces with
  | case1 => rfl
  | case2 point rest ih =>
    rw [ih fun other member => low other (List.mem_cons_of_mem _ member)]
    rfl
  | case3 point => rfl
  | case4 point next rest ih =>
    rw [ih fun other member => low other (List.mem_cons_of_mem _ (List.mem_cons_of_mem _ member))]
    rfl
  | case5 high low' rest pair ih =>
    have control := low high List.mem_cons_self
    simp only [arePair, Bool.and_eq_true, decide_eq_true_eq] at pair
    omega
  | case6 high low' rest pair ih =>
    rw [ih fun other member => low other (List.mem_cons_of_mem _ member)]
    rfl

theorem point_pieceOf (c : Char) : (pieceOf c).point = CodePoint.ofChar c := by
  unfold pieceOf
  split <;> rfl

/-- Both dialects let the characters of a text through. -/
theorem admits_ofChar (text : List Char) :
    dialect.admits (text.map CodePoint.ofChar) = true := by
  cases dialect with
  | lenient => rfl
  | strict =>
    simp only [Dialect.admits, Bool.not_eq_true', List.any_eq_false, List.mem_map]
    rintro _ ⟨c, -, rfl⟩
    rw [CodePoint.isSurrogate_ofChar]
    decide

/-- A string is read back up to its closing quote. -/
theorem readString_string (text : List Char) :
    readString dialect (written (text.flatMap stringChar) ++ CodePoint.ofChar '"' :: rest) =
      .ok (.ofChars text, rest) := by
  have joined : joinPieces (text.map pieceOf) = text.map CodePoint.ofChar := by
    rw [joinPieces_of_controls, List.map_map]
    · exact List.map_congr_left fun c _ => point_pieceOf c
    · intro point member
      obtain ⟨c, -, escaped⟩ := List.mem_map.mp member
      exact pieceOf_eq_escaped escaped
  simp only [readString, readPieces_string, joined, admits_ofChar, if_true]
  rfl

theorem written_string (text : List Char) :
    written (string text) ++ rest =
      CodePoint.ofChar '"' :: (written (text.flatMap stringChar) ++ CodePoint.ofChar '"' :: rest) := by
  simp only [string, written_cons, written_append, List.cons_append, List.append_assoc]
  rfl

/-! ## Integers -/

/-- An input that begins with neither a digit nor a point nor the mark of an exponent, so that a number
before it ends there. -/
def EndsNumber (rest : Input) : Prop :=
  ∀ point ∈ rest.head?, isDigit point = false ∧ point.is '.' = false ∧ point.is 'e' = false ∧
    point.is 'E' = false

theorem isDigit_ofChar {c : Char} (digit : c.isDigit = true) :
    isDigit (CodePoint.ofChar c) = true := by
  have bounds : 48 ≤ c.toNat ∧ c.toNat ≤ 57 := by
    simpa [Char.isDigit, UInt32.le_iff_toNat_le] using digit
  simp only [isDigit, Bool.and_eq_true, decide_eq_true_eq]
  exact bounds

theorem isDigit_of_mem (number : Nat) {point : CodePoint}
    (member : point ∈ written (Nat.toDigits 10 number)) : isDigit point = true := by
  obtain ⟨c, inside, rfl⟩ := List.mem_map.mp member
  exact isDigit_ofChar (Nat.isDigit_of_mem_toDigits (by decide) (by decide) inside)

/-- Only the numeral of zero begins with a zero. -/
theorem head_toDigits_ne_zero {number : Nat} (positive : 0 < number) :
    (Nat.toDigits 10 number).head? ≠ some '0' := by
  induction number using Nat.strongRecOn with
  | ind number ih =>
    by_cases single : number < 10
    · rw [Nat.toDigits_of_lt_base single]
      have all : ∀ n < 10, 0 < n → [Nat.digitChar n].head? ≠ some '0' := by decide
      exact all number single positive
    · have before := ih (number / 10) (by omega) (by omega)
      obtain ⟨first, more, digits⟩ :=
        List.exists_cons_of_ne_nil (Nat.toDigits_ne_nil (n := number / 10) (b := 10))
      rw [Nat.toDigits_of_base_le (by decide) (by omega), digits]
      rw [digits] at before
      exact before

theorem digitsValue_toDigits (number : Nat) :
    digitsValue (written (Nat.toDigits 10 number)) = number := by
  have folded : digitsValue (written (Nat.toDigits 10 number)) =
      Nat.ofDigitChars 10 (Nat.toDigits 10 number) 0 := by
    rw [digitsValue, written, List.foldl_map, Nat.ofDigitChars_eq_foldl]
    congr 1
    funext value c
    rw [Nat.mul_comm]
    rfl
  rw [folded, Nat.ofDigitChars_ten_toDigits]

theorem digits_append (number : Nat) (ends : EndsNumber rest) :
    (written (Nat.toDigits 10 number) ++ rest).takeWhile isDigit =
        written (Nat.toDigits 10 number) ∧
      (written (Nat.toDigits 10 number) ++ rest).dropWhile isDigit = rest := by
  have digits : ∀ point ∈ written (Nat.toDigits 10 number), isDigit point = true :=
    fun point member => isDigit_of_mem number member
  rw [List.takeWhile_append_of_pos digits, List.dropWhile_append_of_pos digits]
  cases rest with
  | nil => exact ⟨List.append_nil _, rfl⟩
  | cons point more =>
    have stops := (ends point rfl).1
    rw [List.takeWhile_cons_of_neg (by rw [stops]; decide),
      List.dropWhile_cons_of_neg (by rw [stops]; decide)]
    exact ⟨List.append_nil _, rfl⟩

theorem readWhole_toDigits (number : Nat) (ends : EndsNumber rest) :
    readWhole (written (Nat.toDigits 10 number) ++ rest) =
      some (written (Nat.toDigits 10 number), rest) := by
  obtain ⟨taken, left⟩ := digits_append number ends
  by_cases zero : number = 0
  · rw [zero, Nat.toDigits_zero]
    rfl
  · have lead := head_toDigits_ne_zero (Nat.pos_of_ne_zero zero)
    obtain ⟨first, more, digits⟩ :=
      List.exists_cons_of_ne_nil (Nat.toDigits_ne_nil (n := number) (b := 10))
    have digit : isDigit (CodePoint.ofChar first) = true :=
      isDigit_of_mem number (by rw [digits]; exact List.mem_cons_self)
    rw [digits] at taken left lead ⊢
    have notZero : first ≠ '0' := fun same => lead (congrArg some same)
    rw [written_cons, List.cons_append, List.takeWhile_cons_of_pos digit] at taken
    rw [written_cons, List.cons_append, List.dropWhile_cons_of_pos digit] at left
    simp only [written_cons, List.cons_append, readWhole, is_ofChar, notZero, decide_false,
      Bool.false_eq_true, if_false, digit, if_true, taken, left]

theorem readFraction_eq_none (ends : EndsNumber rest) : readFraction rest = none := by
  match rest with
  | [] => rfl
  | [_] => rfl
  | point :: first :: more =>
    have noPoint := (ends point rfl).2.1
    simp only [readFraction, noPoint, Bool.false_and, Bool.false_eq_true, if_false]

theorem readExponent_eq_none (ends : EndsNumber rest) : readExponent rest = none := by
  cases rest with
  | nil => rfl
  | cons point more =>
    obtain ⟨-, -, small, large⟩ := ends point rfl
    simp only [readExponent, small, large, Bool.or_self, Bool.false_eq_true, if_false]

/-- The numeral of an integer: a sign if it is negative, and its digits. -/
theorem toList_toString (value : Int) :
    (toString value).toList =
      if value < 0 then '-' :: Nat.toDigits 10 value.natAbs else Nat.toDigits 10 value.natAbs := by
  rw [Int.toString_eq_repr, Int.repr_eq_if]
  by_cases negative : value < 0
  · have size : (-value).toNat = value.natAbs := by omega
    rw [if_pos negative, if_neg (by omega), String.toList_append, Nat.toList_repr, size]
    rfl
  · have size : value.toNat = value.natAbs := by omega
    rw [if_neg negative, if_pos (by omega), Nat.toList_repr, size]

/-- The numeral of an integer, with its sign, is no longer than a reader takes. -/
def Fits (value : Int) : Prop := (toString value).toList.length ≤ maxDigits

instance (value : Int) : Decidable (Fits value) :=
  inferInstanceAs (Decidable ((toString value).toList.length ≤ maxDigits))

theorem length_toString (value : Int) :
    (toString value).toList.length =
      (Nat.toDigits 10 value.natAbs).length + (decide (value < 0)).toNat := by
  rw [toList_toString]
  by_cases negative : value < 0
  · rw [if_pos negative, decide_eq_true negative]
    rfl
  · rw [if_neg negative, decide_eq_false negative]
    rfl

/-- An integer of fewer digits than the limit fits, whatever its sign. -/
theorem fits_of_digits {value : Int} (few : (Nat.toDigits 10 value.natAbs).length < maxDigits) :
    Fits value := by
  have sign := Bool.toNat_le (decide (value < 0))
  rw [Fits, length_toString]
  omega

theorem not_tooLong {value : Int} (fits : Fits value) (integer : Bool) :
    dialect.tooLong (decide (value < 0)) (Nat.toDigits 10 value.natAbs).length integer = false := by
  rw [Fits, length_toString] at fits
  cases dialect with
  | lenient =>
    simp only [Dialect.tooLong, Bool.and_eq_false_iff, decide_eq_false_iff_not]
    exact .inr (by omega)
  | strict =>
    simp only [Dialect.tooLong, decide_eq_false_iff_not]
    omega

/-- The reader of a number behind its sign. -/
theorem readNumber_toString (dialect : Dialect) {value : Int} (fits : Fits value)
    (ends : EndsNumber rest) :
    readNumber dialect (written (toString value).toList ++ rest) = .ok (.int value, rest) := by
  have short (integer : Bool) : dialect.tooLong (decide (value < 0))
      (written (Nat.toDigits 10 value.natAbs)).length integer = false := by
    rw [written, List.length_map]
    exact not_tooLong fits integer
  rw [toList_toString]
  by_cases negative : value < 0
  · have same : -(value.natAbs : Int) = value := by omega
    rw [decide_eq_true negative] at short
    rw [if_pos negative, written_cons, List.cons_append]
    simp only [readNumber, readSign, is_ofChar, decide_true, if_true, readWhole_toDigits _ ends,
      readFraction_eq_none ends, Option.getD_none, readExponent_eq_none ends, List.isEmpty_nil,
      short, Bool.false_eq_true, if_false, digitsValue_toDigits, same]
  · have same : (value.natAbs : Int) = value := by omega
    have whole := readWhole_toDigits value.natAbs ends
    obtain ⟨first, more, digits⟩ :=
      List.exists_cons_of_ne_nil (Nat.toDigits_ne_nil (n := value.natAbs) (b := 10))
    have unsigned : first ≠ '-' := by
      rintro rfl
      have digit : ('-' : Char).isDigit = true :=
        Nat.isDigit_of_mem_toDigits (n := value.natAbs) (b := 10) (by decide) (by decide)
          (by rw [digits]; exact List.mem_cons_self)
      exact absurd digit (by decide)
    have read := digitsValue_toDigits value.natAbs
    rw [if_neg negative]
    rw [decide_eq_false negative] at short
    rw [digits, written_cons, List.cons_append] at whole
    rw [digits, written_cons] at short read ⊢
    rw [List.cons_append]
    simp only [readNumber, readSign, is_ofChar, unsigned, decide_false, Bool.false_eq_true, if_false, whole,
      readFraction_eq_none ends, Option.getD_none, readExponent_eq_none ends, List.isEmpty_nil,
      if_true, short, read, same]

/-! ## Values -/

theorem is_of_isDigit {point : CodePoint} {c : Char} (digit : isDigit point = true)
    (other : c.isDigit = false) : point.is c = false := by
  have bounds : 0x30 ≤ point.val ∧ point.val ≤ 0x39 := by
    simpa [isDigit] using digit
  rw [CodePoint.is, beq_eq_false_iff_ne]
  intro same
  have digit : c.isDigit = true := by
    rw [same] at bounds
    simpa [Char.isDigit, UInt32.le_iff_toNat_le] using bounds
  rw [digit] at other
  cases other

/-- No word begins with a digit. -/
theorem readWord?_of_digit {point : CodePoint} (digit : isDigit point = true) :
    readWord? (point :: rest) = none := by
  have n := is_of_isDigit digit (c := 'n') (by decide)
  have t := is_of_isDigit digit (c := 't') (by decide)
  have f := is_of_isDigit digit (c := 'f') (by decide)
  have N := is_of_isDigit digit (c := 'N') (by decide)
  have I := is_of_isDigit digit (c := 'I') (by decide)
  have sign := is_of_isDigit digit (c := '-') (by decide)
  simp [readWord?, words, word?, n, t, f, N, I, sign]

theorem readWord?_of_sign {point : CodePoint} (digit : isDigit point = true) :
    readWord? (CodePoint.ofChar '-' :: point :: rest) = none := by
  have I := is_of_isDigit digit (c := 'I') (by decide)
  simp [readWord?, words, word?, I, is_ofChar]

theorem skipGaps_of_not_gap {c : Char} (solid : isGap (CodePoint.ofChar c) = false) :
    skipGaps (CodePoint.ofChar c :: rest) = CodePoint.ofChar c :: rest := by
  rw [skipGaps, List.dropWhile_cons_of_neg]
  rw [solid]
  decide

/-- A text stands for a value: the reader takes it for the value where a comma or a closing brace
follows. -/
def Stands (item : Input → Except ReadError (Document × Input)) (text : List Char)
    (value : Document) : Prop :=
  ∀ (mark : Char) (rest : Input), mark = ',' ∨ mark = '\x7d' →
    item (skipGaps (written text ++ CodePoint.ofChar mark :: rest)) =
      .ok (value, CodePoint.ofChar mark :: rest)

variable {opens : Bool} {item : Input → Except ReadError (Document × Input)} {bound : Nat}

theorem stands_string (text : List Char) :
    Stands (readLevel dialect opens item) (string text) (.text (.ofChars text)) := by
  intro mark rest closes
  rw [written_string, skipGaps_of_not_gap (by decide), readLevel]
  simp only [is_ofChar, decide_true, if_true, readString_string]
  rfl

theorem stands_int {value : Int} (fits : Fits value) :
    Stands (readLevel dialect opens item) (toString value).toList (.int value) := by
  intro mark rest closes
  have ends : EndsNumber (CodePoint.ofChar mark :: rest) := by
    rintro _ ⟨⟩
    rcases closes with rfl | rfl <;> exact ⟨by decide, by decide, by decide, by decide⟩
  have read := readNumber_toString dialect fits ends
  obtain ⟨first, more, digits⟩ :=
    List.exists_cons_of_ne_nil (Nat.toDigits_ne_nil (n := value.natAbs) (b := 10))
  have digit : isDigit (CodePoint.ofChar first) = true :=
    isDigit_of_mem value.natAbs (by rw [digits]; exact List.mem_cons_self)
  rw [toList_toString, digits] at read ⊢
  by_cases negative : value < 0
  · rw [if_pos negative, written_cons, written_cons, List.cons_append, List.cons_append] at read ⊢
    rw [skipGaps_of_not_gap (by decide), readLevel]
    simp only [is_ofChar, Char.reduceEq, decide_false, Bool.false_eq_true, if_false,
      readWord?_of_sign digit, read]
  · have notQuote := is_of_isDigit digit (c := '"') (by decide)
    have notBracket := is_of_isDigit digit (c := '[') (by decide)
    have notBrace := is_of_isDigit digit (c := '\x7b') (by decide)
    have solid : isGap (CodePoint.ofChar first) = false := by
      simp [isGap, is_of_isDigit digit (c := ' ') (by decide),
        is_of_isDigit digit (c := '\t') (by decide), is_of_isDigit digit (c := '\n') (by decide),
        is_of_isDigit digit (c := '\r') (by decide)]
    rw [if_neg negative, written_cons, List.cons_append] at read ⊢
    rw [skipGaps_of_not_gap solid, readLevel]
    simp only [notQuote, notBracket, notBrace, Bool.false_eq_true, if_false,
      readWord?_of_digit digit, read]

/-- A member of an object as it is written, and the value that it is read as. -/
structure Member where
  name : List Char
  text : List Char
  value : Document

namespace Member

def written (member : Member) : List Char := string member.name ++ ':' :: member.text

def entry (member : Member) : WideText × Document := (.ofChars member.name, member.value)

end Member

theorem bind_ok {ε α β : Type} (value : α) (next : α → Except ε β) :
    (Except.ok value >>= next) = next value := rfl

/-- One member is read up to the comma or the brace behind it. -/
theorem readMembers_member {member : Member} (stands : Stands item member.text member.value)
    {mark : Char} (closes : mark = ',' ∨ mark = '\x7d') :
    readMembers dialect item (bound + 1) (written member.written ++ CodePoint.ofChar mark :: rest) =
      if mark = ',' then
        (readMembers dialect item bound rest).map fun found => (member.entry :: found.1, found.2)
      else .ok ([member.entry], rest) := by
  have read := stands mark rest closes
  have solid : isGap (CodePoint.ofChar mark) = false := by
    rcases closes with rfl | rfl <;> decide
  rw [Member.written, written_append, List.append_assoc, written_string, readMembers,
    skipGaps_of_not_gap (by decide)]
  simp only [is_ofChar, decide_true, Bool.not_true, Bool.false_eq_true, if_false, readString_string,
    written_cons, List.cons_append]
  rw [bind_ok]
  simp only [skipGaps_of_not_gap (c := ':') (by decide), is_ofChar, decide_true, Bool.not_true,
    Bool.false_eq_true, if_false, read]
  rw [bind_ok]
  simp only [skipGaps_of_not_gap solid, is_ofChar, decide_eq_true_eq]
  rcases closes with rfl | rfl
  · rw [if_pos rfl, if_pos rfl]
    cases readMembers dialect item bound rest <;> rfl
  · rw [if_neg (by decide), if_pos rfl, if_neg (by decide)]
    rfl

/-- The members of an object with commas between them. -/
def joined (members : List Member) : List Char :=
  List.intercalate [','] (members.map Member.written)

theorem joined_singleton (member : Member) : joined [member] = member.written := List.append_nil _

theorem joined_cons_cons (member second : Member) (more : List Member) :
    joined (member :: second :: more) = member.written ++ ',' :: joined (second :: more) := rfl

/-- An object is read with all its members, in order. -/
theorem readMembers_joined {members : List Member} (some : members ≠ [])
    (stands : ∀ member ∈ members, Stands item member.text member.value)
    (enough : members.length ≤ bound) :
    readMembers dialect item bound (written (joined members) ++ CodePoint.ofChar '\x7d' :: rest) =
      .ok (members.map Member.entry, rest) := by
  induction members generalizing bound with
  | nil => exact absurd rfl some
  | cons member more ih =>
    have first := stands member List.mem_cons_self
    obtain ⟨bound, rfl⟩ := Nat.exists_eq_add_one_of_ne_zero (n := bound) (by
      rintro rfl
      exact absurd enough (Nat.not_succ_le_zero _))
    cases more with
    | nil =>
      rw [joined_singleton, readMembers_member first (.inr rfl), if_neg (by decide)]
      rfl
    | cons second more =>
      have later := ih (List.cons_ne_nil _ _)
        (fun other inside => stands other (List.mem_cons_of_mem _ inside))
        (Nat.le_of_succ_le_succ enough)
      rw [joined_cons_cons, written_append, written_cons, List.append_assoc, List.cons_append,
        readMembers_member first (.inl rfl), if_pos rfl, later]
      rfl

theorem exists_quote_joined {members : List Member} (some : members ≠ []) :
    ∃ more, joined members = '"' :: more := by
  obtain ⟨member, rest, rfl⟩ := List.exists_cons_of_ne_nil some
  cases rest with
  | nil => exact ⟨_, joined_singleton member⟩
  | cons second rest => exact ⟨_, joined_cons_cons member second rest⟩

theorem length_le_joined (members : List Member) : members.length ≤ (joined members).length := by
  induction members with
  | nil => exact Nat.le_refl _
  | cons member more ih =>
    cases more with
    | nil =>
      rw [joined_singleton, Member.written, string]
      simp
    | cons second more =>
      rw [joined_cons_cons, List.length_append, List.length_cons]
      simp only [List.length_cons] at ih ⊢
      omega

/-- A document that is an object is read as the mapping of its members. -/
theorem read_object (depth : Nat) {members : List Member} (some : members ≠ [])
    (stands : ∀ member ∈ members, Stands (readValue dialect depth) member.text member.value) :
    read (depth + 1) (written ('\x7b' :: (joined members ++ ['\x7d']))) dialect =
      .ok (.mapping (Entries.ofPairs (members.map Member.entry))) := by
  obtain ⟨more, begins⟩ := exists_quote_joined some
  have long : members.length ≤ (written (joined members) ++ [CodePoint.ofChar '\x7d']).length := by
    have bound := length_le_joined members
    simp only [List.length_append, written, List.length_map]
    omega
  have found : readMembers dialect (readValue dialect depth) _
      (written (joined members) ++ [CodePoint.ofChar '\x7d']) =
        .ok (members.map Member.entry, []) := readMembers_joined some stands long
  have object : readObject dialect (readValue dialect depth)
      (written (joined members) ++ [CodePoint.ofChar '\x7d']) =
        .ok (.mapping (Entries.ofPairs (members.map Member.entry)), []) := by
    rw [begins, written_cons, List.cons_append] at found ⊢
    rw [readObject, skipGaps_of_not_gap (by decide)]
    simp only [is_ofChar, Char.reduceEq, decide_false, Bool.false_eq_true, if_false]
    rw [found]
    rfl
  have value : readValue dialect (depth + 1) (CodePoint.ofChar '\x7b' ::
      (written (joined members) ++ [CodePoint.ofChar '\x7d'])) =
        .ok (.mapping (Entries.ofPairs (members.map Member.entry)), []) := by
    rw [readValue, readLevel]
    simp only [is_ofChar, Char.reduceEq, decide_false, decide_true, Bool.false_eq_true, if_false,
      if_true]
    exact object
  rw [read, written_cons, written_append, skipGaps_of_not_gap (by decide)]
  show (readValue dialect (depth + 1) (CodePoint.ofChar '\x7b' ::
      (written (joined members) ++ [CodePoint.ofChar '\x7d'])) >>= _) = _
  rw [value]
  rfl

/-! ## Values that can be written -/

/-- A value that can be written with containers nested at most so many levels deep. -/
inductive Writable : Nat → Datum WideText → Prop where
  | null {depth : Nat} : Writable depth .null
  | bool {depth : Nat} (value : Bool) : Writable depth (.bool value)
  | int {depth : Nat} {value : Int} (short : (toString value.natAbs).length ≤ maxDigits) :
    Writable depth (.int value)
  | real {depth : Nat} (value : Binary64) : Writable depth (.real value)
  | text {depth : Nat} (value : WideText) : Writable depth (.text value)
  | list {depth : Nat} {items : List (Datum WideText)} (all : ∀ item ∈ items, Writable depth item) :
    Writable (depth + 1) (.list items)
  | tuple {depth : Nat} {items : List (Datum WideText)} (all : ∀ item ∈ items, Writable depth item) :
    Writable (depth + 1) (.tuple items)
  | mapping {depth : Nat} {entries : List (WideText × Datum WideText)}
    (all : ∀ entry ∈ entries, Writable depth entry.2) : Writable (depth + 1) (.mapping entries)

variable {depth : Nat}

mutual

theorem writable_of_clear {depth : Nat} {value : Datum WideText}
    (clear : obstacle? depth value = none) : Writable depth value := by
  match depth, value with
  | _, .null => exact .null
  | _, .bool value => exact .bool value
  | _, .int value =>
    simp only [obstacle?] at clear
    split at clear
    · cases clear
    · exact .int (by omega)
  | _, .real value => exact .real value
  | _, .text value => exact .text value
  | 0, .list items => cases clear
  | depth + 1, .list items => exact .list (writable_of_clearIn clear)
  | 0, .tuple items => cases clear
  | depth + 1, .tuple items => exact .tuple (writable_of_clearIn clear)
  | 0, .mapping entries => cases clear
  | depth + 1, .mapping entries => exact .mapping (writable_of_clearAmong clear)

theorem writable_of_clearIn {depth : Nat} {items : List (Datum WideText)}
    (clear : obstacleIn? depth items = none) : ∀ item ∈ items, Writable depth item := by
  match items with
  | [] => exact fun _ member => absurd member List.not_mem_nil
  | item :: rest =>
    obtain ⟨here, later⟩ := Option.or_eq_none_iff.mp clear
    exact List.forall_mem_cons.mpr ⟨writable_of_clear here, writable_of_clearIn later⟩

theorem writable_of_clearAmong {depth : Nat} {entries : List (WideText × Datum WideText)}
    (clear : obstacleAmong? depth entries = none) : ∀ entry ∈ entries, Writable depth entry.2 := by
  match entries with
  | [] => exact fun _ member => absurd member List.not_mem_nil
  | (_, value) :: rest =>
    obtain ⟨here, later⟩ := Option.or_eq_none_iff.mp clear
    exact List.forall_mem_cons.mpr ⟨writable_of_clear here, writable_of_clearAmong later⟩

end

theorem clearIn_of_forall {items : List (Datum WideText)}
    (each : ∀ item ∈ items, obstacle? depth item = none) : obstacleIn? depth items = none := by
  induction items with
  | nil => rfl
  | cons item rest ih =>
    obtain ⟨here, later⟩ := List.forall_mem_cons.mp each
    exact Option.or_eq_none_iff.mpr ⟨here, ih later⟩

theorem clearAmong_of_forall {entries : List (WideText × Datum WideText)}
    (each : ∀ entry ∈ entries, obstacle? depth entry.2 = none) :
    obstacleAmong? depth entries = none := by
  induction entries with
  | nil => rfl
  | cons entry rest ih =>
    obtain ⟨here, later⟩ := List.forall_mem_cons.mp each
    exact Option.or_eq_none_iff.mpr ⟨here, ih later⟩

theorem Writable.clear {value : Datum WideText} (writable : Writable depth value) :
    obstacle? depth value = none := by
  induction writable with
  | int short => exact if_neg (Nat.not_lt.mpr short)
  | list all ih => exact clearIn_of_forall ih
  | tuple all ih => exact clearIn_of_forall ih
  | mapping all ih => exact clearAmong_of_forall ih
  | _ => rfl

/-- What is written for a value is its document, and it is written exactly if it can be. -/
theorem write_eq_ok_iff {value : Datum WideText} {text : List Char} :
    write depth value = .ok text ↔ Writable depth value ∧ document value = text := by
  unfold write
  cases found : obstacle? depth value with
  | none =>
    have writable := writable_of_clear found
    constructor
    · rintro ⟨⟩
      exact ⟨writable, rfl⟩
    · rintro ⟨-, rfl⟩
      rfl
  | some error =>
    refine iff_of_false (by rintro ⟨⟩) ?_
    rintro ⟨writable, -⟩
    rw [writable.clear] at found
    cases found

end RegistryGate.Json
