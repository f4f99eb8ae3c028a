import RegistryGate.Base64Url
import RegistryGate.Text.Utf8

/-!
# Texts and bytes on the wire

Reading UTF-8 gives back the text that was written (`readUtf8String?_utf8`), and reading base64url
gives back the bytes (`decode_encode`). What base64url writes is made of its sixty-four digits alone,
so neither the dot nor the padding occurs in it (`ne_of_mem_encode`).
-/

namespace RegistryGate

theorem CodePoint.ofNat_val (point : CodePoint) : CodePoint.ofNat point.val = point := by
  apply Fin.ext
  exact Nat.mod_eq_of_lt point.isLt

theorem toNat_byte {value : Nat} (small : value < 256) : (UInt8.ofNat value).toNat = value := by
  rw [UInt8.toNat_ofNat']
  exact Nat.mod_eq_of_lt small

/-! ## UTF-8 -/

namespace Text

theorem isContinuation_byte {bits : Nat} (small : bits < 64) :
    isContinuation (UInt8.ofNat (0x80 + bits)) = true := by
  simp only [isContinuation, Bool.and_eq_true, decide_eq_true_eq, UInt8.le_iff_toNat_le,
    UInt8.lt_iff_toNat_lt, toNat_byte (show 0x80 + bits < 256 by omega), UInt8.reduceToNat]
  omega

/-- A comparison of a byte with the bounds of a class of first bytes. -/
theorem between_byte {value : Nat} (small : value < 256) (low high : UInt8) :
    (low ≤ UInt8.ofNat value && UInt8.ofNat value < high) =
      (low.toNat ≤ value && value < high.toNat) := by
  simp only [UInt8.le_iff_toNat_le, UInt8.lt_iff_toNat_lt, toNat_byte small]

theorem readUtf8_one {code : Nat} (low : code < 0x80) (rest : List UInt8) :
    readUtf8 (UInt8.ofNat code :: rest) = (readUtf8 rest).map (CodePoint.ofNat code :: ·) := by
  have short : UInt8.ofNat code < 0x80 := by
    rw [UInt8.lt_iff_toNat_lt, toNat_byte (by omega)]
    exact low
  rw [readUtf8.eq_def]
  simp only [short, if_true, toNat_byte (show code < 256 by omega)]

variable {a b c d : Nat} (rest : List UInt8)

theorem not_short (high : 0x80 ≤ a) (byte : a < 256) : ¬ UInt8.ofNat a < 0x80 := by
  rw [UInt8.lt_iff_toNat_lt, toNat_byte byte]
  exact Nat.not_lt.mpr high

theorem readUtf8_two (low : 0xc2 ≤ a) (high : a < 0xe0) (hb : b < 64) :
    readUtf8 (UInt8.ofNat a :: UInt8.ofNat (0x80 + b) :: rest) =
      (readUtf8 rest).map (CodePoint.ofNat ((a - 0xc0) * 64 + b) :: ·) := by
  have byte : a < 256 := by omega
  have class2 : (0xc2 ≤ a && a < 0xe0) = true := by simp [low, high]
  rw [readUtf8.eq_def]
  simp only [not_short (show 0x80 ≤ a by omega) byte, isContinuation_byte hb, between_byte byte,
    UInt8.reduceToNat, class2, toNat_byte byte, toNat_byte (show 0x80 + b < 256 by omega),
    Nat.add_sub_cancel_left, Bool.not_true, Bool.false_eq_true, if_false, if_true]

theorem readUtf8_three (low : 0xe0 ≤ a) (high : a < 0xf0) (hb : b < 64) (hc : c < 64)
    (shortest : 0x800 ≤ (a - 0xe0) * 4096 + b * 64 + c) :
    readUtf8 (UInt8.ofNat a :: UInt8.ofNat (0x80 + b) :: UInt8.ofNat (0x80 + c) :: rest) =
      (readUtf8 rest).map (CodePoint.ofNat ((a - 0xe0) * 4096 + b * 64 + c) :: ·) := by
  have byte : a < 256 := by omega
  have class2 : (0xc2 ≤ a && a < 0xe0) = false := by simp; omega
  have class3 : (0xe0 ≤ a && a < 0xf0) = true := by simp [low, high]
  rw [readUtf8.eq_def]
  simp only [not_short (show 0x80 ≤ a by omega) byte, isContinuation_byte hb,
    isContinuation_byte hc, between_byte byte, UInt8.reduceToNat, class2, class3, toNat_byte byte,
    toNat_byte (show 0x80 + b < 256 by omega), toNat_byte (show 0x80 + c < 256 by omega),
    Nat.add_sub_cancel_left, Nat.not_lt.mpr shortest, Bool.not_true, Bool.false_eq_true, if_false,
    if_true]

theorem readUtf8_four (low : 0xf0 ≤ a) (high : a < 0xf5) (hb : b < 64) (hc : c < 64)
    (hd : d < 64) (shortest : 0x10000 ≤ (a - 0xf0) * 262144 + b * 4096 + c * 64 + d)
    (last : (a - 0xf0) * 262144 + b * 4096 + c * 64 + d < 0x110000) :
    readUtf8 (UInt8.ofNat a :: UInt8.ofNat (0x80 + b) :: UInt8.ofNat (0x80 + c) ::
        UInt8.ofNat (0x80 + d) :: rest) =
      (readUtf8 rest).map
        (CodePoint.ofNat ((a - 0xf0) * 262144 + b * 4096 + c * 64 + d) :: ·) := by
  have byte : a < 256 := by omega
  have class2 : (0xc2 ≤ a && a < 0xe0) = false := by simp; omega
  have class3 : (0xe0 ≤ a && a < 0xf0) = false := by simp; omega
  have class4 : (0xf0 ≤ a && a < 0xf5) = true := by simp [low, high]
  have inside : ¬ ((a - 0xf0) * 262144 + b * 4096 + c * 64 + d < 0x10000 ∨
      0x110000 ≤ (a - 0xf0) * 262144 + b * 4096 + c * 64 + d) := by omega
  rw [readUtf8.eq_def]
  simp only [not_short (show 0x80 ≤ a by omega) byte, isContinuation_byte hb,
    isContinuation_byte hc, isContinuation_byte hd, between_byte byte, UInt8.reduceToNat, class2,
    class3, class4, toNat_byte byte, toNat_byte (show 0x80 + b < 256 by omega),
    toNat_byte (show 0x80 + c < 256 by omega), toNat_byte (show 0x80 + d < 256 by omega),
    Nat.add_sub_cancel_left, inside, Bool.not_true, Bool.or_self, Bool.false_eq_true, if_false]

/-- The bytes of a code point are read back, whatever stands behind them. -/
theorem readUtf8_point_append (point : CodePoint) :
    readUtf8 (utf8Point point ++ rest) = (readUtf8 rest).map (point :: ·) := by
  have bound := point.isLt
  unfold utf8Point
  dsimp only
  -- The four branches are the four lengths; each has to put its code together again.
  by_cases one : point.val < 0x80
  · rw [if_pos one, List.singleton_append, readUtf8_one one, CodePoint.ofNat_val]
  rw [if_neg one]
  by_cases two : point.val < 0x800
  · rw [if_pos two]
    have whole : (0xc0 + point.val / 64 - 0xc0) * 64 + point.val % 64 = point.val := by omega
    have read := readUtf8_two rest (a := 0xc0 + point.val / 64) (b := point.val % 64) (by omega)
      (by omega) (by omega)
    rw [whole, CodePoint.ofNat_val] at read
    exact read
  rw [if_neg two]
  by_cases three : point.val < 0x10000
  · rw [if_pos three]
    have whole : (0xe0 + point.val / 4096 - 0xe0) * 4096 + point.val / 64 % 64 * 64 +
        point.val % 64 = point.val := by omega
    have read := readUtf8_three rest (a := 0xe0 + point.val / 4096) (b := point.val / 64 % 64)
      (c := point.val % 64) (by omega) (by omega) (by omega) (by omega) (by omega)
    rw [whole, CodePoint.ofNat_val] at read
    exact read
  · rw [if_neg three]
    have whole : (0xf0 + point.val / 262144 - 0xf0) * 262144 + point.val / 4096 % 64 * 4096 +
        point.val / 64 % 64 * 64 + point.val % 64 = point.val := by omega
    have read := readUtf8_four rest (a := 0xf0 + point.val / 262144)
      (b := point.val / 4096 % 64) (c := point.val / 64 % 64) (d := point.val % 64) (by omega)
      (by omega) (by omega) (by omega) (by omega) (by omega) (by omega)
    rw [whole, CodePoint.ofNat_val] at read
    exact read

theorem readUtf8_utf8 (text : List Char) :
    readUtf8 (utf8 text) = some (text.map CodePoint.ofChar) := by
  induction text with
  | nil => rfl
  | cons c text ih =>
    rw [utf8] at ih ⊢
    rw [List.flatMap_cons, readUtf8_point_append, ih]
    rfl

/-- A text is read back from its bytes. -/
theorem readUtf8String?_utf8 (text : List Char) :
    readUtf8String? (utf8 text) = some (String.ofList text) := by
  rw [readUtf8String?, readUtf8_utf8, Option.bind_some]
  show (WideText.ofChars text).toString? = _
  rw [WideText.toString?, WideText.toChars?_ofChars]
  rfl

end Text

/-! ## Base64url -/

namespace Base64Url

/-- What holds of every digit: it stands for its six bits, it is ASCII, and it is neither the padding
nor a dot. -/
theorem digit_facts {sextet : Nat} (small : sextet < 64) :
    sextet? (digit sextet) = some sextet ∧ (digit sextet).toNat < 0x80 ∧ digit sextet ≠ '=' ∧
      digit sextet ≠ '.' := by
  have all : ∀ value < 64, sextet? (digit value) = some value ∧ (digit value).toNat < 0x80 ∧
      digit value ≠ '=' ∧ digit value ≠ '.' := by decide
  exact all sextet small

theorem sextet?_digit {p : Nat} (small : p < 64) : sextet? (digit p) = some p :=
  (digit_facts small).1

theorem exists_digit_of_mem_encode {bytes : List UInt8} {c : Char} (member : c ∈ encode bytes) :
    ∃ sextet < 64, c = digit sextet := by
  fun_induction encode bytes with
  | case1 => exact absurd member List.not_mem_nil
  | case2 x =>
    have hx := x.toNat_lt
    simp only [List.mem_cons, List.not_mem_nil, or_false] at member
    rcases member with rfl | rfl
    · exact ⟨_, by omega, rfl⟩
    · exact ⟨_, by omega, rfl⟩
  | case3 x y =>
    have hx := x.toNat_lt
    have hy := y.toNat_lt
    simp only [List.mem_cons, List.not_mem_nil, or_false] at member
    rcases member with rfl | rfl | rfl
    · exact ⟨_, by omega, rfl⟩
    · exact ⟨_, by omega, rfl⟩
    · exact ⟨_, by omega, rfl⟩
  | case4 x y z rest ih =>
    have hx := x.toNat_lt
    have hy := y.toNat_lt
    have hz := z.toNat_lt
    simp only [List.mem_cons] at member
    rcases member with rfl | rfl | rfl | rfl | later
    · exact ⟨_, by omega, rfl⟩
    · exact ⟨_, by omega, rfl⟩
    · exact ⟨_, by omega, rfl⟩
    · exact ⟨_, by omega, rfl⟩
    · exact ih later

/-- Neither a dot nor padding is written. -/
theorem ne_of_mem_encode {bytes : List UInt8} {c : Char} (member : c ∈ encode bytes) :
    c ≠ '.' ∧ c ≠ '=' := by
  obtain ⟨sextet, small, rfl⟩ := exists_digit_of_mem_encode member
  obtain ⟨-, -, notPadding, notDot⟩ := digit_facts small
  exact ⟨notDot, notPadding⟩

theorem ascii_of_mem_encode {bytes : List UInt8} {c : Char} (member : c ∈ encode bytes) :
    c.toNat < 0x80 := by
  obtain ⟨sextet, small, rfl⟩ := exists_digit_of_mem_encode member
  exact (digit_facts small).2.1

/-! ### One group -/

variable {a b c d : Char} {p q r s : Nat} (groups : Nat)

theorem ne_padding_of_sextet? (read : sextet? c = some p) : c ≠ '=' := by
  rintro rfl
  have none : sextet? '=' = none := by decide
  cases none.symm.trans read

/-- A digit that does not complete a group waits in it. -/
theorem scan_digit {pending : List Nat} (read : sextet? c = some p) (room : pending.length ≠ 3)
    (rest : List Char) :
    scan groups pending false 0 (c :: rest) = scan groups (pending ++ [p]) false 0 rest := by
  rw [scan]
  simp only [ne_padding_of_sextet? read, if_false, read, room, Bool.false_eq_true]

theorem scan_complete {pending : List Nat} (read : sextet? c = some p) (three : pending.length = 3)
    (rest : List Char) :
    scan groups pending false 0 (c :: rest) =
      (scan (groups + 1) [] false 0 rest).map (groupBytes (pending ++ [p]) ++ ·) := by
  rw [scan]
  simp only [ne_padding_of_sextet? read, if_false, read, three, if_true, Bool.false_eq_true]

theorem scan_four (ha : sextet? a = some p) (hb : sextet? b = some q) (hc : sextet? c = some r)
    (hd : sextet? d = some s) (rest : List Char) :
    scan groups [] false 0 (a :: b :: c :: d :: rest) =
      (scan (groups + 1) [] false 0 rest).map (groupBytes [p, q, r, s] ++ ·) := by
  rw [scan_digit groups ha (by simp), scan_digit groups hb (by simp), scan_digit groups hc (by simp),
    scan_complete groups hd rfl]
  rfl

theorem scan_three (ha : sextet? a = some p) (hb : sextet? b = some q) (hc : sextet? c = some r) :
    scan groups [] false 0 [a, b, c, '='] = .ok (groupBytes [p, q, r]) := by
  rw [scan_digit groups ha (by simp), scan_digit groups hb (by simp), scan_digit groups hc (by simp)]
  rfl

theorem scan_two (ha : sextet? a = some p) (hb : sextet? b = some q) :
    scan groups [] false 0 [a, b, '=', '='] = .ok (groupBytes [p, q]) := by
  rw [scan_digit groups ha (by simp), scan_digit groups hb (by simp)]
  rfl

/-! ### All groups -/

theorem pad_four (p q r s : Char) (rest : List Char) :
    pad (p :: q :: r :: s :: rest) = p :: q :: r :: s :: pad rest := by
  have same : (rest.length + 4) % 4 = rest.length % 4 := Nat.add_mod_right _ _
  simp only [pad, List.length_cons, List.cons_append, Nat.add_assoc, Nat.reduceAdd, same]

theorem byte_eq {value : Nat} {byte : UInt8} (same : value = byte.toNat) : UInt8.ofNat value = byte := by
  rw [same]
  exact UInt8.ofNat_toNat

/-- Reading what was written, from any count of groups on. -/
theorem scan_pad_encode (bytes : List UInt8) :
    scan groups [] false 0 (pad (encode bytes)) = .ok bytes := by
  fun_induction encode bytes generalizing groups with
  | case1 => rfl
  | case2 x =>
    have hx := x.toNat_lt
    have read := scan_two groups (sextet?_digit (p := x.toNat / 4) (by omega))
      (sextet?_digit (p := x.toNat % 4 * 16) (by omega))
    have first : UInt8.ofNat (x.toNat / 4 * 4 + x.toNat % 4 * 16 / 16) = x := byte_eq (by omega)
    rw [groupBytes, first] at read
    exact read
  | case3 x y =>
    have hx := x.toNat_lt
    have hy := y.toNat_lt
    have read := scan_three groups (sextet?_digit (p := x.toNat / 4) (by omega))
      (sextet?_digit (p := x.toNat % 4 * 16 + y.toNat / 16) (by omega))
      (sextet?_digit (p := y.toNat % 16 * 4) (by omega))
    have first : UInt8.ofNat (x.toNat / 4 * 4 + (x.toNat % 4 * 16 + y.toNat / 16) / 16) = x :=
      byte_eq (by omega)
    have second : UInt8.ofNat ((x.toNat % 4 * 16 + y.toNat / 16) % 16 * 16 +
        y.toNat % 16 * 4 / 4) = y := byte_eq (by omega)
    rw [groupBytes, first, second] at read
    exact read
  | case4 x y z rest ih =>
    have hx := x.toNat_lt
    have hy := y.toNat_lt
    have hz := z.toNat_lt
    have first : UInt8.ofNat (x.toNat / 4 * 4 + (x.toNat % 4 * 16 + y.toNat / 16) / 16) = x :=
      byte_eq (by omega)
    have second : UInt8.ofNat ((x.toNat % 4 * 16 + y.toNat / 16) % 16 * 16 +
        (y.toNat % 16 * 4 + z.toNat / 64) / 4) = y := byte_eq (by omega)
    have third : UInt8.ofNat ((y.toNat % 16 * 4 + z.toNat / 64) % 4 * 64 + z.toNat % 64) = z :=
      byte_eq (by omega)
    rw [pad_four, scan_four groups (sextet?_digit (by omega)) (sextet?_digit (by omega))
      (sextet?_digit (by omega)) (sextet?_digit (by omega)), ih, groupBytes, first, second, third]
    rfl

/-- A text that is ASCII and does not begin with padding is read group by group. -/
theorem decode_of_ascii {text : List Char} (ascii : ∀ c ∈ text, c.toNat < 0x80)
    (noPadding : '=' ∉ text) : decode text = scan 0 [] false 0 (pad text) := by
  have low : text.any (0x80 ≤ ·.toNat) = false := by
    rw [List.any_eq_false]
    intro c member
    have small := ascii c member
    simp only [decide_eq_true_eq]
    omega
  have lead : text.head? ≠ some '=' := fun padding => noPadding (List.mem_of_mem_head? padding)
  simp only [decode, low, lead, Bool.false_eq_true, if_false]

/-- Bytes are read back from what is written for them. -/
theorem decode_encode (bytes : List UInt8) : decode (encode bytes) = .ok bytes := by
  have noPadding : '=' ∉ encode bytes := fun member => (ne_of_mem_encode member).2 rfl
  rw [decode_of_ascii (fun _ => ascii_of_mem_encode) noPadding, scan_pad_encode]

end Base64Url

end RegistryGate
