import RegistryGate.Proofs.Encodings

/-!
# Canonical base64url

Without padding, a text is read exactly if all its characters are digits, of either alphabet, and its
last group is not a lone digit (`decode_eq_ok_iff`). What is written for its bytes is its canonical
form, in which the bits that belong to no byte are cleared, so two texts stand for the same bytes
exactly if they agree in all other bits (`decode_unpadded`).
-/

namespace RegistryGate.Base64Url

/-! ## Digits -/

/-- The digits of the URL-safe alphabet, in the order of their values. -/
def alphabet : List Char :=
  ['A', 'B', 'C', 'D', 'E', 'F', 'G', 'H', 'I', 'J', 'K', 'L', 'M',
    'N', 'O', 'P', 'Q', 'R', 'S', 'T', 'U', 'V', 'W', 'X', 'Y', 'Z',
    'a', 'b', 'c', 'd', 'e', 'f', 'g', 'h', 'i', 'j', 'k', 'l', 'm',
    'n', 'o', 'p', 'q', 'r', 's', 't', 'u', 'v', 'w', 'x', 'y', 'z',
    '0', '1', '2', '3', '4', '5', '6', '7', '8', '9', '-', '_']

/-- A digit of either alphabet as the URL-safe one writes it. -/
def urlSafe (c : Char) : Char := if c = '+' then '-' else if c = '/' then '_' else c

/-- A digit of the URL-safe or of the plain alphabet. -/
def IsDigit (c : Char) : Prop := c ∈ alphabet ∨ c = '+' ∨ c = '/'

instance : DecidablePred IsDigit := fun _ => inferInstanceAs (Decidable (_ ∨ _))

/-- The six bits of a digit. -/
def value (c : Char) : Nat := alphabet.idxOf (urlSafe c)

variable {a b c d : Char} {p q r s : Nat}

theorem alphabet_eq : alphabet = (List.range 64).map digit := by decide

theorem mem_alphabet_iff : c ∈ alphabet ↔ ∃ p < 64, digit p = c := by
  rw [alphabet_eq, List.mem_map]
  simp only [List.mem_range]

theorem getD_alphabet (small : p < 64) (other : Char) : alphabet.getD p other = digit p := by
  rw [alphabet_eq, List.getD_eq_getElem?_getD, List.getElem?_map, List.getElem?_range small]
  rfl

theorem urlSafe_digit (small : p < 64) : urlSafe (digit p) = digit p := by
  have all : ∀ p < 64, urlSafe (digit p) = digit p := by decide
  exact all p small

theorem value_digit (small : p < 64) : value (digit p) = p := by
  have all : ∀ p < 64, value (digit p) = p := by decide +kernel
  exact all p small

theorem value_urlSafe (c : Char) : value (urlSafe c) = value c := by
  unfold value urlSafe
  split
  · rfl
  · split
    · rfl
    · rfl

namespace IsDigit

theorem urlSafe_mem (isDigit : IsDigit c) : urlSafe c ∈ alphabet := by
  rcases isDigit with member | rfl | rfl
  · obtain ⟨p, small, rfl⟩ := mem_alphabet_iff.mp member
    rwa [urlSafe_digit small]
  · decide
  · decide

theorem value_lt (isDigit : IsDigit c) : value c < 64 :=
  List.idxOf_lt_length_of_mem isDigit.urlSafe_mem

/-- The reader takes a digit for its six bits. -/
theorem sextet?_eq (isDigit : IsDigit c) : sextet? c = some (value c) := by
  rcases isDigit with member | rfl | rfl
  · obtain ⟨p, small, rfl⟩ := mem_alphabet_iff.mp member
    rw [sextet?_digit small, value_digit small]
  · decide
  · decide

theorem ascii (isDigit : IsDigit c) : c.toNat < 0x80 := by
  rcases isDigit with member | rfl | rfl
  · obtain ⟨p, small, rfl⟩ := mem_alphabet_iff.mp member
    exact (digit_facts small).2.1
  · decide
  · decide

end IsDigit

/-- The reader knows no other digits. -/
theorem sextet?_eq_none (ascii : c.toNat < 0x80) (foreign : ¬ IsDigit c) : sextet? c = none := by
  have all : ∀ code < 0x80, ∀ p ∈ sextet? (Char.ofNat code),
      (p < 64 ∧ digit p = Char.ofNat code) ∨ Char.ofNat code = '+' ∨ Char.ofNat code = '/' := by
    decide
  refine Option.eq_none_iff_forall_not_mem.mpr fun p read => foreign ?_
  have known := all c.toNat ascii p (by rwa [Char.ofNat_toNat])
  rw [Char.ofNat_toNat] at known
  exact known.imp_left fun ⟨small, same⟩ => mem_alphabet_iff.mpr ⟨p, small, same⟩

/-! ## Canonical texts -/

/-- How many low bits of the digit at a place belong to no byte: of the last digit, those that all
digits together have beyond whole bytes. -/
def spareBits (length place : Nat) : Nat := if place + 1 = length then 6 * length % 8 else 0

/-- What is left of a digit of the URL-safe alphabet when its low bits are cleared. -/
def clearLow (bits : Nat) (c : Char) : Char := alphabet.getD (value c >>> bits <<< bits) c

/-- The text in the URL-safe alphabet, with its spare bits cleared. -/
def canonical (text : List Char) : List Char :=
  text.mapIdx fun place c => clearLow (spareBits text.length place) (urlSafe c)

/-- Digits of either alphabet in groups of four, of which the last may lack one or two. -/
structure Readable (text : List Char) : Prop where
  digits : ∀ c ∈ text, IsDigit c
  groups : text.length % 4 ≠ 1

/-- Two texts of one length whose digits agree in all bits but the spare ones. -/
structure Agree (text other : List Char) : Prop where
  length : text.length = other.length
  bits : ∀ place c d, text[place]? = some c → other[place]? = some d →
    value c >>> spareBits text.length place = value d >>> spareBits text.length place

variable {text other : List Char}

theorem IsDigit.cleared_lt (isDigit : IsDigit c) (bits : Nat) : value c >>> bits <<< bits < 64 := by
  have less : value c >>> bits <<< bits ≤ value c := by
    rw [Nat.shiftLeft_eq, Nat.shiftRight_eq_div_pow]
    exact Nat.div_mul_le_self _ _
  exact Nat.lt_of_le_of_lt less isDigit.value_lt

theorem IsDigit.clearLow_eq (isDigit : IsDigit c) (bits : Nat) :
    clearLow bits (urlSafe c) = digit (value c >>> bits <<< bits) := by
  rw [clearLow, value_urlSafe, getD_alphabet (isDigit.cleared_lt bits)]

theorem IsDigit.clearLow_zero (isDigit : IsDigit c) : clearLow 0 (urlSafe c) = digit (value c) :=
  isDigit.clearLow_eq 0

/-- Cleared digits are equal exactly if the bits that are left are. -/
theorem clearLow_eq_iff (hc : IsDigit c) (hd : IsDigit d) (bits : Nat) :
    clearLow bits (urlSafe c) = clearLow bits (urlSafe d) ↔ value c >>> bits = value d >>> bits := by
  rw [hc.clearLow_eq, hd.clearLow_eq]
  constructor
  · intro same
    have cleared := congrArg value same
    rw [value_digit (hc.cleared_lt bits), value_digit (hd.cleared_lt bits)] at cleared
    have left := congrArg (· >>> bits) cleared
    simpa only [Nat.shiftLeft_shiftRight] using left
  · intro same
    rw [same]

theorem spareBits_first {length place : Nat} (first : place < 4) :
    spareBits (length + 4) place = 0 := by
  unfold spareBits
  split
  case isTrue last =>
    obtain rfl : length = 0 := by omega
    rfl
  case isFalse => rfl

theorem spareBits_later (length place : Nat) :
    spareBits (length + 4) (place + 4) = spareBits length place := by
  have last : place + 4 + 1 = length + 4 ↔ place + 1 = length := by omega
  have rest : 6 * (length + 4) % 8 = 6 * length % 8 := by omega
  simp only [spareBits, last, rest]

theorem canonical_two (ha : IsDigit a) (hb : IsDigit b) :
    canonical [a, b] = [digit (value a), digit (value b >>> 4 <<< 4)] := by
  have spare : spareBits 2 0 = 0 ∧ spareBits 2 1 = 4 := by decide
  show [clearLow (spareBits 2 0) (urlSafe a), clearLow (spareBits 2 1) (urlSafe b)] = _
  rw [spare.1, spare.2, ha.clearLow_zero, hb.clearLow_eq]

theorem canonical_three (ha : IsDigit a) (hb : IsDigit b) (hc : IsDigit c) :
    canonical [a, b, c] = [digit (value a), digit (value b), digit (value c >>> 2 <<< 2)] := by
  have spare : spareBits 3 0 = 0 ∧ spareBits 3 1 = 0 ∧ spareBits 3 2 = 2 := by decide
  show [clearLow (spareBits 3 0) (urlSafe a), clearLow (spareBits 3 1) (urlSafe b),
    clearLow (spareBits 3 2) (urlSafe c)] = _
  rw [spare.1, spare.2.1, spare.2.2, ha.clearLow_zero, hb.clearLow_zero, hc.clearLow_eq]

theorem canonical_four (ha : IsDigit a) (hb : IsDigit b) (hc : IsDigit c) (hd : IsDigit d)
    (rest : List Char) :
    canonical (a :: b :: c :: d :: rest) =
      digit (value a) :: digit (value b) :: digit (value c) :: digit (value d) ::
        canonical rest := by
  simp (disch := omega) only [canonical, List.mapIdx_cons, List.length_cons, Nat.add_assoc,
    Nat.reduceAdd, spareBits_first, spareBits_later, ha.clearLow_zero, hb.clearLow_zero,
    hc.clearLow_zero, hd.clearLow_zero]

theorem canonical_getElem? (text : List Char) (place : Nat) :
    (canonical text)[place]? =
      text[place]?.map fun c => clearLow (spareBits text.length place) (urlSafe c) :=
  List.getElem?_mapIdx

/-- Texts of digits have one canonical form exactly if they agree. -/
theorem canonical_eq_iff (digits : ∀ c ∈ text, IsDigit c) (others : ∀ c ∈ other, IsDigit c) :
    canonical text = canonical other ↔ Agree text other := by
  constructor
  · intro same
    have length : text.length = other.length := by
      have lengths := congrArg List.length same
      rwa [canonical, canonical, List.length_mapIdx, List.length_mapIdx] at lengths
    refine ⟨length, fun place c d here there => ?_⟩
    have cleared := congrArg (·[place]?) same
    simp only [canonical_getElem?, here, there, Option.map_some, Option.some.injEq,
      ← length] at cleared
    exact (clearLow_eq_iff (digits c (List.mem_of_getElem? here))
      (others d (List.mem_of_getElem? there)) _).mp cleared
  · rintro ⟨length, bits⟩
    apply List.ext_getElem?
    intro place
    rw [canonical_getElem?, canonical_getElem?, ← length]
    by_cases inside : place < text.length
    · have here := List.getElem?_eq_getElem inside
      have there := List.getElem?_eq_getElem (length ▸ inside)
      rw [here, there, Option.map_some, Option.map_some]
      exact congrArg some ((clearLow_eq_iff (digits _ (List.mem_of_getElem? here))
        (others _ (List.mem_of_getElem? there)) _).mpr (bits place _ _ here there))
    · rw [List.getElem?_eq_none (by omega), List.getElem?_eq_none (by omega)]

/-! ## Groups -/

/-- Induction over the groups of a text, the last of which may be incomplete. -/
@[elab_as_elim]
theorem groups_induction {motive : List Char → Prop} (nil : motive []) (one : ∀ a, motive [a])
    (two : ∀ a b, motive [a, b]) (three : ∀ a b c, motive [a, b, c])
    (four : ∀ a b c d rest, motive rest → motive (a :: b :: c :: d :: rest)) :
    ∀ text, motive text
  | [] => nil
  | [a] => one a
  | [a, b] => two a b
  | [a, b, c] => three a b c
  | a :: b :: c :: d :: rest =>
    four a b c d rest (groups_induction nil one two three four rest)

theorem encode_groupBytes_two (hp : p < 64) (hq : q < 64) :
    encode (groupBytes [p, q]) = [digit p, digit (q >>> 4 <<< 4)] := by
  have high : (p * 4 + q / 16) / 4 = p := by omega
  have low : (p * 4 + q / 16) % 4 * 16 = q >>> 4 <<< 4 := by omega
  rw [groupBytes, encode, toNat_byte (by omega), high, low]

theorem encode_groupBytes_three (hp : p < 64) (hq : q < 64) (hr : r < 64) :
    encode (groupBytes [p, q, r]) = [digit p, digit q, digit (r >>> 2 <<< 2)] := by
  have first : (p * 4 + q / 16) / 4 = p := by omega
  have second : (p * 4 + q / 16) % 4 * 16 + (q % 16 * 16 + r / 4) / 16 = q := by omega
  have third : (q % 16 * 16 + r / 4) % 16 * 4 = r >>> 2 <<< 2 := by omega
  rw [groupBytes, encode, toNat_byte (by omega), toNat_byte (by omega), first, second, third]

theorem encode_groupBytes_four (hp : p < 64) (hq : q < 64) (hr : r < 64) (hs : s < 64)
    (bytes : List UInt8) :
    encode (groupBytes [p, q, r, s] ++ bytes) =
      digit p :: digit q :: digit r :: digit s :: encode bytes := by
  have first : (p * 4 + q / 16) / 4 = p := by omega
  have second : (p * 4 + q / 16) % 4 * 16 + (q % 16 * 16 + r / 4) / 16 = q := by omega
  have third : (q % 16 * 16 + r / 4) % 16 * 4 + (r % 4 * 64 + s) / 64 = r := by omega
  have fourth : (r % 4 * 64 + s) % 64 = s := by omega
  rw [groupBytes, List.cons_append, List.cons_append, List.cons_append, List.nil_append, encode,
    toNat_byte (by omega), toNat_byte (by omega), toNat_byte (by omega), first, second, third, fourth]

/-- A readable text is read as bytes that are written as its canonical form. -/
theorem scan_pad_readable (groups : Nat) (text : List Char) (readable : Readable text) :
    ∃ bytes, scan groups [] false 0 (pad text) = .ok bytes ∧ encode bytes = canonical text := by
  obtain ⟨digits, complete⟩ := readable
  -- Spare bits are cleared in an incomplete last group only; every group in front of it keeps all bits.
  induction text using groups_induction generalizing groups with
  | nil => exact ⟨[], rfl, rfl⟩
  | one a => exact absurd rfl complete
  | two a b =>
    obtain ⟨ha, hb⟩ : IsDigit a ∧ IsDigit b := by simpa using digits
    refine ⟨_, scan_two groups ha.sextet?_eq hb.sextet?_eq, ?_⟩
    rw [encode_groupBytes_two ha.value_lt hb.value_lt, canonical_two ha hb]
  | three a b c =>
    obtain ⟨ha, hb, hc⟩ : IsDigit a ∧ IsDigit b ∧ IsDigit c := by simpa using digits
    refine ⟨_, scan_three groups ha.sextet?_eq hb.sextet?_eq hc.sextet?_eq, ?_⟩
    rw [encode_groupBytes_three ha.value_lt hb.value_lt hc.value_lt, canonical_three ha hb hc]
  | four a b c d rest ih =>
    simp only [List.forall_mem_cons] at digits
    obtain ⟨ha, hb, hc, hd, later⟩ := digits
    have restComplete : rest.length % 4 ≠ 1 := by
      simpa only [List.length_cons, Nat.add_assoc, Nat.reduceAdd, Nat.add_mod_right] using complete
    obtain ⟨bytes, read, written⟩ := ih (groups + 1) later restComplete
    refine ⟨groupBytes [value a, value b, value c, value d] ++ bytes, ?_, ?_⟩
    · rw [pad_four, scan_four groups ha.sextet?_eq hb.sextet?_eq hc.sextet?_eq hd.sextet?_eq, read]
      rfl
    · rw [encode_groupBytes_four ha.value_lt hb.value_lt hc.value_lt hd.value_lt, written,
        canonical_four ha hb hc hd]

/-- A text of digits with a lone one in its last group is refused, with the count of its digits. -/
theorem scan_pad_lone (groups : Nat) (text : List Char) (digits : ∀ c ∈ text, IsDigit c)
    (lone : text.length % 4 = 1) :
    scan groups [] false 0 (pad text) = .error (.loneCharacter (groups * 4 + text.length)) := by
  induction text using groups_induction generalizing groups with
  | nil => cases lone
  | one a =>
    obtain ha : IsDigit a := by simpa using digits
    show scan groups [] false 0 (a :: ['=', '=', '=']) = _
    rw [scan_digit groups ha.sextet?_eq (by simp)]
    rfl
  | two a b => cases lone
  | three a b c => cases lone
  | four a b c d rest ih =>
    simp only [List.forall_mem_cons] at digits
    obtain ⟨ha, hb, hc, hd, later⟩ := digits
    have restLone : rest.length % 4 = 1 := by
      simpa only [List.length_cons, Nat.add_assoc, Nat.reduceAdd, Nat.add_mod_right] using lone
    have count : (groups + 1) * 4 + rest.length = groups * 4 + (rest.length + 4) := by omega
    rw [pad_four, scan_four groups ha.sextet?_eq hb.sextet?_eq hc.sextet?_eq hd.sextet?_eq,
      ih (groups + 1) later restLone, count]
    rfl

/-- The first character that is no digit is refused, wherever it stands in its group. -/
theorem scan_foreign (text behind : List Char) (ascii : ∀ c ∈ text, c.toNat < 0x80)
    (noPadding : '=' ∉ text) (foreign : ∃ c ∈ text, ¬ IsDigit c) (groups : Nat)
    (pending : List Nat) :
    scan groups pending false 0 (text ++ behind) = .error .foreignCharacter := by
  -- The padding stands behind the character, so nothing else can be refused before it is met.
  induction text generalizing groups pending with
  | nil =>
    obtain ⟨c, member, -⟩ := foreign
    cases member
  | cons c text ih =>
    simp only [List.forall_mem_cons] at ascii
    simp only [List.mem_cons, not_or] at noPadding
    obtain ⟨notPadding, noneLater⟩ := noPadding
    rw [List.cons_append]
    by_cases isDigit : IsDigit c
    · have later : ∃ c ∈ text, ¬ IsDigit c := by
        obtain ⟨other, member, notDigit⟩ := foreign
        rcases List.mem_cons.mp member with rfl | member
        · exact absurd isDigit notDigit
        · exact ⟨other, member, notDigit⟩
      by_cases three : pending.length = 3
      · rw [scan_complete groups isDigit.sextet?_eq three, ih ascii.2 noneLater later]
        rfl
      · rw [scan_digit groups isDigit.sextet?_eq three, ih ascii.2 noneLater later]
    · rw [scan, if_neg (Ne.symm notPadding), sextet?_eq_none ascii.1 isDigit]

/-! ## Texts without padding -/

/-- Why a text without padding is refused. -/
inductive Refused (text : List Char) : DecodeError → Prop where
  | notAscii (high : ∃ c ∈ text, 0x80 ≤ c.toNat) : Refused text .notAscii
  | foreignCharacter (ascii : ∀ c ∈ text, c.toNat < 0x80) (foreign : ∃ c ∈ text, ¬ IsDigit c) :
    Refused text .foreignCharacter
  | loneCharacter (digits : ∀ c ∈ text, IsDigit c) (lone : text.length % 4 = 1) :
    Refused text (.loneCharacter text.length)

theorem readable_or_refused (text : List Char) : Readable text ∨ ∃ error, Refused text error := by
  by_cases ascii : ∀ c ∈ text, c.toNat < 0x80
  · by_cases digits : ∀ c ∈ text, IsDigit c
    · by_cases lone : text.length % 4 = 1
      · exact .inr ⟨_, .loneCharacter digits lone⟩
      · exact .inl ⟨digits, lone⟩
    · have foreign : ∃ c ∈ text, ¬ IsDigit c := by simpa using digits
      exact .inr ⟨_, .foreignCharacter ascii foreign⟩
  · have high : ∃ c ∈ text, 0x80 ≤ c.toNat := by simpa using ascii
    exact .inr ⟨_, .notAscii high⟩

theorem Readable.exists_bytes (readable : Readable text) :
    ∃ bytes, decode text = .ok bytes ∧ encode bytes = canonical text := by
  have noPadding : '=' ∉ text := fun member => absurd (readable.digits _ member) (by decide)
  rw [decode_of_ascii (fun c member => (readable.digits c member).ascii) noPadding]
  exact scan_pad_readable 0 text readable

theorem Refused.decode_eq {error : DecodeError} (refused : Refused text error)
    (noPadding : '=' ∉ text) : decode text = .error error := by
  cases refused with
  | notAscii high =>
    have found : text.any (0x80 ≤ ·.toNat) = true := by simpa using high
    simp only [decode, found, if_true]
  | foreignCharacter ascii foreign =>
    rw [decode_of_ascii ascii noPadding, pad, scan_foreign text _ ascii noPadding foreign]
  | loneCharacter digits lone =>
    rw [decode_of_ascii (fun c member => (digits c member).ascii) noPadding,
      scan_pad_lone 0 text digits lone, Nat.zero_mul, Nat.zero_add]

theorem encode_injective {bytes others : List UInt8} (same : encode bytes = encode others) :
    bytes = others := by
  have read := congrArg decode same
  rw [decode_encode, decode_encode] at read
  exact Except.ok.inj read

/-- Bytes are read from a text exactly if it is readable and they are written as its canonical
form. -/
theorem decode_eq_ok_iff (noPadding : '=' ∉ text) {bytes : List UInt8} :
    decode text = .ok bytes ↔ Readable text ∧ encode bytes = canonical text := by
  constructor
  · intro read
    rcases readable_or_refused text with readable | ⟨error, refused⟩
    · obtain ⟨found, alsoRead, written⟩ := readable.exists_bytes
      cases read.symm.trans alsoRead
      exact ⟨readable, written⟩
    · cases read.symm.trans (refused.decode_eq noPadding)
  · rintro ⟨readable, written⟩
    obtain ⟨found, read, alsoWritten⟩ := readable.exists_bytes
    rw [encode_injective (written.trans alsoWritten.symm), read]

/-- Bytes are written in the URL-safe alphabet alone and read back. A text without padding is read
exactly if it is made of digits and its last group is not a lone one; its bytes are written as its
canonical form, so that two texts stand for the same bytes exactly if they agree in all bits that
belong to one. Every other text without padding is refused: for a character that is not ASCII, else for
one that is no digit, else for the lone digit. -/
theorem decode_unpadded :
    (∀ bytes, (∀ c ∈ encode bytes, c ∈ alphabet) ∧ decode (encode bytes) = .ok bytes) ∧
    (∀ text, '=' ∉ text →
      ((∃ bytes, decode text = .ok bytes) ↔ Readable text) ∧
      (∀ bytes, decode text = .ok bytes → encode bytes = canonical text) ∧
      (¬ Readable text → ∃ error, decode text = .error error ∧ Refused text error)) ∧
    ∀ text other, '=' ∉ text → '=' ∉ other →
      ((∃ bytes, decode text = .ok bytes ∧ decode other = .ok bytes) ↔
        Readable text ∧ Readable other ∧ Agree text other) := by
  refine ⟨fun bytes => ⟨fun c member => ?written, decode_encode bytes⟩,
    fun text noPadding => ⟨⟨?readable, ?read⟩, ?canonical, ?refused⟩,
    fun text other noPadding noneOther => ⟨?agree, ?same⟩⟩
  case written =>
    obtain ⟨p, small, rfl⟩ := exists_digit_of_mem_encode member
    exact mem_alphabet_iff.mpr ⟨p, small, rfl⟩
  case readable =>
    rintro ⟨bytes, read⟩
    exact ((decode_eq_ok_iff noPadding).mp read).1
  case read =>
    intro readable
    obtain ⟨bytes, read, -⟩ := readable.exists_bytes
    exact ⟨bytes, read⟩
  case canonical => exact fun bytes read => ((decode_eq_ok_iff noPadding).mp read).2
  case refused =>
    intro unreadable
    obtain ⟨error, refused⟩ := (readable_or_refused text).resolve_left unreadable
    exact ⟨error, refused.decode_eq noPadding, refused⟩
  case agree =>
    rintro ⟨bytes, read, alsoRead⟩
    obtain ⟨readable, written⟩ := (decode_eq_ok_iff noPadding).mp read
    obtain ⟨otherReadable, alsoWritten⟩ := (decode_eq_ok_iff noneOther).mp alsoRead
    exact ⟨readable, otherReadable, (canonical_eq_iff readable.digits otherReadable.digits).mp
      (written.symm.trans alsoWritten)⟩
  case same =>
    rintro ⟨readable, otherReadable, agree⟩
    obtain ⟨bytes, read, written⟩ := readable.exists_bytes
    have canonicals := (canonical_eq_iff readable.digits otherReadable.digits).mpr agree
    exact ⟨bytes, read,
      (decode_eq_ok_iff noneOther).mpr ⟨otherReadable, written.trans canonicals⟩⟩

/-- Two spellings of the same bytes, in different alphabets and with different spare bits, and a text
with a lone digit behind a complete group. -/
theorem twoSpellings_agree :
    '_' ∈ encode [0xfb, 0xff] ∧ '_' ∈ alphabet ∧
      '=' ∉ "-_8".toList ∧ decode "-_8".toList = .ok [0xfb, 0xff] ∧
      '=' ∉ "+/9".toList ∧ decode "+/9".toList = .ok [0xfb, 0xff] ∧
      encode [0xfb, 0xff] = canonical "+/9".toList ∧ Agree "-_8".toList "+/9".toList ∧
      '=' ∉ "AAAA-".toList ∧ ¬ Readable "AAAA-".toList ∧
      ∃ error, decode "AAAA-".toList = .error error ∧ Refused "AAAA-".toList error := by
  obtain ⟨written, unpadded, same⟩ := decode_unpadded
  have member : '_' ∈ encode [0xfb, 0xff] := by decide
  have noPadding : '=' ∉ "-_8".toList := by decide
  have noneOther : '=' ∉ "+/9".toList := by decide
  have noneLone : '=' ∉ "AAAA-".toList := by decide
  have read : decode "-_8".toList = .ok [0xfb, 0xff] := rfl
  have alsoRead : decode "+/9".toList = .ok [0xfb, 0xff] := rfl
  have lone : ¬ Readable "AAAA-".toList := fun readable => readable.groups (by decide)
  obtain ⟨-, -, agree⟩ := (same _ _ noPadding noneOther).mp ⟨_, read, alsoRead⟩
  exact ⟨member, (written _).1 _ member, noPadding, read, noneOther, alsoRead,
    (unpadded _ noneOther).2.1 _ alsoRead, agree, noneLone, lone, (unpadded _ noneLone).2.2 lone⟩

end RegistryGate.Base64Url
