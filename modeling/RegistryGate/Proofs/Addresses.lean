import Mathlib.Data.List.TakeDrop
import RegistryGate.Url

/-!
# Addresses

What a path joined to a base address takes over from it: the scheme, and that it holds no user
(`join?_of_base`). That needs two facts about every URL that is read: no character of its scheme ends
the scheme, and its host holds no at sign, because the last one in an authority ends the user
information (`base?_sound`).
-/

namespace RegistryGate

/-! ## Escapes -/

namespace Percent

variable {safe : Char → Bool} {text : List Char} {c d : Char} {byte : UInt8}

theorem mem_escapeByte (member : c ∈ escapeByte byte) : c = '%' ∨ isHex c = true := by
  have digit {value : Nat} (small : value < 16) : isHex (Text.hexDigitUpper value) = true := by
    simp [isHex, Text.hexValue?_hexDigitUpper small]
  simp only [escapeByte, List.mem_cons, List.not_mem_nil, or_false] at member
  rcases member with rfl | rfl | rfl
  · exact .inl rfl
  · exact .inr (digit (by have := byte.toNat_lt; omega))
  · exact .inr (digit (Nat.mod_lt _ (by decide)))

/-- A character that no escape is made of stands only for itself. -/
theorem eq_of_mem_encodeChar (plain : d ≠ '%' ∧ isHex d = false) (member : d ∈ encodeChar safe c) :
    d = c := by
  unfold encodeChar at member
  split at member
  · exact List.mem_singleton.mp member
  · obtain ⟨byte, -, escaped⟩ := List.mem_flatMap.mp member
    rcases mem_escapeByte escaped with percent | hex
    · exact absurd percent plain.1
    · simp [plain.2] at hex

theorem mem_of_mem_encodeKeeping (plain : d ≠ '%' ∧ isHex d = false)
    (member : d ∈ encodeKeeping safe text) : d ∈ text := by
  fun_induction encodeKeeping safe text with
  | case1 => exact member
  | case2 a b rest hex ih =>
    -- The escape itself is kept, so a character in it was there before.
    simp only [List.mem_cons] at member ⊢
    rcases member with percent | first | second | later
    · exact .inl percent
    · exact .inr (.inl first)
    · exact .inr (.inr (.inl second))
    · exact .inr (.inr (.inr (ih later)))
  | case3 a b rest hex ih =>
    rcases List.mem_append.mp member with here | later
    · exact absurd (eq_of_mem_encodeChar plain here) plain.1
    · exact List.mem_cons_of_mem _ (ih later)
  | case4 c rest other ih =>
    rcases List.mem_append.mp member with here | later
    · exact List.mem_cons.mpr (.inl (eq_of_mem_encodeChar plain here))
    · exact List.mem_cons_of_mem _ (ih later)

end Percent

/-! ## Hosts -/

/-- Only a small letter is the lower case of another character. -/
theorem toLower_eq {c d : Char} (lower : ¬ (0x61 ≤ d.toNat ∧ d.toNat ≤ 0x7a)) (same : c.toLower = d) :
    c = d := by
  unfold Char.toLower at same
  split at same
  case isTrue upper =>
    have low : 65 ≤ c.val.toNat := UInt32.le_iff_toNat_le.mp upper.1
    have high : c.val.toNat ≤ 90 := UInt32.le_iff_toNat_le.mp upper.2
    have shift : ('a'.val - 'A'.val).toNat = 32 := by decide
    refine absurd ?_ lower
    rw [← same]
    show 0x61 ≤ (c.val + ('a'.val - 'A'.val)).toNat ∧ (c.val + ('a'.val - 'A'.val)).toNat ≤ 0x7a
    rw [UInt32.toNat_add, shift]
    omega
  case isFalse => exact same

namespace Host

theorem at_not_mem_normalize {host normal : List Char} (plain : '@' ∉ host)
    (normalized : normalize? host = some normal) : '@' ∉ normal := by
  unfold normalize? at normalized
  split at normalized
  · cases normalized
    exact List.not_mem_nil
  · split at normalized
    · split at normalized
      · cases normalized
        exact plain
      · cases normalized
    · split at normalized
      · dsimp only at normalized
        split at normalized
        · cases normalized
          exact fun member => plain (List.mem_of_mem_drop (List.dropLast_subset _ member))
        · cases normalized
      · split at normalized
        · cases normalized
          intro member
          obtain ⟨c, inside, lowered⟩ := List.mem_map.mp (Percent.mem_of_mem_encodeKeeping (by decide) member)
          rw [toLower_eq (by decide) lowered] at inside
          exact plain inside
        · cases normalized

end Host

namespace Url

/-! ## Authorities -/

theorem splitAt_of_not_mem {mark : Char} {text : List Char} (absent : mark ∉ text) :
    splitAt mark text = (text, none) := by
  have different : ∀ c ∈ text, (c != mark) = true := by
    intro c member
    simp only [bne_iff_ne, ne_eq]
    rintro rfl
    exact absent member
  have nothing : text.dropWhile (· != mark) = [] := by
    rw [← List.append_nil text, List.dropWhile_append_of_pos different]
    rfl
  rw [splitAt, nothing]

theorem splitAt_append {mark : Char} {before after : List Char} (absent : mark ∉ before) :
    splitAt mark (before ++ mark :: after) = (before, some after) := by
  have different : ∀ c ∈ before, (c != mark) = true := by
    intro c member
    simp only [bne_iff_ne, ne_eq]
    rintro rfl
    exact absent member
  rw [splitAt, List.dropWhile_append_of_pos different, List.takeWhile_append_of_pos different]
  simp

theorem reverse_append_cons (before after : List Char) (mark : Char) :
    (before ++ mark :: after).reverse = after.reverse ++ mark :: before.reverse := by
  simp

/-- A text is split where a character stands in it last. -/
theorem exists_last {mark : Char} {text : List Char} (member : mark ∈ text) :
    ∃ before after, text = before ++ mark :: after ∧ mark ∉ after := by
  obtain ⟨after, before, turned, absent⟩ :=
    List.eq_append_cons_of_mem (List.mem_reverse.mpr member)
  refine ⟨before.reverse, after.reverse, ?_, mt List.mem_reverse.mp absent⟩
  rw [← List.reverse_reverse text, turned, reverse_append_cons]

theorem splitUserinfo_of_not_mem {authority : List Char} (absent : '@' ∉ authority) :
    splitUserinfo authority = ([], authority) := by
  rw [splitUserinfo, splitAt_of_not_mem (mt List.mem_reverse.mp absent)]

theorem splitUserinfo_append {userinfo rest : List Char} (absent : '@' ∉ rest) :
    splitUserinfo (userinfo ++ '@' :: rest) = (userinfo, rest) := by
  rw [splitUserinfo, reverse_append_cons, splitAt_append (mt List.mem_reverse.mp absent)]
  simp

theorem at_not_mem_splitUserinfo (authority : List Char) : '@' ∉ (splitUserinfo authority).2 := by
  by_cases present : '@' ∈ authority
  · obtain ⟨userinfo, rest, rfl, absent⟩ := exists_last present
    rw [splitUserinfo_append absent]
    exact absent
  · rw [splitUserinfo_of_not_mem present]
    exact present

theorem mem_splitHost {c : Char} {text : List Char} (member : c ∈ (splitHost text).1) : c ∈ text := by
  unfold splitHost at member
  dsimp only at member
  split at member
  case isTrue bracketed =>
    have closing : ']' ∈ text := by simpa using bracketed.2
    obtain ⟨host, behind, rfl, absent⟩ := exists_last closing
    rw [reverse_append_cons, splitAt_append (mt List.mem_reverse.mp absent)] at member
    simp only [Option.getD_some, List.mem_append, List.mem_reverse, List.mem_cons] at member ⊢
    rcases member with inside | closes | nothing
    · exact .inl inside
    · exact .inr (.inl closes)
    · cases nothing
  case isFalse => exact List.takeWhile_subset _ member

/-! ## What is read -/

/-- What holds of every URL that is read: no character ends the scheme early, and there is no at sign
in the host. -/
structure Sound (url : Url) : Prop where
  scheme : ∀ c ∈ url.scheme, c ≠ ':' ∧ c ≠ '/'
  host : '@' ∉ url.host

/-- A URL holds neither a user nor a password. -/
def NoUser (url : Url) : Prop := url.userinfo = [] ∨ url.userinfo = [':']

theorem ofParts?_eq_some {scheme authority path : List Char} {query fragment : Option (List Char)}
    {url : Url} (made : ofParts? scheme authority path query fragment = some url) :
    url.scheme = scheme.map Char.toLower ∧
      url.userinfo = Percent.encodeKeeping isUserinfoChar (splitUserinfo authority).1 ∧
      Host.normalize? (splitHost (splitUserinfo authority).2).1 = some url.host := by
  unfold ofParts? at made
  cases host : Host.normalize? (splitHost (splitUserinfo authority).2).1 with
  | none => simp [host] at made
  | some normal =>
    simp only [host, Option.bind_eq_bind, Option.bind_some] at made
    obtain ⟨port, -, made⟩ := Option.bind_eq_some_iff.mp made
    split at made
    · cases made
    · cases made
      exact ⟨rfl, rfl, rfl⟩

theorem mem_splitScheme {c : Char} {text : List Char} (member : c ∈ (splitScheme text).1) :
    isSchemeChar c = true := by
  unfold splitScheme at member
  split at member
  · cases member
  · split at member
    · cases member
    · split at member
      · split at member
        · exact List.all_eq_true.mp List.all_takeWhile c member
        · cases member
      · cases member

theorem sound_of_ofParts? {scheme authority path : List Char} {query fragment : Option (List Char)}
    {url : Url} (fit : ∀ c ∈ scheme, c ≠ ':' ∧ c ≠ '/')
    (made : ofParts? scheme authority path query fragment = some url) : url.Sound := by
  obtain ⟨lowered, -, host⟩ := ofParts?_eq_some made
  constructor
  · rw [lowered]
    intro c member
    obtain ⟨d, inside, rfl⟩ := List.mem_map.mp member
    obtain ⟨notColon, notSlash⟩ := fit d inside
    exact ⟨fun same => notColon (toLower_eq (by decide) same),
      fun same => notSlash (toLower_eq (by decide) same)⟩
  · refine Host.at_not_mem_normalize (fun member => ?_) host
    exact at_not_mem_splitUserinfo authority (mem_splitHost member)

theorem parse?_sound {text : List Char} {url : Url} (parsed : parse? text = some url) : url.Sound := by
  unfold parse? at parsed
  split at parsed
  · refine sound_of_ofParts? (fun c member => ?_) parsed
    have fit := mem_splitScheme member
    constructor
    · rintro rfl
      cases fit
    · rintro rfl
      cases fit
  · cases parsed

theorem withTarget?_eq_some {base url : Url} {target : List Char}
    (made : withTarget? base target = some url) :
    ∃ path query, ofParts? base.scheme base.authority path query base.fragment = some url := by
  unfold withTarget? at made
  dsimp only at made
  split at made
  · exact ⟨_, _, made⟩
  · cases made

theorem base?_sound {text : List Char} {base : Url} (read : base? text = some base) : base.Sound := by
  unfold base? at read
  obtain ⟨url, parsed, read⟩ := Option.bind_eq_some_iff.mp read
  have sound := parse?_sound parsed
  split at read
  · cases read
    exact sound
  · obtain ⟨path, query, made⟩ := withTarget?_eq_some read
    exact sound_of_ofParts? sound.scheme made

/-! ## Joining -/

theorem at_not_mem_port (port : Int) : '@' ∉ (toString port).toList := by
  intro member
  rw [Int.toString_eq_repr, Int.repr_eq_if] at member
  have digits (number : Nat) : '@' ∉ number.repr.toList := by
    intro member
    rw [Nat.toList_repr] at member
    cases Nat.isDigit_of_mem_toDigits (by decide) (by decide) member
  split at member
  · exact digits _ member
  · rw [String.toList_append] at member
    rcases List.mem_append.mp member with sign | number
    · exact absurd sign (by decide)
    · exact digits _ number

/-- The host and the port of a URL, behind its user information. -/
theorem authority_eq {url : Url} (sound : url.Sound) : ∃ rest, '@' ∉ rest ∧
    url.authority = (if url.userinfo.isEmpty then [] else url.userinfo ++ ['@']) ++ rest := by
  unfold authority
  refine ⟨_, fun member => ?_, List.append_assoc _ _ _⟩
  rcases List.mem_append.mp member with host | port
  · split at host
    · simp [sound.host] at host
    · exact sound.host host
  · split at port
    · rcases List.mem_cons.mp port with colon | number
      · cases colon
      · exact at_not_mem_port _ number
    · cases port

theorem noUser_of_base {base url : Url} {path : List Char} (sound : base.Sound) (free : base.NoUser)
    (joined : join? base path = some url) : url.NoUser := by
  unfold join? at joined
  obtain ⟨relative, -, joined⟩ := Option.bind_eq_some_iff.mp joined
  obtain ⟨path, query, made⟩ := withTarget?_eq_some joined
  obtain ⟨-, userinfo, -⟩ := ofParts?_eq_some made
  obtain ⟨rest, plain, written⟩ := authority_eq sound
  rcases free with none | colon
  · left
    rw [none, List.isEmpty_nil, if_pos rfl, List.nil_append] at written
    rw [userinfo, written, splitUserinfo_of_not_mem plain]
    rfl
  · right
    rw [colon] at written
    have colonFirst : base.authority = [':'] ++ '@' :: rest := by
      rw [written]
      rfl
    rw [userinfo, colonFirst, splitUserinfo_append plain]
    rfl

theorem namesScheme_of_base {base url : Url} {path : List Char} (sound : base.Sound)
    (named : base.scheme ≠ []) (joined : join? base path = some url) : url.namesScheme = true := by
  unfold join? at joined
  obtain ⟨relative, -, joined⟩ := Option.bind_eq_some_iff.mp joined
  obtain ⟨path, query, made⟩ := withTarget?_eq_some joined
  obtain ⟨scheme, -, -⟩ := ofParts?_eq_some made
  have fit := (sound_of_ofParts? sound.scheme made).scheme
  have present : url.scheme ≠ [] := by
    rw [scheme]
    exact mt List.map_eq_nil_iff.mp named
  obtain ⟨rest, written⟩ : ∃ rest, url.toChars = url.scheme ++ ':' :: rest := by
    rw [toChars, List.isEmpty_eq_false_iff.mpr present]
    simp only [Bool.false_eq_true, if_false, List.append_assoc]
    exact ⟨_, rfl⟩
  have inside : ∀ c ∈ url.scheme, (c != ':' && c != '/') = true := by
    intro c member
    simpa using fit c member
  rw [namesScheme, written, List.span_eq_takeWhile_dropWhile,
    List.takeWhile_append_of_pos inside, List.dropWhile_append_of_pos inside]
  simp [present]

/-- A URL under a base that names its scheme and holds no user does so too. -/
theorem join?_of_base {text path : List Char} {base url : Url} (read : base? text = some base)
    (named : base.scheme ≠ []) (free : base.NoUser) (joined : join? base path = some url) :
    url.namesScheme = true ∧ url.NoUser :=
  ⟨namesScheme_of_base (base?_sound read) named joined,
    noUser_of_base (base?_sound read) free joined⟩

end Url

end RegistryGate
