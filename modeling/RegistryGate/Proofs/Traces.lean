import RegistryGate.Proofs.Scrubbing
import RegistryGate.Proofs.Tokens

/-!
# Traces of credentials

What a credential leaves in a scrubbed text depends on the text before it. That text is either read on
its own, or it ends in a scheme that waits for its value (`LeftOpen`), and then the scheme takes the
beginning of what follows. A web token is a value as a whole, so it leaves no trace either way
(`scrub_minted`). A scheme with its value leaves none exactly if no scheme is open before it
(`scrub_schemed`): otherwise the word of the scheme is the value that is masked.
-/

namespace RegistryGate.Log

open Text

variable {w : Bool} {c : Char} {text rest front before behind : List Char} {found : Sighting}
  {marks more : List Mark}

/-! ## Texts that end a value -/

/-- Empty, or with a blank, a quote or a comma at the end. -/
def Sealed (text : List Char) : Prop := ∀ c, text.getLast? = some c → isValueChar c = false

theorem Sealed.of_append (ended : Sealed (front ++ rest)) : Sealed rest := by
  intro c last
  refine ended c ?_
  rw [List.getLast?_append, last]
  rfl

theorem Sealed.wordEnd (ended : Sealed text) : wordEnd false text = false := by
  rcases List.eq_nil_or_concat text with rfl | ⟨front, c, rfl⟩
  · rfl
  · rw [List.concat_eq_append] at ended ⊢
    rw [wordEnd_append, wordEnd_cons, wordEnd_nil,
      isWordChar_of_not_isValueChar (ended c List.getLast?_concat)]

theorem Sealed.eq_nil (ended : Sealed text) (all : ∀ c ∈ text, isValueChar c = true) : text = [] := by
  rcases List.eq_nil_or_concat text with rfl | ⟨front, c, rfl⟩
  · rfl
  · rw [List.concat_eq_append] at ended all
    have value := all c (List.mem_append_right _ List.mem_cons_self)
    rw [ended c List.getLast?_concat] at value
    cases value

/-- A text that ends a value does not end with a credential. -/
theorem Stands.solid_behind {behind : List Char} (stands : Stands found rest)
    (ended : Sealed (found.written ++ behind)) : behind ≠ [] := by
  rintro rfl
  rw [List.append_nil, Sighting.written] at ended
  exact stands.secret_solid (ended.of_append.eq_nil stands.secret_value)

/-! ## Credentials across the end of a text -/

def BeginsInitial (text : List Char) : Prop := ∃ c tail, text = c :: tail ∧ isInitial c = true

/-- A credential that begins in a text that ends a value stays within it, or the text is its lead. -/
theorem Stands.straddle (stands : Stands found rest) (ended : Sealed front) (solid : front ≠ [])
    (begins : BeginsInitial behind) (same : front ++ behind = found.written ++ rest) :
    (∃ left, left ≠ [] ∧ front = found.written ++ left ∧ rest = left ++ behind) ∨
      front = found.lead ∧ IsLead found.lead := by
  rcases List.append_eq_append_iff.mp same with ⟨beyond, split, tail⟩ | ⟨left, rfl, tail⟩
  · have whole : front = found.lead → front = found.lead ∧ IsLead found.lead := by
      rintro rfl
      rcases stands.lead_cases with none | ⟨-, scheme⟩
      · exact absurd none solid
      · exact ⟨rfl, scheme.isLead⟩
    right
    rcases List.append_eq_append_iff.mp split with ⟨inside, rfl, joined⟩ | ⟨inside, lead, rfl⟩
    · have none : inside = [] := ended.of_append.eq_nil fun c member =>
        stands.secret_value c (joined ▸ List.mem_append_left _ member)
      rw [none, List.append_nil] at whole ⊢
      exact whole rfl
    · cases inside with
      | nil => exact whole (lead.trans (List.append_nil front)).symm
      | cons d inside =>
        -- The rest of the lead would begin with an initial where a word could begin.
        exfalso
        obtain ⟨first, more, rfl, initial⟩ := begins
        obtain ⟨rfl, -⟩ := List.cons.inj tail
        rcases stands.lead_cases with none | ⟨-, scheme⟩
        · rw [none] at lead
          exact absurd lead.symm (by simp)
        · obtain ⟨e, body, headed, initialHead, quiets⟩ := scheme.isLead.exists_cons
          obtain ⟨e, front, rfl⟩ := List.exists_cons_of_ne_nil solid
          rw [headed] at lead
          obtain ⟨rfl, rfl⟩ := List.cons.inj lead
          have none := ended.wordEnd
          rw [wordEnd_cons, isWordChar_of_isInitial initialHead, wordEnd_of_quiet quiets initial] at none
          cases none
  · exact .inl ⟨left, stands.solid_behind ended, rfl, tail⟩

/-- What is read as a character stays one in front of more text, if the text is no lead. -/
theorem plain_append (plain : w = true ∨ sighting? (c :: rest) = none) (ended : Sealed (c :: rest))
    (begins : BeginsInitial behind) (noLead : w = false → ¬ IsLead (c :: rest)) :
    w = true ∨ sighting? (c :: (rest ++ behind)) = none := by
  cases w with
  | true => exact .inl rfl
  | false =>
    refine .inr (Option.eq_none_iff_forall_ne_some.mpr fun found seen => ?_)
    obtain ⟨beyond, same, stands⟩ := sighting?_eq_some_iff.mp seen
    rcases stands.straddle ended (List.cons_ne_nil c rest) begins same with
      ⟨left, -, inside, rfl⟩ | ⟨isLead, lead⟩
    · exact stands.of_append.not_plain plain inside
    · exact noLead rfl (isLead ▸ lead)

/-! ## Open schemes -/

/-- A text ends in a lead that is read as plain characters, for want of a value, where a word can
begin. -/
def LeftOpen (afterWordChar : Bool) (text : List Char) : Prop :=
  ∃ front lead, Reads afterWordChar text (front ++ lead.map .char) ∧ IsLead lead ∧
    wordEnd afterWordChar (front.flatMap Mark.written) = false

theorem Reads.append (reads : Reads w text marks) (ended : Sealed text) (closed : ¬ LeftOpen w text)
    (begins : BeginsInitial behind) (readsBehind : Reads (wordEnd w text) behind more) :
    Reads w (text ++ behind) (marks ++ more) := by
  induction reads with
  | done => exact readsBehind
  | char plain reads ih =>
    rename_i w c rest marks
    have closedRest : ¬ LeftOpen (isWordChar c) rest := by
      rintro ⟨front, lead, reads, isLead, start⟩
      exact closed ⟨.char c :: front, lead, .char plain reads, isLead, start⟩
    have endedRest : Sealed rest := Sealed.of_append (List.singleton_append ▸ ended)
    refine .char (plain_append plain ended begins ?_) (ih endedRest closedRest readsBehind)
    rintro rfl isLead
    obtain ⟨d, tail, same, initial, quiets⟩ := isLead.exists_cons
    obtain ⟨rfl, rfl⟩ := List.cons.inj same
    refine closed ⟨[], c :: rest, .char plain ?_, isLead, rfl⟩
    rw [isWordChar_of_isInitial initial]
    exact reads_of_quiet quiets
  | credential same stands reads ih =>
    rename_i text rest found marks
    subst same
    have closedRest : ¬ LeftOpen (wordEnd false found.written) rest := by
      rintro ⟨front, lead, reads, isLead, start⟩
      refine closed ⟨.credential found :: front, lead, .credential rfl stands reads, isLead, ?_⟩
      rw [List.flatMap_cons, wordEnd_append]
      exact start
    rw [wordEnd_append] at readsBehind
    exact .credential (List.append_assoc _ _ _) (stands.append (stands.solid_behind ended))
      (ih ended.of_append closedRest readsBehind)

theorem IsLead.sealed_append {lead : List Char} (isLead : IsLead lead) (front : List Char) :
    Sealed (front ++ lead) := by
  obtain ⟨initial, blank, rfl, isBlank⟩ := isLead.exists_concat
  intro c last
  rw [← List.append_assoc, List.getLast?_concat] at last
  cases last
  exact isValueChar_of_isBlankChar isBlank

/-- A scheme that is left open takes the value that follows. -/
theorem Reads.open_append {front : List Mark} {lead value : List Char}
    (reads : Reads w text (front ++ lead.map .char)) (isLead : IsLead lead)
    (start : wordEnd w (front.flatMap Mark.written) = false) (run : IsRun isValueChar value rest)
    (begins : BeginsInitial (value ++ rest)) (readsRest : Reads false rest more) :
    Reads w (text ++ (value ++ rest)) (front ++ .credential ⟨lead, value⟩ :: more) := by
  have written := reads.flatMap_written
  rw [List.flatMap_append, flatMap_written_map_char] at written
  induction front generalizing w text with
  | nil =>
    obtain rfl : lead = text := written
    rw [List.flatMap_nil, wordEnd_nil] at start
    subst start
    have noRealm : ¬ realmMark <+: value ++ rest := by
      rintro ⟨after, same⟩
      obtain ⟨c, tail, same', initial⟩ := begins
      rw [same'] at same
      obtain ⟨rfl, -⟩ := List.cons.inj same
      cases initial
    have ends : EndsRun isInitial rest := run.ends.mono fun c => isValueChar_of_isInitial
    have stands : Stands ⟨lead, value⟩ rest := .scheme ⟨isLead, run, fun _ => noRealm⟩
    exact .credential (List.append_assoc _ _ _).symm stands (readsRest.of_endsInitial ends _)
  | cons mark front ih =>
    have ended : Sealed text := written ▸ isLead.sealed_append _
    cases reads with
    | char plain reads =>
      rename_i c text
      have writtenRest : front.flatMap Mark.written ++ lead = text := (List.cons.inj written).2
      refine .char (plain_append plain ended begins ?_) (ih reads start writtenRest)
      rintro rfl whole
      -- A lead within a lead would begin where a word goes on.
      obtain ⟨first, tail, same, initial, quiets⟩ := whole.exists_cons
      obtain ⟨rfl, rfl⟩ := List.cons.inj same
      obtain ⟨letter, letters, rfl, letterInitial, -⟩ := isLead.exists_cons
      rw [← writtenRest] at quiets
      have word := wordEnd_of_quiet quiets letterInitial
      rw [List.flatMap_cons, Mark.written, List.singleton_append, wordEnd_cons,
        isWordChar_of_isInitial initial, word] at start
      cases start
    | credential same stands reads =>
      rename_i rest' found
      subst same
      have writtenRest : front.flatMap Mark.written ++ lead = rest' := by
        rw [List.flatMap_cons, Mark.written, List.append_assoc] at written
        exact List.append_cancel_left written
      have solid : rest' ≠ [] := by
        rintro rfl
        obtain ⟨letter, letters, rfl, -⟩ := isLead.exists_cons
        exact absurd writtenRest (by simp)
      rw [List.flatMap_cons, wordEnd_append] at start
      exact .credential (List.append_assoc _ _ _) (stands.append solid) (ih reads start writtenRest)

/-! ## Web tokens -/

/-- Three segments, of which the first begins as an encoded object does and the second has a
character. -/
def WebToken (token : List Char) : Prop :=
  ∃ header payload signature, token = webTokenMark ++ header ++ '.' :: payload ++ '.' :: signature ∧
    (∀ c ∈ header, isSegmentChar c = true) ∧ payload ≠ [] ∧ (∀ c ∈ payload, isSegmentChar c = true) ∧
    ∀ c ∈ signature, isSegmentChar c = true

/-- With the segment characters behind it, a web token stands as a credential. -/
theorem WebToken.stands {token : List Char} (isToken : WebToken token) (behind : List Char) :
    Stands ⟨[], token ++ behind.takeWhile isSegmentChar⟩ (behind.dropWhile isSegmentChar) := by
  obtain ⟨header, payload, signature, rfl, header_all, solid, payload_all, signature_all⟩ := isToken
  have signed : ∀ c ∈ signature ++ behind.takeWhile isSegmentChar, isSegmentChar c = true :=
    fun c member => (List.mem_append.mp member).elim (signature_all c) mem_takeWhile
  have stands := Stands.webToken header_all ⟨solid, payload_all, endsRun_cons isSegmentChar_dot _⟩
    signed (endsRun_dropWhile _ behind)
  simpa only [List.append_assoc, List.cons_append] using stands

theorem WebToken.beginsInitial {token : List Char} (isToken : WebToken token) (behind : List Char) :
    BeginsInitial (token ++ behind) := by
  obtain ⟨header, payload, signature, rfl, -⟩ := isToken
  exact ⟨'e', _, rfl, rfl⟩

theorem exists_scrub_webToken (ended : Sealed before) (behind : List Char) :
    ∃ out, ∀ token, WebToken token → scrubChars (before ++ (token ++ behind)) = out := by
  by_cases opened : LeftOpen false before
  · obtain ⟨front, lead, reads, isLead, start⟩ := opened
    obtain ⟨more, readsMore⟩ := exists_reads false (behind.dropWhile isValueChar)
    refine ⟨front.flatMap Mark.masked ++ (lead ++ mask ++ more.flatMap Mark.masked),
      fun token isToken => ?_⟩
    have value_all : ∀ c ∈ token, isValueChar c = true := fun c member =>
      (isToken.stands []).secret_value c (List.mem_append_left _ member)
    have split : token ++ behind.takeWhile isValueChar ++ behind.dropWhile isValueChar =
        token ++ behind := by
      rw [List.append_assoc, List.takeWhile_append_dropWhile]
    have begins := isToken.beginsInitial behind
    have solid : token ≠ [] := by
      obtain ⟨header, payload, signature, rfl, -⟩ := isToken
      exact List.cons_ne_nil _ _
    have run : IsRun isValueChar (token ++ behind.takeWhile isValueChar) (behind.dropWhile isValueChar) :=
      ⟨fun none => solid (List.append_eq_nil_iff.mp none).1,
        fun c member => (List.mem_append.mp member).elim (value_all c) mem_takeWhile,
        endsRun_dropWhile _ behind⟩
    rw [← split] at begins ⊢
    rw [scrubChars, (reads.open_append isLead start run begins readsMore).scrubFrom_eq,
      List.flatMap_append, List.flatMap_cons, Mark.masked]
  · obtain ⟨marks, reads⟩ := exists_reads false before
    obtain ⟨more, readsMore⟩ := exists_reads false (behind.dropWhile isSegmentChar)
    refine ⟨marks.flatMap Mark.masked ++ (mask ++ more.flatMap Mark.masked), fun token isToken => ?_⟩
    have stands := isToken.stands behind
    have same : token ++ behind = Sighting.written ⟨[], token ++ behind.takeWhile isSegmentChar⟩ ++
        behind.dropWhile isSegmentChar := by
      rw [Sighting.written, List.nil_append, List.append_assoc, List.takeWhile_append_dropWhile]
    have readsBehind := Reads.credential same stands (readsMore.of_endsInitial stands.endsInitial _)
    have whole := reads.append ended opened (isToken.beginsInitial behind) (ended.wordEnd ▸ readsBehind)
    rw [scrubChars, whole.scrubFrom_eq, List.flatMap_append, List.flatMap_cons, Mark.masked,
      List.nil_append]

/-! ## Minted tokens -/

def IsLetter (code : Nat) : Prop := 0x41 ≤ code ∧ code ≤ 0x5a ∨ 0x61 ≤ code ∧ code ≤ 0x7a

instance : DecidablePred IsLetter := fun _ => inferInstanceAs (Decidable (_ ∨ _))

theorem IsLetter.lt {code : Nat} (isLetter : IsLetter code) : code < 0x80 := by
  rcases isLetter with bounds | bounds
  · omega
  · omega

/-- The first name of a header, if it has one, begins with an ASCII letter. -/
def NamedByLetter (header : Claims.Header) : Prop :=
  ∀ name value rest, header = (name, value) :: rest →
    ∃ letter points, name.points = letter :: points ∧ IsLetter letter.val

/-- A token that is written for claims, with a signature of segment characters. -/
def Minted (token : List Char) : Prop :=
  ∃ payload header signature, token = Claims.encode payload header signature ∧ NamedByLetter header ∧
    ∀ c ∈ signature, isSegmentChar c = true

theorem isSegmentChar_of_mem_segment {text : List Char} {c : Char} (member : c ∈ Claims.segment text) :
    isSegmentChar c = true := by
  obtain ⟨sextet, small, rfl⟩ := Base64Url.exists_digit_of_mem_encode member
  exact (by decide : ∀ sextet < 64, isSegmentChar (Base64Url.digit sextet) = true) sextet small

/-- An object whose first name begins with a letter is encoded to a text that begins with the mark of
web tokens. -/
theorem exists_segment_eq {letter : Char} (isLetter : IsLetter letter.toNat) (text : List Char) :
    ∃ rest, Claims.segment ('\x7b' :: '"' :: letter :: text) = webTokenMark ++ rest := by
  have byte : utf8Point (.ofChar letter) = [UInt8.ofNat letter.toNat] := if_pos isLetter.lt
  have value : (UInt8.ofNat letter.toNat).toNat = letter.toNat :=
    toNat_byte (Nat.lt_trans isLetter.lt (by decide))
  have high : letter.toNat / 64 = 1 :=
    (by decide : ∀ code < 0x80, IsLetter code → code / 64 = 1) _ isLetter.lt isLetter
  have bytes : utf8 ('\x7b' :: '"' :: letter :: text) =
      0x7b :: 0x22 :: UInt8.ofNat letter.toNat :: utf8 text := by
    rw [utf8, List.flatMap_cons, List.flatMap_cons, List.flatMap_cons, byte]
    rfl
  refine ⟨Base64Url.digit (letter.toNat % 64) :: Base64Url.encode (utf8 text), ?_⟩
  rw [Claims.segment, bytes, Base64Url.encode, value, high]
  rfl

theorem exists_asciiString_eq {name : WideText} {letter : CodePoint} {points : List CodePoint}
    (named : name.points = letter :: points) (isLetter : IsLetter letter.val) :
    ∃ c rest, Json.asciiString name = '"' :: c :: rest ∧ IsLetter c.toNat := by
  have plain : ∀ code < 0x80, IsLetter code →
      Json.escape? code = none ∧ code < 0x7f ∧ (Char.ofNat code).toNat = code := by decide
  obtain ⟨unescaped, ascii, same⟩ := plain letter.val isLetter.lt isLetter
  refine ⟨Char.ofNat letter.val, points.flatMap Json.asciiPoint ++ ['"'], ?_, same.symm ▸ isLetter⟩
  have written : Json.asciiPoint letter = [Char.ofNat letter.val] := by
    simp only [Json.asciiPoint, unescaped, if_pos ascii]
  rw [Json.asciiString, named, List.flatMap_cons, written, List.singleton_append, List.cons_append]

theorem exists_commaSeparated_eq (text : List Char) (texts : List (List Char)) :
    ∃ rest, Json.commaSeparated (text :: texts) = text ++ rest := by
  cases texts with
  | nil => exact ⟨[], (List.append_nil text).symm⟩
  | cons second texts => exact ⟨_, rfl⟩

theorem exists_segment_document_eq {name : WideText} {value : Datum WideText} {rest : Claims.Header}
    (named : NamedByLetter ((name, value) :: rest)) :
    ∃ behind, Claims.segment (Json.document (.mapping ((name, value) :: rest))) =
      webTokenMark ++ behind := by
  obtain ⟨letter, points, spelled, isLetter⟩ := named name value rest rfl
  obtain ⟨c, string, written, isLetter⟩ := exists_asciiString_eq spelled isLetter
  obtain ⟨members, joined⟩ := exists_commaSeparated_eq
    (Json.asciiString name ++ ':' :: ' ' :: Json.document value) (Json.documentMembers rest)
  rw [Json.document, Json.documentMembers, joined, written]
  exact exists_segment_eq isLetter _

theorem segment_cons_ne_nil (text : List Char) : Claims.segment ('\x7b' :: text) ≠ [] := by
  have bytes : utf8 ('\x7b' :: text) = 0x7b :: utf8 text := rfl
  rw [Claims.segment, bytes]
  generalize utf8 text = rest
  unfold Base64Url.encode
  split
  · rename_i same
    cases same
  · exact List.cons_ne_nil _ _
  · exact List.cons_ne_nil _ _
  · exact List.cons_ne_nil _ _

theorem Minted.webToken {token : List Char} (minted : Minted token) : WebToken token := by
  obtain ⟨payload, header, signature, rfl, named, signed⟩ := minted
  obtain ⟨behind, headed⟩ : ∃ behind, Claims.segment (Json.document (.mapping
      (Claims.headerOf header))) = webTokenMark ++ behind := by
    cases header with
    | nil =>
      refine exists_segment_document_eq fun name value rest same => ?_
      cases same
      exact ⟨.ofChar 'a', _, rfl, by decide⟩
    | cons entry rest => exact exists_segment_document_eq named
  refine ⟨behind, Claims.segment payload.document, signature, ?_, fun c member => ?_,
    segment_cons_ne_nil _, fun c => isSegmentChar_of_mem_segment, signed⟩
  · rw [Claims.encode, Claims.assemble, headed, List.append_assoc, List.append_assoc]
    rfl
  · exact isSegmentChar_of_mem_segment (headed ▸ List.mem_append_right _ member)

/-- Minted tokens leave the same text behind when they are scrubbed in the same place. -/
theorem scrub_minted {before : String} (ended : Sealed before.toList) {first second : List Char}
    (firstMinted : Minted first) (secondMinted : Minted second) (behind : String) :
    scrub (before ++ .ofList first ++ behind) = scrub (before ++ .ofList second ++ behind) := by
  obtain ⟨out, same⟩ := exists_scrub_webToken ended behind.toList
  have scrubbed {token : List Char} (minted : Minted token) :
      scrub (before ++ .ofList token ++ behind) = .ofList out := by
    rw [scrub, String.toList_append, String.toList_append, String.toList_ofList, List.append_assoc,
      same token minted.webToken]
  rw [scrubbed firstMinted, scrubbed secondMinted]

/-- Two tokens behind a scheme that takes them, one of them without a signature. -/
theorem scrub_minted_behind_scheme :
    Sealed "got 'Bearer ".toList ∧ Minted (Claims.encode default [] []) ∧
      Minted (Claims.encode { (default : Claims.Payload) with actor := "alice" } [("kid", .int 7)] ['s']) ∧
      scrub ("got 'Bearer " ++ .ofList (Claims.encode default [] []) ++ "' twice") =
        scrub ("got 'Bearer " ++ .ofList (Claims.encode
          { (default : Claims.Payload) with actor := "alice" } [("kid", .int 7)] ['s']) ++ "' twice") := by
  have ended : Sealed "got 'Bearer ".toList := by
    rintro c ⟨⟩
    rfl
  have plain : Minted (Claims.encode default [] []) :=
    ⟨_, _, _, rfl, by rintro name value rest ⟨⟩, by rintro c ⟨⟩⟩
  have signed : Minted (Claims.encode { (default : Claims.Payload) with actor := "alice" }
      [("kid", .int 7)] ['s']) := by
    refine ⟨_, _, _, rfl, ?_, List.all_eq_true.mp (by decide)⟩
    rintro name value rest ⟨⟩
    exact ⟨.ofChar 'k', _, rfl, by decide⟩
  exact ⟨ended, plain, signed, scrub_minted ended plain signed "' twice"⟩

/-! ## Schemes with a value -/

def schemes : List String := ["Bearer ", "Authorization: token "]

/-- A value with what is behind it, where a scheme takes the value as a whole. -/
structure SchemeValue (scheme value behind : String) : Prop where
  known : scheme ∈ schemes
  run : IsRun isValueChar value.toList behind.toList
  noRealm : scheme = "Bearer " → ¬ realmMark <+: value.toList

variable {scheme value : String}

theorem isLead_of_mem_schemes (known : scheme ∈ schemes) : IsLead scheme.toList := by
  have blank : ∀ c ∈ [' '], isBlankChar c = true := List.all_eq_true.mp (by decide)
  simp only [schemes, List.mem_cons, List.not_mem_nil, or_false] at known
  rcases known with rfl | rfl
  · exact .inl ⟨[' '], rfl, List.cons_ne_nil _ _, blank⟩
  · exact .inr ⟨[], [], ':', [' '], [], [' '], rfl, .inl rfl, by rintro c ⟨⟩, .inl rfl, blank, .inl rfl,
      List.cons_ne_nil _ _, blank⟩

theorem SchemeValue.stands {behind : String} (taken : SchemeValue scheme value behind) :
    Stands ⟨scheme.toList, value.toList⟩ behind.toList := by
  obtain ⟨known, run, noRealm⟩ := taken
  refine .scheme ⟨isLead_of_mem_schemes known, run, fun bearer realm => ?_⟩
  obtain ⟨after, same⟩ := realm
  refine noRealm ?_ (prefix_of_run realmMark_value run.ends same)
  simp only [schemes, List.mem_cons, List.not_mem_nil, or_false] at known
  rcases known with rfl | rfl
  · rfl
  · obtain ⟨tail, headed⟩ := bearer.exists_cons
    cases headed

/-- The word of a scheme, which is a value itself, and the rest of the scheme, which is read as plain
characters. -/
theorem exists_word_of_mem_schemes (known : scheme ∈ schemes) (rest : List Char) :
    IsRun isValueChar (scheme.toList.takeWhile isValueChar)
        (scheme.toList.dropWhile isValueChar ++ rest) ∧
      BeginsInitial (scheme.toList ++ rest) ∧ quiet false (scheme.toList.dropWhile isValueChar) = true ∧
      wordEnd false (scheme.toList.dropWhile isValueChar) = false := by
  simp only [schemes, List.mem_cons, List.not_mem_nil, or_false] at known
  rcases known with rfl | rfl
  · exact ⟨⟨by decide, fun c => mem_takeWhile, endsRun_cons rfl _⟩, ⟨'B', _, rfl, rfl⟩, by decide,
      by decide⟩
  · exact ⟨⟨by decide, fun c => mem_takeWhile, endsRun_cons rfl _⟩, ⟨'A', _, rfl, rfl⟩, by decide,
      by decide⟩

theorem scrubChars_closed {behind : String} (ended : Sealed before) (closed : ¬ LeftOpen false before)
    (taken : SchemeValue scheme value behind) :
    scrubChars (before ++ (scheme.toList ++ (value.toList ++ behind.toList))) =
      scrubChars before ++ (scheme.toList ++ (mask ++ scrubChars behind.toList)) := by
  obtain ⟨marks, reads⟩ := exists_reads false before
  obtain ⟨more, readsMore⟩ := exists_reads false behind.toList
  have stands := taken.stands
  have readsBehind := Reads.credential (List.append_assoc _ _ _).symm stands
    (readsMore.of_endsInitial stands.endsInitial _)
  obtain ⟨-, begins, -⟩ := exists_word_of_mem_schemes taken.known (value.toList ++ behind.toList)
  have whole := reads.append ended closed begins (ended.wordEnd ▸ readsBehind)
  rw [scrubChars, whole.scrubFrom_eq, scrubChars, scrubChars, reads.scrubFrom_eq, readsMore.scrubFrom_eq,
    List.flatMap_append, List.flatMap_cons, Mark.masked, List.append_assoc]

/-- The word of a scheme is taken for the value of one that is open before it. -/
theorem scrubChars_open (opened : LeftOpen false before) (known : scheme ∈ schemes) (text : List Char) :
    scrubChars (before ++ (scheme.toList ++ text)) =
      scrubChars before ++ (mask ++ (scheme.toList.dropWhile isValueChar ++ scrubChars text)) := by
  obtain ⟨front, lead, reads, isLead, start⟩ := opened
  obtain ⟨more, readsMore⟩ := exists_reads false text
  obtain ⟨run, begins, quiets, gap⟩ := exists_word_of_mem_schemes known text
  have split : scheme.toList.takeWhile isValueChar ++ (scheme.toList.dropWhile isValueChar ++ text) =
      scheme.toList ++ text := by
    rw [← List.append_assoc, List.takeWhile_append_dropWhile]
  rw [← split] at begins ⊢
  have readsGap : Reads false (scheme.toList.dropWhile isValueChar ++ text)
      ((scheme.toList.dropWhile isValueChar).map .char ++ more) :=
    (reads_quiet_append quiets).mpr ⟨more, rfl, gap.symm ▸ readsMore⟩
  have whole := reads.open_append isLead start run begins readsGap
  rw [scrubChars, whole.scrubFrom_eq, scrubChars, scrubChars, reads.scrubFrom_eq, readsMore.scrubFrom_eq]
  simp only [List.flatMap_append, List.flatMap_cons, Mark.masked, flatMap_masked_map_char,
    List.append_assoc]

/-- Behind a text, the scrubbed text is the same for every value of a scheme. -/
def Traceless (before : String) : Prop :=
  ∀ scheme first second behind, SchemeValue scheme first behind → SchemeValue scheme second behind →
    scrub (before ++ scheme ++ first ++ behind) = scrub (before ++ scheme ++ second ++ behind)

/-- What is left of a scheme with its value behind a text that ends in a blank. The value leaves no trace
exactly if no scheme is open at the end of the text: then the scheme stays and its value is masked.
Otherwise the word of the scheme is masked as the value of the open one, and the value with what is
behind it is scrubbed as a text of its own. -/
theorem scrub_schemed {before : String}
    (ended : ∀ c, before.toList.getLast? = some c → isBlankChar c = true) :
    (∀ scheme value behind, SchemeValue scheme value behind →
      (¬ LeftOpen false before.toList → scrub (before ++ scheme ++ value ++ behind) =
        scrub before ++ scheme ++ .ofList mask ++ scrub behind) ∧
      (LeftOpen false before.toList → scrub (before ++ scheme ++ value ++ behind) =
        scrub before ++ .ofList mask ++ .ofList (scheme.toList.dropWhile isValueChar) ++
          scrub (value ++ behind))) ∧
    (Traceless before ↔ ¬ LeftOpen false before.toList) := by
  have isSealed : Sealed before.toList := fun c last => isValueChar_of_isBlankChar (ended c last)
  have closedEq (closed : ¬ LeftOpen false before.toList) {scheme value behind : String}
      (taken : SchemeValue scheme value behind) : scrub (before ++ scheme ++ value ++ behind) =
        scrub before ++ scheme ++ .ofList mask ++ scrub behind := by
    refine String.toList_inj.mp ?_
    simp only [scrub, String.toList_append, String.toList_ofList, List.append_assoc,
      scrubChars_closed isSealed closed taken]
  have openEq (opened : LeftOpen false before.toList) {scheme value behind : String}
      (known : scheme ∈ schemes) : scrub (before ++ scheme ++ value ++ behind) =
        scrub before ++ .ofList mask ++ .ofList (scheme.toList.dropWhile isValueChar) ++
          scrub (value ++ behind) := by
    refine String.toList_inj.mp ?_
    simp only [scrub, String.toList_append, String.toList_ofList, List.append_assoc,
      scrubChars_open opened known]
  refine ⟨fun scheme value behind taken => ⟨fun closed => closedEq closed taken,
    fun opened => openEq opened taken.known⟩, fun traceless opened => ?_,
    fun closed scheme first second behind taken other => ?_⟩
  · have taken (value : String) (solid : value.toList ≠ []) (all : value.toList.all isValueChar = true)
        (noRealm : ¬ realmMark <+: value.toList) : SchemeValue "Bearer " value "" :=
      ⟨List.mem_cons_self, ⟨solid, List.all_eq_true.mp all, by rintro c ⟨⟩⟩, fun _ => noRealm⟩
    have same := traceless "Bearer " "a" "b" "" (taken "a" (by decide) (by decide) (by decide))
      (taken "b" (by decide) (by decide) (by decide))
    rw [openEq opened List.mem_cons_self, openEq opened List.mem_cons_self] at same
    have joined := congrArg String.toList same
    simp only [String.toList_append] at joined
    have secrets := List.append_cancel_left joined
    rw [scrub, scrub, String.toList_ofList, String.toList_ofList, String.toList_append,
      String.toList_append, scrubChars, scrubChars, scrubFrom_of_quiet (by decide),
      scrubFrom_of_quiet (by decide)] at secrets
    exact absurd secrets (by decide)
  · rw [closedEq closed taken, closedEq closed other]

/-- A text without the letters that credentials begin with leaves no scheme open. -/
theorem not_leftOpen_of_forall (all : ∀ c ∈ text, isInitial c = false) : ¬ LeftOpen w text := by
  rintro ⟨front, lead, reads, isLead, -⟩
  obtain ⟨c, tail, rfl, initial, -⟩ := isLead.exists_cons
  have written := reads.flatMap_written
  rw [List.flatMap_append, flatMap_written_map_char] at written
  rw [all c (written ▸ List.mem_append_right _ List.mem_cons_self)] at initial
  cases initial

theorem traceless_behind_word :
    (∀ c, "to ".toList.getLast? = some c → isBlankChar c = true) ∧ Traceless "to " := by
  have ended : ∀ c, "to ".toList.getLast? = some c → isBlankChar c = true := by
    rintro c ⟨⟩
    rfl
  have plain : ∀ c ∈ "to ".toList, isInitial c = false := by
    simpa using (by decide : "to ".toList.all (!isInitial ·) = true)
  exact ⟨ended, (scrub_schemed ended).2.mpr (not_leftOpen_of_forall plain)⟩

/-- The second scheme word is masked as the value of the first, and the values show. -/
theorem second_scheme_word_masked :
    (∀ c, "Bearer ".toList.getLast? = some c → isBlankChar c = true) ∧
      SchemeValue "Bearer " "a" "" ∧ SchemeValue "Bearer " "b" "" ∧
      scrub ("Bearer " ++ "Bearer " ++ "a" ++ "") = "Bearer ***REDACTED*** a" ∧
      scrub ("Bearer " ++ "Bearer " ++ "b" ++ "") = "Bearer ***REDACTED*** b" ∧
      ¬ Traceless "Bearer " := by
  have ended : ∀ c, "Bearer ".toList.getLast? = some c → isBlankChar c = true := by
    rintro c ⟨⟩
    rfl
  have first : SchemeValue "Bearer " "a" "" :=
    ⟨List.mem_cons_self, ⟨by decide, List.all_eq_true.mp (by decide), by rintro c ⟨⟩⟩,
      fun _ => by decide⟩
  have second : SchemeValue "Bearer " "b" "" :=
    ⟨List.mem_cons_self, ⟨by decide, List.all_eq_true.mp (by decide), by rintro c ⟨⟩⟩,
      fun _ => by decide⟩
  have shown : scrub ("Bearer " ++ "Bearer " ++ "a" ++ "") = "Bearer ***REDACTED*** a" := by
    decide +kernel
  have shownOther : scrub ("Bearer " ++ "Bearer " ++ "b" ++ "") = "Bearer ***REDACTED*** b" := by
    decide +kernel
  refine ⟨ended, first, second, shown, shownOther, fun traceless => ?_⟩
  have same := traceless "Bearer " "a" "b" "" first second
  rw [shown, shownOther] at same
  exact absurd same (by decide)

end RegistryGate.Log
