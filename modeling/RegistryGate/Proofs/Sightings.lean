import RegistryGate.Log.Redaction

/-!
# The forms of credentials

What counts as a credential at the head of a text, told by its form and by what is behind it
(`Stands`). What is seen at the head of a text is the credential that stands there
(`sighting?_eq_some_iff`). A credential begins with one of four letters, and behind its first letter
its lead has none of them where a word could begin (`IsLead.exists_cons`).
-/

namespace RegistryGate.Text

/-- Tables are without a common code point if no ranges of theirs meet. -/
theorem not_covers_of_disjoint {table other : List (Nat × Nat)}
    (disjoint : ∀ range ∈ table, ∀ second ∈ other, range.2 < second.1 ∨ second.2 < range.1)
    {code : Nat} (inside : covers table code = true) : covers other code = false := by
  obtain ⟨range, member, low, high⟩ := covers_iff.mp inside
  refine Bool.eq_false_iff.mpr fun covered => ?_
  obtain ⟨second, otherMember, otherLow, otherHigh⟩ := covers_iff.mp covered
  rcases disjoint range member second otherMember with before | behind
  · omega
  · omega

theorem isWordChar_of_isBlankChar {c : Char} (blank : isBlankChar c = true) :
    isWordChar c = false := by
  have wide : covers wordRanges c.toNat = false := by
    refine not_covers_of_disjoint (fun range member second other => ?_) blank
    revert range second
    decide +kernel
  have ascii : covers [(0x30, 0x39), (0x41, 0x5a), (0x61, 0x7a), (0x5f, 0x5f)] c.toNat = false := by
    refine not_covers_of_disjoint (fun range member second other => ?_) blank
    revert range second
    decide
  simp only [isWordChar, isWord, wide]
  split
  · simp only [covers, List.any_cons, List.any_nil, Bool.or_false, Bool.or_eq_false_iff] at ascii
    obtain ⟨digit, upper, lower, low⟩ := ascii
    simp only [isAsciiAlnum, digit, upper, lower, Bool.or_self, Bool.false_or, beq_eq_false_iff_ne]
    rintro same
    rw [same] at low
    cases low
  · rfl

end RegistryGate.Text

namespace RegistryGate.Log

open Text

/-! ## Runs of characters -/

/-- What is behind a run of characters of a class does not go on with it. -/
def EndsRun (p : Char → Bool) (rest : List Char) : Prop := ∀ c, rest.head? = some c → p c = false

/-- A whole run of characters of a class, with what is behind it. -/
structure IsRun (p : Char → Bool) (word rest : List Char) : Prop where
  solid : word ≠ []
  all : ∀ c ∈ word, p c = true
  ends : EndsRun p rest

variable {p : Char → Bool} {word rest text : List Char}

theorem takeWhile_run (all : ∀ c ∈ word, p c = true) (ends : EndsRun p rest) :
    (word ++ rest).takeWhile p = word := by
  rw [List.takeWhile_append_of_pos all]
  cases rest with
  | nil => exact List.append_nil word
  | cons c rest => rw [List.takeWhile_cons_of_neg (by rw [ends c rfl]; decide), List.append_nil]

theorem dropWhile_run (all : ∀ c ∈ word, p c = true) (ends : EndsRun p rest) :
    (word ++ rest).dropWhile p = rest := by
  rw [List.dropWhile_append_of_pos all]
  cases rest with
  | nil => rfl
  | cons c rest => rw [List.dropWhile_cons_of_neg (by rw [ends c rfl]; decide)]

theorem mem_takeWhile {c : Char} (member : c ∈ text.takeWhile p) : p c = true :=
  List.all_eq_true.mp List.all_takeWhile c member

theorem endsRun_dropWhile (p : Char → Bool) (text : List Char) : EndsRun p (text.dropWhile p) := by
  intro c first
  have stopped := List.head?_dropWhile_not p text
  rw [first] at stopped
  simpa using stopped

theorem EndsRun.append {behind : List Char} (ends : EndsRun p rest) (solid : rest ≠ []) :
    EndsRun p (rest ++ behind) := by
  obtain ⟨c, more, rfl⟩ := List.exists_cons_of_ne_nil solid
  exact ends

theorem EndsRun.of_append {behind : List Char} (ends : EndsRun p (rest ++ behind)) :
    EndsRun p rest := by
  cases rest with
  | nil => rintro c ⟨⟩
  | cons c more => exact ends

theorem endsRun_cons {c : Char} (stops : p c = false) (rest : List Char) : EndsRun p (c :: rest) := by
  rintro d ⟨⟩
  exact stops

theorem endsRun_append_cons {c : Char} (others : ∀ d ∈ word, p d = false) (stops : p c = false)
    (rest : List Char) : EndsRun p (word ++ c :: rest) := by
  cases word with
  | nil => exact endsRun_cons stops rest
  | cons d word => exact endsRun_cons (others d List.mem_cons_self) _

/-- A character of a class begins a run of it. -/
theorem exists_run {c : Char} (inside : p c = true) (text : List Char) :
    ∃ word rest, c :: text = word ++ rest ∧ IsRun p word rest := by
  refine ⟨(c :: text).takeWhile p, (c :: text).dropWhile p, List.takeWhile_append_dropWhile.symm,
    ?_, fun d member => mem_takeWhile member, endsRun_dropWhile p _⟩
  rw [List.takeWhile_cons_of_pos inside]
  exact List.cons_ne_nil _ _

/-! ## Leads -/

/-- The word `Bearer` and blanks. -/
def BearerLead (lead : List Char) : Prop :=
  ∃ blanks, lead = bearerWord ++ blanks ∧ blanks ≠ [] ∧ ∀ c ∈ blanks, isBlankChar c = true

def isQuoteChar (c : Char) : Bool := c == '"' || c == '\''

def IsQuote (quote : List Char) : Prop := quote = [] ∨ ∃ c, isQuoteChar c = true ∧ quote = [c]

theorem isQuoteChar_of_isBlankChar {c : Char} (blank : isBlankChar c = true) :
    isQuoteChar c = false := by
  refine Bool.eq_false_iff.mpr fun quote => ?_
  rcases (Bool.or_eq_true _ _).mp quote with same | same
  · rw [eq_of_beq same] at blank
    exact absurd blank (by decide)
  · rw [eq_of_beq same] at blank
    exact absurd blank (by decide)

/-- The word `Authorization` set to the word `token`, and blanks. -/
def AuthorizationLead (lead : List Char) : Prop :=
  ∃ quote before assignment behind inner blanks,
    lead = authorizationWord ++ (quote ++ (before ++ (assignment :: (behind ++ (inner ++
      (tokenWord ++ blanks)))))) ∧ IsQuote quote ∧ (∀ c ∈ before, isBlankChar c = true) ∧
      (assignment = ':' ∨ assignment = '=') ∧ (∀ c ∈ behind, isBlankChar c = true) ∧
      IsQuote inner ∧ blanks ≠ [] ∧ ∀ c ∈ blanks, isBlankChar c = true

variable {lead value : List Char}

theorem splitBlanks_append (all : ∀ c ∈ word, isBlankChar c = true)
    (ends : EndsRun isBlankChar rest) : splitBlanks (word ++ rest) = (word, rest) := by
  rw [splitBlanks, takeWhile_run all ends, dropWhile_run all ends]

theorem splitQuote_append {quote : List Char} (isQuote : IsQuote quote)
    (ends : EndsRun isQuoteChar rest) : splitQuote (quote ++ rest) = (quote, rest) := by
  rcases isQuote with rfl | ⟨c, isQuote, rfl⟩
  · cases rest with
    | nil => rfl
    | cons c rest =>
      have plain : isQuoteChar c = false := ends c rfl
      simp only [isQuoteChar, Bool.or_eq_false_iff, beq_eq_false_iff_ne] at plain
      rw [List.nil_append]
      unfold splitQuote
      split
      · rename_i same
        cases same
        exact absurd rfl plain.1
      · rename_i same
        cases same
        exact absurd rfl plain.2
      · rfl
  · rcases (Bool.or_eq_true _ _).mp isQuote with same | same
    · rw [eq_of_beq same]
      rfl
    · rw [eq_of_beq same]
      rfl

theorem splitQuote_spec (text : List Char) :
    text = (splitQuote text).1 ++ (splitQuote text).2 ∧ IsQuote (splitQuote text).1 := by
  unfold splitQuote
  split
  · exact ⟨rfl, .inr ⟨_, rfl, rfl⟩⟩
  · exact ⟨rfl, .inr ⟨_, rfl, rfl⟩⟩
  · exact ⟨rfl, .inl rfl⟩

theorem bearerLead?_eq_some_iff :
    bearerLead? text = some (lead, value) ↔
      text = lead ++ value ∧ BearerLead lead ∧ EndsRun isBlankChar value ∧ ¬ realmMark <+: value := by
  constructor
  · intro found
    obtain ⟨rest, behind, found⟩ := Option.bind_eq_some_iff.mp found
    rw [after?_eq_some_iff] at behind
    simp only [splitBlanks, Option.ite_none_left_eq_some, Bool.or_eq_true, List.isEmpty_iff,
      List.isPrefixOf_iff_prefix, not_or, Option.some.injEq, Prod.mk.injEq] at found
    obtain ⟨⟨solid, plain⟩, rfl, rfl⟩ := found
    refine ⟨?_, ⟨_, rfl, solid, fun c member => mem_takeWhile member⟩, endsRun_dropWhile _ rest, plain⟩
    rw [behind, List.append_assoc, List.takeWhile_append_dropWhile]
  · rintro ⟨rfl, ⟨blanks, rfl, solid, all⟩, ends, plain⟩
    have behind : after? bearerWord (bearerWord ++ blanks ++ value) = some (blanks ++ value) := by
      rw [after?_eq_some_iff, List.append_assoc]
    simp only [bearerLead?, behind, splitBlanks_append all ends, Option.bind_eq_bind,
      Option.bind_some, Option.ite_none_left_eq_some, Bool.or_eq_true, List.isEmpty_iff,
      List.isPrefixOf_iff_prefix, not_or]
    exact ⟨⟨solid, plain⟩, trivial⟩

theorem splitAssignment?_eq_some_iff {assignment : List Char} :
    splitAssignment? text = some (assignment, rest) ↔
      ∃ c, (c = ':' ∨ c = '=') ∧ assignment = [c] ∧ text = c :: rest := by
  constructor
  · intro found
    unfold splitAssignment? at found
    split at found
    · cases found
      exact ⟨':', .inl rfl, rfl, rfl⟩
    · cases found
      exact ⟨'=', .inr rfl, rfl, rfl⟩
    · cases found
  · rintro ⟨c, rfl | rfl, rfl, rfl⟩
    · rfl
    · rfl

theorem splitBlanks_spec (text : List Char) :
    text = (splitBlanks text).1 ++ (splitBlanks text).2 ∧
      (∀ c ∈ (splitBlanks text).1, isBlankChar c = true) ∧ EndsRun isBlankChar (splitBlanks text).2 :=
  ⟨List.takeWhile_append_dropWhile.symm, fun _ member => mem_takeWhile member,
    endsRun_dropWhile isBlankChar text⟩

theorem authorizationLead?_eq_some_iff :
    authorizationLead? text = some (lead, value) ↔
      text = lead ++ value ∧ AuthorizationLead lead ∧ EndsRun isBlankChar value := by
  constructor
  · intro found
    obtain ⟨text₁, word, found⟩ := Option.bind_eq_some_iff.mp found
    rcases quoted : splitQuote text₁ with ⟨quote, text₂⟩
    rcases spaced : splitBlanks text₂ with ⟨before, text₃⟩
    simp only [quoted, spaced] at found
    obtain ⟨⟨mark, text₄⟩, assigned, found⟩ := Option.bind_eq_some_iff.mp found
    rcases spacedBehind : splitBlanks text₄ with ⟨behind, text₅⟩
    rcases quotedInner : splitQuote text₅ with ⟨inner, text₆⟩
    simp only [spacedBehind, quotedInner] at found
    obtain ⟨text₇, token, found⟩ := Option.bind_eq_some_iff.mp found
    rcases spacedLast : splitBlanks text₇ with ⟨blanks, rest⟩
    simp only [spacedLast, Option.ite_none_left_eq_some, List.isEmpty_iff, Option.some.injEq,
      Prod.mk.injEq] at found
    obtain ⟨solid, rfl, rfl⟩ := found
    obtain ⟨assignment, assigns, rfl, rfl⟩ := splitAssignment?_eq_some_iff.mp assigned
    obtain ⟨split₁, isQuote⟩ := quoted ▸ splitQuote_spec text₁
    obtain ⟨split₂, allBefore, -⟩ := spaced ▸ splitBlanks_spec text₂
    obtain ⟨split₄, allBehind, -⟩ := spacedBehind ▸ splitBlanks_spec text₄
    obtain ⟨split₅, isInner⟩ := quotedInner ▸ splitQuote_spec text₅
    obtain ⟨split₇, all, ends⟩ := spacedLast ▸ splitBlanks_spec text₇
    rw [after?_eq_some_iff] at word token
    dsimp only at *
    subst word split₁ split₂ split₄ split₅ token split₇
    refine ⟨?_, ⟨quote, before, assignment, behind, inner, blanks, ?_, isQuote, allBefore, assigns,
      allBehind, isInner, solid, all⟩, ends⟩
    · simp only [List.append_assoc, List.cons_append, List.nil_append]
    · simp only [List.append_assoc, List.cons_append, List.nil_append]
  · rintro ⟨rfl, ⟨quote, before, assignment, behind, inner, blanks, rfl, isQuote, allBefore, assigns,
      allBehind, isInner, solid, all⟩, ends⟩
    have word (rest : List Char) : after? authorizationWord (authorizationWord ++ rest) = some rest :=
      after?_eq_some_iff.mpr rfl
    have token (rest : List Char) : after? tokenWord (tokenWord ++ rest) = some rest :=
      after?_eq_some_iff.mpr rfl
    have assigned (rest : List Char) :
        splitAssignment? (assignment :: rest) = some ([assignment], rest) :=
      splitAssignment?_eq_some_iff.mpr ⟨assignment, assigns, rfl, rfl⟩
    have noQuote : isQuoteChar assignment = false := by rcases assigns with rfl | rfl <;> decide
    have noBlank : isBlankChar assignment = false := by rcases assigns with rfl | rfl <;> decide
    have quoted (rest : List Char) := splitQuote_append isQuote (endsRun_append_cons
      (fun c member => isQuoteChar_of_isBlankChar (allBefore c member)) noQuote rest)
    have spaced (rest : List Char) := splitBlanks_append allBefore (endsRun_cons noBlank rest)
    have endsBlanks (rest : List Char) : EndsRun isBlankChar (inner ++ (tokenWord ++ rest)) := by
      rcases isInner with rfl | ⟨c, isQuote, rfl⟩
      · exact endsRun_cons (by decide) _
      · refine endsRun_cons (Bool.eq_false_iff.mpr fun blank => ?_) _
        rw [isQuoteChar_of_isBlankChar blank] at isQuote
        cases isQuote
    have spacedBehind (rest : List Char) := splitBlanks_append allBehind (endsBlanks rest)
    have quotedInner (rest : List Char) : splitQuote (inner ++ (tokenWord ++ rest)) =
        (inner, tokenWord ++ rest) := splitQuote_append isInner (endsRun_cons (by decide) _)
    have spacedLast := splitBlanks_append all ends
    simp only [authorizationLead?, List.append_assoc, List.cons_append, List.nil_append, word, token,
      Option.bind_eq_bind, Option.bind_some, quoted, spaced, assigned, spacedBehind, quotedInner,
      spacedLast, Option.ite_none_left_eq_some, List.isEmpty_iff]
    exact ⟨solid, trivial⟩

/-! ## Credentials -/

/-- A credential as it is written. -/
def Sighting.written (found : Sighting) : List Char := found.lead ++ found.secret

def IsLead (lead : List Char) : Prop := BearerLead lead ∨ AuthorizationLead lead

/-- A value behind a scheme, with what is behind the value. Behind `Bearer` a realm is none. -/
structure SchemeStands (found : Sighting) (rest : List Char) : Prop where
  isLead : IsLead found.lead
  value : IsRun isValueChar found.secret rest
  noRealm : BearerLead found.lead → ¬ realmMark <+: found.secret ++ rest

/-- The forms of credentials, each with what is behind it. -/
inductive Stands : Sighting → List Char → Prop where
  | scheme {found : Sighting} {rest : List Char} (stands : SchemeStands found rest) : Stands found rest
  | accessToken {mark body rest : List Char} (known : mark ∈ tokenMarks)
    (run : IsRun isTokenChar body rest) : Stands ⟨[], mark ++ body⟩ rest
  | webToken {header payload signature rest : List Char}
    (header_all : ∀ c ∈ header, isSegmentChar c = true)
    (payload_run : IsRun isSegmentChar payload ('.' :: (signature ++ rest)))
    (signature_all : ∀ c ∈ signature, isSegmentChar c = true) (ends : EndsRun isSegmentChar rest) :
    Stands ⟨[], webTokenMark ++ header ++ '.' :: payload ++ '.' :: signature⟩ rest

variable {found : Sighting}

theorem endsRun_of_isValueChar {c : Char} (inside : isValueChar c = true) (rest : List Char) :
    EndsRun isBlankChar (c :: rest) := by
  refine endsRun_cons ?_ rest
  simp only [isValueChar, Bool.not_eq_true', Bool.or_eq_false_iff] at inside
  exact inside.1.1.1

theorem IsRun.endsBlank (run : IsRun isValueChar word rest) : EndsRun isBlankChar (word ++ rest) := by
  obtain ⟨c, more, rfl⟩ := List.exists_cons_of_ne_nil run.solid
  exact endsRun_of_isValueChar (run.all c List.mem_cons_self) _

theorem BearerLead.exists_cons (isLead : BearerLead lead) : ∃ tail, lead = 'B' :: tail := by
  obtain ⟨blanks, rfl, -⟩ := isLead
  exact ⟨_, rfl⟩

theorem AuthorizationLead.exists_cons (isLead : AuthorizationLead lead) :
    ∃ tail, lead = 'A' :: tail := by
  obtain ⟨quote, before, assignment, behind, inner, blanks, rfl, -⟩ := isLead
  exact ⟨_, rfl⟩

theorem BearerLead.not_authorization (bearer : BearerLead lead) : ¬ AuthorizationLead lead := by
  intro authorization
  obtain ⟨tail, rfl⟩ := bearer.exists_cons
  obtain ⟨other, same⟩ := authorization.exists_cons
  cases same

theorem bearerLead?_of_head {c : Char} (other : c ≠ 'B') (rest : List Char) :
    bearerLead? (c :: rest) = none := by
  refine Option.eq_none_iff_forall_ne_some.mpr fun result found => ?_
  obtain ⟨lead, value⟩ := result
  obtain ⟨same, isLead, -⟩ := bearerLead?_eq_some_iff.mp found
  obtain ⟨tail, rfl⟩ := isLead.exists_cons
  cases same
  exact other rfl

theorem schemeValue?_eq_some_iff :
    schemeValue? text = some found ↔ ∃ rest, text = found.written ++ rest ∧ SchemeStands found rest := by
  constructor
  · intro seen
    obtain ⟨⟨lead, value⟩, led, seen⟩ := Option.bind_eq_some_iff.mp seen
    simp only [Option.ite_none_left_eq_some, List.isEmpty_iff, Option.some.injEq] at seen
    obtain ⟨solid, rfl⟩ := seen
    have run : IsRun isValueChar (value.takeWhile isValueChar) (value.dropWhile isValueChar) :=
      ⟨solid, fun c member => mem_takeWhile member, endsRun_dropWhile isValueChar value⟩
    have whole : value.takeWhile isValueChar ++ value.dropWhile isValueChar = value :=
      List.takeWhile_append_dropWhile
    refine ⟨value.dropWhile isValueChar, ?_, ?_⟩
    · rw [Sighting.written, List.append_assoc, whole]
      rcases Option.or_eq_some_iff.mp led with bearer | ⟨-, authorization⟩
      · exact (bearerLead?_eq_some_iff.mp bearer).1
      · exact (authorizationLead?_eq_some_iff.mp authorization).1
    · rcases Option.or_eq_some_iff.mp led with bearer | ⟨-, authorization⟩
      · obtain ⟨-, isLead, -, noRealm⟩ := bearerLead?_eq_some_iff.mp bearer
        exact ⟨.inl isLead, run, fun _ => whole.symm ▸ noRealm⟩
      · obtain ⟨-, isLead, -⟩ := authorizationLead?_eq_some_iff.mp authorization
        exact ⟨.inr isLead, run, fun bearer => absurd isLead bearer.not_authorization⟩
  · rintro ⟨rest, rfl, stands⟩
    -- Whichever word leads, what stands behind it is the value with the rest.
    obtain ⟨lead, secret⟩ := found
    have led (run : IsRun isValueChar secret rest)
        (leads : (bearerLead? (lead ++ (secret ++ rest))).or
          (authorizationLead? (lead ++ (secret ++ rest))) = some (lead, secret ++ rest)) :
        schemeValue? (lead ++ secret ++ rest) = some ⟨lead, secret⟩ := by
      rw [List.append_assoc, schemeValue?, leads]
      simp only [Option.bind_eq_bind, Option.bind_some, takeWhile_run run.all run.ends,
        Option.ite_none_left_eq_some, List.isEmpty_iff]
      exact ⟨run.solid, trivial⟩
    refine led stands.value (Option.or_eq_some_iff.mpr ?_)
    rcases stands.isLead with bearer | authorization
    · exact .inl (bearerLead?_eq_some_iff.mpr
        ⟨rfl, bearer, stands.value.endsBlank, stands.noRealm bearer⟩)
    · refine .inr ⟨?_, authorizationLead?_eq_some_iff.mpr ⟨rfl, authorization, stands.value.endsBlank⟩⟩
      obtain ⟨tail, rfl⟩ := authorization.exists_cons
      exact bearerLead?_of_head (by decide) _

theorem SchemeStands.exists_cons (stands : SchemeStands found rest) :
    ∃ c tail, found.written = c :: tail ∧ (c = 'B' ∨ c = 'A') := by
  rcases stands.isLead with bearer | authorization
  · obtain ⟨tail, headed⟩ := bearer.exists_cons
    exact ⟨'B', tail ++ found.secret, by rw [Sighting.written, headed]; rfl, .inl rfl⟩
  · obtain ⟨tail, headed⟩ := authorization.exists_cons
    exact ⟨'A', tail ++ found.secret, by rw [Sighting.written, headed]; rfl, .inr rfl⟩

theorem accessToken?_eq_some_iff :
    accessToken? text = some found ↔
      ∃ mark body rest, mark ∈ tokenMarks ∧ IsRun isTokenChar body rest ∧ found = ⟨[], mark ++ body⟩ ∧
        text = mark ++ body ++ rest := by
  constructor
  · intro seen
    obtain ⟨mark, first, seen⟩ := Option.bind_eq_some_iff.mp seen
    simp only [Option.ite_none_left_eq_some, List.isEmpty_iff, Option.some.injEq] at seen
    obtain ⟨solid, rfl⟩ := seen
    have marked := List.find?_some (p := fun mark : List Char => mark.isPrefixOf text) first
    obtain ⟨behind, rfl⟩ := List.isPrefixOf_iff_prefix.mp marked
    rw [List.drop_left] at solid ⊢
    refine ⟨mark, _, behind.dropWhile isTokenChar, List.mem_of_find?_eq_some first,
      ⟨solid, fun c member => mem_takeWhile member, endsRun_dropWhile _ behind⟩, rfl, ?_⟩
    rw [List.append_assoc, List.takeWhile_append_dropWhile]
  · rintro ⟨mark, body, rest, known, run, rfl, rfl⟩
    have first : tokenMarks.find? (·.isPrefixOf (mark ++ (body ++ rest))) = some mark := by
      simp only [tokenMarks, List.map_cons, List.map_nil, List.mem_cons, List.not_mem_nil,
        or_false] at known
      rcases known with rfl | rfl | rfl | rfl | rfl | rfl <;> rfl
    simp only [accessToken?, List.append_assoc, first, Option.bind_eq_bind, Option.bind_some,
      List.drop_left, takeWhile_run run.all run.ends, Option.ite_none_left_eq_some, List.isEmpty_iff]
    exact ⟨run.solid, trivial⟩

theorem exists_cons_of_tokenMark {mark : List Char} (known : mark ∈ tokenMarks) :
    ∃ tail, mark = 'g' :: tail := by
  simp only [tokenMarks, List.map_cons, List.map_nil, List.mem_cons, List.not_mem_nil,
    or_false] at known
  rcases known with rfl | rfl | rfl | rfl | rfl | rfl <;> exact ⟨_, rfl⟩

theorem isTokenChar_of_mem_tokenMark {mark : List Char} (known : mark ∈ tokenMarks) {c : Char}
    (member : c ∈ mark) : isTokenChar c = true := by
  have all : mark.all isTokenChar = true := by
    simp only [tokenMarks, List.map_cons, List.map_nil, List.mem_cons, List.not_mem_nil,
      or_false] at known
    rcases known with rfl | rfl | rfl | rfl | rfl | rfl <;> decide
  exact List.all_eq_true.mp all c member

theorem isSegmentChar_dot : isSegmentChar '.' = false := by decide

theorem webToken?_eq_some_iff :
    webToken? text = some found ↔
      ∃ header payload signature rest, (∀ c ∈ header, isSegmentChar c = true) ∧
        IsRun isSegmentChar payload ('.' :: (signature ++ rest)) ∧
        (∀ c ∈ signature, isSegmentChar c = true) ∧ EndsRun isSegmentChar rest ∧
        found = ⟨[], webTokenMark ++ header ++ '.' :: payload ++ '.' :: signature⟩ ∧
        text = webTokenMark ++ header ++ '.' :: payload ++ '.' :: signature ++ rest := by
  constructor
  · intro seen
    obtain ⟨text₁, mark, seen⟩ := Option.bind_eq_some_iff.mp seen
    obtain ⟨text₂, firstDot, seen⟩ := Option.bind_eq_some_iff.mp seen
    obtain ⟨text₃, secondDot, seen⟩ := Option.bind_eq_some_iff.mp seen
    simp only [Option.ite_none_left_eq_some, List.isEmpty_iff, Option.some.injEq] at seen
    obtain ⟨solid, rfl⟩ := seen
    rw [after?_eq_some_iff] at mark firstDot secondDot
    have split₁ : text₁ = text₁.takeWhile isSegmentChar ++ '.' :: text₂ :=
      (List.takeWhile_append_dropWhile.symm).trans (congrArg _ firstDot)
    have split₂ : text₂ = text₂.takeWhile isSegmentChar ++ '.' :: text₃ :=
      (List.takeWhile_append_dropWhile.symm).trans (congrArg _ secondDot)
    have split₃ : text₃ = text₃.takeWhile isSegmentChar ++ text₃.dropWhile isSegmentChar :=
      List.takeWhile_append_dropWhile.symm
    refine ⟨_, _, text₃.takeWhile isSegmentChar, text₃.dropWhile isSegmentChar,
      fun c member => mem_takeWhile member,
      ⟨solid, fun c member => mem_takeWhile member, endsRun_cons isSegmentChar_dot _⟩,
      fun c member => mem_takeWhile member, endsRun_dropWhile _ text₃, rfl, ?_⟩
    calc text = webTokenMark ++ (text₁.takeWhile isSegmentChar ++ '.' :: (text₂.takeWhile isSegmentChar
          ++ '.' :: (text₃.takeWhile isSegmentChar ++ text₃.dropWhile isSegmentChar))) := by
          rw [← split₃, ← split₂, ← split₁, mark]
      _ = _ := by simp only [List.append_assoc, List.cons_append]
  · rintro ⟨header, payload, signature, rest, header_all, run, signature_all, ends, rfl, rfl⟩
    have mark (rest : List Char) : after? webTokenMark (webTokenMark ++ rest) = some rest :=
      after?_eq_some_iff.mpr rfl
    have dot (rest : List Char) : after? ['.'] ('.' :: rest) = some rest :=
      after?_eq_some_iff.mpr rfl
    have headed (rest : List Char) := takeWhile_run header_all (endsRun_cons isSegmentChar_dot rest)
    have behind (rest : List Char) := dropWhile_run header_all (endsRun_cons isSegmentChar_dot rest)
    simp only [webToken?, List.append_assoc, List.cons_append, mark, Option.bind_eq_bind,
      Option.bind_some, headed, behind, dot, takeWhile_run run.all run.ends,
      dropWhile_run run.all run.ends, takeWhile_run signature_all ends,
      Option.ite_none_left_eq_some, List.isEmpty_iff]
    exact ⟨run.solid, trivial⟩

/-- What is seen at the head of a text is the credential that stands there. -/
theorem sighting?_eq_some_iff :
    sighting? text = some found ↔ ∃ rest, text = found.written ++ rest ∧ Stands found rest := by
  constructor
  · intro seen
    rcases Option.or_eq_some_iff.mp seen with seen | ⟨-, seen⟩
    · rcases Option.or_eq_some_iff.mp seen with seen | ⟨-, seen⟩
      · obtain ⟨rest, rfl, stands⟩ := schemeValue?_eq_some_iff.mp seen
        exact ⟨rest, rfl, .scheme stands⟩
      · obtain ⟨mark, body, rest, known, run, rfl, rfl⟩ := accessToken?_eq_some_iff.mp seen
        exact ⟨rest, rfl, .accessToken known run⟩
    · obtain ⟨header, payload, signature, rest, header_all, run, signature_all, ends, rfl, rfl⟩ :=
        webToken?_eq_some_iff.mp seen
      exact ⟨rest, rfl, .webToken header_all run signature_all ends⟩
  · rintro ⟨rest, rfl, stands⟩
    -- The first character tells the kinds apart, so that a later kind is not preceded by another.
    have noScheme {c : Char} (other : ¬ (c = 'B' ∨ c = 'A')) (tail : List Char) :
        schemeValue? (c :: tail) = none := by
      refine Option.eq_none_iff_forall_ne_some.mpr fun found seen => ?_
      obtain ⟨rest, same, stands⟩ := schemeValue?_eq_some_iff.mp seen
      obtain ⟨d, more, written, first⟩ := stands.exists_cons
      rw [written] at same
      cases same
      exact other first
    have noToken {c : Char} (other : c ≠ 'g') (tail : List Char) : accessToken? (c :: tail) = none := by
      refine Option.eq_none_iff_forall_ne_some.mpr fun found seen => ?_
      obtain ⟨mark, body, rest, known, -, -, same⟩ := accessToken?_eq_some_iff.mp seen
      obtain ⟨more, rfl⟩ := exists_cons_of_tokenMark known
      cases same
      exact other rfl
    cases stands with
    | scheme stands =>
      rw [sighting?, schemeValue?_eq_some_iff.mpr ⟨rest, rfl, stands⟩]
      rfl
    | accessToken known run =>
      have seen := accessToken?_eq_some_iff.mpr ⟨_, _, rest, known, run, rfl, rfl⟩
      obtain ⟨tail, rfl⟩ := exists_cons_of_tokenMark known
      rw [Sighting.written, List.nil_append, sighting?, seen]
      rw [List.cons_append, List.cons_append, noScheme (by decide)]
      rfl
    | @webToken header payload signature _ header_all run signature_all ends =>
      have seen := webToken?_eq_some_iff.mpr
        ⟨_, _, _, rest, header_all, run, signature_all, ends, rfl, rfl⟩
      rw [Sighting.written, List.nil_append]
      obtain ⟨tail, headed⟩ : ∃ tail,
          webTokenMark ++ header ++ '.' :: payload ++ '.' :: signature ++ rest = 'e' :: tail := ⟨_, rfl⟩
      rw [sighting?, seen, headed, noScheme (by decide), noToken (by decide)]
      rfl

/-! ## Classes of characters -/

theorem isWordChar_of_isTokenChar {c : Char} (token : isTokenChar c = true) : isWordChar c = true := by
  have ascii : c.toNat < 0x80 := by
    simp only [isTokenChar, isAsciiAlnum, Bool.or_eq_true, Bool.and_eq_true, decide_eq_true_eq,
      beq_iff_eq] at token
    rcases token with code | rfl
    · omega
    · decide
  rw [isTokenChar, Bool.or_eq_true] at token
  rw [isWordChar, isWord, if_pos ascii, Bool.or_eq_true]
  refine token.imp_right fun same => ?_
  rw [eq_of_beq same]
  decide

/-- What ends a value ends a word. -/
theorem isWordChar_of_not_isValueChar {c : Char} (separates : isValueChar c = false) :
    isWordChar c = false := by
  simp only [isValueChar, Bool.not_eq_false', Bool.or_eq_true, beq_iff_eq] at separates
  rcases separates with ((blank | rfl) | rfl) | rfl
  · exact isWordChar_of_isBlankChar blank
  · decide
  · decide
  · decide

theorem isValueChar_of_isTokenChar {c : Char} (token : isTokenChar c = true) : isValueChar c = true := by
  refine eq_true_of_ne_false fun separates => ?_
  have word := isWordChar_of_isTokenChar token
  rw [isWordChar_of_not_isValueChar separates] at word
  cases word

theorem isValueChar_of_isBlankChar {c : Char} (blank : isBlankChar c = true) :
    isValueChar c = false := by
  rw [isValueChar, blank, Bool.true_or, Bool.true_or, Bool.true_or, Bool.not_true]

theorem isValueChar_of_isSegmentChar {c : Char} (segment : isSegmentChar c = true) :
    isValueChar c = true := by
  rcases (Bool.or_eq_true _ _).mp segment with token | hyphen
  · exact isValueChar_of_isTokenChar token
  · rw [eq_of_beq hyphen]
    decide

theorem realmMark_value : ∀ c ∈ realmMark, isValueChar c = true := List.all_eq_true.mp (by decide)

theorem mask_value : ∀ c ∈ mask, isValueChar c = true := List.all_eq_true.mp (by decide)

theorem webTokenMark_segment : ∀ c ∈ webTokenMark, isSegmentChar c = true :=
  List.all_eq_true.mp (by decide)

/-! ## Beginnings of credentials -/

/-- The characters that a credential can begin with. -/
def isInitial (c : Char) : Bool := c == 'B' || c == 'A' || c == 'g' || c == 'e'

theorem isTokenChar_of_isInitial {c : Char} (initial : isInitial c = true) : isTokenChar c = true := by
  simp only [isInitial, Bool.or_eq_true, beq_iff_eq] at initial
  rcases initial with ((rfl | rfl) | rfl) | rfl <;> decide

theorem isWordChar_of_isInitial {c : Char} (initial : isInitial c = true) : isWordChar c = true :=
  isWordChar_of_isTokenChar (isTokenChar_of_isInitial initial)

theorem isValueChar_of_isInitial {c : Char} (initial : isInitial c = true) : isValueChar c = true :=
  isValueChar_of_isTokenChar (isTokenChar_of_isInitial initial)

theorem Stands.exists_cons (stands : Stands found rest) :
    ∃ c tail, found.written = c :: tail ∧ isInitial c = true := by
  cases stands with
  | scheme stands =>
    obtain ⟨c, tail, written, rfl | rfl⟩ := stands.exists_cons
    · exact ⟨'B', tail, written, rfl⟩
    · exact ⟨'A', tail, written, rfl⟩
  | accessToken known run =>
    obtain ⟨tail, rfl⟩ := exists_cons_of_tokenMark known
    exact ⟨'g', _, rfl, rfl⟩
  | webToken => exact ⟨'e', _, rfl, rfl⟩

theorem sighting?_of_head {c : Char} (other : isInitial c = false) (rest : List Char) :
    sighting? (c :: rest) = none := by
  refine Option.eq_none_iff_forall_ne_some.mpr fun found seen => ?_
  obtain ⟨behind, same, stands⟩ := sighting?_eq_some_iff.mp seen
  obtain ⟨d, tail, written, initial⟩ := stands.exists_cons
  rw [written] at same
  cases same
  rw [other] at initial
  cases initial

theorem EndsRun.mono {q : Char → Bool} (ends : EndsRun p rest)
    (narrower : ∀ c, q c = true → p c = true) : EndsRun q rest := fun c first =>
  Bool.eq_false_iff.mpr fun inside => by
    have stops := ends c first
    rw [narrower c inside] at stops
    cases stops

/-- What is behind a credential does not begin as one. -/
theorem Stands.endsInitial (stands : Stands found rest) : EndsRun isInitial rest := by
  cases stands with
  | scheme stands => exact stands.value.ends.mono fun c => isValueChar_of_isInitial
  | accessToken known run => exact run.ends.mono fun c => isTokenChar_of_isInitial
  | webToken header_all payload_run signature_all ends =>
    refine ends.mono fun c initial => ?_
    rw [isSegmentChar, isTokenChar_of_isInitial initial, Bool.true_or]

theorem Stands.secret_value (stands : Stands found rest) : ∀ c ∈ found.secret, isValueChar c = true := by
  cases stands with
  | scheme stands => exact stands.value.all
  | accessToken known run =>
    intro c member
    rcases List.mem_append.mp member with marked | inBody
    · exact isValueChar_of_isTokenChar (isTokenChar_of_mem_tokenMark known marked)
    · exact isValueChar_of_isTokenChar (run.all c inBody)
  | webToken header_all payload_run signature_all ends =>
    intro c member
    simp only [List.mem_append, List.mem_cons] at member
    rcases member with ((marked | inHeader) | rfl | inPayload) | rfl | inSignature
    · exact isValueChar_of_isSegmentChar (webTokenMark_segment c marked)
    · exact isValueChar_of_isSegmentChar (header_all c inHeader)
    · decide
    · exact isValueChar_of_isSegmentChar (payload_run.all c inPayload)
    · decide
    · exact isValueChar_of_isSegmentChar (signature_all c inSignature)

theorem Stands.secret_solid (stands : Stands found rest) : found.secret ≠ [] := by
  cases stands with
  | scheme stands => exact stands.value.solid
  | accessToken known run =>
    intro none
    exact run.solid (List.append_eq_nil_iff.mp none).2
  | webToken => exact List.cons_ne_nil _ _

/-! ## Surroundings of a credential -/

/-- Whether a word character is before the end of a text, where `afterWordChar` tells it of the
beginning. -/
def wordEnd (afterWordChar : Bool) (text : List Char) : Bool :=
  text.foldl (fun _ c => isWordChar c) afterWordChar

@[simp] theorem wordEnd_nil (w : Bool) : wordEnd w [] = w := rfl

@[simp] theorem wordEnd_cons (w : Bool) (c : Char) (text : List Char) :
    wordEnd w (c :: text) = wordEnd (isWordChar c) text := rfl

@[simp] theorem wordEnd_append (w : Bool) (text behind : List Char) :
    wordEnd w (text ++ behind) = wordEnd (wordEnd w text) behind := List.foldl_append

/-- No credential can begin in the text: a character that could begin one is behind a word
character. -/
def quiet (afterWordChar : Bool) : List Char → Bool
  | [] => true
  | c :: rest => (!isInitial c || afterWordChar) && quiet (isWordChar c) rest

theorem quiet_append (w : Bool) (text behind : List Char) :
    quiet w (text ++ behind) = (quiet w text && quiet (wordEnd w text) behind) := by
  induction text generalizing w with
  | nil => rfl
  | cons c text ih => simp only [List.cons_append, quiet, ih, wordEnd_cons, Bool.and_assoc]

theorem quiet_of_forall (w : Bool) (all : ∀ c ∈ text, isInitial c = false) : quiet w text = true := by
  induction text generalizing w with
  | nil => rfl
  | cons c text ih =>
    simp only [quiet, all c List.mem_cons_self, Bool.not_false, Bool.true_or, Bool.true_and]
    exact ih _ fun d member => all d (List.mem_cons_of_mem _ member)

/-- Where a credential could begin in a quiet text, a word goes on. -/
theorem wordEnd_of_quiet {w : Bool} {c : Char} {front back : List Char}
    (quiets : quiet w (front ++ c :: back) = true) (initial : isInitial c = true) :
    wordEnd w front = true := by
  rw [quiet_append, quiet, initial, Bool.and_eq_true, Bool.and_eq_true] at quiets
  exact quiets.2.1

theorem isInitial_of_isBlankChar {c : Char} (blank : isBlankChar c = true) : isInitial c = false := by
  refine Bool.eq_false_iff.mpr fun initial => ?_
  have word := isWordChar_of_isInitial initial
  rw [isWordChar_of_isBlankChar blank] at word
  cases word

theorem isInitial_of_isQuoteChar {c : Char} (quote : isQuoteChar c = true) : isInitial c = false := by
  rcases (Bool.or_eq_true _ _).mp quote with same | same
  · rw [eq_of_beq same]
    decide
  · rw [eq_of_beq same]
    decide

/-- Behind its first character a lead is quiet. -/
theorem IsLead.exists_cons (isLead : IsLead lead) :
    ∃ c tail, lead = c :: tail ∧ isInitial c = true ∧ quiet true tail = true := by
  rcases isLead with ⟨blanks, rfl, -, all⟩ |
    ⟨quote, before, assignment, behind, inner, blanks, rfl, isQuote, allBefore, assigns, allBehind,
      isInner, -, all⟩
  · refine ⟨'B', "earer".toList ++ blanks, rfl, rfl, ?_⟩
    rw [quiet_append, quiet_of_forall _ fun c member => isInitial_of_isBlankChar (all c member)]
    decide
  · refine ⟨'A', "uthorization".toList ++ (quote ++ (before ++ (assignment :: (behind ++ (inner ++
      (tokenWord ++ blanks)))))), rfl, rfl, ?_⟩
    have quoteQuiet {quote : List Char} (isQuote : IsQuote quote) (w : Bool) : quiet w quote = true := by
      refine quiet_of_forall w fun c member => ?_
      rcases isQuote with rfl | ⟨d, isQuote, rfl⟩
      · cases member
      · cases List.mem_singleton.mp member
        exact isInitial_of_isQuoteChar isQuote
    have blankQuiet {blanks : List Char} (all : ∀ c ∈ blanks, isBlankChar c = true) (w : Bool) :
        quiet w blanks = true :=
      quiet_of_forall w fun c member => isInitial_of_isBlankChar (all c member)
    have assignmentQuiet : isInitial assignment = false := by rcases assigns with rfl | rfl <;> decide
    have tokenQuiet (w : Bool) : quiet w tokenWord = true := by cases w <;> decide
    simp only [quiet_append, quiet, quoteQuiet isQuote, quoteQuiet isInner, blankQuiet allBefore,
      blankQuiet allBehind, blankQuiet all, assignmentQuiet, tokenQuiet, Bool.not_false, Bool.true_or,
      Bool.and_true]
    decide

/-- A lead is made of its words, of blanks and quotation marks, and of an assignment. -/
theorem IsLead.not_mem {c : Char} (isLead : IsLead lead) (noBlank : isBlankChar c = false)
    (noQuote : isQuoteChar c = false)
    (other : c ∉ bearerWord ++ authorizationWord ++ tokenWord ++ [':', '=']) : c ∉ lead := by
  have blankOther {blanks : List Char} (all : ∀ d ∈ blanks, isBlankChar d = true) : c ∉ blanks :=
    fun member => by cases noBlank.symm.trans (all c member)
  have quoteOther {quote : List Char} (isQuote : IsQuote quote) : c ∉ quote := by
    rintro member
    rcases isQuote with rfl | ⟨d, isQuote, rfl⟩
    · cases member
    · rw [← List.mem_singleton.mp member, noQuote] at isQuote
      cases isQuote
  simp only [List.mem_append, List.mem_cons, List.not_mem_nil, or_false, not_or] at other
  obtain ⟨⟨⟨noBearer, noAuthorization⟩, noToken⟩, noColon, noEquals⟩ := other
  rcases isLead with ⟨blanks, rfl, -, all⟩ |
    ⟨quote, before, assignment, behind, inner, blanks, rfl, isQuote, allBefore, assigns, allBehind,
      isInner, -, all⟩
  · simp only [List.mem_append, blankOther all, noBearer, or_false, not_false_iff]
  · have assignmentOther : c ≠ assignment := by rcases assigns with rfl | rfl <;> assumption
    simp only [List.mem_append, List.mem_cons, quoteOther isQuote, quoteOther isInner,
      blankOther allBefore, blankOther allBehind, blankOther all, assignmentOther, noAuthorization,
      noToken, or_false, not_false_iff]

/-- A lead has nothing of the mask's first character. -/
theorem IsLead.star_not_mem (isLead : IsLead lead) : '*' ∉ lead :=
  isLead.not_mem (by decide) (by decide) (by decide)

theorem IsLead.exists_concat (isLead : IsLead lead) :
    ∃ front blank, lead = front ++ [blank] ∧ isBlankChar blank = true := by
  have ending (front : List Char) {blanks : List Char} (solid : blanks ≠ [])
      (all : ∀ c ∈ blanks, isBlankChar c = true) :
      ∃ more blank, front ++ blanks = more ++ [blank] ∧ isBlankChar blank = true := by
    refine ⟨front ++ blanks.dropLast, blanks.getLast solid, ?_, all _ (List.getLast_mem solid)⟩
    rw [List.append_assoc, List.dropLast_concat_getLast]
  rcases isLead with ⟨blanks, rfl, solid, all⟩ |
    ⟨quote, before, assignment, behind, inner, blanks, rfl, -, -, -, -, -, solid, all⟩
  · exact ending bearerWord solid all
  · obtain ⟨more, blank, same, isBlank⟩ := ending (authorizationWord ++ (quote ++ (before ++
      (assignment :: (behind ++ (inner ++ tokenWord)))))) solid all
    refine ⟨more, blank, ?_, isBlank⟩
    rw [← same]
    simp only [List.append_assoc, List.cons_append]

theorem IsLead.wordEnd (isLead : IsLead lead) (w : Bool) : wordEnd w lead = false := by
  obtain ⟨front, blank, rfl, isBlank⟩ := isLead.exists_concat
  rw [wordEnd_append, wordEnd_cons, wordEnd_nil, isWordChar_of_isBlankChar isBlank]

theorem IsLead.wordEnd_tail {c : Char} {tail : List Char} (isLead : IsLead (c :: tail))
    (initial : isInitial c = true) : Log.wordEnd true tail = false := by
  have ended := isLead.wordEnd true
  rw [wordEnd_cons, isWordChar_of_isInitial initial] at ended
  exact ended

/-- A text of a class of characters is no longer than the run that it begins. -/
theorem prefix_of_run {front more : List Char} (all : ∀ c ∈ front, p c = true) (ends : EndsRun p rest)
    (same : front ++ more = word ++ rest) : front <+: word := by
  rcases List.append_eq_append_iff.mp same with ⟨behind, rfl, -⟩ | ⟨extra, rfl, rfl⟩
  · exact List.prefix_append _ _
  · cases extra with
    | nil => exact ⟨[], by rw [List.append_nil, List.append_nil]⟩
    | cons c extra =>
      have inside := all c (List.mem_append_right _ List.mem_cons_self)
      rw [ends c rfl] at inside
      cases inside

/-- A credential stands whatever follows what is behind it. -/
theorem Stands.append {behind : List Char} (stands : Stands found rest) (solid : rest ≠ []) :
    Stands found (rest ++ behind) := by
  cases stands with
  | scheme stands =>
    obtain ⟨isLead, value, noRealm⟩ := stands
    refine .scheme ⟨isLead, ⟨value.solid, value.all, value.ends.append solid⟩, fun bearer realm => ?_⟩
    obtain ⟨more, same⟩ := realm
    have inside : realmMark <+: found.secret :=
      prefix_of_run realmMark_value (value.ends.append solid) same
    exact noRealm bearer (inside.trans (List.prefix_append _ _))
  | accessToken known run => exact .accessToken known ⟨run.solid, run.all, run.ends.append solid⟩
  | webToken header_all payload_run signature_all ends =>
    exact .webToken header_all ⟨payload_run.solid, payload_run.all, endsRun_cons isSegmentChar_dot _⟩
      signature_all (ends.append solid)

theorem Stands.of_append {behind : List Char} (stands : Stands found (rest ++ behind)) :
    Stands found rest := by
  cases stands with
  | scheme stands =>
    obtain ⟨isLead, value, noRealm⟩ := stands
    refine .scheme ⟨isLead, ⟨value.solid, value.all, value.ends.of_append⟩, fun bearer realm => ?_⟩
    refine noRealm bearer (realm.trans ?_)
    rw [← List.append_assoc]
    exact List.prefix_append _ _
  | accessToken known run => exact .accessToken known ⟨run.solid, run.all, run.ends.of_append⟩
  | webToken header_all payload_run signature_all ends =>
    exact .webToken header_all ⟨payload_run.solid, payload_run.all, endsRun_cons isSegmentChar_dot _⟩
      signature_all ends.of_append

end RegistryGate.Log
