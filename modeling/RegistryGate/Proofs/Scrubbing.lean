import RegistryGate.Proofs.Sightings

/-!
# Scrubbing

A text is read from the left as characters and credentials (`Reads`), in one way only, and scrubbing
writes what was read with every credential masked (`Reads.scrubFrom_eq`). A masked text reads as itself
(`Reads.conceal`), so scrubbing twice is scrubbing once. The texts that scrubbing keeps are those where
every credential that stands where a word can begin is masked (`scrubFrom_eq_self_iff`).
-/

namespace RegistryGate.Log

open Text

/-! ## Readings -/

/-- What a part of a text is read as. -/
inductive Mark where
  | char (c : Char)
  | credential (found : Sighting)

namespace Mark

def written : Mark → List Char
  | char c => [c]
  | credential found => found.written

/-- What scrubbing writes. -/
def masked : Mark → List Char
  | char c => [c]
  | credential found => found.lead ++ mask

end Mark

/-- How a text is read from the left, where `afterWordChar` tells whether a word character is before
it. -/
inductive Reads : Bool → List Char → List Mark → Prop where
  | done (afterWordChar : Bool) : Reads afterWordChar [] []
  | char {afterWordChar : Bool} {c : Char} {rest : List Char} {marks : List Mark}
    (plain : afterWordChar = true ∨ sighting? (c :: rest) = none)
    (behind : Reads (isWordChar c) rest marks) : Reads afterWordChar (c :: rest) (.char c :: marks)
  | credential {text rest : List Char} {found : Sighting} {marks : List Mark}
    (same : text = found.written ++ rest) (stands : Stands found rest)
    (behind : Reads (wordEnd false found.written) rest marks) :
    Reads false text (.credential found :: marks)

variable {p : Char → Bool} {w : Bool} {c : Char} {text rest front : List Char} {found : Sighting}
  {marks : List Mark}

theorem Stands.seen (stands : Stands found rest) : sighting? (found.written ++ rest) = some found :=
  sighting?_eq_some_iff.mpr ⟨rest, rfl, stands⟩

/-- Texts that begin with a credential each begin with the same if they are equal. -/
theorem Stands.unique {other : Sighting} {behind : List Char} (stands : Stands found rest)
    (otherStands : Stands other behind) (same : found.written ++ rest = other.written ++ behind) :
    found = other ∧ rest = behind := by
  have seen := stands.seen
  rw [same, otherStands.seen] at seen
  cases seen
  exact ⟨rfl, List.append_cancel_left same⟩

/-- Where a text is read as a character, no credential stands. -/
theorem Stands.not_plain (stands : Stands found rest) (plain : false = true ∨ sighting? text = none) :
    text ≠ found.written ++ rest := by
  rintro rfl
  rcases plain with truth | unseen
  · cases truth
  · rw [stands.seen] at unseen
    cases unseen

theorem Reads.flatMap_written (reads : Reads w text marks) : marks.flatMap Mark.written = text := by
  induction reads with
  | done => rfl
  | char plain behind ih => rw [List.flatMap_cons, ih, Mark.written, List.singleton_append]
  | credential same stands behind ih => rw [List.flatMap_cons, ih, Mark.written, same]

theorem exists_reads (w : Bool) (text : List Char) : ∃ marks, Reads w text marks := by
  induction size : text.length using Nat.strongRecOn generalizing w text with
  | ind _ ih =>
    cases text with
    | nil => exact ⟨[], .done w⟩
    | cons c rest =>
      by_cases plain : w = true ∨ sighting? (c :: rest) = none
      · obtain ⟨marks, behind⟩ := ih rest.length (size ▸ Nat.lt_succ_self _) (isWordChar c) rest rfl
        exact ⟨_, .char plain behind⟩
      · obtain ⟨start, seen⟩ := not_or.mp plain
        obtain ⟨found, seen⟩ := Option.ne_none_iff_exists'.mp seen
        obtain ⟨more, same, stands⟩ := sighting?_eq_some_iff.mp seen
        obtain ⟨d, tail, written, -⟩ := stands.exists_cons
        have shorter : more.length < (c :: rest).length := by
          rw [same, written, List.length_append, List.length_cons]
          omega
        obtain ⟨marks, behind⟩ := ih more.length (size ▸ shorter) (wordEnd false found.written) more rfl
        rw [Bool.eq_false_iff.mpr start]
        exact ⟨_, .credential same stands behind⟩

/-- A quiet beginning is read as its characters. -/
theorem reads_quiet_append (quiets : quiet w front = true) :
    Reads w (front ++ rest) marks ↔
      ∃ behind, marks = front.map .char ++ behind ∧ Reads (wordEnd w front) rest behind := by
  induction front generalizing w marks with
  | nil =>
    constructor
    · intro reads
      exact ⟨marks, rfl, reads⟩
    · rintro ⟨behind, rfl, reads⟩
      exact reads
  | cons c front ih =>
    simp only [quiet, Bool.and_eq_true, Bool.or_eq_true, Bool.not_eq_true'] at quiets
    obtain ⟨quietHead, quietTail⟩ := quiets
    constructor
    · intro reads
      cases reads with
      | char plain behind =>
        obtain ⟨marks, rfl, reads⟩ := (ih quietTail).mp behind
        exact ⟨marks, rfl, reads⟩
      | credential same stands =>
        obtain ⟨d, tail, written, initial⟩ := stands.exists_cons
        rw [written] at same
        obtain ⟨rfl, -⟩ := List.cons.inj same
        rw [initial] at quietHead
        exact absurd quietHead (by decide)
    · rintro ⟨behind, rfl, reads⟩
      refine .char ?_ ((ih quietTail).mpr ⟨behind, rfl, reads⟩)
      exact quietHead.symm.imp_right fun other => sighting?_of_head other _

theorem flatMap_written_map_char (text : List Char) :
    (text.map Mark.char).flatMap Mark.written = text :=
  (List.flatMap_map ..).trans (List.flatMap_singleton' text)

theorem reads_of_quiet (quiets : quiet w text = true) : Reads w text (text.map .char) := by
  have reads : Reads w (text ++ []) (text.map .char ++ []) :=
    (reads_quiet_append quiets).mpr ⟨[], rfl, .done _⟩
  rw [List.append_nil, List.append_nil] at reads
  exact reads

/-- What is before a text does not matter if no credential can begin there. -/
theorem Reads.of_endsInitial (reads : Reads w text marks) (ends : EndsRun isInitial text)
    (afterWordChar : Bool) : Reads afterWordChar text marks := by
  cases reads with
  | done => exact .done _
  | char plain behind => exact .char (.inr (sighting?_of_head (ends _ rfl) _)) behind
  | credential same stands =>
    obtain ⟨c, tail, written, initial⟩ := stands.exists_cons
    rw [same, written] at ends
    rw [ends c rfl] at initial
    cases initial

/-! ## What scrubbing writes -/

theorem scrubFrom_taken (w : Bool) (front rest : List Char) :
    scrubFrom w front.length (front ++ rest) = scrubFrom (wordEnd w front) 0 rest := by
  induction front generalizing w with
  | nil => rfl
  | cons c front ih => exact ih (isWordChar c)

theorem Reads.scrubFrom_eq (reads : Reads w text marks) :
    scrubFrom w 0 text = marks.flatMap Mark.masked := by
  induction reads with
  | done => rfl
  | char plain behind ih =>
    rename_i w c rest marks
    have unseen : (if w = true then none else sighting? (c :: rest)) = none := by
      rcases plain with rfl | unseen
      · rfl
      · rw [unseen, ite_self]
    rw [scrubFrom, unseen]
    exact congrArg (c :: ·) ih
  | credential same stands behind ih =>
    rename_i text rest found marks
    obtain ⟨c, tail, written, -⟩ := stands.exists_cons
    have seen := stands.seen
    rw [written] at seen behind ih
    have taken : found.lead.length + found.secret.length - 1 = tail.length := by
      rw [← List.length_append, ← Sighting.written, written]
      rfl
    have step : scrubFrom false 0 (c :: (tail ++ rest)) = found.lead ++ mask ++
        scrubFrom (isWordChar c) (found.lead.length + found.secret.length - 1) (tail ++ rest) := by
      rw [scrubFrom, ← List.cons_append, seen]
      rfl
    rw [same, written, List.cons_append, step, taken, scrubFrom_taken]
    exact congrArg (found.lead ++ mask ++ ·) ih

theorem flatMap_masked_map_char (text : List Char) :
    (text.map Mark.char).flatMap Mark.masked = text :=
  (List.flatMap_map ..).trans (List.flatMap_singleton' text)

theorem scrubFrom_of_quiet (quiets : quiet w text = true) : scrubFrom w 0 text = text := by
  rw [(reads_of_quiet quiets).scrubFrom_eq, flatMap_masked_map_char]

/-! ## Masked texts -/

/-- What a mark is read as once it is masked. -/
def Mark.conceal : Mark → List Mark
  | char c => [.char c]
  | credential found => if found.lead = [] then mask.map .char else [.credential ⟨found.lead, mask⟩]

theorem Stands.lead_cases (stands : Stands found rest) :
    found.lead = [] ∨ found.lead ≠ [] ∧ SchemeStands found rest := by
  cases stands with
  | scheme stands =>
    obtain ⟨c, tail, lead, -⟩ := stands.isLead.exists_cons
    exact .inr ⟨lead ▸ List.cons_ne_nil c tail, stands⟩
  | accessToken => exact .inl rfl
  | webToken => exact .inl rfl

/-- A character that cannot begin a credential stays at the head of a text. -/
theorem Reads.endsRun_masked (reads : Reads w text marks) (ends : EndsRun p text)
    (initials : ∀ c, isInitial c = true → p c = true) : EndsRun p (marks.flatMap Mark.masked) := by
  cases reads with
  | done => exact ends
  | char plain behind => exact endsRun_cons (ends _ rfl) _
  | credential same stands =>
    obtain ⟨c, tail, written, initial⟩ := stands.exists_cons
    rw [same, written] at ends
    have stops := ends c rfl
    rw [initials c initial] at stops
    cases stops

/-- Up to a star or the end of a value, a masked text begins as the text does. -/
theorem Reads.prefix_of_masked {more : List Char} (reads : Reads w text marks)
    (all : ∀ d ∈ front, isValueChar d = true) (star : '*' ∉ front)
    (same : front ++ more = marks.flatMap Mark.masked) : front <+: text := by
  induction reads generalizing front with
  | done => exact (List.append_eq_nil_iff.mp same).1 ▸ List.prefix_refl []
  | char plain behind ih =>
    rcases List.append_eq_cons_iff.mp same with ⟨rfl, -⟩ | ⟨front, rfl, tail⟩
    · exact List.nil_prefix
    · exact (List.prefix_cons_inj _).mpr (ih (fun d member => all d (List.mem_cons_of_mem _ member))
        (fun member => star (List.mem_cons_of_mem _ member)) tail.symm)
  | credential joined stands behind ih =>
    rename_i text rest found marks
    rw [joined, Sighting.written]
    rw [List.flatMap_cons, Mark.masked, List.append_assoc] at same
    rcases stands.lead_cases with noLead | ⟨-, scheme⟩
    · rw [noLead] at same
      have noStar : ∀ d ∈ front, (d != '*') = true := fun d member =>
        bne_iff_ne.mpr fun isStar => star (isStar ▸ member)
      have none := prefix_of_run noStar (endsRun_cons (by decide) _) same
      exact none.trans List.nil_prefix
    · obtain ⟨initial, blank, lead, isBlank⟩ := scheme.isLead.exists_concat
      rw [lead, List.append_assoc] at same
      rw [lead, List.append_assoc, List.append_assoc]
      have inside := prefix_of_run all (endsRun_cons (isValueChar_of_isBlankChar isBlank) _) same
      exact inside.trans (List.prefix_append _ _)

/-- A quiet beginning of a masked text is the text's own. -/
theorem Reads.quiet_prefix_of_masked {more : List Char} (reads : Reads w text marks)
    (quiets : quiet w front = true) (star : '*' ∉ front)
    (same : front ++ more = marks.flatMap Mark.masked) :
    ∃ rest behind, text = front ++ rest ∧ more = behind.flatMap Mark.masked ∧
      Reads (wordEnd w front) rest behind := by
  induction reads generalizing front with
  | done =>
    obtain ⟨rfl, rfl⟩ := List.append_eq_nil_iff.mp same
    exact ⟨[], [], rfl, rfl, .done _⟩
  | char plain behind ih =>
    rcases List.append_eq_cons_iff.mp same with ⟨rfl, rfl⟩ | ⟨front, rfl, tail⟩
    · exact ⟨_, _, rfl, rfl, .char plain behind⟩
    · rw [quiet, Bool.and_eq_true] at quiets
      obtain ⟨rest, marks, rfl, rfl, reads⟩ :=
        ih quiets.2 (fun member => star (List.mem_cons_of_mem _ member)) tail.symm
      exact ⟨rest, marks, rfl, rfl, reads⟩
  | credential joined stands behind ih =>
    rename_i text rest found marks
    cases front with
    | nil => exact ⟨_, _, rfl, same, .credential joined stands behind⟩
    | cons c front =>
      -- A masked credential begins with a star or with the first letter of its lead.
      exfalso
      rw [List.flatMap_cons, Mark.masked] at same
      rcases stands.lead_cases with noLead | ⟨-, scheme⟩
      · rw [noLead] at same
        obtain ⟨rfl, -⟩ := List.cons.inj same
        exact star List.mem_cons_self
      · obtain ⟨d, tail, lead, initial, -⟩ := scheme.isLead.exists_cons
        rw [lead] at same
        obtain ⟨rfl, -⟩ := List.cons.inj same
        rw [quiet, initial] at quiets
        cases quiets

/-- Where a masked text goes on with a value, the text does. -/
theorem Reads.exists_cons_of_masked {value behind : List Char} (reads : Reads w text marks)
    (run : IsRun isValueChar value behind) (same : value ++ behind = marks.flatMap Mark.masked) :
    ∃ first more, text = first :: more ∧ isValueChar first = true := by
  obtain ⟨d, value, rfl⟩ := List.exists_cons_of_ne_nil run.solid
  cases reads with
  | done => cases same
  | char plain reads =>
    obtain ⟨rfl, -⟩ := List.cons.inj same
    exact ⟨_, _, rfl, run.all d List.mem_cons_self⟩
  | credential joined stands reads =>
    obtain ⟨first, tail, written, initial⟩ := stands.exists_cons
    rw [joined, written]
    exact ⟨first, _, rfl, isValueChar_of_isInitial initial⟩

/-- Masking does not make a credential. -/
theorem Reads.sighting?_masked (reads : Reads (isWordChar c) rest marks)
    (unseen : sighting? (c :: rest) = none) : sighting? (c :: marks.flatMap Mark.masked) = none := by
  refine Option.eq_none_iff_forall_ne_some.mpr fun found seen => ?_
  obtain ⟨behind, same, stands⟩ := sighting?_eq_some_iff.mp seen
  have never {found : Sighting} {more : List Char} (stands : Stands found more) :
      c :: rest ≠ found.written ++ more := stands.not_plain (.inr unseen)
  cases stands with
  | scheme stands =>
    obtain ⟨lead, secret⟩ := found
    obtain ⟨isLead, value, noRealm⟩ := stands
    obtain ⟨d, tail, rfl, initial, quiets⟩ : ∃ d tail, lead = d :: tail ∧ isInitial d = true ∧
        quiet true tail = true := IsLead.exists_cons isLead
    have star : '*' ∉ tail := fun member => IsLead.star_not_mem isLead (List.mem_cons_of_mem d member)
    rw [Sighting.written, List.append_assoc, List.cons_append] at same
    obtain ⟨rfl, joined⟩ := List.cons.inj same
    rw [isWordChar_of_isInitial initial] at reads
    obtain ⟨rest, marks, rfl, masked, reads⟩ := reads.quiet_prefix_of_masked quiets star joined.symm
    rw [IsLead.wordEnd_tail isLead initial] at reads
    obtain ⟨first, more, rfl, isValue⟩ := reads.exists_cons_of_masked value masked
    obtain ⟨value', behind', split, run⟩ := exists_run isValue more
    have standsToo : Stands ⟨c :: tail, value'⟩ behind' := by
      refine .scheme ⟨isLead, run, ?_⟩
      rintro bearer ⟨after, realm⟩
      rw [← split] at realm
      rw [← realm] at reads
      obtain ⟨behind, rfl, -⟩ := (reads_quiet_append (by decide)).mp reads
      refine noRealm bearer ⟨behind.flatMap Mark.masked, ?_⟩
      rw [masked]
      rfl
    refine never standsToo ?_
    rw [split, Sighting.written, List.append_assoc, List.cons_append]
  | accessToken known run =>
    rename_i mark body
    obtain ⟨tail, rfl⟩ := exists_cons_of_tokenMark known
    rw [Sighting.written, List.nil_append, List.cons_append, List.cons_append] at same
    obtain ⟨rfl, joined⟩ := List.cons.inj same
    have all : ∀ d ∈ tail ++ body, isTokenChar d = true := by
      intro d member
      rcases List.mem_append.mp member with member | member
      · exact isTokenChar_of_mem_tokenMark known (List.mem_cons_of_mem _ member)
      · exact run.all d member
    obtain ⟨more, rfl⟩ := reads.prefix_of_masked
      (fun d member => isValueChar_of_isTokenChar (all d member))
      (fun member => absurd (all _ member) (by decide)) joined.symm
    obtain ⟨first, tokens, rfl⟩ := List.exists_cons_of_ne_nil run.solid
    obtain ⟨body, behind, split, run⟩ :=
      exists_run (all first (List.mem_append_right _ List.mem_cons_self)) (tokens ++ more)
    refine never (.accessToken known run) ?_
    simp only [Sighting.written, List.nil_append, List.append_assoc, List.cons_append, ← split]
  | webToken header_all payload_run signature_all ends =>
    rename_i header payload signature
    have spelled (signature behind : List Char) : Sighting.written ⟨[], webTokenMark ++ header ++
        '.' :: payload ++ '.' :: signature⟩ ++ behind =
        'e' :: ("yJ".toList ++ (header ++ '.' :: (payload ++ ['.'])) ++ (signature ++ behind)) := by
      simp only [Sighting.written, List.nil_append, List.append_assoc, List.cons_append]
      rfl
    rw [spelled] at same
    obtain ⟨rfl, joined⟩ := List.cons.inj same
    have plain {d : Char} (segment : isSegmentChar d = true) : isValueChar d = true ∧ d ≠ '*' :=
      ⟨isValueChar_of_isSegmentChar segment, fun star => absurd (star ▸ segment) (by decide)⟩
    have all : ∀ d ∈ "yJ".toList ++ (header ++ '.' :: (payload ++ ['.'])),
        isValueChar d = true ∧ d ≠ '*' := by
      intro d member
      simp only [List.mem_append, List.mem_cons, List.not_mem_nil, or_false] at member
      rcases member with marked | inHeader | rfl | inPayload | rfl
      · exact plain (webTokenMark_segment d (List.mem_cons_of_mem 'e' marked))
      · exact plain (header_all d inHeader)
      · decide
      · exact plain (payload_run.all d inPayload)
      · decide
    obtain ⟨more, rfl⟩ := reads.prefix_of_masked (fun d member => (all d member).1)
      (fun member => (all _ member).2 rfl) joined.symm
    have signed : ∀ d ∈ more.takeWhile isSegmentChar, isSegmentChar d = true :=
      fun d member => mem_takeWhile member
    refine never (.webToken header_all ⟨payload_run.solid, payload_run.all,
      endsRun_cons isSegmentChar_dot _⟩ signed (endsRun_dropWhile _ more)) ?_
    rw [spelled, List.takeWhile_append_dropWhile]

/-- A masked text is read as the text is, with every credential masked. -/
theorem Reads.conceal (reads : Reads w text marks) :
    Reads w (marks.flatMap Mark.masked) (marks.flatMap Mark.conceal) := by
  induction reads with
  | done => exact .done _
  | char plain behind ih => exact .char (plain.imp_right behind.sighting?_masked) ih
  | credential same stands behind ih =>
    rename_i text rest found marks
    have initials := behind.endsRun_masked stands.endsInitial fun c => id
    have behindMask := ih.of_endsInitial initials false
    rw [List.flatMap_cons, List.flatMap_cons, Mark.masked, Mark.conceal]
    rcases stands.lead_cases with noLead | ⟨led, scheme⟩
    · rw [if_pos noLead, noLead, List.nil_append]
      exact (reads_quiet_append (by decide)).mpr ⟨_, rfl, behindMask⟩
    · rw [if_neg led]
      have ends := behind.endsRun_masked scheme.value.ends fun c => isValueChar_of_isInitial
      have noRealm : ¬ realmMark <+: mask ++ marks.flatMap Mark.masked := by
        rintro ⟨more, same⟩
        exact absurd (List.cons.inj same).1 (by decide)
      have run : IsRun isValueChar mask (marks.flatMap Mark.masked) := ⟨by decide, mask_value, ends⟩
      have stands : Stands ⟨found.lead, mask⟩ (marks.flatMap Mark.masked) :=
        .scheme ⟨scheme.isLead, run, fun _ => noRealm⟩
      refine .credential rfl stands ?_
      rw [Sighting.written, wordEnd_append, scheme.isLead.wordEnd]
      exact behindMask

theorem Mark.flatMap_masked_conceal (mark : Mark) : mark.conceal.flatMap Mark.masked = mark.masked := by
  cases mark with
  | char c => rfl
  | credential found =>
    rw [conceal]
    split
    · rename_i noLead
      rw [masked, noLead]
      rfl
    · rw [List.flatMap_cons, List.flatMap_nil, List.append_nil]
      rfl

/-- Scrubbing a scrubbed text keeps it. -/
theorem scrubFrom_scrubFrom (w : Bool) (text : List Char) :
    scrubFrom w 0 (scrubFrom w 0 text) = scrubFrom w 0 text := by
  obtain ⟨marks, reads⟩ := exists_reads w text
  rw [reads.scrubFrom_eq, reads.conceal.scrubFrom_eq, List.flatMap_assoc]
  exact congrArg (List.flatMap · marks) (funext Mark.flatMap_masked_conceal)

/-! ## Texts that scrubbing keeps -/

/-- Every credential that stands where a word can begin is masked. -/
def Masked (afterWordChar : Bool) (text : List Char) : Prop :=
  ∀ before found rest, text = before ++ (found.written ++ rest) → wordEnd afterWordChar before = false →
    Stands found rest → found.secret = mask

/-- A credential that is masked is its lead with the mask, and has none of its letters elsewhere. -/
theorem Stands.exists_cons_of_masked (stands : Stands found rest) (masked : found.secret = mask) :
    ∃ c tail, found.written = c :: tail ∧ isInitial c = true ∧ quiet true tail = true := by
  rcases stands.lead_cases with noLead | ⟨-, scheme⟩
  · obtain ⟨c, tail, written, initial⟩ := stands.exists_cons
    rw [Sighting.written, noLead, masked] at written
    obtain ⟨rfl, -⟩ := List.cons.inj written
    exact absurd initial (by decide)
  · obtain ⟨c, tail, lead, initial, quiets⟩ := scheme.isLead.exists_cons
    have isLead : IsLead (c :: tail) := lead ▸ scheme.isLead
    refine ⟨c, tail ++ mask, ?_, initial, ?_⟩
    · rw [Sighting.written, lead, masked, List.cons_append]
    · rw [quiet_append, quiets, isLead.wordEnd_tail initial]
      decide

theorem Reads.masked (reads : Reads w text marks)
    (all : ∀ found, Mark.credential found ∈ marks → found.secret = mask) : Masked w text := by
  induction reads with
  | done =>
    rintro before found rest same - stands
    obtain ⟨c, tail, written, -⟩ := stands.exists_cons
    rw [written] at same
    exact absurd same (by simp)
  | char plain behind ih =>
    rintro before found rest same start stands
    rcases List.cons_eq_append_iff.mp same with ⟨rfl, joined⟩ | ⟨before, rfl, tail⟩
    · rw [wordEnd_nil] at start
      subst start
      exact absurd joined.symm (stands.not_plain plain)
    · exact ih (fun found member => all found (List.mem_cons_of_mem _ member)) before found rest tail
        start stands
  | credential joined gives behind ih =>
    rename_i text more given marks
    rintro before found rest same start stands
    have ih := ih fun found member => all found (List.mem_cons_of_mem _ member)
    rw [joined] at same
    rcases List.append_eq_append_iff.mp same with ⟨before, rfl, tail⟩ | ⟨inside, split, tail⟩
    · rw [wordEnd_append] at start
      exact ih before found rest tail start stands
    cases before with
    | nil =>
      rw [List.nil_append] at split
      rw [← split] at tail
      obtain ⟨rfl, -⟩ := stands.unique gives tail
      exact all found List.mem_cons_self
    | cons b before =>
      cases inside with
      | nil =>
        rw [List.append_nil] at split
        rw [← split] at start
        exact ih [] found rest tail.symm start stands
      | cons d inside =>
        -- The credential would begin within one that is masked.
        exfalso
        obtain ⟨first, body, written, firstInitial, quiets⟩ :=
          gives.exists_cons_of_masked (all given List.mem_cons_self)
        obtain ⟨letter, _, letters, initial⟩ := stands.exists_cons
        rw [letters] at tail
        obtain ⟨rfl, -⟩ := List.cons.inj tail
        rw [written] at split
        obtain ⟨rfl, rfl⟩ := List.cons.inj split
        rw [wordEnd_cons, isWordChar_of_isInitial firstInitial, wordEnd_of_quiet quiets initial] at start
        cases start

theorem Reads.masked_eq (reads : Reads w text marks) (isMasked : Masked w text) :
    marks.flatMap Mark.masked = text := by
  induction reads with
  | done => rfl
  | char plain behind ih =>
    rename_i w c rest marks
    refine congrArg (c :: ·) (ih fun before found more same start stands => ?_)
    exact isMasked (c :: before) found more (congrArg (c :: ·) same) start stands
  | credential joined stands behind ih =>
    rename_i text rest found marks
    have secret := isMasked [] found rest joined rfl stands
    rw [List.flatMap_cons, Mark.masked, ← secret, joined,
      ih fun before other more same start others => ?_]
    · rfl
    · refine isMasked (found.written ++ before) other more ?_ ?_ others
      · rw [joined, same, List.append_assoc]
      · rw [wordEnd_append]
        exact start

/-- The texts that scrubbing keeps are those without an unmasked credential. -/
theorem scrubFrom_eq_self_iff {w : Bool} {text : List Char} :
    scrubFrom w 0 text = text ↔ Masked w text := by
  obtain ⟨marks, reads⟩ := exists_reads w text
  rw [reads.scrubFrom_eq]
  constructor
  · intro kept
    have concealed := reads.conceal
    rw [kept] at concealed
    refine concealed.masked fun found member => ?_
    obtain ⟨mark, -, inside⟩ := List.mem_flatMap.mp member
    cases mark with
    | char c => cases List.mem_singleton.mp inside
    | credential given =>
      rw [Mark.conceal] at inside
      split at inside
      · obtain ⟨c, -, same⟩ := List.mem_map.mp inside
        cases same
      · cases List.mem_singleton.mp inside
        rfl
  · exact reads.masked_eq

theorem masked_scrubFrom (w : Bool) (text : List Char) : Masked w (scrubFrom w 0 text) :=
  scrubFrom_eq_self_iff.mp (scrubFrom_scrubFrom w text)

theorem masked_scrub (text : String) : Masked false (scrub text).toList := by
  rw [scrub, String.toList_ofList]
  exact masked_scrubFrom false _

theorem scrub_eq_self_iff {text : String} : scrub text = text ↔ Masked false text.toList := by
  rw [← scrubFrom_eq_self_iff, ← String.toList_inj, scrub, String.toList_ofList, scrubChars]

end RegistryGate.Log
