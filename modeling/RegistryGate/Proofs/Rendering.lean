import RegistryGate.Log.Record
import RegistryGate.Proofs.Fields
import RegistryGate.Proofs.Scrubbing

/-!
# Rendered records

The text of a record is put together from stretches of its message and from what the fields of the
message write for the arguments (`Record.text_eq_stretches`). Redaction scrubs the message and the texts
among the arguments, so a credential that stands within one of these is masked in the rendered text. A
credential that only comes about by joining stretches, or that stands in a value of another kind, is not
(`scrub_rendered_iff`).
-/

namespace RegistryGate.Log

open Text

variable {w : Bool} {text rest front : List Char} {found : Sighting}

/-! ## Parts of masked texts -/

theorem Masked.of_append (masked : Masked w (front ++ rest)) : Masked (wordEnd w front) rest := by
  intro before found more same start stands
  refine masked (front ++ before) found more ?_ ?_ stands
  · rw [same, List.append_assoc]
  · rw [wordEnd_append]
    exact start

/-- A percent sign goes on with a value, but with nothing else. -/
theorem Stands.append_percent (stands : Stands found []) (rest : List Char) :
    ∃ more behind, '%' :: rest = more ++ behind ∧ Stands ⟨found.lead, found.secret ++ more⟩ behind := by
  cases stands with
  | scheme stands =>
    obtain ⟨isLead, value, noRealm⟩ := stands
    obtain ⟨more, behind, split, run⟩ := exists_run (p := isValueChar) (c := '%') (by decide) rest
    refine ⟨more, behind, split, .scheme ⟨isLead, ⟨?_, ?_, run.ends⟩, ?_⟩⟩
    · exact fun none => value.solid (List.append_eq_nil_iff.mp none).1
    · exact fun c member => (List.mem_append.mp member).elim (value.all c) (run.all c)
    · rintro bearer ⟨after, realm⟩
      rw [List.append_assoc, ← split] at realm
      have noPercent : ∀ c ∈ realmMark, (c != '%') = true := List.all_eq_true.mp (by decide)
      have inside := prefix_of_run noPercent (endsRun_cons (by decide) rest) realm
      rw [List.append_nil] at noRealm
      exact noRealm bearer inside
  | accessToken known run =>
    refine ⟨[], '%' :: rest, rfl, ?_⟩
    rw [List.append_nil]
    exact .accessToken known ⟨run.solid, run.all, endsRun_cons (by decide) rest⟩
  | webToken header_all payload_run signature_all ends =>
    refine ⟨[], '%' :: rest, rfl, ?_⟩
    rw [List.append_nil]
    exact .webToken header_all ⟨payload_run.solid, payload_run.all, endsRun_cons isSegmentChar_dot _⟩
      signature_all (endsRun_cons (by decide) rest)

/-- What is before a percent sign in a masked text is masked on its own. -/
theorem Masked.of_append_percent (masked : Masked w (front ++ '%' :: rest)) : Masked w front := by
  intro before found more same start stands
  subst same
  cases more with
  | cons c more =>
    refine masked before found (c :: more ++ '%' :: rest) ?_ start
      (stands.append (List.cons_ne_nil c more))
    simp only [List.append_assoc]
  | nil =>
    obtain ⟨value, behind, split, stands⟩ := stands.append_percent rest
    have secret := masked before ⟨found.lead, found.secret ++ value⟩ behind
      (by simp only [Sighting.written, List.append_assoc, List.append_nil, split]) start stands
    cases value with
    | nil => exact (List.append_nil found.secret).symm.trans secret
    | cons c value =>
      obtain ⟨rfl, -⟩ := List.cons.inj split
      have percent : '%' ∈ mask := secret ▸ List.mem_append_right _ List.mem_cons_self
      exact absurd percent (by decide)

/-- A blank before a masked text begins no credential. -/
theorem Masked.blank_cons (masked : Masked false text) : Masked false (' ' :: text) := by
  intro before found more same start stands
  cases before with
  | nil =>
    obtain ⟨c, tail, written, initial⟩ := stands.exists_cons
    rw [written] at same
    obtain ⟨rfl, -⟩ := List.cons.inj same
    cases initial
  | cons c before =>
    obtain ⟨rfl, behind⟩ := List.cons.inj same
    exact masked before found more behind start stands

/-- A blank behind a masked text ends no credential. -/
theorem Masked.append_blank (masked : Masked w text) : Masked w (text ++ [' ']) := by
  intro before found more same start stands
  rcases List.eq_nil_or_concat more with rfl | ⟨more, c, rfl⟩
  · obtain ⟨front, c, secret⟩ := (List.eq_nil_or_concat found.secret).resolve_left stands.secret_solid
    rw [List.concat_eq_append] at secret
    have last := congrArg List.getLast? same
    simp only [Sighting.written, secret, List.append_nil, ← List.append_assoc,
      List.getLast?_concat, Option.some.injEq] at last
    have value := stands.secret_value c (secret ▸ List.mem_append_right _ List.mem_cons_self)
    rw [← last] at value
    cases value
  · rw [List.concat_eq_append, ← List.append_assoc, ← List.append_assoc] at same
    obtain ⟨same, -⟩ := List.append_inj' same rfl
    rw [List.concat_eq_append] at stands
    exact masked before found more (same.trans (List.append_assoc ..)) start stands.of_append

theorem Masked.padded (masked : Masked false text) (first second : Nat) :
    Masked false (List.replicate first ' ' ++ text ++ List.replicate second ' ') := by
  induction second with
  | zero =>
    rw [List.replicate_zero, List.append_nil]
    induction first with
    | zero => exact masked
    | succ first ih => exact ih.blank_cons
  | succ second ih =>
    rw [List.replicate_succ', ← List.append_assoc]
    exact ih.append_blank

/-! ## Stretches -/

/-- A part of the text of a record. -/
inductive Stretch where
  /-- Characters of the message up to a field or to its end; `behindLetter` tells whether the letter of a
  field is before them. -/
  | message (behindLetter : Bool) (text : List Char)
  /-- What a field writes for an argument. -/
  | argument (filling : Filling)
  | percent

/-- The field writes a text as it is, and none of it is cut off. -/
structure Filling.ShowsText (filling : Filling) (text : String) : Prop where
  conversion : filling.conversion = .display
  value : filling.value = .text text
  uncut : ∀ precision, filling.layout.precision = some precision → text.length ≤ precision

namespace Stretch

def written : Stretch → List Char
  | message _ text => text
  | argument filling => filling.written
  | percent => ['%']

/-- The stretch stands in a text that redaction scrubs as a text. -/
def Scrubbed : Stretch → Prop
  | message .. => True
  | argument filling => ∃ text, filling.ShowsText text
  | percent => False

/-- Whether a word character is before the stretch in the text that is scrubbed. -/
def afterWordChar : Stretch → Bool
  | message behindLetter _ => behindLetter
  | _ => false

end Stretch

/-- The stretches of a template from a piece on, where the characters `run` were read since the last
field. -/
def stretches (supply : Supply) (behindLetter : Bool) (run : List Char) :
    List Piece → Except TemplateFault (List Stretch)
  | [] =>
    if supply.keyed.isNone && !supply.pending.isEmpty then .error .tooManyArguments
    else .ok [.message behindLetter run]
  | .char c :: rest => stretches supply behindLetter (run ++ [c]) rest
  | .percent :: rest => do
    return .message behindLetter run :: .percent :: (← stretches supply false [] rest)
  | .field key directive conversion :: rest => do
    let (filling, supply) ← (directive.serve conversion).run (← supply.lookUp key)
    return .message behindLetter run :: .argument filling :: (← stretches supply true [] rest)
  | .openKey :: _ => .error (if supply.keyed.isNone then .noKeys else .openKey)

/-- The stretches of a record's text. -/
def Record.stretches (record : Record) : Except TemplateFault (List Stretch) :=
  if record.arguments.isEmptyValue then .ok [.message false record.message.display.toList]
  else Log.stretches (.ofArguments record.arguments) false [] (pieces record.message.display)

theorem map_nil_append (result : Except TemplateFault (List Char)) : result.map ([] ++ ·) = result := by
  cases result <;> rfl

theorem fill_eq_stretches (supply : Supply) (behindLetter : Bool) (run : List Char)
    (pieces : List Piece) :
    (fill supply pieces).map (run ++ ·) =
      (stretches supply behindLetter run pieces).map (·.flatMap Stretch.written) := by
  induction pieces generalizing supply behindLetter run with
  | nil =>
    rw [fill, stretches]
    split
    · rfl
    · simp only [Except.map, List.flatMap_cons, List.flatMap_nil, Stretch.written]
  | cons piece rest ih =>
    -- Behind a field or a percent sign a new run begins, which is empty.
    have filled (supply : Supply) (behindLetter : Bool) :
        fill supply rest = (stretches supply behindLetter [] rest).map (·.flatMap Stretch.written) := by
      rw [← ih, map_nil_append]
    cases piece with
    | char c =>
      rw [stretches, ← ih, fill]
      cases fill supply rest with
      | error fault => rfl
      | ok text => simp only [bind, Except.bind, Except.map, pure, Except.pure, List.append_assoc,
          List.singleton_append]
    | percent =>
      rw [stretches, fill, filled supply false]
      cases stretches supply false [] rest with
      | error fault => rfl
      | ok parts => simp only [bind, Except.bind, Except.map, pure, Except.pure, List.flatMap_cons,
          Stretch.written, List.singleton_append]
    | field key directive conversion =>
      rw [stretches, fill]
      cases supply.lookUp key with
      | error fault => rfl
      | ok found =>
        simp only [bind, Except.bind]
        cases (directive.serve conversion).run found with
        | error fault => rfl
        | ok served =>
          simp only [Except.map, pure, Except.pure, filled served.2 true]
          cases stretches served.2 true [] rest with
          | error fault => rfl
          | ok parts => simp only [List.flatMap_cons, Stretch.written]
    | openKey => rfl

/-- A record's text is its stretches, one behind another. -/
theorem Record.text_eq_stretches (record : Record) :
    record.text = record.stretches.map fun parts => .ofList (parts.flatMap Stretch.written) := by
  rw [Record.text, Record.stretches]
  split
  · simp only [Except.map, List.flatMap_cons, List.flatMap_nil, Stretch.written, List.append_nil,
      String.ofList_toList]
  · rw [format, ← map_nil_append (fill _ _), fill_eq_stretches _ false]
    cases Log.stretches _ _ _ _ <;> rfl

/-! ## Arguments of a redacted record -/

/-- The value is masked if it is a text. -/
def MaskedText (value : Datum String) : Prop := ∀ text, value = .text text → Masked false text.toList

theorem maskedText_redactText (value : Datum String) : MaskedText (redactText value) := by
  cases value with
  | text value =>
    rintro _ ⟨⟩
    exact masked_scrub value
  | _ => rintro _ ⟨⟩

theorem maskedText_redactArgument (value : Datum String) : MaskedText (redactArgument value) := by
  cases value with
  | text value => exact maskedText_redactText (.text value)
  | failure value => exact maskedText_redactText (.text value)
  | _ => rintro _ ⟨⟩

/-- The texts that fields can take are masked. -/
structure Supply.MaskedTexts (supply : Supply) : Prop where
  pending : ∀ value ∈ supply.pending, MaskedText value
  keyed : ∀ entries, supply.keyed = some (.mapping entries) → ∀ entry ∈ entries, MaskedText entry.2

variable {supply left : Supply} {key : Option String} {value : Datum String}

theorem Supply.MaskedTexts.lookUp (masked : supply.MaskedTexts) (found : supply.lookUp key = .ok left) :
    left.MaskedTexts := by
  cases key with
  | none =>
    cases found
    exact masked
  | some key =>
    obtain ⟨entries, value, keyed, bound, rfl⟩ := Supply.lookUp_key_eq_ok_iff.mp found
    obtain ⟨entry, first, rfl⟩ := Option.map_eq_some_iff.mp bound
    have held := masked.keyed entries keyed entry (List.mem_of_find?_eq_some first)
    refine ⟨fun other member => ?_, masked.keyed⟩
    rw [List.mem_singleton.mp member]
    exact held

theorem Supply.MaskedTexts.of_served {conversion : Conversion} {filling : Filling}
    (masked : supply.MaskedTexts) (served : Served conversion supply filling left) : left.MaskedTexts where
  pending value member := masked.pending value (served.pending member)
  keyed entries same := masked.keyed entries (served.keyed.symm.trans same)

/-- The arguments of a log call are redacted one by one. -/
theorem maskedTexts_ofCall (message : Datum String) (arguments : List (Datum String)) :
    (Supply.ofArguments (Record.ofCall message arguments).redact.arguments).MaskedTexts := by
  unfold Record.ofCall Record.redact
  dsimp only
  split
  · rename_i entry rest
    refine ⟨fun value member => ?_, ?_⟩
    · rw [List.mem_singleton.mp member]
      rintro text ⟨⟩
    · rintro entries ⟨⟩ named member
      obtain ⟨given, -, rfl⟩ := List.mem_map.mp member
      exact maskedText_redactText given.2
  · refine ⟨fun value member => ?_, ?_⟩
    · obtain ⟨given, -, rfl⟩ := List.mem_map.mp member
      exact maskedText_redactArgument given
    · rintro entries ⟨⟩

/-! ## Stretches of a redacted record -/

/-- The letter of a field is a word character. -/
theorem isWordChar_of_ofLetter {letter : Char} (known : Conversion.ofLetter letter ≠ .unknown) :
    isWordChar letter = true := by
  unfold Conversion.ofLetter at known
  split at known
  case h_17 => exact absurd rfl known
  all_goals rfl

theorem Conversion.ne_of_read {conversion : Conversion} {operand : Operand}
    (read : conversion.read value = .ok operand) : conversion ≠ .unknown ∧ conversion ≠ .missing := by
  constructor
  · rintro rfl
    cases read
  · rintro rfl
    cases read

namespace Spot

/-- In a key a character leads on in it, or behind it. -/
theorem read_inKey (depth : Nat) (front : List Char) (c : Char) :
    (∃ depth' front', (Spot.inKey depth front).read c = (none, .inKey depth' front')) ∨
      ∃ key, (Spot.inKey depth front).read c = (none, .inDirective (some key) .flags {}) := by
  by_cases opens : c = '('
  · exact .inl ⟨depth + 1, c :: front, if_pos opens⟩
  · by_cases closes : c = ')'
    · cases depth with
      | zero => exact .inr ⟨_, (if_neg opens).trans (if_pos closes)⟩
      | succ depth => exact .inl ⟨depth, c :: front, (if_neg opens).trans (if_pos closes)⟩
    · exact .inl ⟨depth, c :: front, (if_neg opens).trans (if_neg closes)⟩

/-- In a directive a character goes on in it, or is the letter. -/
theorem readDirective_cases (key : Option String) (part : Directive.Part) (directive : Directive) (c : Char) :
    (∃ next after, directive.extend? part c = some (next, after) ∧
        readDirective key part directive c = (none, .inDirective key next after)) ∨
      readDirective key part directive c = (some (.field key directive (.ofLetter c)), .text) := by
  rw [readDirective]
  cases directive.extend? part c with
  | none => exact .inr rfl
  | some next => exact .inl ⟨next.1, next.2, rfl, rfl⟩

/-- Within a field a character leads on in it, or ends it. -/
theorem read_cases {spot : Spot} (inside : spot ≠ .text) (c : Char) :
    (∃ next, next ≠ .text ∧ spot.read c = (none, next)) ∨
      c = '%' ∧ spot.read c = (some .percent, .text) ∨
      ∃ key directive, spot.read c = (some (.field key directive (.ofLetter c)), .text) := by
  have ofDirective (key : Option String) (part : Directive.Part) (directive : Directive) :
      (∃ next, next ≠ .text ∧ readDirective key part directive c = (none, next)) ∨
        readDirective key part directive c = (some (.field key directive (.ofLetter c)), .text) := by
    rcases readDirective_cases key part directive c with ⟨next, after, -, read⟩ | letter
    · exact .inl ⟨_, Spot.noConfusion, read⟩
    · exact .inr letter
  cases spot with
  | text => exact absurd rfl inside
  | opened =>
    rw [read]
    split
    · rename_i percent
      exact .inr (.inl ⟨percent, rfl⟩)
    · split
      · exact .inl ⟨_, Spot.noConfusion, rfl⟩
      · exact (ofDirective none .flags {}).imp_right fun ends => .inr ⟨none, {}, ends⟩
  | inKey depth front =>
    rcases read_inKey depth front c with ⟨depth, front, read⟩ | ⟨key, read⟩
    · exact .inl ⟨_, Spot.noConfusion, read⟩
    · exact .inl ⟨_, Spot.noConfusion, read⟩
  | inDirective key part directive =>
    exact (ofDirective key part directive).imp_right fun ends => .inr ⟨key, directive, ends⟩

end Spot

theorem Layout.exists_written {layout : Layout} {value : List Char}
    (uncut : ∀ precision, layout.precision = some precision → value.length ≤ precision) :
    ∃ first second, layout.write (.text value) =
      List.replicate first ' ' ++ value ++ List.replicate second ' ' := by
  have whole : (layout.text value).written = value := by
    simp only [Draft.written, Layout.text, List.nil_append]
    split
    · rename_i precision given
      exact List.take_of_length_le (uncut precision given)
    · rfl
  rw [Layout.write, Layout.draft, Layout.place, whole]
  split
  · exact ⟨0, _, rfl⟩
  · rw [Layout.text, Bool.and_false, if_neg Bool.false_ne_true]
    exact ⟨_, 0, (List.append_nil _).symm⟩

/-- What a field writes for a text is masked if the text is. -/
theorem masked_of_showsText {conversion : Conversion} {filling : Filling} {text : String}
    (served : Served conversion supply filling left) (shows : filling.ShowsText text)
    (masked : MaskedText filling.value) : Masked false filling.written := by
  have read := served.read
  rw [← served.asked, shows.conversion, shows.value] at read
  have uncut : ∀ precision, filling.layout.precision = some precision → text.toList.length ≤ precision :=
    shows.uncut
  obtain ⟨first, second, written⟩ := Layout.exists_written uncut
  have operand : filling.operand = .text text.toList := (Except.ok.inj read).symm
  rw [Filling.written, operand, written]
  exact (masked text shows.value).padded first second

/-- The stretches that redaction scrubs are masked, those of the message where they stand in it. Within a
field only the rest of the template matters, and where it begins a word. -/
theorem masked_of_mem_stretches {behindLetter : Bool} {run template : List Char} {spot : Spot}
    {parts : List Stretch} (supplied : supply.MaskedTexts)
    (outside : spot = .text → Masked behindLetter (run ++ template))
    (inside : spot ≠ .text → Masked behindLetter run ∧ ∃ w, Masked w template)
    (filled : stretches supply behindLetter run (piecesFrom spot template) = .ok parts) :
    ∀ part ∈ parts, part.Scrubbed → Masked part.afterWordChar part.written := by
  induction template generalizing supply behindLetter run spot parts with
  | nil =>
    cases spot with
    | text =>
      rw [piecesFrom, Spot.rest?, Option.toList, stretches] at filled
      split at filled
      · cases filled
      · cases filled
        intro part member _
        rw [List.mem_singleton.mp member]
        rw [List.append_nil] at outside
        exact outside rfl
    | inKey depth front => cases filled
    | _ =>
      obtain ⟨found, -, filled⟩ := Json.bind_eq_ok filled
      obtain ⟨⟨filling, left⟩, served, -⟩ := Json.bind_eq_ok filled
      exact absurd rfl (Conversion.ne_of_read (served_of_ok served).read).2
  | cons c rest ih =>
    rw [piecesFrom] at filled
    by_cases field : spot = .text
    · subst field
      by_cases percent : c = '%'
      · subst percent
        refine ih supplied ?_ (fun _ => ?_) filled
        · rintro ⟨⟩
        · exact ⟨(outside rfl).of_append_percent, _, (List.append_cons .. ▸ outside rfl).of_append⟩
      · rw [Spot.read, if_neg percent] at filled
        refine ih supplied (fun _ => ?_) (absurd rfl) filled
        rw [List.append_assoc, List.singleton_append]
        exact outside rfl
    · obtain ⟨maskedRun, w, maskedRest⟩ := inside field
      have whole : Masked w ([c] ++ rest) := maskedRest
      have behind : Masked (isWordChar c) rest := whole.of_append
      rcases spot.read_cases field c with ⟨next, within, read⟩ | ⟨rfl, read⟩ | ⟨key, directive, read⟩
      · rw [read] at filled
        exact ih supplied (fun same => absurd same within) (fun _ => ⟨maskedRun, _, behind⟩) filled
      · rw [read] at filled
        obtain ⟨more, stretched, filled⟩ := Json.bind_eq_ok filled
        cases filled
        have others := ih supplied (fun _ => behind) (absurd rfl) stretched
        intro part member scrubbed
        rcases List.mem_cons.mp member with rfl | member
        · exact maskedRun
        · rcases List.mem_cons.mp member with rfl | member
          · cases scrubbed
          · exact others part member scrubbed
      · rw [read] at filled
        obtain ⟨found, lookedUp, filled⟩ := Json.bind_eq_ok filled
        obtain ⟨⟨filling, left⟩, serve_ok, filled⟩ := Json.bind_eq_ok filled
        obtain ⟨more, stretched, filled⟩ := Json.bind_eq_ok filled
        cases filled
        have served := served_of_ok serve_ok
        rw [isWordChar_of_ofLetter (Conversion.ne_of_read served.read).1] at behind
        have suppliedFound := supplied.lookUp lookedUp
        have others := ih (suppliedFound.of_served served) (fun _ => behind) (absurd rfl) stretched
        intro part member scrubbed
        rcases List.mem_cons.mp member with rfl | member
        · exact maskedRun
        · rcases List.mem_cons.mp member with rfl | member
          · obtain ⟨text, shows⟩ := scrubbed
            exact masked_of_showsText served shows (suppliedFound.pending _ served.value)
          · exact others part member scrubbed

/-! ## Rendered records -/

/-- A credential, behind the given text, stands within one stretch that redaction scrubs, where a word
can begin in the text that is scrubbed. -/
def Within (parts : List Stretch) (before : List Char) (found : Sighting) : Prop :=
  ∃ front part back start behind, parts = front ++ part :: back ∧ part.Scrubbed ∧
    before = front.flatMap Stretch.written ++ start ∧ part.written = start ++ (found.written ++ behind) ∧
    wordEnd part.afterWordChar start = false

/-- The credentials within scrubbed stretches are masked. -/
def MaskedWithin (parts : List Stretch) : Prop :=
  ∀ before found rest, parts.flatMap Stretch.written = before ++ (found.written ++ rest) →
    Stands found rest → Within parts before found → found.secret = mask

/-- All other credentials are masked: those that join stretches and those that come from other values. -/
def MaskedElsewhere (parts : List Stretch) : Prop :=
  ∀ before found rest, parts.flatMap Stretch.written = before ++ (found.written ++ rest) →
    wordEnd false before = false → Stands found rest → ¬ Within parts before found → found.secret = mask

theorem maskedWithin_of_masked {parts : List Stretch}
    (masked : ∀ part ∈ parts, part.Scrubbed → Masked part.afterWordChar part.written) :
    MaskedWithin parts := by
  rintro before found rest same stands
    ⟨front, part, back, start, behind, rfl, scrubbed, rfl, written, begins⟩
  have tail : rest = behind ++ back.flatMap Stretch.written := by
    rw [List.flatMap_append, List.flatMap_cons, written] at same
    simpa only [List.append_assoc, List.append_cancel_left_eq, eq_comm] using same
  subst tail
  exact masked part (List.mem_append_right _ List.mem_cons_self) scrubbed start found behind written
    begins stands.of_append

theorem masked_iff_maskedElsewhere {parts : List Stretch} (within : MaskedWithin parts) :
    Masked false (parts.flatMap Stretch.written) ↔ MaskedElsewhere parts := by
  constructor
  · intro masked before found rest same start stands _
    exact masked before found rest same start stands
  · intro elsewhere before found rest same start stands
    by_cases inside : Within parts before found
    · exact within before found rest same stands inside
    · exact elsewhere before found rest same start stands inside

/-- Redaction masks every stretch that it scrubs. -/
theorem masked_of_mem_recordStretches {message : String} {arguments : List (Datum String)}
    {parts : List Stretch}
    (stretched : (Record.ofCall (.text message) arguments).redact.stretches = .ok parts) :
    ∀ part ∈ parts, part.Scrubbed → Masked part.afterWordChar part.written := by
  have shown : (Record.ofCall (.text message) arguments).redact.message.display = scrub message := rfl
  rw [Record.stretches, shown] at stretched
  split at stretched
  · cases stretched
    intro part member _
    rw [List.mem_singleton.mp member]
    exact masked_scrub message
  · rw [pieces] at stretched
    refine masked_of_mem_stretches (maskedTexts_ofCall (.text message) arguments) (fun _ => ?_) (absurd rfl)
      stretched
    rw [List.nil_append]
    exact masked_scrub message

/-- The rendered text of a redacted log call whose message is a text. The credentials that stand within
one stretch of the message, or within what a field writes as text for an argument that is one, are masked,
if nothing of it is cut off. So scrubbing keeps the rendered text exactly if the other credentials in it
are masked, and always if there are no arguments. -/
theorem scrub_rendered_iff {message : String} {arguments : List (Datum String)} {rendered : String}
    (renders : (Record.ofCall (.text message) arguments).redact.text = .ok rendered) :
    ∃ parts, (Record.ofCall (.text message) arguments).redact.stretches = .ok parts ∧
      rendered.toList = parts.flatMap Stretch.written ∧ MaskedWithin parts ∧
      (scrub rendered = rendered ↔ MaskedElsewhere parts) ∧
      (arguments = [] → scrub rendered = rendered) := by
  rw [Record.text_eq_stretches] at renders
  cases stretched : (Record.ofCall (.text message) arguments).redact.stretches with
  | error fault =>
    rw [stretched] at renders
    cases renders
  | ok parts =>
    rw [stretched] at renders
    cases renders
    have within := maskedWithin_of_masked (masked_of_mem_recordStretches stretched)
    have kept : scrub (.ofList (parts.flatMap Stretch.written)) =
        .ofList (parts.flatMap Stretch.written) ↔ Masked false (parts.flatMap Stretch.written) := by
      rw [scrub_eq_self_iff, String.toList_ofList]
    refine ⟨parts, rfl, String.toList_ofList, within, kept.trans (masked_iff_maskedElsewhere within), ?_⟩
    rintro rfl
    cases stretched
    rw [kept, List.flatMap_cons, List.flatMap_nil, List.append_nil]
    exact masked_scrub message

theorem scrub_rendered_iff_of_error :
    (Record.ofCall (.text "error: %s (%d)") [.failure "Bearer tok123", .int 7]).redact.text =
        .ok "error: Bearer ***REDACTED*** (7)" ∧
      ∃ parts, (Record.ofCall (.text "error: %s (%d)") [.failure "Bearer tok123", .int 7]).redact.stretches =
          .ok parts ∧ MaskedWithin parts ∧
        (scrub "error: Bearer ***REDACTED*** (7)" = "error: Bearer ***REDACTED*** (7)" ↔
          MaskedElsewhere parts) := by
  have renders : (Record.ofCall (.text "error: %s (%d)") [.failure "Bearer tok123", .int 7]).redact.text =
      .ok "error: Bearer ***REDACTED*** (7)" := eq_ok_of_toOption (by decide +kernel)
  obtain ⟨parts, stretched, -, within, kept, -⟩ := scrub_rendered_iff renders
  exact ⟨renders, parts, stretched, within, kept⟩

/-- A credential that two arguments make together is shown. -/
theorem joined_credential_shown :
    (Record.ofCall (.text "sending %s %s") [.text "Bearer", .text "s3cret"]).redact.text =
        .ok "sending Bearer s3cret" ∧
      scrub "sending Bearer s3cret" = "sending Bearer ***REDACTED***" ∧
      scrub "sending Bearer s3cret" ≠ "sending Bearer s3cret" := by
  have scrubbed : scrub "sending Bearer s3cret" = "sending Bearer ***REDACTED***" := by decide +kernel
  refine ⟨eq_ok_of_toOption (by decide +kernel), scrubbed, ?_⟩
  rw [scrubbed]
  decide

end RegistryGate.Log
