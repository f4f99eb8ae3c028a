import RegistryGate.Proofs.Rendering

/-!
# Templates without their credentials

What redaction does to the fields of a template. A field that stands in a masked secret is lost
(`Reads.demands_masked`), and the arguments are as many as before. So a record with a text keeps to have
one if no secret holds a field that takes an argument, and if its arguments are positional only then.
Named arguments may be more than the fields ask for, but a credential may stand in a key (`Outcome`). All
this is so where credentials and fields keep apart. They may meet where a field has a blank among its flags
or a letter that begins a credential.
-/

namespace RegistryGate.Log

/-! ## Spots of a template -/

/-- The spot behind some characters. -/
def Spot.after (spot : Spot) (front : List Char) : Spot := front.foldl (fun spot c => (spot.read c).2) spot

variable {spot : Spot} {front rest : List Char}

/-- A template that ends outside all fields is read on its own. -/
theorem piecesFrom_append (ends : spot.after front = .text) (rest : List Char) :
    piecesFrom spot (front ++ rest) = piecesFrom spot front ++ piecesFrom .text rest := by
  induction front generalizing spot with
  | nil =>
    have ends : spot = .text := ends
    rw [ends]
    rfl
  | cons c front ih => rw [List.cons_append, piecesFrom, piecesFrom, ih ends, List.append_assoc]

theorem after_plain (plain : '%' ∉ front) : Spot.text.after front = .text := by
  induction front with
  | nil => rfl
  | cons c front ih =>
    rw [List.mem_cons, not_or] at plain
    have step : Spot.text.read c = (some (.char c), .text) := if_neg fun same => plain.1 same.symm
    rw [Spot.after, List.foldl_cons, step]
    exact ih plain.2

theorem after_append (spot : Spot) (front rest : List Char) :
    spot.after (front ++ rest) = (spot.after front).after rest := List.foldl_append

theorem demands_plain (plain : '%' ∉ front) : demands (piecesFrom .text front) = [] := by
  induction front with
  | nil => rfl
  | cons c front ih =>
    rw [List.mem_cons, not_or] at plain
    have step : Spot.text.read c = (some (.char c), .text) := if_neg fun same => plain.1 same.symm
    rw [piecesFrom, step]
    exact ih plain.2

theorem demands_plain_append (plain : '%' ∉ front) (rest : List Char) :
    demands (piecesFrom .text (front ++ rest)) = demands (piecesFrom .text rest) := by
  rw [piecesFrom_append (after_plain plain), demands_append, demands_plain plain, List.nil_append]

/-! ## Redacted arguments -/

variable {supply : Supply} {parts : List Piece} {named value : Datum String}

theorem sighting?_singleton (c : Char) : sighting? [c] = none := by
  cases initial : isInitial c with
  | false => exact sighting?_of_head initial []
  | true =>
    simp only [isInitial, Bool.or_eq_true, beq_iff_eq] at initial
    rcases initial with ((rfl | rfl) | rfl) | rfl <;> decide

theorem Reads.masked_eq_nil_iff {w : Bool} {text : List Char} {marks : List Mark}
    (reads : Reads w text marks) : marks.flatMap Mark.masked = [] ↔ text = [] := by
  cases reads with
  | done => exact Iff.rfl
  | char => exact ⟨by rintro ⟨⟩, by rintro ⟨⟩⟩
  | credential same stands =>
    obtain ⟨c, tail, written, -⟩ := stands.exists_cons
    rw [same, written, List.flatMap_cons, Mark.masked, List.append_assoc]
    exact ⟨fun none => absurd (List.append_eq_nil_iff.mp (List.append_eq_nil_iff.mp none).2).1 (by decide),
      by rintro ⟨⟩⟩

/-- A text of one character is no credential, and no masked one is so short. -/
theorem scrub_eq_singleton_iff {text : String} {c : Char} :
    (scrub text).toList = [c] ↔ text.toList = [c] := by
  obtain ⟨marks, reads⟩ := exists_reads false text.toList
  rw [scrub, String.toList_ofList, scrubChars, reads.scrubFrom_eq]
  generalize text.toList = chars at reads
  cases reads with
  | done => rfl
  | char plain behind =>
    simp only [List.flatMap_cons, Mark.masked, List.singleton_append, List.cons.injEq,
      behind.masked_eq_nil_iff]
  | credential same stands behind =>
    constructor
    · intro one
      have short := congrArg List.length one
      have long : mask.length = 14 := rfl
      simp only [List.flatMap_cons, Mark.masked, List.length_append, List.length_singleton, long] at short
      omega
    · rintro rfl
      have seen := sighting?_eq_some_iff.mpr ⟨_, same, stands⟩
      rw [sighting?_singleton] at seen
      cases seen

theorem writes_text_iff {conversion : Conversion} {text : String} :
    conversion.Writes (.text text) ↔
      conversion = .display ∨ conversion = .shown ∨ conversion = .ascii ∨
        conversion = .character ∧ ∃ c, text.toList = [c] := by
  have numeric {fault : TemplateFault} (fails : conversion.read (.text text) = .error fault) :
      ¬ conversion.Writes (.text text) := by
    rintro ⟨operand, read⟩
    rw [fails] at read
    cases read
  cases conversion with
  | display => exact ⟨fun _ => .inl rfl, fun _ => ⟨_, rfl⟩⟩
  | shown => exact ⟨fun _ => .inr (.inl rfl), fun _ => ⟨_, rfl⟩⟩
  | ascii => exact ⟨fun _ => .inr (.inr (.inl rfl)), fun _ => ⟨_, rfl⟩⟩
  | character =>
    simp only [Conversion.Writes, Conversion.read, singleCharacter, reduceCtorEq, true_and, false_or]
    split
    · rename_i c same
      exact ⟨fun _ => ⟨c, same⟩, fun _ => ⟨.character c, rfl⟩⟩
    · rename_i longer
      exact ⟨by rintro ⟨_, ⟨⟩⟩, fun ⟨c, same⟩ => absurd same (longer c)⟩
  | integer base =>
    have fails : (Conversion.integer base).read (.text text) = .error .notNumeric := by cases base <;> rfl
    simpa only [reduceCtorEq, false_and, or_self, iff_false] using numeric fails
  | real style upper => simpa only [reduceCtorEq, false_and, or_self, iff_false] using numeric rfl
  | unknown => simpa only [reduceCtorEq, false_and, or_self, iff_false] using numeric rfl
  | missing => simpa only [reduceCtorEq, false_and, or_self, iff_false] using numeric rfl

theorem takes_redactText (taker : Taker) (value : Datum String) :
    taker.Takes (redactText value) ↔ taker.Takes value := by
  cases value with
  | text text =>
    cases taker with
    | never => exact Iff.rfl
    | extent limit => exact Iff.rfl
    | value conversion =>
      show conversion.Writes (.text (scrub text)) ↔ conversion.Writes (.text text)
      simp only [writes_text_iff, scrub_eq_singleton_iff]
  | _ => exact Iff.rfl

/-- An exception is written as a text by the conversions to one, and by no others. -/
theorem writes_text_of_failure {conversion : Conversion} {text other : String}
    (writes : conversion.Writes (.failure text)) : conversion.Writes (.text other) := by
  obtain ⟨operand, read⟩ := writes
  cases conversion with
  | display => exact ⟨_, rfl⟩
  | shown => exact ⟨_, rfl⟩
  | ascii => exact ⟨_, rfl⟩
  | integer base => cases base <;> cases read
  | _ => cases read

theorem Taker.Takes.redactArgument {taker : Taker} (takes : taker.Takes value) :
    taker.Takes (redactArgument value) := by
  cases value with
  | text text => exact (takes_redactText taker (.text text)).mpr takes
  | failure text =>
    cases taker with
    | never => exact takes
    | extent limit =>
      obtain ⟨count, ⟨⟩⟩ := takes
    | value conversion => exact writes_text_of_failure takes
  | _ => exact takes

/-- A mapping is written whatever its values are. -/
theorem takes_mapping_iff (taker : Taker) (first second : List (String × Datum String)) :
    taker.Takes (.mapping first) ↔ taker.Takes (.mapping second) := by
  cases taker with
  | never => exact Iff.rfl
  | extent limit => exact Iff.rfl
  | value conversion =>
    cases conversion with
    | display => exact ⟨fun _ => ⟨_, rfl⟩, fun _ => ⟨_, rfl⟩⟩
    | shown => exact ⟨fun _ => ⟨_, rfl⟩, fun _ => ⟨_, rfl⟩⟩
    | ascii => exact ⟨fun _ => ⟨_, rfl⟩, fun _ => ⟨_, rfl⟩⟩
    | integer base => cases base <;> exact ⟨by rintro ⟨_, ⟨⟩⟩, by rintro ⟨_, ⟨⟩⟩⟩
    | _ => exact ⟨by rintro ⟨_, ⟨⟩⟩, by rintro ⟨_, ⟨⟩⟩⟩

theorem finds_redactArguments (piece : Piece) (named : Datum String) :
    Finds (redactArguments named) piece ↔ Finds named piece := by
  cases named with
  | mapping entries =>
    have bound (key : String) : Entries.get? (entries.map fun entry => (entry.1, redactText entry.2)) key =
        (Entries.get? entries key).map redactText := Entries.get?_map entries (fun _ => redactText) key
    have takes (takers : List Taker) (value : Datum String) :
        List.Forall₂ Taker.Takes takers [redactText value] ↔ List.Forall₂ Taker.Takes takers [value] := by
      simp only [List.forall₂_cons_right_iff, takes_redactText]
    constructor
    · rintro ⟨key, directive, conversion, _, value, rfl, ⟨⟩, found, served⟩
      obtain ⟨given, first, rfl⟩ := Option.map_eq_some_iff.mp ((bound key).symm.trans found)
      exact ⟨key, directive, conversion, entries, given, rfl, rfl, first, (takes _ _).mp served⟩
    · rintro ⟨key, directive, conversion, _, value, rfl, ⟨⟩, found, served⟩
      refine ⟨key, directive, conversion, _, redactText value, rfl, rfl, ?_, (takes _ _).mpr served⟩
      rw [bound, found]
      rfl
  | _ => exact ⟨by rintro ⟨_, _, _, _, _, _, ⟨⟩, _⟩, by rintro ⟨_, _, _, _, _, _, ⟨⟩, _⟩⟩

theorem serves_redactArguments {entries : List (String × Datum String)} {demanded : List Piece} :
    Serves (redactArguments (.mapping entries)) demanded ↔ Serves (.mapping entries) demanded := by
  have takes (piece : Piece) :
      List.Forall₂ Taker.Takes piece.takers [redactArguments (.mapping entries)] ↔
        List.Forall₂ Taker.Takes piece.takers [.mapping entries] := by
    simp only [List.forall₂_cons_right_iff, redactArguments, takes_mapping_iff _ (entries.map _) entries]
  simp only [Serves, finds_redactArguments, takes]

/-- Whether named arguments fill a template is no matter of redaction. -/
theorem fills_redactArguments_iff {arguments : Datum String}
    (keyed : (Supply.ofArguments arguments).keyed = some named) :
    Fills (.ofArguments (redactArguments arguments)) parts ↔ Fills (.ofArguments arguments) parts := by
  cases arguments with
  | mapping entries => exact fills_serves_iff.trans (serves_redactArguments.trans fills_serves_iff.symm)
  | tuple items => cases keyed
  | _ => exact Iff.rfl

/-- Redacted arguments fill what the arguments do. They may fill more, as an exception becomes a text. -/
theorem Fills.redactArguments {arguments : Datum String} (fills : Fills (.ofArguments arguments) parts) :
    Fills (.ofArguments (redactArguments arguments)) parts := by
  cases arguments with
  | mapping entries => exact (fills_redactArguments_iff rfl).mpr fills
  | tuple items =>
    refine fills_positional_iff.mpr (List.forall₂_map_right_iff.mpr ?_)
    exact (fills_positional_iff.mp fills).imp fun taker value takes => takes.redactArgument
  | _ => exact fills

/-! ## Fields and credentials -/

/-- From a spot on, the credentials of a template begin and end outside its fields. -/
def Apart : Spot → List Mark → Prop
  | _, [] => True
  | spot, .char c :: marks => Apart (spot.read c).2 marks
  | spot, .credential found :: marks =>
    spot = .text ∧ Spot.text.after found.written = .text ∧ Apart .text marks

/-- The demands that are lost with the secrets. -/
def lost : List Mark → List Piece
  | [] => []
  | .char _ :: marks => lost marks
  | .credential found :: marks => demands (piecesFrom .text found.secret) ++ lost marks

variable {w : Bool} {text : List Char} {marks : List Mark} {found : Sighting}

theorem Stands.percent_not_mem_lead (stands : Stands found rest) : '%' ∉ found.lead := by
  rcases stands.lead_cases with noLead | ⟨-, scheme⟩
  · rw [noLead]
    exact List.not_mem_nil
  · exact scheme.isLead.not_mem (by decide) (by decide) (by decide)

theorem percent_not_mem_mask : '%' ∉ mask := by decide

/-- When a text is scrubbed whose credentials keep apart from its fields, what it demands comes apart into
what it demands then and what is lost with the secrets. -/
theorem Reads.demands_masked (reads : Reads w text marks) (apart : Apart spot marks) :
    (demands (piecesFrom spot (marks.flatMap Mark.masked))).Sublist (demands (piecesFrom spot text)) ∧
      (demands (piecesFrom spot text)).Perm
        (demands (piecesFrom spot (marks.flatMap Mark.masked)) ++ lost marks) := by
  induction reads generalizing spot with
  | done =>
    rw [lost, List.append_nil]
    exact ⟨List.Sublist.refl _, List.Perm.refl _⟩
  | char plain behind ih =>
    rename_i w c rest marks
    obtain ⟨sub, perm⟩ := ih apart
    rw [List.flatMap_cons, Mark.masked, List.singleton_append, piecesFrom, piecesFrom,
      demands_append, demands_append, lost, List.append_assoc]
    exact ⟨sub.append_left _, perm.append_left _⟩
  | credential same stands behind ih =>
    rename_i text rest found marks
    obtain ⟨rfl, ends, apart⟩ := apart
    obtain ⟨sub, perm⟩ := ih apart
    have noPercent := stands.percent_not_mem_lead
    have secretEnds : Spot.text.after found.secret = .text := by
      rw [Sighting.written, after_append, after_plain noPercent] at ends
      exact ends
    have given : demands (piecesFrom .text text) =
        demands (piecesFrom .text found.secret) ++ demands (piecesFrom .text rest) := by
      rw [same, Sighting.written, List.append_assoc, demands_plain_append noPercent,
        piecesFrom_append secretEnds, demands_append]
    have masked : demands (piecesFrom .text ((Mark.credential found :: marks).flatMap Mark.masked)) =
        demands (piecesFrom .text (marks.flatMap Mark.masked)) := by
      rw [List.flatMap_cons, Mark.masked, List.append_assoc, demands_plain_append noPercent,
        demands_plain_append percent_not_mem_mask]
    rw [given, masked, lost]
    refine ⟨sub.trans (List.sublist_append_right _ _), (perm.append_left _).trans ?_⟩
    exact List.perm_append_comm_assoc ..

/-! ## Tight fields -/

/-- No credential begins or ends within the field: it has no blank among its flags, and not a letter that
begins a credential. -/
def Piece.IsTight : Piece → Prop
  | .field _ directive conversion =>
    directive.blank = false ∧ conversion ≠ .real .exponential false ∧ conversion ≠ .real .general false
  | _ => True

/-- The piece is a tight field without a key, whose letter is known. -/
def Piece.IsBare (piece : Piece) : Prop :=
  piece.IsTight ∧ ∃ directive conversion, piece = .field none directive conversion ∧
    conversion ≠ .missing ∧ conversion ≠ .unknown

/-- All that the pieces demand are arguments for bare fields. -/
def Bare (parts : List Piece) : Prop := ∀ piece ∈ demands parts, piece.IsBare

namespace Directive

variable {directive after : Directive} {part next : Part} {c : Char}

/-- A character that no credential begins with, and that values may have. -/
def IsInner (c : Char) : Prop := isInitial c = false ∧ isValueChar c = true

instance : DecidablePred IsInner := fun _ => inferInstanceAs (Decidable (_ ∧ _))

theorem isInner_of_digit? {digit : Nat} (digits : digit? c = some digit) : IsInner c := by
  unfold digit? at digits
  split at digits
  · rename_i bounds
    have low : 0x30 ≤ c.toNat := bounds.1
    have high : c.toNat ≤ 0x39 := bounds.2
    have all : ∀ code < 0x3a, 0x30 ≤ code → IsInner (Char.ofNat code) := by decide
    have inner := all c.toNat (by omega) low
    rwa [Char.ofNat_toNat] at inner
  · cases digits

theorem flag?_cases (flagged : directive.flag? c = some after) :
    c = ' ' ∧ after.blank = true ∨ IsInner c ∧ after.blank = directive.blank := by
  unfold flag? at flagged
  split at flagged
  case h_3 =>
    cases flagged
    exact .inl ⟨rfl, rfl⟩
  case h_6 => cases flagged
  all_goals
    cases flagged
    exact .inr ⟨by decide, rfl⟩

/-- Where the step goes on in the directive, it does so with an inner character and leaves the flag for a
blank as it is. -/
def Inward (directive : Directive) (c : Char) (step : Option (Part × Directive)) : Prop :=
  ∀ next after, step = some (next, after) → IsInner c ∧ after.blank = directive.blank

theorem Inward.or {first second : Option (Part × Directive)} (one : Inward directive c first)
    (two : Inward directive c second) : Inward directive c (first.or second) := by
  intro next after goes
  rcases Option.or_eq_some_iff.mp goes with goes | ⟨-, goes⟩
  · exact one next after goes
  · exact two next after goes

theorem inward_of_digit (part : Part) (change : Nat → Directive)
    (same : ∀ digit, (change digit).blank = directive.blank) :
    Inward directive c ((digit? c).map fun digit => (part, change digit)) := by
  intro next after goes
  obtain ⟨digit, digits, ⟨⟩⟩ := Option.map_eq_some_iff.mp goes
  exact ⟨isInner_of_digit? digits, same digit⟩

theorem inward_of_char {p : Prop} [Decidable p] (inner : p → IsInner c) (part : Part)
    (same : after.blank = directive.blank) :
    Inward directive c (if p then some (part, after) else none) := by
  intro next after goes
  obtain ⟨holds, ⟨⟩⟩ := Option.ite_none_right_eq_some.mp goes
  exact ⟨inner holds, same⟩

theorem inward_size (directive : Directive) (c : Char) : Inward directive c (directive.size? c) := by
  refine inward_of_char (fun letter => ?_) .size rfl
  rcases letter with rfl | rfl | rfl
  all_goals decide

theorem inward_point (directive : Directive) (c : Char) : Inward directive c (directive.point? c) :=
  inward_of_char (by rintro rfl; decide) .point rfl

theorem inward_width (directive : Directive) (c : Char) : Inward directive c (directive.widthDigit? c) :=
  inward_of_digit .width _ fun _ => rfl

/-- A character goes on in a directive as a blank among its flags or as an inner character. -/
theorem extend?_cases (goes : directive.extend? part c = some (next, after)) :
    c = ' ' ∧ after.blank = true ∨ IsInner c ∧ after.blank = directive.blank := by
  have behindWidth := (inward_point directive c).or (inward_size directive c)
  have behindFlags := (inward_width directive c).or behindWidth
  cases part with
  | flags =>
    rcases Option.or_eq_some_iff.mp goes with flagged | ⟨-, goes⟩
    · obtain ⟨_, flagged, ⟨⟩⟩ := Option.map_eq_some_iff.mp flagged
      exact flag?_cases flagged
    · have asterisk : Inward directive c (directive.widthAsterisk? c) :=
        inward_of_char (by rintro rfl; decide) .widthTaken rfl
      exact .inr (asterisk.or behindFlags next after goes)
  | width => exact .inr (behindFlags next after goes)
  | widthTaken => exact .inr (behindWidth next after goes)
  | point =>
    have asterisk : Inward directive c (directive.precisionAsterisk? c) :=
      inward_of_char (by rintro rfl; decide) .precisionTaken rfl
    have digit : Inward directive c (directive.precisionDigit? c) :=
      inward_of_digit .precision _ fun _ => rfl
    exact .inr (asterisk.or (digit.or (inward_size directive c)) next after goes)
  | precision =>
    have digit : Inward directive c (directive.precisionDigit? c) :=
      inward_of_digit .precision _ fun _ => rfl
    exact .inr (digit.or (inward_size directive c) next after goes)
  | precisionTaken => exact .inr (inward_size directive c next after goes)
  | size => cases goes

end Directive

/-- Whether no bare field comes of the spot: it has a key, or a blank among its flags. -/
def Spot.IsSpoilt : Spot → Prop
  | .text => False
  | .opened => False
  | .inKey .. => True
  | .inDirective key _ directive => key.isSome = true ∨ directive.blank = true

theorem Spot.IsSpoilt.not_bare (spoilt : spot.IsSpoilt) (text : List Char) :
    ¬ Bare (piecesFrom spot text) := by
  have ofField {key : Option String} {directive : Directive} (conversion : Conversion)
      (spoilt : key.isSome = true ∨ directive.blank = true) :
      ¬ (Piece.field key directive conversion).IsBare := by
    rintro ⟨⟨noBlank, -⟩, _, _, ⟨⟩, -⟩
    rcases spoilt with ⟨⟨⟩⟩ | blank
    rw [blank] at noBlank
    cases noBlank
  induction text generalizing spot with
  | nil =>
    intro bare
    cases spot with
    | text => exact spoilt
    | opened => exact spoilt
    | inKey depth front =>
      obtain ⟨-, _, _, ⟨⟩, -⟩ := bare .openKey List.mem_cons_self
    | inDirective key part directive =>
      exact ofField .missing spoilt (bare (.field key directive .missing) List.mem_cons_self)
  | cons c rest ih =>
    intro bare
    cases spot with
    | text => exact spoilt
    | opened => exact spoilt
    | inKey depth front =>
      rw [piecesFrom] at bare
      rcases Spot.read_inKey depth front c with ⟨depth, front, read⟩ | ⟨key, read⟩
      · have still : (Spot.inKey depth front).IsSpoilt := trivial
        rw [read] at bare
        exact ih still bare
      · have still : (Spot.inDirective (some key) .flags {}).IsSpoilt := .inl rfl
        rw [read] at bare
        exact ih still bare
    | inDirective key part directive =>
      rw [piecesFrom, Spot.read] at bare
      rcases Spot.readDirective_cases key part directive c with ⟨next, after, goes, read⟩ | letter
      · have still : (Spot.inDirective key next after).IsSpoilt := by
          rcases Directive.extend?_cases goes with ⟨-, blank⟩ | ⟨-, same⟩
          · exact .inr blank
          · exact spoilt.imp_right same.trans
        rw [read] at bare
        exact ih still bare
      · rw [letter] at bare
        exact ofField _ spoilt (bare _ List.mem_cons_self)

theorem not_bare_inKey (depth : Nat) (front text : List Char) :
    ¬ Bare (piecesFrom (.inKey depth front) text) :=
  have spoilt : (Spot.inKey depth front).IsSpoilt := trivial
  spoilt.not_bare text

theorem not_bare_inDirective {key : Option String} {directive : Directive}
    (spoilt : key.isSome = true ∨ directive.blank = true) (part : Directive.Part) (text : List Char) :
    ¬ Bare (piecesFrom (.inDirective key part directive) text) :=
  have spoilt : (Spot.inDirective key part directive).IsSpoilt := spoilt
  spoilt.not_bare text

theorem Bare.next {c : Char} (bare : Bare (piecesFrom spot (c :: rest))) :
    Bare (piecesFrom (spot.read c).2 rest) := by
  intro piece member
  refine bare piece ?_
  rw [piecesFrom, demands_append]
  exact List.mem_append_right _ member

theorem Bare.after (bare : Bare (piecesFrom spot (front ++ rest))) :
    Bare (piecesFrom (spot.after front) rest) := by
  induction front generalizing spot with
  | nil => exact bare
  | cons c front ih => exact ih bare.next

theorem isInner_of_ofLetter {key : Option String} {directive : Directive} {c : Char}
    (bare : (Piece.field key directive (.ofLetter c)).IsBare) : Directive.IsInner c := by
  obtain ⟨⟨-, noExponential, noGeneral⟩, _, _, ⟨⟩, -, known⟩ := bare
  unfold Conversion.ofLetter at noExponential noGeneral known
  split at known
  case h_10 => exact absurd rfl noExponential
  case h_14 => exact absurd rfl noGeneral
  case h_17 => exact absurd rfl known
  all_goals decide

/-- Within a bare field there are inner characters only. -/
theorem Bare.inside {c : Char} (bare : Bare (piecesFrom spot (c :: rest))) (inside : spot ≠ .text) :
    Directive.IsInner c := by
  have ofDirective (part : Directive.Part) (directive : Directive)
      (read : spot.read c = Spot.readDirective none part directive c) : Directive.IsInner c := by
    rcases Spot.readDirective_cases none part directive c with ⟨next, after, goes, went⟩ | letter
    · have later := bare.next
      rw [read, went] at later
      rcases Directive.extend?_cases goes with ⟨-, blank⟩ | ⟨inner, -⟩
      · exact absurd later (not_bare_inDirective (.inr blank) next rest)
      · exact inner
    · rw [piecesFrom, read, letter] at bare
      exact isInner_of_ofLetter (bare _ List.mem_cons_self)
  cases spot with
  | text => exact absurd rfl inside
  | opened =>
    by_cases percent : c = '%'
    · subst percent
      decide
    · by_cases opens : c = '('
      · subst opens
        decide
      · exact ofDirective .flags {} ((if_neg percent).trans (if_neg opens))
  | inKey depth front => exact absurd bare (not_bare_inKey depth front _)
  | inDirective key part directive =>
    cases key with
    | some key => exact absurd bare (not_bare_inDirective (.inl rfl) part _)
    | none => exact ofDirective part directive rfl

/-- A bare field does not end with the template. -/
theorem Bare.eq_text (bare : Bare (piecesFrom spot [])) : spot = .text := by
  cases spot with
  | text => rfl
  | inKey depth front => exact absurd bare (not_bare_inKey depth front [])
  | _ =>
    obtain ⟨-, _, _, ⟨⟩, known, -⟩ := bare _ List.mem_cons_self
    exact absurd rfl known

/-- A secret goes on as a value does, or has no percent sign. -/
theorem Stands.secret_cases (stands : Stands found rest) :
    EndsRun isValueChar rest ∨ '%' ∉ found.secret := by
  cases stands with
  | scheme stands => exact .inl stands.value.ends
  | accessToken known run =>
    refine .inr fun member => ?_
    rcases List.mem_append.mp member with inMark | inBody
    · exact absurd (isTokenChar_of_mem_tokenMark known inMark) (by decide)
    · exact absurd (run.all _ inBody) (by decide)
  | webToken header_all payload_run signature_all ends =>
    refine .inr fun member => ?_
    have noSegment : ¬ isSegmentChar '%' = true := by decide
    simp only [List.mem_append, List.mem_cons, Char.reduceEq, false_or] at member
    rcases member with ((inMark | inHeader) | inPayload) | inSignature
    · exact noSegment (webTokenMark_segment _ inMark)
    · exact noSegment (header_all _ inHeader)
    · exact noSegment (payload_run.all _ inPayload)
    · exact noSegment (signature_all _ inSignature)

/-- Where all fields are bare, credentials keep apart from them. -/
theorem Reads.apart_of_bare (reads : Reads w text marks) (bare : Bare (piecesFrom spot text)) :
    Apart spot marks := by
  induction reads generalizing spot with
  | done => trivial
  | char plain behind ih => exact ih bare.next
  | credential same stands behind ih =>
    rename_i text rest found marks
    obtain ⟨c, tail, written, initial⟩ := stands.exists_cons
    have begins : spot = .text := by
      by_contra inside
      rw [same, written] at bare
      have inner := (bare.inside inside).1
      rw [initial] at inner
      cases inner
    subst begins
    rw [same] at bare
    have later := bare.after
    have ends : Spot.text.after found.written = .text := by
      by_contra inside
      rcases stands.secret_cases with value | noPercent
      · cases rest with
        | nil => exact inside later.eq_text
        | cons d rest =>
          have inner := (later.inside inside).2
          rw [value d rfl] at inner
          cases inner
      · rw [Sighting.written, after_append, after_plain stands.percent_not_mem_lead] at inside
        exact inside (after_plain noPercent)
    rw [ends] at later
    exact ⟨rfl, ends, ih later⟩

/-! ## Redacted records -/

/-- The record has a text. -/
def Record.Renders (record : Record) : Prop := ∃ text, record.text = .ok text

theorem isEmptyValue_redactArguments (arguments : Datum String) :
    (redactArguments arguments).isEmptyValue = arguments.isEmptyValue := by
  cases arguments with
  | tuple items => exact List.isEmpty_map
  | mapping entries => exact List.isEmpty_map
  | _ => rfl

theorem Record.renders_iff (record : Record) :
    record.Renders ↔ record.arguments.isEmptyValue = true ∨
      Fills (.ofArguments record.arguments) (pieces record.message.display) := by
  unfold Record.Renders Fills Record.text format
  cases record.arguments.isEmptyValue with
  | true => exact ⟨fun _ => .inl rfl, fun _ => ⟨_, rfl⟩⟩
  | false =>
    simp only [Bool.false_eq_true, if_false, false_or]
    cases fill (.ofArguments record.arguments) (pieces record.message.display) <;> simp [Except.map]

theorem Record.renders_redact_iff (record : Record) :
    record.redact.Renders ↔ record.arguments.isEmptyValue = true ∨
      Fills (.ofArguments (redactArguments record.arguments))
        (pieces (redactText record.message).display) := by
  rw [Record.renders_iff, Record.redact, isEmptyValue_redactArguments]

theorem ofArguments_cases (arguments : Datum String) :
    (∃ pending, Supply.ofArguments arguments = ⟨pending, none⟩) ∨
      Supply.ofArguments arguments = ⟨[arguments], some arguments⟩ := by
  cases arguments with
  | mapping entries => exact .inr rfl
  | list items => exact .inr rfl
  | bytes value => exact .inr rfl
  | _ => exact .inl ⟨_, rfl⟩

theorem ofArguments_of_keyed {arguments : Datum String}
    (keyed : (Supply.ofArguments arguments).keyed = some named) :
    Supply.ofArguments arguments = ⟨[named], some named⟩ := by
  rcases ofArguments_cases arguments with ⟨pending, positional⟩ | given
  · rw [positional] at keyed
    cases keyed
  · rw [given] at keyed
    cases keyed
    exact given

/-- Redaction leaves positional arguments positional, as many as they are. -/
theorem ofArguments_redactArguments {arguments : Datum String}
    (keyless : (Supply.ofArguments arguments).keyed = none) :
    (Supply.ofArguments (redactArguments arguments)).keyed = none ∧
      (Supply.ofArguments (redactArguments arguments)).pending.length =
        (Supply.ofArguments arguments).pending.length := by
  cases arguments with
  | tuple items => exact ⟨rfl, List.length_map ..⟩
  | mapping entries => cases keyless
  | list items => cases keyless
  | bytes value => cases keyless
  | _ => exact ⟨rfl, rfl⟩

theorem fills_of_keyless {arguments : Datum String}
    (keyless : (Supply.ofArguments arguments).keyed = none) :
    Fills (.ofArguments arguments) parts ↔
      List.Forall₂ Taker.Takes (parts.flatMap Piece.takers) (Supply.ofArguments arguments).pending := by
  rcases ofArguments_cases arguments with ⟨pending, positional⟩ | keyed
  · rw [positional]
    exact fills_positional_iff
  · rw [keyed] at keyless
    cases keyless

/-- Each demand of a template that takes arguments by their position is a field that is known. -/
theorem unnamed_of_takes {piece : Piece} {given : List (Datum String)}
    (demand : piece.isDemand = true) (takes : List.Forall₂ Taker.Takes piece.takers given) :
    ∃ directive conversion, piece = .field none directive conversion ∧ conversion ≠ .missing ∧
      conversion ≠ .unknown := by
  cases piece with
  | char c => cases demand
  | percent => cases demand
  | openKey => exact absurd takes not_takes_never
  | field key directive conversion =>
    cases key with
    | some key => exact absurd takes not_takes_never
    | none =>
      obtain ⟨_, others, -, -, behindWidth⟩ := forall₂_append_iff.mp takes
      obtain ⟨_, last, -, -, written⟩ := forall₂_append_iff.mp behindWidth
      cases written with
      | cons writes _ =>
        obtain ⟨operand, read⟩ := writes
        exact ⟨directive, conversion, rfl, (Conversion.ne_of_read read).symm⟩

/-- The part of a template that a piece takes arguments for. -/
theorem exists_takes_of_mem {piece : Piece} {given : List (Datum String)} (member : piece ∈ parts)
    (takes : List.Forall₂ Taker.Takes (parts.flatMap Piece.takers) given) :
    ∃ own, List.Forall₂ Taker.Takes piece.takers own := by
  obtain ⟨front, back, rfl⟩ := List.append_of_mem member
  rw [List.flatMap_append, List.flatMap_cons] at takes
  obtain ⟨_, _, rfl, -, takes⟩ := forall₂_append_iff.mp takes
  obtain ⟨own, _, rfl, takes, -⟩ := forall₂_append_iff.mp takes
  exact ⟨own, takes⟩

/-- Only a mapping fills fields with keys. -/
theorem bare_of_fills {arguments : Datum String} (noMapping : ∀ entries, arguments ≠ .mapping entries)
    (tight : ∀ piece ∈ parts, piece.IsTight) (fills : Fills (.ofArguments arguments) parts) :
    Bare parts := by
  intro piece member
  obtain ⟨inside, demand⟩ := List.mem_filter.mp member
  refine ⟨tight piece inside, ?_⟩
  rcases ofArguments_cases arguments with ⟨pending, positional⟩ | keyed
  · rw [positional, fills_positional_iff] at fills
    obtain ⟨own, takes⟩ := exists_takes_of_mem inside fills
    exact unnamed_of_takes demand takes
  · rw [keyed, fills_serves_iff] at fills
    obtain ⟨first, others, joined, whole, finds⟩ := fills
    rw [joined] at member
    rcases List.mem_append.mp member with inFirst | inOthers
    · rcases whole with rfl | ⟨only, rfl, takes⟩
      · cases inFirst
      · rw [List.mem_singleton.mp inFirst] at demand ⊢
        exact unnamed_of_takes demand takes
    · obtain ⟨_, _, _, entries, _, _, mapping, _⟩ := finds piece inOthers
      exact absurd mapping (noMapping entries)

theorem eq_nil_of_takers_eq_nil (none : (lost marks).flatMap Piece.takers = []) : lost marks = [] := by
  have demand : ∀ piece ∈ lost marks, piece.isDemand = true := by
    induction marks with
    | nil => exact fun piece member => absurd member List.not_mem_nil
    | cons mark marks ih =>
      cases mark with
      | char c => exact ih none
      | credential found =>
        rw [lost, List.flatMap_append, List.append_eq_nil_iff] at none
        intro piece member
        rcases List.mem_append.mp member with inSecret | later
        · exact (List.mem_filter.mp inSecret).2
        · exact ih none.2 piece later
  refine List.eq_nil_iff_forall_not_mem.mpr fun piece member => ?_
  exact Piece.takers_ne_nil (demand piece member) (List.flatMap_eq_nil_iff.mp none piece member)

theorem pieces_scrub {message : String} (reads : Reads false message.toList marks) :
    pieces (scrub message) = piecesFrom .text (marks.flatMap Mark.masked) := by
  rw [pieces, scrub, String.toList_ofList, scrubChars, reads.scrubFrom_eq]

/-- The message of the record is a template, which is read as the given marks. -/
structure Record.HasTemplate (record : Record) (message : String) (marks : List Mark) : Prop where
  solid : record.arguments.isEmptyValue = false
  shown : record.message = .text message
  reads : Reads false message.toList marks

namespace Record.HasTemplate

variable {record : Record} {message : String}

theorem fills (template : record.HasTemplate message marks) (renders : record.Renders) :
    Fills (.ofArguments record.arguments) (pieces message) := by
  rcases record.renders_iff.mp renders with empty | fills
  · rw [template.solid] at empty
    cases empty
  · rw [template.shown] at fills
    exact fills

theorem renders_redact (template : record.HasTemplate message marks) :
    record.redact.Renders ↔
      Fills (.ofArguments (redactArguments record.arguments)) (pieces (scrub message)) := by
  have shown : (redactText record.message).display = scrub message := by
    rw [template.shown]
    rfl
  rw [record.renders_redact_iff, template.solid, shown]
  simp only [Bool.false_eq_true, false_or]

theorem apart (template : record.HasTemplate message marks) (renders : record.Renders)
    (noMapping : ∀ entries, record.arguments ≠ .mapping entries)
    (tight : ∀ piece ∈ pieces message, piece.IsTight) : Apart .text marks :=
  template.reads.apart_of_bare (bare_of_fills noMapping tight (template.fills renders))

theorem renders_redact_keyless (template : record.HasTemplate message marks)
    (keyless : (Supply.ofArguments record.arguments).keyed = none) :
    record.redact.Renders ↔ List.Forall₂ Taker.Takes ((pieces (scrub message)).flatMap Piece.takers)
      (Supply.ofArguments (redactArguments record.arguments)).pending := by
  rw [template.renders_redact, fills_of_keyless (ofArguments_redactArguments keyless).1]

/-- Positional arguments are as many as before, so no field may be lost that takes one. -/
theorem renders_redact_positional (template : record.HasTemplate message marks)
    (renders : record.Renders) (keyless : (Supply.ofArguments record.arguments).keyed = none)
    (apart : Apart .text marks) : record.redact.Renders ↔ lost marks = [] := by
  obtain ⟨sub, perm⟩ := template.reads.demands_masked apart
  rw [← pieces_scrub template.reads] at sub perm
  have before := (fills_of_keyless keyless).mp (template.fills renders)
  rw [← flatMap_takers_demands] at before
  constructor
  · intro behind
    rw [template.renders_redact_keyless keyless, ← flatMap_takers_demands] at behind
    have given := before.length_eq
    have left := behind.length_eq.trans (ofArguments_redactArguments keyless).2
    have counted := (perm.flatMap_right Piece.takers).length_eq
    rw [List.flatMap_append, List.length_append] at counted
    refine eq_nil_of_takers_eq_nil (List.length_eq_zero_iff.mp ?_)
    rw [pieces] at given
    omega
  · intro none
    rw [none, List.append_nil] at perm
    have same := sub.eq_of_length perm.length_eq.symm
    refine template.renders_redact.mpr (Fills.redactArguments ((fills_of_keyless keyless).mpr ?_))
    rw [← flatMap_takers_demands, same]
    exact before

theorem renders_redact_named {named : Datum String} (template : record.HasTemplate message marks)
    (keyed : (Supply.ofArguments record.arguments).keyed = some named) :
    record.redact.Renders ↔ Serves named (demands (pieces (scrub message))) := by
  rw [template.renders_redact, fills_redactArguments_iff keyed, ofArguments_of_keyed keyed,
    fills_serves_iff]

/-- Named arguments may be more than the fields ask for. -/
theorem renders_redact_apart {named : Datum String} (template : record.HasTemplate message marks)
    (renders : record.Renders) (keyed : (Supply.ofArguments record.arguments).keyed = some named)
    (apart : Apart .text marks) : record.redact.Renders := by
  have before := template.fills renders
  rw [ofArguments_of_keyed keyed, fills_serves_iff] at before
  rw [template.renders_redact_named keyed, pieces_scrub template.reads]
  exact before.sublist (template.reads.demands_masked apart).1

end Record.HasTemplate

/-- What comes of a record with a text when it is redacted. -/
structure Outcome (record : Record) : Prop where
  /-- The filter lets it through. -/
  kept : Filter.redaction.apply record = some record.redact
  /-- If its message is no template, it has a text still. -/
  plain : (record.arguments.isEmptyValue = true ∨ ∀ message, record.message ≠ .text message) →
    record.redact.Renders
  /-- With positional arguments it has a text exactly if the redacted ones are taken, one by one, by the
  fields of the scrubbed template. If the credentials of the template keep apart from its fields, that is
  so exactly if the secrets have no field that takes an argument. -/
  positional : ∀ message marks, record.HasTemplate message marks →
    (Supply.ofArguments record.arguments).keyed = none →
    (record.redact.Renders ↔ List.Forall₂ Taker.Takes ((pieces (scrub message)).flatMap Piece.takers)
        (Supply.ofArguments (redactArguments record.arguments)).pending) ∧
      (Apart .text marks → (record.redact.Renders ↔ lost marks = []))
  /-- With named arguments it has a text exactly if they serve the fields of the scrubbed template. They do
  if the credentials of the template keep apart from its fields. -/
  named : ∀ message marks named, record.HasTemplate message marks →
    (Supply.ofArguments record.arguments).keyed = some named →
    (record.redact.Renders ↔ Serves named (demands (pieces (scrub message)))) ∧
      (Apart .text marks → record.redact.Renders)
  /-- They keep apart unless the template is for a mapping or one of its fields is not tight. -/
  apart : ∀ message marks, record.HasTemplate message marks →
    (∀ entries, record.arguments ≠ .mapping entries) → (∀ piece ∈ pieces message, piece.IsTight) →
    Apart .text marks

theorem outcome_of_renders {record : Record} (renders : record.Renders) : Outcome record where
  kept := rfl
  plain plain := by
    rcases plain with empty | noText
    · exact record.renders_redact_iff.mpr (.inl empty)
    · have same : redactText record.message = record.message := by
        cases shown : record.message with
        | text message => exact absurd shown (noText message)
        | _ => rfl
      rw [record.renders_redact_iff, same]
      exact (record.renders_iff.mp renders).imp_right Fills.redactArguments
  positional _ _ template keyless :=
    ⟨template.renders_redact_keyless keyless, template.renders_redact_positional renders keyless⟩
  named _ _ _ template keyed :=
    ⟨template.renders_redact_named keyed, template.renders_redact_apart renders keyed⟩
  apart _ _ template noMapping tight := template.apart renders noMapping tight

theorem outcome_of_percent_in_secret :
    (Record.ofCall (.text "Bearer tok%% for %s (%d)") [.failure "Bearer x", .int 7]).Renders ∧
      Outcome (Record.ofCall (.text "Bearer tok%% for %s (%d)") [.failure "Bearer x", .int 7]) := by
  have renders : (Record.ofCall (.text "Bearer tok%% for %s (%d)") [.failure "Bearer x", .int 7]).Renders :=
    ⟨"Bearer tok% for Bearer x (7)", eq_ok_of_toOption (by decide +kernel)⟩
  exact ⟨renders, outcome_of_renders renders⟩

/-- A field that stands where a secret does is lost, and its argument is one too many. -/
theorem field_lost_with_secret :
    (Record.ofCall (.text "Bearer %s") [.text "x"]).text = .ok "Bearer x" ∧
      (Record.ofCall (.text "Bearer %s") [.text "x"]).redact.text = .error .tooManyArguments :=
  ⟨eq_ok_of_toOption (by decide +kernel), by decide +kernel⟩

/-- A key that holds a credential is not found any more. -/
example : (Record.ofCall (.text "%(ghp_a)s") [.mapping [("ghp_a", .int 1)]]).redact.text =
    .error (.missingKey "***REDACTED***") := by decide +kernel

/-- The letter of a field that is not tight may begin a credential. -/
example : (Record.ofCall (.text "%ghp_a") [.real (.ofRatio false 1 2)]).redact.text =
    .error .notNumeric := by decide +kernel

end RegistryGate.Log
