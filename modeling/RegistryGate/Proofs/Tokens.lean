import RegistryGate.Engine
import RegistryGate.Proofs.Documents
import RegistryGate.Proofs.Encodings
import RegistryGate.Proofs.PlainValues

/-!
# Claims tokens

A token is accepted exactly if it has three segments and the middle one is a document that states the
claims (`decode_accepts_format`). What is made for claims is such a token, whatever the header, as long
as a document can write the header and the signature does not add a segment (`decode_mint_iff`).
-/

namespace RegistryGate.Claims

/-! ## Claims in a mapping -/

/-- A claim stands under its short name or, if nothing stands there, under its long one. -/
def Found (entries : Entries) (short long : String) (value : Datum String) : Prop :=
  RegistryGate.Entries.get? entries short = some value ∨
    RegistryGate.Entries.get? entries short = none ∧
      RegistryGate.Entries.get? entries long = some value

def Absent (entries : Entries) (short long : String) : Prop :=
  RegistryGate.Entries.get? entries short = none ∧ RegistryGate.Entries.get? entries long = none

/-- The values that state an audience. -/
inductive StatesAudience : Datum String → String → Prop where
  | text (audience : String) : StatesAudience (.text audience) audience
  | nobody : StatesAudience (.list []) ""
  | first (audience : String) (others : List (Datum String)) :
    StatesAudience (.list (.text audience :: others)) audience

/-- A claim that may be absent and is then empty. -/
def StatesOptional (entries : Entries) (short long text : String) : Prop :=
  Found entries short long (.text text) ∨ Absent entries short long ∧ text = ""

/-- A mapping states the claims of a token, each as a value of its type. -/
structure Stated (entries : Entries) (payload : Payload) : Prop where
  subject : Found entries "sub" "subject" (.text payload.subject)
  audience : ∃ value, Found entries "aud" "audience" value ∧
    StatesAudience value payload.audience
  repository : RegistryGate.Entries.get? entries "repository" = some (.text payload.repository)
  actor : RegistryGate.Entries.get? entries "actor" = some (.text payload.actor)
  workflow : StatesOptional entries "workflow" "workflow_name" payload.workflow
  ref : StatesOptional entries "ref" "ref" payload.ref
  expiresAt : Found entries "exp" "expires_at" (.int payload.expiresAt)
  issuedAt : Found entries "iat" "issued_at" (.int payload.issuedAt)

variable {entries : Entries} {short long : String}

theorem found_or_absent (entries : Entries) (short long : String) :
    (∃ name value, lookup? entries short long = some (name, value) ∧
      Found entries short long value) ∨
    lookup? entries short long = none ∧ Absent entries short long := by
  unfold lookup?
  cases first : RegistryGate.Entries.get? entries short with
  | some value => exact .inl ⟨short, value, rfl, .inl first⟩
  | none =>
    cases second : RegistryGate.Entries.get? entries long with
    | some value => exact .inl ⟨long, value, rfl, .inr ⟨first, second⟩⟩
    | none => exact .inr ⟨rfl, first, second⟩

theorem Found.unique {a b : Datum String} (first : Found entries short long a)
    (second : Found entries short long b) : a = b := by
  rcases first with here | ⟨missing, there⟩
  · rcases second with alsoHere | ⟨missing, -⟩
    · exact Option.some.inj (here.symm.trans alsoHere)
    · cases missing.symm.trans here
  · rcases second with here | ⟨-, alsoThere⟩
    · cases missing.symm.trans here
    · exact Option.some.inj (there.symm.trans alsoThere)

theorem Absent.not_found {value : Datum String} (absent : Absent entries short long) :
    ¬ Found entries short long value := by
  rintro (here | ⟨-, there⟩)
  · cases absent.1.symm.trans here
  · cases absent.2.symm.trans there

theorem found_same_iff {name : String} {value : Datum String} :
    Found entries name name value ↔ RegistryGate.Entries.get? entries name = some value := by
  constructor
  · rintro (here | ⟨missing, there⟩)
    · exact here
    · cases missing.symm.trans there
  · exact .inl

variable {α : Type} {read : Datum String → Except IssueKind α}

theorem mapError_eq_ok_iff {ε δ : Type} {result : Except ε α} {f : ε → δ} {value : α} :
    result.mapError f = .ok value ↔ result = .ok value := by
  cases result with
  | error fault => exact ⟨by rintro ⟨⟩, by rintro ⟨⟩⟩
  | ok other => exact ⟨by rintro ⟨⟩; rfl, by rintro ⟨⟩; rfl⟩

/-- A required claim is read from the value that is found. -/
theorem required_eq_ok_iff {claim : α} :
    required entries short long read = .ok claim ↔
      ∃ value, Found entries short long value ∧ read value = .ok claim := by
  unfold required
  rcases found_or_absent entries short long with ⟨name, value, looked, found⟩ | ⟨looked, absent⟩
  · simp only [looked, mapError_eq_ok_iff]
    constructor
    · exact fun taken => ⟨value, found, taken⟩
    · rintro ⟨other, alsoFound, taken⟩
      rwa [found.unique alsoFound]
  · simp only [looked]
    refine iff_of_false (by rintro ⟨⟩) ?_
    rintro ⟨value, found, -⟩
    exact absent.not_found found

theorem optional_eq_ok_iff {claim default : α} :
    optional entries short long default read = .ok claim ↔
      (∃ value, Found entries short long value ∧ read value = .ok claim) ∨
        Absent entries short long ∧ claim = default := by
  unfold optional
  rcases found_or_absent entries short long with ⟨name, value, looked, found⟩ | ⟨looked, absent⟩
  · simp only [looked, mapError_eq_ok_iff]
    constructor
    · exact fun taken => .inl ⟨value, found, taken⟩
    · rintro (⟨other, alsoFound, taken⟩ | ⟨absent, -⟩)
      · rwa [found.unique alsoFound]
      · exact absurd found absent.not_found
  · simp only [looked]
    constructor
    · rintro ⟨⟩
      exact .inr ⟨absent, rfl⟩
    · rintro (⟨value, found, -⟩ | ⟨-, rfl⟩)
      · exact absurd found absent.not_found
      · rfl

/-! ### Types -/

theorem asText_eq_ok_iff {value : Datum String} (plain : value.AnyPlain) {text : String} :
    asText value = .ok text ↔ value = .text text := by
  cases plain with
  | text =>
    constructor
    · rintro ⟨⟩
      rfl
    · rintro ⟨⟩
      rfl
  | _ => exact iff_of_false (by rintro ⟨⟩) (by rintro ⟨⟩)

theorem asInt_eq_ok_iff {value : Datum String} {number : Int} :
    asInt value = .ok number ↔ value = .int number := by
  cases value with
  | int other =>
    constructor
    · rintro ⟨⟩
      rfl
    · rintro ⟨⟩
      rfl
  | _ => exact iff_of_false (by rintro ⟨⟩) (by rintro ⟨⟩)

theorem asText_firstAudience_eq_ok_iff {value : Datum String} (plain : value.AnyPlain)
    {audience : String} :
    asText (firstAudience value) = .ok audience ↔ StatesAudience value audience := by
  cases plain with
  | text =>
    constructor
    · rintro ⟨⟩
      exact .text _
    · rintro ⟨⟩
      rfl
  | @list items all =>
    cases items with
    | nil =>
      constructor
      · rintro ⟨⟩
        exact .nobody
      · rintro ⟨⟩
        rfl
    | cons first others =>
      rw [firstAudience, asText_eq_ok_iff (all first List.mem_cons_self)]
      constructor
      · rintro rfl
        exact .first audience others
      · rintro ⟨⟩
        rfl
  | _ => exact iff_of_false (by rintro ⟨⟩) (by rintro ⟨⟩)

theorem Found.plain (all : ∀ entry ∈ entries, entry.2.AnyPlain) {value : Datum String}
    (found : Found entries short long value) : value.AnyPlain := by
  have plain {name : String} (bound : RegistryGate.Entries.get? entries name = some value) :
      value.AnyPlain := by
    obtain ⟨entry, located, rfl⟩ := Option.map_eq_some_iff.mp bound
    exact all entry (List.mem_of_find?_eq_some located)
  rcases found with here | ⟨-, there⟩
  · exact plain here
  · exact plain there

/-! ### All claims -/

variable {payload : Payload}

theorem ofEntries_eq_ok_iff_read :
    Payload.ofEntries entries = .ok payload ↔
      required entries "sub" "subject" asText = .ok payload.subject ∧
      required entries "aud" "audience" (asText ∘ firstAudience) = .ok payload.audience ∧
      required entries "repository" "repository" asText = .ok payload.repository ∧
      required entries "actor" "actor" asText = .ok payload.actor ∧
      optional entries "workflow" "workflow_name" "" asText = .ok payload.workflow ∧
      optional entries "ref" "ref" "" asText = .ok payload.ref ∧
      required entries "exp" "expires_at" asInt = .ok payload.expiresAt ∧
      required entries "iat" "issued_at" asInt = .ok payload.issuedAt := by
  simp only [Payload.ofEntries, Checked.field_eq_ok]
  constructor
  · rintro ⟨_, _, ⟨_, _, ⟨_, _, ⟨_, _, ⟨_, _, ⟨_, _, ⟨_, _, ⟨_, _, ⟨⟩, subject, rfl⟩, audience, rfl⟩,
      repository, rfl⟩, actor, rfl⟩, workflow, rfl⟩, ref, rfl⟩, expiresAt, rfl⟩, issuedAt, rfl⟩
    exact ⟨subject, audience, repository, actor, workflow, ref, expiresAt, issuedAt⟩
  · rintro ⟨subject, audience, repository, actor, workflow, ref, expiresAt, issuedAt⟩
    exact ⟨_, _, ⟨_, _, ⟨_, _, ⟨_, _, ⟨_, _, ⟨_, _, ⟨_, _, ⟨_, _, rfl, subject, rfl⟩, audience, rfl⟩,
      repository, rfl⟩, actor, rfl⟩, workflow, rfl⟩, ref, rfl⟩, expiresAt, rfl⟩, issuedAt, rfl⟩

/-- The claims are read from a mapping exactly if it states them. -/
theorem ofEntries_eq_ok_iff (all : ∀ entry ∈ entries, entry.2.AnyPlain) :
    Payload.ofEntries entries = .ok payload ↔ Stated entries payload := by
  -- Bytes would pass for a text too, but no document holds any.
  have text {short long text : String} :
      (∃ value, Found entries short long value ∧ asText value = .ok text) ↔
        Found entries short long (.text text) := by
    constructor
    · rintro ⟨value, found, taken⟩
      rwa [← (asText_eq_ok_iff (found.plain all)).mp taken]
    · exact fun found => ⟨_, found, rfl⟩
  have int {short long : String} {number : Int} :
      (∃ value, Found entries short long value ∧ asInt value = .ok number) ↔
        Found entries short long (.int number) := by
    constructor
    · rintro ⟨value, found, taken⟩
      rwa [← asInt_eq_ok_iff.mp taken]
    · exact fun found => ⟨_, found, rfl⟩
  have audience : (∃ value, Found entries "aud" "audience" value ∧
      (asText ∘ firstAudience) value = .ok payload.audience) ↔
        ∃ value, Found entries "aud" "audience" value ∧ StatesAudience value payload.audience := by
    refine exists_congr fun value => and_congr_right fun found => ?_
    exact asText_firstAudience_eq_ok_iff (found.plain all)
  rw [ofEntries_eq_ok_iff_read]
  simp only [required_eq_ok_iff, optional_eq_ok_iff, text, int, audience]
  constructor
  · rintro ⟨subject, audience, repository, actor, workflow, ref, expiresAt, issuedAt⟩
    exact ⟨subject, audience, found_same_iff.mp repository, found_same_iff.mp actor, workflow, ref,
      expiresAt, issuedAt⟩
  · intro stated
    exact ⟨stated.subject, stated.audience, found_same_iff.mpr stated.repository,
      found_same_iff.mpr stated.actor, stated.workflow, stated.ref, stated.expiresAt,
      stated.issuedAt⟩

/-- The names that claims are looked up under. -/
def claimNames : List String :=
  ["sub", "subject", "aud", "audience", "repository", "actor", "workflow", "workflow_name", "ref",
    "exp", "expires_at", "iat", "issued_at"]

/-- Entries under other names do not matter, for what is read and for what is reported. -/
theorem ofEntries_congr {others : Entries}
    (same : ∀ name ∈ claimNames,
      RegistryGate.Entries.get? entries name = RegistryGate.Entries.get? others name) :
    Payload.ofEntries entries = Payload.ofEntries others := by
  simp (disch := decide) only [Payload.ofEntries, required, optional, lookup?, same]

/-! ## Tokens -/

/-- A document in UTF-8 that the strict reader takes has a value, and it is plain. -/
theorem exists_value_of_read {bytes : List UInt8} {text : String} {document : Json.Document}
    (decoded : Text.readUtf8String? bytes = some text)
    (read : Json.read maxDepth (WideText.ofString text).points .strict = .ok document) :
    ∃ value, readDocument? bytes = some value ∧ value.AnyPlain := by
  obtain ⟨value, mapped, plain⟩ :=
    (Json.plain_of_read read).mapText? fun _ allowed => WideText.exists_string allowed
  refine ⟨value, ?_, plain⟩
  simp only [readDocument?, decoded, Option.bind_eq_bind, Option.bind_some, read]
  exact mapped

theorem plain_of_readDocument? {bytes : List UInt8} {value : Datum String}
    (found : readDocument? bytes = some value) : value.AnyPlain := by
  have whole := found
  simp only [readDocument?, Option.bind_eq_bind] at whole
  obtain ⟨text, decoded, whole⟩ := Option.bind_eq_some_iff.mp whole
  obtain ⟨document, read, -⟩ := Option.bind_eq_some_iff.mp whole
  obtain ⟨other, same, plain⟩ := exists_value_of_read decoded (eq_ok_of_toOption read)
  rw [found] at same
  cases same
  exact plain

theorem ofDatum_eq_ok_iff {value : Datum String} (plain : value.AnyPlain) {payload : Payload} :
    Payload.ofDatum value = .ok payload ↔
      ∃ entries, value = .mapping entries ∧ Stated entries payload := by
  cases plain with
  | @mapping entries names all =>
    rw [Payload.ofDatum, ofEntries_eq_ok_iff all]
    constructor
    · exact fun stated => ⟨entries, rfl, stated⟩
    · rintro ⟨_, ⟨⟩, stated⟩
      exact stated
  | _ =>
    refine iff_of_false (by rintro ⟨⟩) ?_
    rintro ⟨_, ⟨⟩, -⟩

theorem ofDocument_eq_ok_iff {bytes : List UInt8} {payload : Payload} :
    Payload.ofDocument bytes = .ok payload ↔
      ∃ entries, readDocument? bytes = some (.mapping entries) ∧ Stated entries payload := by
  unfold Payload.ofDocument
  cases found : readDocument? bytes with
  | none =>
    refine iff_of_false (by rintro ⟨⟩) ?_
    rintro ⟨_, ⟨⟩, -⟩
  | some value => simp only [ofDatum_eq_ok_iff (plain_of_readDocument? found), Option.some.injEq]

/-- A token of three segments without dots, of which the middle one is a document in base64url of a
mapping with given entries. -/
def Holds (token : List Char) (entries : Entries) : Prop :=
  ∃ head middle tail bytes, token = head ++ '.' :: (middle ++ '.' :: tail) ∧
    '.' ∉ head ∧ '.' ∉ middle ∧ '.' ∉ tail ∧ Base64Url.decode middle = .ok bytes ∧
    readDocument? bytes = some (.mapping entries)

/-- Two tokens that differ in nothing but their outer segments. -/
def SameMiddle (token other : List Char) : Prop :=
  ∃ head tail otherHead otherTail middle, '.' ∉ head ∧ '.' ∉ tail ∧ '.' ∉ otherHead ∧
    '.' ∉ otherTail ∧ token = head ++ '.' :: (middle ++ '.' :: tail) ∧
    other = otherHead ++ '.' :: (middle ++ '.' :: otherTail)

theorem decode_of_segments {token head middle tail : List Char}
    (segments : Text.splitOn '.' token = [head, middle, tail]) :
    decode token = ((Base64Url.decode middle).mapError .encoding).bind fun bytes =>
      (Payload.ofDocument bytes).mapError .payload := by
  simp only [decode, segments]
  cases Base64Url.decode middle with
  | error error => rfl
  | ok bytes => rfl

/-- The number of dots alone decides whether a token is refused for its segments. -/
theorem decode_eq_segments_iff {token : List Char} :
    decode token = .error .segments ↔ token.count '.' ≠ 2 := by
  have length := Text.length_splitOn '.' token
  unfold decode
  split
  case h_1 head middle tail segments =>
    rw [segments] at length
    refine iff_of_false ?_ (fun wrong => wrong (Nat.succ.inj length).symm)
    cases Base64Url.decode middle with
    | error error => rintro ⟨⟩
    | ok bytes =>
      cases found : Payload.ofDocument bytes with
      | error issues =>
        simp only [found]
        rintro ⟨⟩
      | ok payload =>
        simp only [found]
        rintro ⟨⟩
  case h_2 others =>
    refine iff_of_true rfl fun two => ?_
    obtain ⟨head, middle, tail, segments⟩ := Text.exists_three_pieces two
    exact others head middle tail segments

theorem decode_eq_ok_iff {token : List Char} {payload : Payload} :
    decode token = .ok payload ↔ ∃ entries, Holds token entries ∧ Stated entries payload := by
  constructor
  · intro accepted
    by_cases two : token.count '.' = 2
    · obtain ⟨head, middle, tail, segments⟩ := Text.exists_three_pieces two
      obtain ⟨shape, noneHead, noneMiddle, noneTail⟩ := Text.splitOn_eq_three_iff.mp segments
      rw [decode_of_segments segments] at accepted
      cases bytes : Base64Url.decode middle with
      | error error =>
        rw [bytes] at accepted
        cases accepted
      | ok bytes =>
        rw [bytes] at accepted
        obtain ⟨entries, found, stated⟩ := ofDocument_eq_ok_iff.mp (mapError_eq_ok_iff.mp accepted)
        exact ⟨entries, ⟨head, middle, tail, _, shape, noneHead, noneMiddle, noneTail, bytes, found⟩,
          stated⟩
    · rw [decode_eq_segments_iff.mpr two] at accepted
      cases accepted
  · rintro ⟨entries, ⟨head, middle, tail, bytes, shape, noneHead, noneMiddle, noneTail, decoded,
      found⟩, stated⟩
    have segments := Text.splitOn_eq_three_iff.mpr ⟨shape, noneHead, noneMiddle, noneTail⟩
    rw [decode_of_segments segments, decoded]
    exact mapError_eq_ok_iff.mpr (ofDocument_eq_ok_iff.mpr ⟨entries, found, stated⟩)

/-- The outer segments do not matter, not even for what is reported. -/
theorem decode_of_sameMiddle {token other : List Char} (same : SameMiddle token other) :
    decode token = decode other := by
  obtain ⟨head, tail, otherHead, otherTail, middle, noneHead, noneTail, otherNoneHead,
    otherNoneTail, rfl, rfl⟩ := same
  by_cases inside : '.' ∈ middle
  · -- A middle segment with a dot in it is more than one, on both sides.
    have positive := List.count_pos_iff.mpr inside
    rw [decode_eq_segments_iff.mpr, decode_eq_segments_iff.mpr]
    · simp only [List.count_append, List.count_cons_self]
      omega
    · simp only [List.count_append, List.count_cons_self]
      omega
  · rw [decode_of_segments (Text.splitOn_eq_three_iff.mpr ⟨rfl, noneHead, inside, noneTail⟩),
      decode_of_segments
        (Text.splitOn_eq_three_iff.mpr ⟨rfl, otherNoneHead, inside, otherNoneTail⟩)]

theorem decode_of_holds {token : List Char} (holds : Holds token entries) :
    decode token = (Payload.ofEntries entries).mapError .payload := by
  obtain ⟨head, middle, tail, bytes, shape, noneHead, noneMiddle, noneTail, decoded, found⟩ := holds
  have segments := Text.splitOn_eq_three_iff.mpr ⟨shape, noneHead, noneMiddle, noneTail⟩
  have read : Payload.ofDocument bytes = Payload.ofEntries entries := by
    simp only [Payload.ofDocument, found, Payload.ofDatum]
  rw [decode_of_segments segments, decoded, ← read]
  rfl

/-- A verifier of claims refuses a token that cannot be read as malformed. -/
theorem verify_of_decode_error {token : List Char} {error : TokenError}
    (refused : decode token = .error error) (policy : AccessPolicy) (reading : Rat)
    (context : RequestContext) (scheme : Scheme) :
    (Verifier.claims policy reading).verify context ⟨scheme, token⟩ =
      .done (.error (.refused (.malformedCredential (.token error)))) := by
  simp only [Verifier.claims, refused]

/-- A token is accepted exactly if it has three segments and the middle one is a document, in
base64url, of a mapping that states the claims; the payload is what is stated. Every other token is
refused as malformed. Neither the outer segments nor entries under other names have a part in it. -/
theorem decode_accepts_format (token : List Char) :
    (∀ payload, decode token = .ok payload ↔
      ∃ entries, Holds token entries ∧ Stated entries payload) ∧
    ((¬ ∃ entries payload, Holds token entries ∧ Stated entries payload) →
      ∃ error, decode token = .error error ∧ ∀ policy reading context scheme,
        (Verifier.claims policy reading).verify context ⟨scheme, token⟩ =
          .done (.error (.refused (.malformedCredential (.token error))))) ∧
    (decode token = .error .segments ↔ token.count '.' ≠ 2) ∧
    (∀ other, SameMiddle token other → decode token = decode other) ∧
    (∀ other entries others, Holds token entries → Holds other others →
      (∀ name ∈ claimNames,
        RegistryGate.Entries.get? entries name = RegistryGate.Entries.get? others name) →
      decode token = decode other) := by
  refine ⟨fun payload => decode_eq_ok_iff, fun unstated => ?refused, decode_eq_segments_iff,
    fun other same => decode_of_sameMiddle same, fun other entries others holds holdsOther same => ?extra⟩
  case refused =>
    cases result : decode token with
    | ok payload =>
      obtain ⟨entries, holds, stated⟩ := decode_eq_ok_iff.mp result
      exact absurd ⟨entries, payload, holds, stated⟩ unstated
    | error error => exact ⟨error, rfl, verify_of_decode_error result⟩
  case extra =>
    rw [decode_of_holds holds, decode_of_holds holdsOther, ofEntries_congr same]

/-- A token with long names, a list of audiences, a name stated twice and one that is no claim. -/
def looseToken : List Char :=
  "h.eyJzdWJqZWN0IjoicyIsImF1ZCI6WyJhIiwxXSwicmVwb3NpdG9yeSI6Im8vciIsImFjdG9yIjoieCIsIndv".toList ++
    "cmtmbG93X25hbWUiOiJ3IiwiZXhwIjo1LCJpYXQiOjAsImlhdCI6MSwiZXh0cmEiOnsic3ViIjpbXX19.s".toList

theorem looseToken_accepted :
    (∃ entries, Holds looseToken entries ∧ Stated entries ⟨"s", "a", "o/r", "x", "w", "", 5, 1⟩) ∧
    SameMiddle looseToken ('x' :: looseToken) ∧ decode looseToken = decode ('x' :: looseToken) ∧
    (¬ ∃ entries payload, Holds "h.e30.s".toList entries ∧ Stated entries payload) ∧
    ∃ error, decode "h.e30.s".toList = .error error := by
  obtain ⟨accepted, -, -, outer, -⟩ := decode_accepts_format looseToken
  obtain ⟨acceptedEmpty, refusedEmpty, -⟩ := decode_accepts_format "h.e30.s".toList
  have read : decode looseToken = .ok ⟨"s", "a", "o/r", "x", "w", "", 5, 1⟩ :=
    eq_ok_of_toOption (by decide +kernel)
  have same : SameMiddle looseToken ('x' :: looseToken) :=
    ⟨['h'], ['s'], ['x', 'h'], ['s'], (looseToken.drop 2).dropLast.dropLast, by decide, by decide,
      by decide, by decide, by decide +kernel, by decide +kernel⟩
  have empty : ¬ ∃ entries payload, Holds "h.e30.s".toList entries ∧ Stated entries payload := by
    rintro ⟨entries, payload, stated⟩
    have read := (acceptedEmpty payload).mpr ⟨entries, stated⟩
    have unread : (decode "h.e30.s".toList).toOption = none := by decide +kernel
    rw [read] at unread
    cases unread
  obtain ⟨error, refused, -⟩ := refusedEmpty empty
  exact ⟨(accepted _).mp read, same, outer _ same, empty, error, refused⟩

/-! ## Written tokens -/

/-- The members of the document of a payload, with the values that they stand for. -/
def Payload.bindings (payload : Payload) : List Json.Member :=
  [⟨"sub".toList, Json.string payload.subject.toList, .text (.ofString payload.subject)⟩,
   ⟨"aud".toList, Json.string payload.audience.toList, .text (.ofString payload.audience)⟩,
   ⟨"repository".toList, Json.string payload.repository.toList,
    .text (.ofString payload.repository)⟩,
   ⟨"actor".toList, Json.string payload.actor.toList, .text (.ofString payload.actor)⟩,
   ⟨"workflow".toList, Json.string payload.workflow.toList, .text (.ofString payload.workflow)⟩,
   ⟨"ref".toList, Json.string payload.ref.toList, .text (.ofString payload.ref)⟩,
   ⟨"exp".toList, (toString payload.expiresAt).toList, .int payload.expiresAt⟩,
   ⟨"iat".toList, (toString payload.issuedAt).toList, .int payload.issuedAt⟩]

/-- The mapping that the document of a payload stands for. -/
def Payload.stated (payload : Payload) : Entries :=
  [("sub", .text payload.subject), ("aud", .text payload.audience),
   ("repository", .text payload.repository), ("actor", .text payload.actor),
   ("workflow", .text payload.workflow), ("ref", .text payload.ref),
   ("exp", .int payload.expiresAt), ("iat", .int payload.issuedAt)]

theorem document_eq_joined (payload : Payload) :
    payload.document = '\x7b' :: (Json.joined payload.bindings ++ ['\x7d']) := rfl

theorem ofEntries_stated (payload : Payload) : Payload.ofEntries payload.stated = .ok payload := rfl

theorem stands_bindings {depth : Nat} {payload : Payload} (fitsExpiry : Json.Fits payload.expiresAt)
    (fitsIssue : Json.Fits payload.issuedAt) :
    ∀ member ∈ payload.bindings,
      Json.Stands (Json.readValue .strict (depth + 1)) member.text member.value := by
  have text (value : String) : Json.Stands (Json.readValue .strict (depth + 1))
      (Json.string value.toList) (.text (.ofChars value.toList)) := Json.stands_string value.toList
  simp only [Payload.bindings, List.forall_mem_cons]
  exact ⟨text _, text _, text _, text _, text _, text _, Json.stands_int fitsExpiry,
    Json.stands_int fitsIssue, List.forall_mem_nil _⟩

theorem distinct_bindings (payload : Payload) :
    ((payload.bindings.map Json.Member.entry).map (·.1)).Nodup := by
  show ((["sub", "aud", "repository", "actor", "workflow", "ref", "exp", "iat"].map
    WideText.ofString).Nodup)
  decide

theorem mapText?_bindings (payload : Payload) :
    (Datum.mapping (payload.bindings.map Json.Member.entry)).mapText? WideText.toString? =
      some (.mapping payload.stated) := by
  have name (text : String) : (WideText.ofChars text.toList).toString? = some text :=
    WideText.toString?_ofString text
  simp only [Payload.bindings, Payload.stated, List.map_cons, List.map_nil, Json.Member.entry,
    Datum.mapText?, Datum.mapEntries?, name, WideText.toString?_ofString]
  rfl

/-- The document of a payload is read as the mapping that states it. -/
theorem readDocument?_document {payload : Payload} (fitsExpiry : Json.Fits payload.expiresAt)
    (fitsIssue : Json.Fits payload.issuedAt) :
    readDocument? (Text.utf8 payload.document) = some (.mapping payload.stated) := by
  have some : payload.bindings ≠ [] := List.cons_ne_nil _ _
  have read := Json.read_object 199 some (stands_bindings fitsExpiry fitsIssue)
  have points : (WideText.ofString (String.ofList payload.document)).points =
      Json.written payload.document := by
    rw [WideText.ofString, String.toList_ofList]
    rfl
  rw [Entries.ofPairs_of_nodup (distinct_bindings payload), ← document_eq_joined] at read
  simp only [readDocument?, Option.bind_eq_bind, Text.readUtf8String?_utf8, Option.bind_some, points,
    maxDepth]
  rw [read]
  exact mapText?_bindings payload

theorem ne_of_mem_segment {text : List Char} {c : Char} (member : c ∈ segment text) :
    c ≠ '.' ∧ c ≠ '=' := Base64Url.ne_of_mem_encode member

theorem dot_not_mem_segment (text : List Char) : '.' ∉ segment text :=
  fun member => (ne_of_mem_segment member).1 rfl

theorem holds_assemble {payload : Payload} (fitsExpiry : Json.Fits payload.expiresAt)
    (fitsIssue : Json.Fits payload.issuedAt) {signature : List Char} (plain : '.' ∉ signature)
    (head : List Char) : Holds (assemble payload signature head) payload.stated :=
  ⟨segment head, segment payload.document, signature, Text.utf8 payload.document, rfl,
    dot_not_mem_segment head, dot_not_mem_segment payload.document, plain,
    Base64Url.decode_encode _, readDocument?_document fitsExpiry fitsIssue⟩

theorem decode_assemble_of_dot (payload : Payload) {signature : List Char} (dot : '.' ∈ signature)
    (head : List Char) : decode (assemble payload signature head) = .error .segments := by
  have positive := List.count_pos_iff.mpr dot
  rw [decode_eq_segments_iff, assemble]
  simp only [List.count_append, List.count_cons_self]
  omega

/-- A token is made for given claims exactly if the header can be written. -/
theorem mint_eq_ok_iff {depth : Nat} {payload : Payload} {header : Header}
    {signature token : List Char} :
    mint depth payload header signature = .ok token ↔
      Json.Writable depth (.mapping (headerOf header)) ∧ encode payload header signature = token := by
  unfold mint encode
  cases written : Json.write depth (.mapping (headerOf header)) with
  | error error =>
    refine iff_of_false (by rintro ⟨⟩) ?_
    rintro ⟨writable, -⟩
    rw [Json.write_eq_ok_iff.mpr ⟨writable, rfl⟩] at written
    cases written
  | ok head =>
    obtain ⟨writable, rfl⟩ := Json.write_eq_ok_iff.mp written
    constructor
    · rintro ⟨⟩
      exact ⟨writable, rfl⟩
    · rintro ⟨-, rfl⟩
      rfl

/-- A token is made for a payload unless a document cannot write its header. It has a head and a body
without dots and padding, whatever the payload and the header, and is read as the payload again unless
its signature holds a dot; then it is refused as malformed. -/
theorem decode_mint_iff (depth : Nat) (payload : Payload) (header : Header)
    (signature : List Char) :
    (¬ Json.Writable depth (.mapping (headerOf header)) →
      ∃ error, mint depth payload header signature = .error error) ∧
    (Json.Writable depth (.mapping (headerOf header)) →
      ∃ token, mint depth payload header signature = .ok token ∧
        (∃ head body, token = head ++ '.' :: (body ++ '.' :: signature) ∧
          ∀ c ∈ head ++ body, c ≠ '.' ∧ c ≠ '=') ∧
        (Json.Fits payload.expiresAt → Json.Fits payload.issuedAt →
          (decode token = .ok payload ↔ '.' ∉ signature)) ∧
        ('.' ∈ signature → decode token = .error .segments ∧
          ∀ policy reading context scheme,
            (Verifier.claims policy reading).verify context ⟨scheme, token⟩ =
              .done (.error (.refused (.malformedCredential (.token .segments)))))) := by
  constructor
  · intro unwritable
    cases made : mint depth payload header signature with
    | error error => exact ⟨error, rfl⟩
    | ok token => exact absurd (mint_eq_ok_iff.mp made).1 unwritable
  · intro writable
    refine ⟨_, mint_eq_ok_iff.mpr ⟨writable, rfl⟩, ?segments, fun fitsExpiry fitsIssue => ?again,
      fun dot => ?refused⟩
    case segments =>
      refine ⟨segment _, segment payload.document, rfl, fun c member => ?_⟩
      rcases List.mem_append.mp member with first | second
      · exact ne_of_mem_segment first
      · exact ne_of_mem_segment second
    case again =>
      constructor
      · intro accepted dot
        rw [encode, decode_assemble_of_dot payload dot] at accepted
        cases accepted
      · intro plain
        rw [encode, decode_of_holds (holds_assemble fitsExpiry fitsIssue plain _), ofEntries_stated]
        rfl
    case refused =>
      have refused := decode_assemble_of_dot payload dot (Json.document (.mapping (headerOf header)))
      exact ⟨refused, verify_of_decode_error refused⟩

/-- Claims with every kind of character that a document has to escape, or to write in several
bytes. -/
def oddPayload : Payload where
  subject := "\"\\/\n\r\t\x00\x1f\x7f"
  audience := "é€😀"
  repository := "\x7b\"exp\": 1\x7d"
  actor := ""
  workflow := "a.b=c"
  ref := "\u2028\ufeff\uffff"
  expiresAt := 253402300799
  issuedAt := -1

/-- A header can hold containers as deep as the writer goes, but no bytes. -/
theorem oddPayload_comes_back :
    Json.Fits oddPayload.expiresAt ∧ Json.Fits oddPayload.issuedAt ∧
      (∃ token, mint 2 oddPayload [("x5c", .list [.text "é"])] "s-_".toList = .ok token ∧
        decode token = .ok oddPayload) ∧
      (∃ token, mint 2 oddPayload [] "s.t".toList = .ok token ∧
        decode token = .error .segments) ∧
      ∃ error, mint 2 oddPayload [("kid", .bytes [0])] [] = .error error := by
  have fitsExpiry : Json.Fits oddPayload.expiresAt := Json.fits_of_digits (by decide +kernel)
  have fitsIssue : Json.Fits oddPayload.issuedAt := Json.fits_of_digits (by decide +kernel)
  have nested : Json.Writable 2 (.mapping (headerOf [("x5c", .list [.text "é"])])) :=
    Json.writable_of_clear (by decide)
  have plain : Json.Writable 2 (.mapping (headerOf [])) := Json.writable_of_clear (by decide)
  have bytes : ¬ Json.Writable 2 (.mapping (headerOf [("kid", .bytes [0])])) := by
    intro writable
    exact absurd writable.clear (by decide)
  obtain ⟨token, made, -, again, -⟩ :=
    (decode_mint_iff 2 oddPayload [("x5c", .list [.text "é"])] "s-_".toList).2 nested
  obtain ⟨dotted, madeDotted, -, -, refused⟩ := (decode_mint_iff 2 oddPayload [] "s.t".toList).2 plain
  exact ⟨fitsExpiry, fitsIssue, ⟨token, made, (again fitsExpiry fitsIssue).mpr (by decide)⟩,
    ⟨dotted, madeDotted, (refused (by decide)).1⟩, (decode_mint_iff 2 oddPayload _ []).1 bytes⟩

end RegistryGate.Claims
