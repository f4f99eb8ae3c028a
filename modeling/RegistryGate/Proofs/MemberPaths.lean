import RegistryGate.Identity.Script
import RegistryGate.Proofs.Encodings
import RegistryGate.Proofs.Requests
import RegistryGate.Proofs.Targets

/-!
# Whom a lookup asks about

A name is written as one segment of a path, from which it can be read back (`spells_of_encodeSegment?`).
So a membership is asked for behind the base under the two names, and under no other two, except that
the names `.` and `..` are steps of a path and are taken (`isMember_asks`).
-/

namespace RegistryGate

/-! ## Names in segments -/

namespace Percent

/-- A segment of a path stands for a name: it ends nothing, and without its escapes it is the name. -/
structure Spells (segment : List Char) (name : WideText) : Prop where
  single : ∀ c ∈ segment, c ≠ '/' ∧ c ≠ '?' ∧ c ≠ '#'
  reads : (Text.readUtf8String? (decode segment)).map WideText.ofString = some name

variable {segment : List Char} {name : WideText} {c : Char}

theorem Spells.unique {alsoName : WideText} (spells : Spells segment name)
    (alsoSpells : Spells segment alsoName) : name = alsoName :=
  Option.some.inj (spells.reads.symm.trans alsoSpells.reads)

theorem Spells.slash_not_mem (spells : Spells segment name) : '/' ∉ segment :=
  fun member => (spells.single '/' member).1 rfl

theorem decode_escapeByte_append (byte : UInt8) (rest : List Char) :
    decode (escapeByte byte ++ rest) = byte :: decode rest := by
  have bound := byte.toNat_lt
  have high := Text.hexValue?_hexDigitUpper (show byte.toNat / 16 < 16 by omega)
  have low := Text.hexValue?_hexDigitUpper (show byte.toNat % 16 < 16 by omega)
  have whole : byte.toNat / 16 * 16 + byte.toNat % 16 = byte.toNat := by omega
  simp [escapeByte, decode, high, low, whole]

theorem decode_flatMap_escapeByte_append (bytes : List UInt8) (rest : List Char) :
    decode (bytes.flatMap escapeByte ++ rest) = bytes ++ decode rest := by
  induction bytes with
  | nil => rfl
  | cons byte bytes ih =>
    rw [List.flatMap_cons, List.append_assoc, decode_escapeByte_append, ih, List.cons_append]

theorem decode_cons_of_ne (other : c ≠ '%') (rest : List Char) :
    decode (c :: rest) = Text.utf8Point (.ofChar c) ++ decode rest := by
  rw [decode]
  rintro a b tail rfl
  exact absurd rfl other

theorem decode_encodeChar_append (c : Char) (rest : List Char) :
    decode (encodeChar isUnreserved c ++ rest) = Text.utf8Point (.ofChar c) ++ decode rest := by
  unfold encodeChar
  split
  case isTrue plain =>
    have other : c ≠ '%' := by
      rintro rfl
      cases plain
    exact decode_cons_of_ne other rest
  case isFalse => exact decode_flatMap_escapeByte_append _ rest

theorem decode_encoded (text : List Char) :
    decode (text.flatMap (encodeChar isUnreserved)) = Text.utf8 text := by
  induction text with
  | nil => rfl
  | cons c text ih =>
    rw [List.flatMap_cons, decode_encodeChar_append, ih]
    rfl

theorem plain_of_mem_segment (written : encodeSegment? name = some segment)
    (member : c ∈ segment) : isUnreserved c = true ∨ c = '%' := by
  obtain ⟨chars, -, rfl⟩ := Option.map_eq_some_iff.mp written
  obtain ⟨d, -, inside⟩ := List.mem_flatMap.mp member
  rcases mem_encodeChar inside with plain | percent | hex
  · exact .inl plain
  · exact .inr percent
  · exact .inl (isUnreserved_of_isHex hex)

/-- A name can be read back from its segment. -/
theorem spells_of_encodeSegment? (written : encodeSegment? name = some segment) : Spells segment name := by
  constructor
  · intro c member
    rcases plain_of_mem_segment written member with plain | rfl
    · refine ⟨?_, ?_, ?_⟩ <;>
      · rintro rfl
        cases plain
    · decide
  · obtain ⟨chars, read, rfl⟩ := Option.map_eq_some_iff.mp written
    rw [decode_encoded, Text.readUtf8String?_utf8, Option.map_some, WideText.ofString,
      String.toList_ofList, WideText.ofChars_of_toChars? read]

/-- A name that is a step of a path when it stands there as a segment. -/
def IsStepName (name : WideText) : Prop := name = WideText.ofString "." ∨ name = WideText.ofString ".."

theorem isStep_iff (written : encodeSegment? name = some segment) :
    Url.IsStep segment ↔ IsStepName name := by
  have here : encodeSegment? (WideText.ofString ".") = some ['.'] := by decide
  have up : encodeSegment? (WideText.ofString "..") = some ['.', '.'] := by decide
  have spells := spells_of_encodeSegment? written
  constructor
  · rintro (rfl | rfl)
    · exact .inl (spells.unique (spells_of_encodeSegment? here))
    · exact .inr (spells.unique (spells_of_encodeSegment? up))
  · rintro (rfl | rfl)
    · exact .inl (Option.some.inj (written.symm.trans here))
    · exact .inr (Option.some.inj (written.symm.trans up))

end Percent

namespace Identity

/-! ## Where a lookup leads -/

/-- The URL that a lookup of a membership asks for. -/
def Asks (base : Url) (organization : String) (login : WideText) (url : Url) : Prop :=
  ∃ path, memberPath? organization login = some path ∧ Url.join? base path = some url

/-- Behind the target of a base stand four segments that name an organization and a user. -/
def Named (base : Url) (organization : String) (login : WideText) (url : Url) : Prop :=
  ∃ first second, Percent.Spells first organization ∧ Percent.Spells second login ∧
    url.target = base.target ++ ("orgs/".toList ++ first ++ "/members/".toList ++ second)

variable {base url otherUrl : Url} {organization other : String} {login otherLogin : WideText}
  {first second : List Char}

def segments (first second : List Char) : List Char :=
  "orgs".toList ++ '/' :: (first ++ '/' :: ("members".toList ++ '/' :: second))

theorem segments_eq (first second : List Char) :
    "orgs/".toList ++ first ++ "/members/".toList ++ second = segments first second := by
  simp [segments]

theorem splitOn_segments (noneFirst : '/' ∉ first) (noneSecond : '/' ∉ second) :
    Text.splitOn '/' (segments first second) = ["orgs".toList, first, "members".toList, second] := by
  rw [segments, Text.splitOn_append (by decide), Text.splitOn_append noneFirst,
    Text.splitOn_append (by decide), Text.splitOn_of_not_mem noneSecond]

theorem count_segments (noneFirst : '/' ∉ first) (noneSecond : '/' ∉ second) :
    (segments first second).count '/' = 3 := by
  have pieces := Text.length_splitOn '/' (segments first second)
  rw [splitOn_segments noneFirst noneSecond] at pieces
  simpa using pieces.symm

theorem Named.count (named : Named base organization login url) :
    url.target.count '/' = base.target.count '/' + 3 := by
  obtain ⟨first, second, spells, alsoSpells, target⟩ := named
  rw [target, segments_eq, List.count_append,
    count_segments spells.slash_not_mem alsoSpells.slash_not_mem]

/-- The four segments tell whom they name. -/
theorem Named.unique (named : Named base organization login url)
    (alsoNamed : Named base other otherLogin otherUrl) (same : otherUrl.target = url.target) :
    other = organization ∧ otherLogin = login := by
  obtain ⟨first, second, spells, spellsLogin, target⟩ := named
  obtain ⟨third, fourth, alsoSpells, alsoSpellsLogin, alsoTarget⟩ := alsoNamed
  rw [target, alsoTarget, segments_eq, segments_eq] at same
  have pieces := congrArg (Text.splitOn '/') (List.append_cancel_left same)
  rw [splitOn_segments spells.slash_not_mem spellsLogin.slash_not_mem,
    splitOn_segments alsoSpells.slash_not_mem alsoSpellsLogin.slash_not_mem] at pieces
  simp only [List.cons.injEq, true_and, and_true] at pieces
  obtain ⟨rfl, rfl⟩ := pieces
  exact ⟨WideText.ofString_injective (alsoSpells.unique spells), alsoSpellsLogin.unique spellsLogin⟩

theorem isPathChar_of_mem_segments {c : Char}
    (ofOrganization : Percent.encodeSegment? organization = some first)
    (ofLogin : Percent.encodeSegment? login = some second) (member : c ∈ segments first second) :
    Url.isPathChar c = true := by
  have ofName {segment : List Char} {name : WideText} (written : Percent.encodeSegment? name = some segment)
      (member : c ∈ segment) : Url.isPathChar c = true := by
    rcases Percent.plain_of_mem_segment written member with plain | rfl
    · exact Url.isPathChar_of_isUnreserved plain
    · decide
  have ofWord {word : List Char} (plain : word.all Url.isPathChar = true) (member : c ∈ word) :
      Url.isPathChar c = true := List.all_eq_true.mp plain c member
  simp only [segments, List.mem_append, List.mem_cons] at member
  rcases member with orgs | rfl | inFirst | rfl | members | rfl | inSecond
  · exact ofWord (by decide) orgs
  · decide
  · exact ofName ofOrganization inFirst
  · decide
  · exact ofWord (by decide) members
  · decide
  · exact ofName ofLogin inSecond

/-- How a lookup is joined to its base: behind two segments that spell the names, and that are steps just
when the names are. -/
structure Joined (base : Url) (organization : String) (login : WideText) (url : Url)
    (first second : List Char) : Prop where
  spells : Percent.Spells first organization
  spellsLogin : Percent.Spells second login
  step : Url.IsStep first ↔ Percent.IsStepName organization
  stepLogin : Url.IsStep second ↔ Percent.IsStepName login
  plain : ∀ c ∈ segments first second, Url.isPathChar c = true
  solid : (segments first second).head? ≠ some '/'
  joined : Url.join? base ('/' :: segments first second) = some url

theorem Asks.exists_joined (asks : Asks base organization login url) :
    ∃ first second, Joined base organization login url first second := by
  obtain ⟨path, written, joined⟩ := asks
  obtain ⟨first, ofOrganization, written⟩ := Option.bind_eq_some_iff.mp written
  obtain ⟨second, ofLogin, written⟩ := Option.bind_eq_some_iff.mp written
  cases written
  refine ⟨first, second, Percent.spells_of_encodeSegment? ofOrganization,
    Percent.spells_of_encodeSegment? ofLogin, Percent.isStep_iff ofOrganization,
    Percent.isStep_iff ofLogin, ?_, by simp [segments], ?_⟩
  · intro c member
    exact isPathChar_of_mem_segments ofOrganization ofLogin member
  · rw [← joined, ← segments_eq]
    rfl

/-- A name that is taken for a step leads to a place above the one that is meant. -/
theorem Joined.fewer (read : ∃ text, Url.base? text = some base)
    (joined : Joined base organization login url first second) (unasked : base.query = none)
    (absolute : url.IsAbsolute)
    (step : Percent.IsStepName organization ∨ Percent.IsStepName login) :
    url.target.count '/' < base.target.count '/' + 3 := by
  have noneFirst := joined.spells.slash_not_mem
  have noneSecond := joined.spellsLogin.slash_not_mem
  have slash : '/' ∈ segments first second := by
    simp [segments]
  have count (segment : List Char) (member : segment ∈ Text.splitOn '/' (segments first second))
      (step : Url.IsStep segment) : url.target.count '/' < base.target.count '/' + 3 := by
    have fewer := Url.join?_fewer read joined.plain joined.solid joined.joined unasked absolute member
      step slash
    rwa [List.count_append, count_segments noneFirst noneSecond] at fewer
  rw [splitOn_segments noneFirst noneSecond] at count
  rcases step with here | there
  · exact count first (by simp) (joined.step.mpr here)
  · exact count second (by simp) (joined.stepLogin.mpr there)

/-- A lookup leads behind the base to the names, unless one of them is taken for a step. -/
theorem Joined.named_iff (read : ∃ text, Url.base? text = some base)
    (joined : Joined base organization login url first second) :
    Named base organization login url ↔ (base.query = none → url.IsAbsolute →
      ¬ Percent.IsStepName organization ∧ ¬ Percent.IsStepName login) := by
  constructor
  · intro named unasked absolute
    rw [← not_or]
    intro step
    have fewer := joined.fewer read unasked absolute step
    rw [named.count] at fewer
    omega
  · intro names
    refine ⟨first, second, joined.spells, joined.spellsLogin, ?_⟩
    rw [segments_eq]
    apply Url.join?_target read joined.plain joined.solid joined.joined
    intro unasked absolute segment member
    obtain ⟨noStep, noStepLogin⟩ := names unasked absolute
    rw [← joined.step] at noStep
    rw [← joined.stepLogin] at noStepLogin
    rw [splitOn_segments joined.spells.slash_not_mem joined.spellsLogin.slash_not_mem] at member
    simp only [List.mem_cons, List.not_mem_nil, or_false] at member
    rcases member with rfl | rfl | rfl | rfl
    · simp [Url.IsStep]
    · exact noStep
    · simp [Url.IsStep]
    · exact noStepLogin

/-- Whom a request for a membership asks about. -/
structure AsksAbout (base : Url) (organization : String) (login : WideText) (url : Url) : Prop where
  asks : Asks base organization login url
  /-- The names stand behind the target of the base, unless dots in them are resolved. -/
  named : Named base organization login url ↔ (base.query = none → url.IsAbsolute →
    ¬ Percent.IsStepName organization ∧ ¬ Percent.IsStepName login)
  absolute : base.scheme ≠ [] → url.IsAbsolute
  /-- Where they stand there, nobody else is asked about in the same way. -/
  alone : Named base organization login url → ∀ other otherLogin otherUrl,
    Asks base other otherLogin otherUrl → otherUrl.target = url.target →
      other = organization ∧ otherLogin = login
  /-- The target is a path, unless that of the base is not. -/
  path : base.query = none → url.query = none
  query : ∀ query, base.query = some query → url.rooted = base.rooted

theorem Asks.about (read : ∃ text, Url.base? text = some base)
    (asks : Asks base organization login url) : AsksAbout base organization login url := by
  obtain ⟨first, second, joined⟩ := asks.exists_joined
  obtain ⟨normal, -⟩ := Url.base?_normal read.choose_spec
  have made := Url.withTarget?_of_join? joined.plain joined.solid joined.joined
  constructor
  case asks => exact asks
  case named => exact joined.named_iff read
  case absolute =>
    intro scheme
    obtain ⟨path, query, parts⟩ := Url.withTarget?_eq_some made
    left
    rw [(Url.ofParts?_eq_some parts).1, ne_eq, List.map_eq_nil_iff]
    exact scheme
  case alone =>
    intro named other otherLogin otherUrl alsoAsks same
    obtain ⟨third, fourth, alsoJoined⟩ := alsoAsks.exists_joined
    by_cases alsoNamed : Named base other otherLogin otherUrl
    · exact named.unique alsoNamed same
    · -- The other lookup would have lost a segment.
      rw [alsoJoined.named_iff read] at alsoNamed
      simp only [Classical.not_imp, not_and_or, not_not] at alsoNamed
      obtain ⟨unasked, absolute, step⟩ := alsoNamed
      have fewer := alsoJoined.fewer read unasked absolute step
      rw [same, named.count] at fewer
      omega
  case path =>
    intro unasked
    exact (Url.withTarget?_path normal unasked joined.plain made).1
  case query =>
    intro query asking
    exact (Url.withTarget?_query normal asking joined.plain made).1

/-- Every request of a membership lookup names one organization of the policy and the user, and these
alone, unless a name is a step. -/
theorem isMember_asks (policy : AccessPolicy) (api : Api) (request : String) (token : List Char)
    (login : WideText) (deadline : Option Rat) (now : Rat) (address : List Char) (slot : ClientSlot)
    (sound : slot.Sound policy.apiBase.toList address) :
    ∀ sent ∈ ((isMember policy request token login).run api deadline now slot).requests,
      ∃ base front, Url.base? address = some base ∧ base.target = front ++ ['/'] ∧
        ∃ organization ∈ policy.organizations, AsksAbout base organization login sent.1.url := by
  rintro ⟨sent, outcome⟩ member
  obtain ⟨full, member⟩ :=
    (isMember_interruptible policy request token login).exists_outcome_of_deadline member
  obtain ⟨organization, listed, path, written, url, joins, rfl⟩ := requests_of_mem_isMember sound member
  obtain ⟨base, read, joined⟩ := Option.bind_eq_some_iff.mp joins
  obtain ⟨-, front, ends⟩ := Url.base?_normal read
  have asks : Asks base organization login url := ⟨path, written, joined⟩
  exact ⟨base, front, read, ends, organization, listed, asks.about ⟨address, read⟩⟩

def organizationPolicy (organization : String) : AccessPolicy :=
  ⟨"team", "https://github.test/api/v3", [organization], .empty, false, "", .real defaultTimeout,
    by decide⟩

/-- Slashes and marks in names do not end their segments. -/
theorem slashes_named :
    ∃ sent ∈ ((isMember (organizationPolicy "a/b") "1" ['t'] "c?d").run (Route.api []) none 0
        .ofOwner).requests,
      sent.1.url.target = "/api/v3/orgs/a%2Fb/members/c%3Fd".toList ∧
        ∃ base, Named base "a/b" "c?d" sent.1.url := by
  have targets : ((isMember (organizationPolicy "a/b") "1" ['t'] "c?d").run (Route.api []) none 0
      .ofOwner).requests.map (·.1.url.target) = ["/api/v3/orgs/a%2Fb/members/c%3Fd".toList] := by
    decide +kernel
  obtain ⟨sent, member, target⟩ := List.mem_map.mp (targets ▸ List.mem_singleton_self _)
  obtain ⟨base, front, read, -, organization, listed, about⟩ := isMember_asks (organizationPolicy "a/b")
    (Route.api []) "1" ['t'] "c?d" none 0 _ .ofOwner ClientSlot.sound_ofOwner sent member
  obtain rfl := List.mem_singleton.mp listed
  have names : ¬ Percent.IsStepName "a/b" ∧ ¬ Percent.IsStepName "c?d" := by
    constructor
    · rintro (same | same) <;> exact absurd same (by decide)
    · rintro (same | same) <;> exact absurd same (by decide)
  exact ⟨sent, member, target, base, about.named.mpr fun _ _ => names⟩

theorem exists_asks_of_bind {text : List Char} {base : Url} (read : Url.base? text = some base)
    (joined : ((Url.base? text).bind fun base =>
      (memberPath? organization login).bind (Url.join? base)) = some url) :
    Asks base organization login url := by
  rw [read, Option.bind_some] at joined
  exact Option.bind_eq_some_iff.mp joined

/-- An organization with the name of a step is not asked about, but what stands above it. And lookups of
two memberships can come to the same. -/
theorem steps_not_named :
    ∃ base, Url.base? "https://github.test/api/v3".toList = some base ∧ base.query = none ∧
      (∃ sent ∈ ((isMember (organizationPolicy "..") "1" ['t'] "x").run (Route.api []) none 0
        .ofOwner).requests,
        sent.1.url.target = "/api/v3/members/x".toList ∧ ¬ Named base ".." "x" sent.1.url) ∧
      ∃ url, Asks base "members" ".." url ∧ Asks base "." "." url := by
  have read : (Url.base? "https://github.test/api/v3".toList).map (fun base =>
      (base.query, base.target.count '/')) = some (none, 3) := by decide +kernel
  obtain ⟨base, read, facts⟩ := Option.map_eq_some_iff.mp read
  obtain ⟨unasked, slashes⟩ := Prod.mk.inj facts
  have targets : ((isMember (organizationPolicy "..") "1" ['t'] "x").run (Route.api []) none 0
      .ofOwner).requests.map (·.1.url.target) = ["/api/v3/members/x".toList] := by decide +kernel
  obtain ⟨sent, member, target⟩ := List.mem_map.mp (targets ▸ List.mem_singleton_self _)
  refine ⟨base, read, unasked, ⟨sent, member, target, ?_⟩, ?_⟩
  · intro named
    have count := named.count
    rw [target, slashes] at count
    exact absurd count (by decide)
  · let lookup (organization : String) (login : WideText) :=
      (Url.base? "https://github.test/api/v3".toList).bind fun base =>
        (memberPath? organization login).bind (Url.join? base)
    have same : lookup "members" ".." = lookup "." "." := by decide +kernel
    have some : (lookup "." ".").isSome = true := by decide +kernel
    obtain ⟨url, joined⟩ := Option.isSome_iff_exists.mp some
    exact ⟨url, exists_asks_of_bind read (same.trans joined), exists_asks_of_bind read joined⟩

end Identity

end RegistryGate
