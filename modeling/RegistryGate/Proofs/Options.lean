import Mathlib.Data.List.TakeWhile
import RegistryGate.AccessPolicy
import RegistryGate.Proofs.Overflow

/-!
# From options to a policy

Which options make a policy. The realm is the only option that has to be given, and the time limit the
only other one that can stop the start: it must not be NaN, and an integer must not be too large for
double precision (`ofOptions_decided`).
-/

namespace RegistryGate

/-- Nothing is left of a text just when all of it is white space. -/
theorem Text.trim_eq_nil_iff {text : List Char} :
    trim text = [] ↔ ∀ c ∈ text, isBlankChar c = true := by
  have right : trim text = [] ↔ ∀ c ∈ text.dropWhile isBlankChar, isBlankChar c = true := by
    rw [trim, trimRight, List.reverse_eq_nil_iff, List.dropWhile_eq_nil_iff]
    simp only [List.mem_reverse]
  rw [right]
  constructor
  · intro blank c member
    rw [← List.takeWhile_append_dropWhile (p := isBlankChar) (l := text)] at member
    rcases List.mem_append.mp member with lead | rest
    · exact List.all_eq_true.mp List.all_takeWhile c lead
    · exact blank c rest
  · intro blank c member
    exact blank c ((List.dropWhile_suffix isBlankChar).subset member)

namespace Settings

/-- The realm that a text gives: one that is not blank, without the white space around it. -/
def TextRealm (options : Options) (realm : String) : Prop :=
  ∃ text, Entries.get? options "realm" = some (.text text) ∧
    (∃ c ∈ text.toList, Text.isBlankChar c = false) ∧
    realm = String.ofList (Text.trim text.toList)

/-- The realm that bytes in UTF-8 give, as they are. -/
def BytesRealm (options : Options) (realm : String) : Prop :=
  ∃ bytes, Entries.get? options "realm" = some (.bytes bytes) ∧
    Text.readUtf8String? bytes = some realm ∧ realm ≠ ""

def GivesRealm (options : Options) (realm : String) : Prop :=
  TextRealm options realm ∨ BytesRealm options realm

def TimeoutNotNumber (options : Options) : Prop :=
  Entries.get? options "timeout" = some (.real .nan)

/-- The time limit is an integer beyond double precision. -/
def TimeoutOverflows (options : Options) : Prop :=
  ∃ value : Int, Entries.get? options "timeout" = some (.int value) ∧
    (Binary64.overflowBound : Int) ≤ value

variable {options : Options} {realm : String}

theorem lookup?_singleton (options : Options) (name : String) :
    lookup? options [name] = Entries.get? options name := by
  rw [lookup?]
  cases Entries.get? options name <;> rfl

/-! ## The realm -/

theorem ite_eq_ok_iff {text : String} {issues : List Issue} :
    (if text = "" then .error issues else .ok text : Checked String) = .ok realm ↔
      text = realm ∧ realm ≠ "" := by
  by_cases empty : text = ""
  · rw [if_pos empty]
    constructor
    · intro impossible
      cases impossible
    · rintro ⟨rfl, present⟩
      exact absurd empty present
  · rw [if_neg empty, Except.ok.injEq]
    constructor
    · rintro rfl
      exact ⟨rfl, empty⟩
    · exact And.left

theorem ofList_trim_ne_empty {text : String} :
    String.ofList (Text.trim text.toList) ≠ "" ↔ ∃ c ∈ text.toList, Text.isBlankChar c = false := by
  have empty : String.ofList (Text.trim text.toList) = "" ↔ Text.trim text.toList = [] := by
    rw [← String.toList_inj, String.toList_ofList, String.toList_empty]
  rw [Ne, empty, Text.trim_eq_nil_iff]
  simp

/-- A realm is read from a text that is not blank or from bytes in UTF-8, and from nothing else. -/
theorem readRealm_eq_ok_iff :
    readRealm (lookup? options ["realm"]) = .ok realm ↔ GivesRealm options realm := by
  rw [lookup?_singleton]
  unfold readRealm GivesRealm TextRealm BytesRealm
  cases Entries.get? options "realm" with
  | none => simp
  | some value =>
    cases value with
    | text text =>
      simp only [ite_eq_ok_iff, Option.some.injEq, Datum.text.injEq, exists_eq_left',
        reduceCtorEq, false_and, exists_false, or_false]
      constructor
      · rintro ⟨rfl, present⟩
        exact ⟨ofList_trim_ne_empty.mp present, rfl⟩
      · rintro ⟨seen, rfl⟩
        exact ⟨rfl, ofList_trim_ne_empty.mpr seen⟩
    | bytes bytes =>
      simp only [Option.some.injEq, Datum.bytes.injEq, exists_eq_left', reduceCtorEq, false_and,
        exists_false, false_or]
      cases Text.readUtf8String? bytes with
      | none => simp
      | some text => simp only [ite_eq_ok_iff, Option.some.injEq]
    | _ => simp

theorem GivesRealm.eq {first second : String} (one : GivesRealm options first)
    (other : GivesRealm options second) : first = second := by
  have same := (readRealm_eq_ok_iff.mpr one).symm.trans (readRealm_eq_ok_iff.mpr other)
  exact Except.ok.inj same

theorem GivesRealm.ne_empty (gives : GivesRealm options realm) : realm ≠ "" := by
  rcases gives with ⟨text, -, seen, rfl⟩ | ⟨bytes, -, -, present⟩
  · exact ofList_trim_ne_empty.mpr seen
  · exact present

theorem TextRealm.not_bytesRealm {inText inBytes : String} (text : TextRealm options inText) :
    ¬ BytesRealm options inBytes := by
  obtain ⟨written, given, -, -⟩ := text
  rintro ⟨encoded, other, -, -⟩
  rw [given] at other
  cases other

/-! ## The time limit -/

theorem eq_nan_of_no_sign {value : Binary64} (above : value.isNonpositive = false)
    (below : value.isPositive = false) : value = .nan := by
  cases value with
  | finite negative mantissa exponent =>
    cases negative <;> simp_all [Binary64.isNonpositive, Binary64.isPositive]
  | infinite negative => simp_all [Binary64.isNonpositive, Binary64.isPositive]
  | nan => rfl

/-- How a time limit is read: it is too large, not a number, or taken. -/
theorem readTimeout_cases (options : Options) :
    (readTimeout (lookup? options ["timeout"])).2 = .error .timeoutOverflow ∧
        TimeoutOverflows options ∨
      (∃ issues, (readTimeout (lookup? options ["timeout"])).2 = .error (.invalid issues)) ∧
        TimeoutNotNumber options ∨
      (∃ seconds, (readTimeout (lookup? options ["timeout"])).2 = .ok seconds) ∧
        ¬ TimeoutOverflows options ∧ ¬ TimeoutNotNumber options := by
  rw [lookup?_singleton]
  unfold readTimeout TimeoutOverflows TimeoutNotNumber
  cases Entries.get? options "timeout" with
  | none =>
    refine .inr (.inr ⟨⟨_, rfl⟩, ?_, ?_⟩)
    · rintro ⟨number, same, -⟩
      cases same
    · intro same
      cases same
  | some value =>
    cases value with
    | int value =>
      have pos := Binary64.overflowBound_pos
      simp only [Option.some.injEq, Datum.int.injEq, exists_eq_left', reduceCtorEq, not_false_eq_true,
        and_true, and_false, false_or]
      by_cases low : value ≤ 0
      · rw [if_pos low]
        exact .inr ⟨⟨_, rfl⟩, by omega⟩
      · rw [if_neg low]
        cases read : Binary64.ofInt? value with
        | none =>
          have large := Binary64.ofInt?_eq_none_iff.mp read
          exact .inl ⟨rfl, by omega⟩
        | some seconds =>
          refine .inr ⟨⟨seconds, rfl⟩, fun large => ?_⟩
          rw [Binary64.ofInt?_eq_none_iff.mpr (by omega)] at read
          cases read
    | real value =>
      simp only [Option.some.injEq, Datum.real.injEq, reduceCtorEq, false_and, exists_false, and_false,
        not_false_eq_true, true_and, false_or]
      cases nonpositive : value.isNonpositive with
      | true =>
        refine .inr ⟨⟨_, rfl⟩, ?_⟩
        rintro rfl
        cases nonpositive
      | false =>
        cases positive : value.isPositive with
        | true =>
          refine .inr ⟨⟨value, rfl⟩, ?_⟩
          rintro rfl
          cases positive
        | false => exact .inl ⟨⟨_, rfl⟩, eq_nan_of_no_sign nonpositive positive⟩
    | _ =>
      refine .inr (.inr ⟨⟨_, rfl⟩, ?_, ?_⟩)
      · rintro ⟨number, same, -⟩
        cases same
      · intro same
        cases same

/-! ## The settings -/

/-- No other option than the realm and the time limit can be refused. -/
theorem ofOptions_cases (options : Options) :
    (ofOptions options).2 = .error .timeoutOverflow ∧ TimeoutOverflows options ∨
      (∃ issues, (ofOptions options).2 = .error (.invalid issues)) ∧ ¬ TimeoutOverflows options ∧
        ((∀ realm, ¬ GivesRealm options realm) ∨ TimeoutNotNumber options) ∨
      (∃ settings, (ofOptions options).2 = .ok settings ∧ GivesRealm options settings.realm) ∧
        ¬ TimeoutOverflows options ∧ ¬ TimeoutNotNumber options := by
  unfold ofOptions
  dsimp only
  rcases readTimeout_cases options with ⟨timeout, large⟩ | ⟨⟨issues, timeout⟩, notNumber⟩ |
    ⟨⟨seconds, timeout⟩, fits, number⟩
  · rw [timeout]
    cases readRealm (lookup? options ["realm"]) with
    | ok realm => exact .inl ⟨rfl, large⟩
    | error missing => exact .inl ⟨rfl, large⟩
  · have fits : ¬ TimeoutOverflows options := by
      rintro ⟨value, given, -⟩
      rw [notNumber] at given
      cases given
    rw [timeout]
    cases readRealm (lookup? options ["realm"]) with
    | ok realm => exact .inr (.inl ⟨⟨_, rfl⟩, fits, .inr notNumber⟩)
    | error missing => exact .inr (.inl ⟨⟨_, rfl⟩, fits, .inr notNumber⟩)
  · rw [timeout]
    cases read : readRealm (lookup? options ["realm"]) with
    | ok realm => exact .inr (.inr ⟨⟨_, rfl, readRealm_eq_ok_iff.mp read⟩, fits, number⟩)
    | error missing =>
      refine .inr (.inl ⟨⟨_, rfl⟩, fits, .inl fun realm gives => ?_⟩)
      rw [readRealm_eq_ok_iff.mpr gives] at read
      cases read

/-- The settings are what each option is read as. -/
theorem read_of_ok {settings : Settings} (made : (ofOptions options).2 = .ok settings) :
    (readApiUrl (lookup? options ["api_url"])).2 = settings.apiUrl ∧
      (readNames "allowed_orgs" (lookup? options ["allowed_orgs"])).2 = settings.organizations ∧
      (readNames "allowed_repos" (lookup? options ["allowed_repos"])).2 = settings.repositories ∧
      (readTimeout (lookup? options ["timeout"])).2 = .ok settings.timeout := by
  unfold ofOptions at made
  dsimp only at made
  split at made <;> cases made
  exact ⟨rfl, rfl, rfl, by assumption⟩

end Settings

namespace AccessPolicy

open Settings

variable {options : Options} {policy : AccessPolicy}

/-! ## The policy -/

theorem ofSettings_of_realm {settings : Settings} (realm : settings.realm ≠ "") :
    ∃ policy, ofSettings settings = .ok policy ∧ policy.realm = settings.realm := by
  unfold ofSettings
  rw [dif_neg realm]
  exact ⟨_, rfl, rfl⟩

theorem ofDatum_of_mapping (options : Options) :
    Settings.ofDatum (if (Datum.mapping options).isEmptyValue then .mapping [] else .mapping options) =
      Settings.ofOptions options := by
  cases options with
  | nil => rfl
  | cons entry rest => rfl

theorem ofSettings_eq_ok {settings : Settings} (made : ofSettings settings = .ok policy) :
    policy.apiBase = settings.apiUrl ∧ policy.organizations = distinct settings.organizations ∧
      policy.repositories = .ofList settings.repositories ∧
      policy.timeout = .real settings.timeout := by
  unfold ofSettings at made
  split at made <;> cases made
  exact ⟨rfl, rfl, rfl, rfl⟩

theorem settings_of_ok (made : (ofOptions (.mapping options)).2 = .ok policy) :
    ∃ settings, (Settings.ofOptions options).2 = .ok settings ∧ ofSettings settings = .ok policy := by
  unfold ofOptions at made
  rw [ofDatum_of_mapping] at made
  cases given : (Settings.ofOptions options).2 with
  | error refusal =>
    simp only [given] at made
    cases refusal <;> cases made
  | ok settings =>
    simp only [given] at made
    refine ⟨settings, rfl, ?_⟩
    cases accepted : ofSettings settings with
    | error error =>
      rw [accepted] at made
      cases made
    | ok other =>
      rw [accepted] at made
      cases made
      rfl

/-- What options come to: the start breaks, or they are refused, or they make a policy with the realm
that they give. -/
theorem ofOptions_cases (options : Options) :
    (ofOptions (.mapping options)).2 = .error (.fault .overflow) ∧ TimeoutOverflows options ∨
      (∃ error, (ofOptions (.mapping options)).2 = .error (.config error)) ∧
        ¬ TimeoutOverflows options ∧
        ((∀ realm, ¬ GivesRealm options realm) ∨ TimeoutNotNumber options) ∨
      (∃ policy, (ofOptions (.mapping options)).2 = .ok policy ∧ GivesRealm options policy.realm) ∧
        ¬ TimeoutOverflows options ∧ ¬ TimeoutNotNumber options := by
  unfold ofOptions
  rw [ofDatum_of_mapping]
  dsimp only
  rcases Settings.ofOptions_cases options with ⟨broken, large⟩ | ⟨⟨issues, refused⟩, fits, why⟩ |
    ⟨⟨settings, made, gives⟩, fits, number⟩
  · rw [broken]
    exact .inl ⟨rfl, large⟩
  · rw [refused]
    exact .inr (.inl ⟨⟨_, rfl⟩, fits, why⟩)
  · obtain ⟨policy, accepted, realm⟩ := ofSettings_of_realm gives.ne_empty
    have mapped : (ofSettings settings).mapError StartupError.config = .ok policy := by
      rw [accepted]
      rfl
    rw [made]
    exact .inr (.inr ⟨⟨policy, mapped, realm ▸ gives⟩, fits, number⟩)

theorem givesRealm_of_ok (made : (ofOptions (.mapping options)).2 = .ok policy) :
    GivesRealm options policy.realm := by
  rcases ofOptions_cases options with ⟨broken, -⟩ | ⟨⟨error, refused⟩, -⟩ | ⟨⟨other, same, gives⟩, -⟩
  · rw [broken] at made
    cases made
  · rw [refused] at made
    cases made
  · rw [same] at made
    cases made
    exact gives

/-- The realm alone decides: a text that is not blank makes a policy, and without one the
configuration is refused. -/
def RealmDecides (options : Options) (outcome : Except StartupError AccessPolicy) : Prop :=
  ((∃ realm, TextRealm options realm) → ∃ policy, outcome = .ok policy) ∧
    ((¬ ∃ realm, TextRealm options realm) → ∃ error, outcome = .error (.config error))

/-- What decides about options. -/
structure Decided (options : Options) (outcome : Except StartupError AccessPolicy) : Prop where
  accepted : (∃ policy, outcome = .ok policy) ↔
    (∃ realm, GivesRealm options realm) ∧ ¬ TimeoutNotNumber options ∧ ¬ TimeoutOverflows options
  refused : (∃ error, outcome = .error (.config error)) ↔
    ((¬ ∃ realm, GivesRealm options realm) ∨ TimeoutNotNumber options) ∧ ¬ TimeoutOverflows options
  broken : ∀ fault, outcome = .error (.fault fault) ↔ fault = .overflow ∧ TimeoutOverflows options
  realm : ∀ policy, outcome = .ok policy → ∀ realm, GivesRealm options realm ↔ realm = policy.realm
  /-- The realm is all that decides, unless the time limit is NaN or too large or the realm is given
  in bytes. -/
  byRealm : RealmDecides options outcome ↔ ¬ TimeoutOverflows options ∧
    ((∃ realm, TextRealm options realm) → ¬ TimeoutNotNumber options) ∧
    ((∃ realm, BytesRealm options realm) → TimeoutNotNumber options)

theorem not_realmDecides_fault {fault : Fault} : ¬ RealmDecides options (.error (.fault fault)) := by
  rintro ⟨given, missing⟩
  by_cases said : ∃ realm, TextRealm options realm
  · obtain ⟨policy, impossible⟩ := given said
    cases impossible
  · obtain ⟨error, impossible⟩ := missing said
    cases impossible

theorem realmDecides_config_iff {error : ConfigError} :
    RealmDecides options (.error (.config error)) ↔ ¬ ∃ realm, TextRealm options realm := by
  constructor
  · rintro ⟨given, -⟩ said
    obtain ⟨policy, impossible⟩ := given said
    cases impossible
  · intro unsaid
    exact ⟨fun said => absurd said unsaid, fun _ => ⟨error, rfl⟩⟩

theorem realmDecides_ok_iff :
    RealmDecides options (.ok policy) ↔ ∃ realm, TextRealm options realm := by
  constructor
  · rintro ⟨-, missing⟩
    by_contra unsaid
    obtain ⟨error, impossible⟩ := missing unsaid
    cases impossible
  · intro said
    exact ⟨fun _ => ⟨policy, rfl⟩, fun unsaid => absurd said unsaid⟩

theorem not_textRealm_iff (fits : ¬ TimeoutOverflows options)
    (why : (∀ realm, ¬ GivesRealm options realm) ∨ TimeoutNotNumber options) :
    (¬ ∃ realm, TextRealm options realm) ↔ ¬ TimeoutOverflows options ∧
      ((∃ realm, TextRealm options realm) → ¬ TimeoutNotNumber options) ∧
      ((∃ realm, BytesRealm options realm) → TimeoutNotNumber options) := by
  constructor
  · intro unsaid
    refine ⟨fits, fun said => absurd said unsaid, ?_⟩
    rintro ⟨realm, bytes⟩
    exact why.resolve_left fun nothing => nothing realm (.inr bytes)
  · rintro ⟨-, number, -⟩ ⟨realm, text⟩
    rcases why with nothing | notNumber
    · exact nothing realm (.inl text)
    · exact number ⟨realm, text⟩ notNumber

theorem textRealm_iff {realm : String} (gives : GivesRealm options realm)
    (fits : ¬ TimeoutOverflows options) (number : ¬ TimeoutNotNumber options) :
    (∃ realm, TextRealm options realm) ↔ ¬ TimeoutOverflows options ∧
      ((∃ realm, TextRealm options realm) → ¬ TimeoutNotNumber options) ∧
      ((∃ realm, BytesRealm options realm) → TimeoutNotNumber options) := by
  constructor
  · rintro ⟨realm, text⟩
    refine ⟨fits, fun _ => number, ?_⟩
    rintro ⟨other, bytes⟩
    exact absurd bytes text.not_bytesRealm
  · rintro ⟨-, -, bytesFail⟩
    rcases gives with text | bytes
    · exact ⟨realm, text⟩
    · exact absurd (bytesFail ⟨realm, bytes⟩) number

/-- Every options mapping is decided by its realm and its time limit. -/
theorem ofOptions_decided (options : Options) :
    Decided options (ofOptions (.mapping options)).2 := by
  rcases ofOptions_cases options with ⟨broken, large⟩ | ⟨⟨error, refused⟩, fits, why⟩ |
    ⟨⟨policy, made, gives⟩, fits, number⟩
  · rw [broken]
    refine ⟨by simp [large], by simp [large], by simp [large, eq_comm], by simp, ?_⟩
    exact ⟨fun decides => absurd decides not_realmDecides_fault, fun within => absurd large within.1⟩
  · rw [refused]
    refine ⟨?_, ?_, by simp [fits], by simp, ?_⟩
    · constructor
      · rintro ⟨policy, impossible⟩
        cases impossible
      · rintro ⟨⟨realm, gives⟩, number, -⟩
        exact absurd gives (why.resolve_right number realm)
    · exact ⟨fun _ => ⟨why.imp_left not_exists.mpr, fits⟩, fun _ => ⟨error, rfl⟩⟩
    · exact realmDecides_config_iff.trans (not_textRealm_iff fits why)
  · rw [made]
    refine ⟨?_, ?_, by simp [fits], ?_, ?_⟩
    · exact ⟨fun _ => ⟨⟨policy.realm, gives⟩, number, fits⟩, fun _ => ⟨policy, rfl⟩⟩
    · constructor
      · rintro ⟨error, impossible⟩
        cases impossible
      · rintro ⟨nothing | notNumber, -⟩
        · exact absurd ⟨policy.realm, gives⟩ nothing
        · exact absurd notNumber number
    · intro other same realm
      cases same
      constructor
      · exact fun given => given.eq gives
      · rintro rfl
        exact gives
    · exact realmDecides_ok_iff.trans (textRealm_iff gives fits number)

/-- An integer beyond double precision breaks the start, NaN has a realm refused, and a realm in bytes
is taken though it is no text. -/
theorem realm_not_decides :
    (¬ RealmDecides [("realm", .text "r"), ("timeout", .int (Nat.pow 10 400))]
      (ofOptions (.mapping [("realm", .text "r"), ("timeout", .int (Nat.pow 10 400))])).2) ∧
    (¬ RealmDecides [("realm", .text "r"), ("timeout", .real .nan)]
      (ofOptions (.mapping [("realm", .text "r"), ("timeout", .real .nan)])).2) ∧
    ¬ RealmDecides [("realm", .bytes [0x72])]
      (ofOptions (.mapping [("realm", .bytes [0x72])])).2 := by
  have tooLarge : (ofOptions (.mapping [("realm", .text "r"), ("timeout", .int (Nat.pow 10 400))])).2 =
      .error (.fault .overflow) := by decide +kernel
  have notNumber : (ofOptions (.mapping [("realm", .text "r"), ("timeout", .real .nan)])).2 =
      .error (.config (.invalidOptions [⟨some "timeout", .notPositive⟩])) := by decide +kernel
  have taken : (ofOptions (.mapping [("realm", .bytes [0x72])])).2 = .ok (.ofRealm "r" (by decide)) := by
    decide +kernel
  rw [tooLarge, notNumber, taken, realmDecides_config_iff, realmDecides_ok_iff]
  refine ⟨not_realmDecides_fault, fun unsaid => unsaid ⟨"r", ?_⟩, ?_⟩
  · exact ⟨"r", rfl, ⟨'r', by decide, by decide⟩, by decide⟩
  · rintro ⟨realm, text, given, -⟩
    cases given

end AccessPolicy

end RegistryGate
