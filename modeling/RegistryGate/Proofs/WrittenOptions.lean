import Mathlib.Data.List.DropRight
import RegistryGate.Proofs.AllowLists

/-!
# Policies written as options

The fields of a policy are values that its options may have. Written as options they are read without a
warning and give the same policy back, unless options of slashes alone left the base URL empty, for the
empty text stands for the default, or the realm was given in bytes with white space around it, which a
text loses (`written_readBack`). What is read then comes back as it is.
-/

namespace RegistryGate

/-! ## Values that are read as they are -/

/-- What trimming leaves is trimmed. -/
theorem Text.trim_trim (text : List Char) : trim (trim text) = trim text := by
  let body := text.dropWhile isBlankChar
  have leads := List.rdropWhile_prefix isBlankChar body
  have front : (body.rdropWhile isBlankChar).dropWhile isBlankChar = body.rdropWhile isBlankChar := by
    rw [List.dropWhile_eq_self_iff]
    intro long
    rw [leads.getElem long]
    exact List.dropWhile_get_zero_not isBlankChar text (Nat.lt_of_lt_of_le long leads.length_le)
  calc trim (trim text)
      = ((body.rdropWhile isBlankChar).dropWhile isBlankChar).rdropWhile isBlankChar := rfl
    _ = (body.rdropWhile isBlankChar).rdropWhile isBlankChar := by rw [front]
    _ = trim text := List.rdropWhile_idempotent isBlankChar body

/-- Sets with the same members are the same. -/
theorem NameSet.eq_of_mem_iff {one other : NameSet} (same : ∀ name, name ∈ one ↔ name ∈ other) :
    one = other := by
  have nodup (set : NameSet) : set.names.Nodup := set.increasing.imp String.ne_of_lt
  have perm : one.names.Perm other.names := (List.perm_ext_iff_of_nodup (nodup one) (nodup other)).mpr same
  have names := perm.eq_of_pairwise (fun _ _ _ _ less greater => absurd greater (String.lt_asymm less))
    one.increasing other.increasing
  cases one
  cases other
  cases names
  rfl

namespace Binary64

/-- A fraction of at least a whole unit is not rounded to nothing. -/
theorem roundHalfEven_pos {num den : Nat} (whole : 0 < num / den) : 0 < roundHalfEven num den := by
  unfold roundHalfEven
  dsimp only
  split
  · exact Nat.succ_pos _
  · exact whole

/-- A whole number that is not zero is positive in double precision. -/
theorem isPositive_ofRatio_whole {num : Nat} (pos : 0 < num) : (ofRatio false num 1).isPositive = true := by
  have digits : 0 < (scale num 1 ((num.log2 : Int) - 52)).1 / (scale num 1 ((num.log2 : Int) - 52)).2 :=
    Nat.lt_of_lt_of_le (Nat.two_pow_pos 52) (pow_le_scale_whole pos)
  have rounded := roundHalfEven_pos digits
  unfold ofRatio
  rw [if_neg (Nat.pos_iff_ne_zero.mp pos), exponentOf_whole pos]
  dsimp only
  generalize roundHalfEven _ _ = mantissa at rounded ⊢
  by_cases carry : mantissa = Nat.pow 2 53
  · rw [if_pos carry]
    split
    · rfl
    · rfl
  · rw [if_neg carry]
    split
    · rfl
    · simpa [isPositive] using Nat.pos_iff_ne_zero.mp rounded

/-- A positive integer is positive in double precision, if it has a place there. -/
theorem isPositive_of_ofInt? {value : Int} {number : Binary64} (positive : 0 < value)
    (read : ofInt? value = some number) : number.isPositive = true := by
  have sign : decide (value < 0) = false := decide_eq_false (by omega)
  have given : ofRatio false value.natAbs 1 = number := by
    unfold ofInt? at read
    rw [sign] at read
    split at read
    · cases read
    · exact Option.some.inj read
  rw [← given]
  exact isPositive_ofRatio_whole (by omega)

end Binary64

/-- A list in which no name stands twice has no repetitions to lose. -/
theorem AccessPolicy.distinct_of_nodup {names : List String} (nodup : names.Nodup) :
    distinct names = names := by
  induction names with
  | nil => rfl
  | cons first rest ih =>
    obtain ⟨fresh, others⟩ := List.nodup_cons.mp nodup
    rw [distinct, ih others, List.filter_eq_self.mpr]
    intro name member
    exact decide_eq_true (ne_of_mem_of_not_mem member fresh)

namespace Settings

/-- A text without the white space around it, as a realm is read. -/
def tidy (text : String) : String := String.ofList (Text.trim text.toList)

/-- The base URL that the options give is slashes and nothing else. -/
def SlashesOnly (options : Options) : Prop :=
  ∃ count, Entries.get? options "api_url" =
    some (.text (String.ofList (List.replicate (count + 1) '/')))

/-- The realm is given in bytes that hold white space at an end. -/
def PaddedBytes (options : Options) : Prop :=
  ∃ realm, BytesRealm options realm ∧ tidy realm ≠ realm

variable {options : Options}

theorem tidy_tidy (text : String) : tidy (tidy text) = tidy text := by
  rw [tidy, tidy, String.toList_ofList, Text.trim_trim]

theorem ofList_replicate_ne_empty (count : Nat) (c : Char) :
    String.ofList (List.replicate (count + 1) c) ≠ "" := by
  intro empty
  have := congrArg String.toList empty
  rw [String.toList_ofList] at this
  cases this

theorem defaultApiUrl_ends : defaultApiUrl.toList.getLast? ≠ some '/' ∧ defaultApiUrl ≠ "" := by
  decide

/-- A base URL that has been read does not end in a slash, and it is empty just if the options give
slashes alone. -/
theorem readApiUrl_ends (options : Options) :
    (readApiUrl (lookup? options ["api_url"])).2.toList.getLast? ≠ some '/' ∧
      ((readApiUrl (lookup? options ["api_url"])).2 = "" ↔ SlashesOnly options) := by
  rw [lookup?_singleton]
  unfold SlashesOnly
  cases Entries.get? options "api_url" with
  | none => simpa [readApiUrl] using defaultApiUrl_ends
  | some value =>
    cases value with
    | text text =>
      simp only [Option.some.injEq, Datum.text.injEq, readApiUrl]
      by_cases empty : text = ""
      · rw [if_pos empty]
        refine ⟨defaultApiUrl_ends.1, iff_of_false defaultApiUrl_ends.2 ?_⟩
        rintro ⟨count, slashes⟩
        exact ofList_replicate_ne_empty count '/' (slashes.symm.trans empty)
      · rw [if_neg empty, String.toList_ofList, ← String.toList_inj, String.toList_ofList]
        obtain ⟨last, -⟩ := Text.dropTrailing_eq_iff.mp (Eq.refl (Text.dropTrailing '/' text.toList))
        refine ⟨last, ?_⟩
        rw [String.toList_empty, Text.dropTrailing_eq_iff]
        simp only [List.nil_append]
        constructor
        · rintro ⟨-, count, slashes⟩
          cases count with
          | zero => exact absurd (String.toList_inj.mp slashes) empty
          | succ count => exact ⟨count, by rw [← slashes, String.ofList_toList]⟩
        · rintro ⟨count, rfl⟩
          exact ⟨by simp, count + 1, String.toList_ofList⟩
    | _ => simpa [readApiUrl] using defaultApiUrl_ends

/-- A time limit that is taken is positive. -/
theorem isPositive_of_readTimeout {value : Option (Datum String)} {seconds : Binary64}
    (read : (readTimeout value).2 = .ok seconds) : seconds.isPositive = true := by
  have byDefault : defaultTimeout.isPositive = true := by decide
  unfold readTimeout at read
  split at read
  · cases read
    exact byDefault
  · cases read
    exact byDefault
  · split at read
    · cases read
      exact byDefault
    · rename_i positive
      split at read
      · rename_i given
        cases read
        exact Binary64.isPositive_of_ofInt? (Int.not_le.mp positive) given
      · cases read
  · split at read
    · cases read
      exact byDefault
    · split at read
      · rename_i positive
        cases read
        exact positive
      · cases read
  · cases read
    exact byDefault

theorem keepNames_text (option : String) {names : List String} (present : "" ∉ names) :
    keepNames option (names.map .text) = ([], names) := by
  have kept : (names.map Datum.text).filterMap name? = names := by
    rw [List.filterMap_map]
    refine (List.filterMap_congr ?_).trans List.filterMap_some
    intro name member
    exact name?_eq_some_iff.mpr ⟨ne_of_mem_of_not_mem member present, rfl⟩
  unfold keepNames
  dsimp only
  rw [kept, if_pos (by rw [List.length_map])]

end Settings

/-- A time limit as a value of the options. -/
def Seconds.datum : Seconds → Datum String
  | .whole value => .int value
  | .real value => .real value

namespace AccessPolicy

open Settings

/-- The options that the fields of a policy are, its repositories listed in some order. -/
def written (policy : AccessPolicy) (listing : List String) : Options :=
  [("realm", .text policy.realm),
    ("api_url", .text policy.apiBase),
    ("claims_enabled", .bool policy.claimsEnabled),
    ("expected_audience", .text policy.expectedAudience),
    ("allowed_orgs", .tuple (policy.organizations.map .text)),
    ("allowed_repos", .list (listing.map .text)),
    ("timeout", policy.timeout.datum)]

/-- A listing holds the repositories of a policy and nothing else. -/
def Listing (policy : AccessPolicy) (listing : List String) : Prop :=
  ∀ name, name ∈ listing ↔ name ∈ policy.repositories

/-- However its repositories are listed, a policy written as options comes back as it is, without a
warning. -/
def Restored (policy : AccessPolicy) : Prop :=
  ∀ listing, policy.Listing listing →
    ofOptions (.mapping (policy.written listing)) = ([], .ok policy)

/-- A policy with a realm as it is read from a text, and with the default for an empty base URL. -/
def settled (policy : AccessPolicy) (seen : tidy policy.realm ≠ "") : AccessPolicy :=
  { policy with
    realm := tidy policy.realm
    apiBase := if policy.apiBase = "" then defaultApiUrl else policy.apiBase
    realm_ne_empty := seen }

/-- How a policy is read back that was written as options: without a warning, and refused if its realm
is blank. Else it is settled, and from then on comes back as it is. -/
structure ReadBack (policy : AccessPolicy) (outcome : Warned (Except StartupError AccessPolicy)) :
    Prop where
  quiet : outcome.1 = []
  refused : tidy policy.realm = "" →
    outcome.2 = .error (.config (.invalidOptions [⟨some "realm", .emptyText⟩]))
  accepted : ∀ seen : tidy policy.realm ≠ "",
    outcome.2 = .ok (policy.settled seen) ∧ (policy.settled seen).Restored

/-- The fields of a policy are as options are read. -/
structure Normal (policy : AccessPolicy) : Prop where
  base : policy.apiBase.toList.getLast? ≠ some '/'
  once : policy.organizations.Nodup
  organizations : "" ∉ policy.organizations
  repositories : "" ∉ policy.repositories
  timeout : ∃ seconds, policy.timeout = .real seconds ∧ seconds.isPositive = true

variable {options : Options} {policy : AccessPolicy} {listing : List String}

/-- Options make a policy with fields as they are read, and leave its base URL empty just if they give
slashes alone. -/
theorem normal_of_ok (made : (ofOptions (.mapping options)).2 = .ok policy) :
    Normal policy ∧ (policy.apiBase = "" ↔ SlashesOnly options) := by
  obtain ⟨settings, given, accepted⟩ := settings_of_ok made
  obtain ⟨base, -, -, limit⟩ := ofSettings_eq_ok accepted
  obtain ⟨url, -, -, seconds⟩ := read_of_ok given
  obtain ⟨last, empty⟩ := readApiUrl_ends options
  obtain ⟨organizations, repositories⟩ := lists_of_ok made
  have named (option : String) : "" ∉ (entries options option).filterMap name? := by
    intro member
    exact (mem_filterMap_name?_iff.mp member).1 rfl
  rw [url, ← base] at last empty
  refine ⟨⟨last, ?_, ?_, ?_, ⟨_, limit, isPositive_of_readTimeout seconds⟩⟩, empty⟩
  · rw [organizations]
    exact nodup_distinct _
  · rw [organizations, mem_distinct]
    exact named _
  · rw [repositories, NameSet.mem_ofList]
    exact named _

/-! ## What is read from a policy -/

/-- A policy written as options is settled or refused. -/
theorem Normal.ofOptions_written (normal : Normal policy) (lists : policy.Listing listing) :
    ofOptions (.mapping (policy.written listing)) = ([],
      if seen : tidy policy.realm = "" then
        .error (.config (.invalidOptions [⟨some "realm", .emptyText⟩]))
      else .ok (policy.settled seen)) := by
  obtain ⟨seconds, limit, positive⟩ := normal.timeout
  have realm : readRealm (lookup? (policy.written listing) ["realm"]) =
      if tidy policy.realm = "" then .error [⟨some "realm", .emptyText⟩] else .ok (tidy policy.realm) := rfl
  have url : readApiUrl (lookup? (policy.written listing) ["api_url"]) =
      ([], if policy.apiBase = "" then defaultApiUrl else policy.apiBase) := by
    show ([], if policy.apiBase = "" then defaultApiUrl
      else String.ofList (Text.dropTrailing '/' policy.apiBase.toList)) = _
    rw [Text.dropTrailing_of_getLast?_ne normal.base, String.ofList_toList]
  have flag : readFlag (lookup? (policy.written listing) ["claims_enabled", "enable_oidc"]) =
      ([], policy.claimsEnabled) := rfl
  have audience : readAudience (lookup? (policy.written listing) ["expected_audience", "oidc_audience"]) =
      ([], policy.expectedAudience) := rfl
  have organizations : readNames "allowed_orgs" (lookup? (policy.written listing) ["allowed_orgs"]) =
      ([], policy.organizations) := keepNames_text _ normal.organizations
  have repositories : readNames "allowed_repos" (lookup? (policy.written listing) ["allowed_repos"]) =
      ([], listing) := keepNames_text _ (mt (lists "").mp normal.repositories)
  have timeout : readTimeout (lookup? (policy.written listing) ["timeout"]) = ([], .ok seconds) := by
    show readTimeout (some policy.timeout.datum) = _
    rw [limit, Seconds.datum, readTimeout, if_pos positive, if_neg]
    rw [Binary64.not_isNonpositive_of_isPositive positive]
    exact Bool.false_ne_true
  have names : NameSet.ofList listing = policy.repositories :=
    NameSet.eq_of_mem_iff fun name => NameSet.mem_ofList.trans (lists name)
  unfold ofOptions
  rw [ofDatum_of_mapping]
  unfold Settings.ofOptions
  simp only [realm, url, flag, audience, organizations, repositories, timeout]
  by_cases blank : tidy policy.realm = ""
  · simp only [if_pos blank, dif_pos blank, List.append_nil]
  · simp only [if_neg blank, dif_neg blank, List.append_nil, ofSettings, distinct_of_nodup normal.once,
      names, ← limit]
    rfl

theorem settled_realm (seen : tidy policy.realm ≠ "") : (policy.settled seen).realm = tidy policy.realm := by
  unfold settled
  rfl

theorem settled_apiBase_ne_empty (seen : tidy policy.realm ≠ "") : (policy.settled seen).apiBase ≠ "" := by
  unfold settled
  dsimp only
  split
  · exact defaultApiUrl_ends.2
  · assumption

theorem Normal.settled (normal : Normal policy) (seen : tidy policy.realm ≠ "") :
    Normal (policy.settled seen) := by
  obtain ⟨base, once, organizations, repositories, timeout⟩ := normal
  unfold AccessPolicy.settled
  refine ⟨?_, once, organizations, repositories, timeout⟩
  dsimp only
  split
  · exact defaultApiUrl_ends.1
  · exact base

/-- A policy comes back as it is just if there is no white space around its realm and its base URL is
not empty. -/
theorem Normal.restored_iff (normal : Normal policy) :
    policy.Restored ↔ tidy policy.realm = policy.realm ∧ policy.apiBase ≠ "" := by
  constructor
  · intro restored
    have back := restored policy.repositories.names fun _ => Iff.rfl
    rw [normal.ofOptions_written fun _ => Iff.rfl] at back
    injection back with _ outcome
    split at outcome
    · cases outcome
    · rename_i seen
      have same : policy.settled seen = policy := Except.ok.inj outcome
      refine ⟨(settled_realm seen).symm.trans (congrArg realm same), fun empty => ?_⟩
      exact settled_apiBase_ne_empty seen ((congrArg apiBase same).trans empty)
  · rintro ⟨realm, base⟩ listing lists
    have seen : tidy policy.realm ≠ "" := by
      rw [realm]
      exact policy.realm_ne_empty
    have same : policy.settled seen = policy := by
      unfold AccessPolicy.settled
      simp only [realm, if_neg base]
    rw [normal.ofOptions_written lists, dif_neg seen, same]

theorem Normal.restored_settled (normal : Normal policy) (seen : tidy policy.realm ≠ "") :
    (policy.settled seen).Restored := by
  rw [(normal.settled seen).restored_iff, settled_realm]
  exact ⟨tidy_tidy policy.realm, settled_apiBase_ne_empty seen⟩

/-- A realm has white space around it just if it is given so in bytes. -/
theorem tidy_eq_iff (gives : GivesRealm options policy.realm) :
    tidy policy.realm = policy.realm ↔ ¬ PaddedBytes options := by
  constructor
  · rintro same ⟨realm, bytes, padded⟩
    rw [gives.eq (.inr bytes)] at same
    exact padded same
  · intro unpadded
    rcases gives with ⟨text, -, -, read⟩ | bytes
    · rw [read]
      exact tidy_tidy text
    · by_contra padded
      exact unpadded ⟨policy.realm, bytes, padded⟩

/-- A policy that options make comes back when it is written as options, unless the options gave slashes
alone as the base URL, or the realm in bytes with white space at an end. In any case it is read without
a warning, refused just if its realm is blank, and comes back as it is from then on. -/
theorem written_readBack (made : (ofOptions (.mapping options)).2 = .ok policy) :
    (policy.Restored ↔ ¬ SlashesOnly options ∧ ¬ PaddedBytes options) ∧
      ∀ listing, policy.Listing listing →
        policy.ReadBack (ofOptions (.mapping (policy.written listing))) := by
  obtain ⟨normal, empty⟩ := normal_of_ok made
  constructor
  · rw [normal.restored_iff, tidy_eq_iff (givesRealm_of_ok made), Ne, empty, and_comm]
  · intro listing lists
    rw [normal.ofOptions_written lists]
    refine ⟨rfl, fun blank => ?_, fun seen => ?_⟩
    · rw [dif_pos blank]
    · rw [dif_neg seen]
      exact ⟨rfl, normal.restored_settled seen⟩

/-- Options with lists that repeat names and white space around the realm. -/
def untidyOptions : Options :=
  [("realm", .text " registry "), ("api_url", .text "https://github.test/api/v3//"),
    ("allowed_orgs", .list [.text "beta", .text "alpha", .text "beta"]),
    ("allowed_repos", .list [.text "o/r", .text "o/q", .text "o/r"]), ("timeout", .int 3)]

/-- Their policy comes back, in whatever order its repositories are listed. -/
theorem untidyOptions_written :
    ∃ policy, (ofOptions (.mapping untidyOptions)).2 = .ok policy ∧
      policy.realm = "registry" ∧ policy.apiBase = "https://github.test/api/v3" ∧
      policy.Listing ["o/r", "o/q"] ∧
      ofOptions (.mapping (policy.written ["o/r", "o/q"])) = ([], .ok policy) := by
  have made : (ofOptions (.mapping untidyOptions)).2 = .ok
      { ofRealm "registry" (by decide) with
        apiBase := "https://github.test/api/v3"
        organizations := ["beta", "alpha"]
        repositories := .ofList ["o/q", "o/r"]
        timeout := .real (.finite false (3 * Nat.pow 2 51) (-51)) } := by
    decide +kernel
  have lists (name : String) : name ∈ ["o/r", "o/q"] ↔ name ∈ NameSet.ofList ["o/q", "o/r"] := by
    simp [NameSet.mem_ofList, or_comm]
  refine ⟨_, made, rfl, rfl, lists, (written_readBack made).1.mpr ⟨?_, ?_⟩ _ lists⟩
  · rintro ⟨count, slashes⟩
    have first := congrArg (fun value => value.map fun text => text.display.toList.head?) slashes
    simp [untidyOptions, Entries.get?, Datum.display, List.replicate_succ] at first
  · rintro ⟨realm, ⟨bytes, given, -, -⟩, -⟩
    cases given

/-- A base URL of one slash leaves an empty one, which as an option stands for the default; a blank realm
in bytes is taken, and refused as a text. -/
theorem not_restored :
    (∃ policy, (ofOptions (.mapping [("realm", .text "r"), ("api_url", .text "/")])).2 = .ok policy ∧
      policy.apiBase = "" ∧ ¬ policy.Restored) ∧
    ∃ policy, (ofOptions (.mapping [("realm", .bytes [0x20])])).2 = .ok policy ∧
      policy.realm = " " ∧ ¬ policy.Restored := by
  have slash : (ofOptions (.mapping [("realm", .text "r"), ("api_url", .text "/")])).2 =
      .ok { ofRealm "r" (by decide) with apiBase := "" } := by decide +kernel
  have blank : (ofOptions (.mapping [("realm", .bytes [0x20])])).2 = .ok (ofRealm " " (by decide)) := by
    decide +kernel
  refine ⟨⟨_, slash, rfl, ?_⟩, _, blank, rfl, ?_⟩
  · rw [(normal_of_ok slash).1.restored_iff]
    rintro ⟨-, base⟩
    exact base rfl
  · rw [(normal_of_ok blank).1.restored_iff]
    rintro ⟨realm, -⟩
    have trimmed : tidy " " = "" := by decide +kernel
    exact absurd (trimmed.symm.trans realm) (by decide)

end AccessPolicy

end RegistryGate
