import RegistryGate.Proofs.Options

/-!
# Allow-lists

An option with a list of names gives the policy just the names that stand in it: the organizations in
order of first appearance, each once, and the repositories as a set (`ofOptions_lists`). So a list is
empty, and everybody allowed, only if no name stands in the option; and whatever else is left out leaves
one warning about that option.
-/

namespace RegistryGate

/-! ## What stands in an option -/

/-- The option of a warning about a list of names. -/
def OptionWarning.list? : OptionWarning → Option String
  | .listIgnored option _ => some option
  | .entriesDropped option _ => some option
  | _ => none

namespace Settings

/-- The entries of an option with a list of names. A value that is neither a list nor a tuple has
none. -/
def entries (options : Options) (option : String) : List (Datum String) :=
  match Entries.get? options option with
  | some (.list entries) | some (.tuple entries) => entries
  | _ => []

/-- A name stands in an option. -/
def Names (options : Options) (option name : String) : Prop :=
  name ≠ "" ∧ .text name ∈ entries options option

/-- An entry is no name: it is no text, or the empty one. -/
def NoName (entry : Datum String) : Prop := ∀ name, name ≠ "" → entry ≠ .text name

/-- Something in an option is left out, and the warning that says so. -/
inductive Discarded (options : Options) (option : String) : OptionWarning → Prop where
  | whole {value : Datum String} (given : Entries.get? options option = some value)
    (present : value ≠ .null) (noList : ∀ items, value ≠ .list items)
    (noTuple : ∀ items, value ≠ .tuple items) : Discarded options option (.listIgnored option value)
  | part {entry : Datum String} (member : entry ∈ entries options option) (noName : NoName entry) :
    Discarded options option (.entriesDropped option
      ((entries options option).countP fun entry => (name? entry).isNone))

/-- One name appears in a list before the other does. -/
def AppearsBefore (items : List (Datum String)) (first second : String) : Prop :=
  ∃ front back, items = front ++ .text first :: back ∧ .text second ∉ front

/-- A list of the names in an option, each once and in order of first appearance. -/
structure Listed (options : Options) (option : String) (names : List String) : Prop where
  once : names.Nodup
  mem : ∀ name, name ∈ names ↔ Names options option name
  inOrder : names.Pairwise (AppearsBefore (entries options option))

/-- What the warnings say about a list of names: nothing, or the one thing that is left out. -/
structure Warns (options : Options) (option : String) (warnings : List OptionWarning) : Prop where
  told : ∀ warning, Discarded options option warning →
    warnings.filter (·.list? = some option) = [warning]
  silent : (¬ ∃ warning, Discarded options option warning) →
    warnings.filter (·.list? = some option) = []

variable {options : Options} {option name : String} {entry : Datum String}

theorem name?_eq_some_iff : name? entry = some name ↔ name ≠ "" ∧ entry = .text name := by
  cases entry with
  | text value =>
    by_cases empty : value = ""
    · simp only [empty, name?, reduceCtorEq, Datum.text.injEq, false_iff, not_and]
      intro present same
      exact present same.symm
    · simp only [name?, Option.some.injEq, Datum.text.injEq]
      constructor
      · rintro rfl
        exact ⟨empty, rfl⟩
      · exact And.right
  | _ => simp [name?]

theorem name?_eq_none_iff : name? entry = none ↔ NoName entry := by
  rw [Option.eq_none_iff_forall_ne_some]
  constructor
  · intro none name present same
    exact none name (name?_eq_some_iff.mpr ⟨present, same⟩)
  · intro noName name read
    obtain ⟨present, same⟩ := name?_eq_some_iff.mp read
    exact noName name present same

theorem mem_filterMap_name?_iff :
    name ∈ (entries options option).filterMap name? ↔ Names options option name := by
  simp only [List.mem_filterMap, name?_eq_some_iff, Names]
  constructor
  · rintro ⟨entry, member, present, rfl⟩
    exact ⟨present, member⟩
  · rintro ⟨present, member⟩
    exact ⟨_, member, present, rfl⟩

/-! ## Names without repetitions -/

end Settings

namespace AccessPolicy

open Settings

variable {name : String} {names : List String}

theorem mem_distinct : name ∈ distinct names ↔ name ∈ names := by
  induction names with
  | nil => rfl
  | cons first rest ih =>
    simp only [distinct, List.mem_cons, List.mem_filter, ih, decide_eq_true_eq]
    by_cases same : name = first
    · simp [same]
    · simp [same]

theorem nodup_distinct (names : List String) : (distinct names).Nodup := by
  induction names with
  | nil => exact List.nodup_nil
  | cons first rest ih =>
    rw [distinct, List.nodup_cons]
    refine ⟨?_, ih.filter _⟩
    intro member
    simpa using (List.mem_filter.mp member).2

/-- The names that are kept stand in the order in which they appear. -/
theorem pairwise_distinct (names : List String) :
    (distinct names).Pairwise fun first second =>
      ∃ front back, names = front ++ first :: back ∧ second ∉ front := by
  induction names with
  | nil => exact List.Pairwise.nil
  | cons name rest ih =>
    rw [distinct, List.pairwise_cons]
    constructor
    · intro second member
      exact ⟨[], rest, rfl, List.not_mem_nil⟩
    · have inOrder := ih.filter (· ≠ name)
      refine inOrder.imp_of_mem ?_
      rintro first second - kept ⟨front, back, rfl, absent⟩
      have other : second ≠ name := by simpa using (List.mem_filter.mp kept).2
      exact ⟨name :: front, back, rfl, List.not_mem_cons_of_ne_of_not_mem other absent⟩

end AccessPolicy

namespace Settings

variable {options : Options} {option name : String} {entry : Datum String}

/-- A name that is among the entries first is so among their names. -/
theorem appearsBefore_of_names {items : List (Datum String)} {first second : String}
    {front back : List String} (names : items.filterMap name? = front ++ first :: back)
    (present : second ≠ "") (absent : second ∉ front) : AppearsBefore items first second := by
  obtain ⟨early, late, rfl, fronts, rest⟩ := List.filterMap_eq_append_iff.mp names
  obtain ⟨between, entry, behind, rfl, nameless, read, -⟩ := List.filterMap_eq_cons_iff.mp rest
  obtain ⟨-, rfl⟩ := name?_eq_some_iff.mp read
  refine ⟨early ++ between, behind, by simp, ?_⟩
  intro member
  have named : name? (.text second) = some second := name?_eq_some_iff.mpr ⟨present, rfl⟩
  rcases List.mem_append.mp member with inside | inside
  · exact absent (fronts ▸ List.mem_filterMap.mpr ⟨_, inside, named⟩)
  · rw [nameless _ inside] at named
    cases named

theorem listed_distinct (options : Options) (option : String) :
    Listed options option (AccessPolicy.distinct ((entries options option).filterMap name?)) where
  once := AccessPolicy.nodup_distinct _
  mem _ := AccessPolicy.mem_distinct.trans mem_filterMap_name?_iff
  inOrder := by
    refine (AccessPolicy.pairwise_distinct _).imp_of_mem ?_
    rintro first second - kept ⟨front, back, names, absent⟩
    have named := mem_filterMap_name?_iff.mp (AccessPolicy.mem_distinct.mp kept)
    exact appearsBefore_of_names names named.1 absent

/-! ## Warnings -/

theorem readNames_snd (options : Options) (option : String) :
    (readNames option (lookup? options [option])).2 = (entries options option).filterMap name? := by
  rw [lookup?_singleton]
  unfold readNames entries keepNames
  cases Entries.get? options option with
  | none => rfl
  | some value =>
    cases value with
    | list items => dsimp only; split <;> rfl
    | tuple items => dsimp only; split <;> rfl
    | _ => rfl

theorem list?_of_discarded {warning : OptionWarning} (left : Discarded options option warning) :
    warning.list? = some option := by
  cases left <;> rfl

/-- An option whose value is no list has no entries. -/
theorem entries_of_other (noList : ∀ items, Entries.get? options option ≠ some (.list items))
    (noTuple : ∀ items, Entries.get? options option ≠ some (.tuple items)) :
    entries options option = [] := by
  unfold entries
  split
  · rename_i items given
    exact absurd given (noList items)
  · rename_i items given
    exact absurd given (noTuple items)
  · rfl

theorem Discarded.unique {first second : OptionWarning} (one : Discarded options option first)
    (other : Discarded options option second) : first = second := by
  -- A value that is itself left out has no entries.
  have bare {value : Datum String} (given : Entries.get? options option = some value)
      (noList : ∀ items, value ≠ .list items) (noTuple : ∀ items, value ≠ .tuple items) :
      entries options option = [] := by
    apply entries_of_other
    · simpa [given] using noList
    · simpa [given] using noTuple
  cases one with
  | whole given present noList noTuple =>
    cases other with
    | whole alsoGiven =>
      rw [given] at alsoGiven
      cases alsoGiven
      rfl
    | part member =>
      rw [bare given noList noTuple] at member
      cases member
  | part member noName =>
    cases other with
    | whole given present noList noTuple =>
      rw [bare given noList noTuple] at member
      cases member
    | part => rfl

theorem keepNames_cases (option : String) (items : List (Datum String)) :
    (keepNames option items).1 = [] ∧ (∀ entry ∈ items, ¬ NoName entry) ∨
      (keepNames option items).1 =
          [.entriesDropped option (items.countP fun entry => (name? entry).isNone)] ∧
        ∃ entry ∈ items, NoName entry := by
  unfold keepNames
  by_cases all : (items.filterMap name?).length = items.length
  · simp only [all, if_true]
    left
    refine ⟨trivial, ?_⟩
    intro entry member noName
    have named := List.filterMap_length_eq_length.mp all entry member
    rw [name?_eq_none_iff.mpr noName] at named
    cases named
  · simp only [all, if_false]
    right
    constructor
    · have parts := List.length_eq_countP_add_countP (l := items) fun entry => (name? entry).isSome
      simp only [Bool.not_eq_true, Option.isSome_eq_false_iff, Bool.decide_eq_true] at parts
      rw [← List.length_filterMap_eq_countP] at parts
      have rest : items.length - (items.filterMap name?).length =
          items.countP fun entry => (name? entry).isNone := by
        omega
      rw [rest]
    · by_contra none
      apply all
      rw [List.filterMap_length_eq_length]
      intro entry member
      by_contra nameless
      rw [Option.not_isSome_iff_eq_none, name?_eq_none_iff] at nameless
      exact none ⟨entry, member, nameless⟩

/-- Reading a list leaves a warning just if one of its entries is left out. -/
theorem readNames_of_list {items : List (Datum String)}
    (given : Entries.get? options option = some (.list items) ∨
      Entries.get? options option = some (.tuple items)) :
    (readNames option (lookup? options [option])).1 = [] ∧
        (¬ ∃ warning, Discarded options option warning) ∨
      ∃ warning, (readNames option (lookup? options [option])).1 = [warning] ∧
        Discarded options option warning := by
  have same : entries options option = items ∧
      readNames option (lookup? options [option]) = keepNames option items := by
    rw [entries, lookup?_singleton]
    rcases given with given | given
    · simp [given, readNames]
    · simp [given, readNames]
  rw [same.2]
  rcases keepNames_cases option items with ⟨nothing, named⟩ | ⟨dropped, entry, member, noName⟩
  · refine .inl ⟨nothing, ?_⟩
    rintro ⟨warning, left⟩
    cases left with
    | whole other present noList noTuple =>
      rcases given with given | given
      · exact noList items (Option.some.inj (other.symm.trans given))
      · exact noTuple items (Option.some.inj (other.symm.trans given))
    | part member noName =>
      rw [same.1] at member
      exact named _ member noName
  · right
    rw [dropped, ← same.1]
    rw [← same.1] at member
    exact ⟨_, rfl, .part member noName⟩

/-- Reading an option leaves a warning just if something in it is left out. -/
theorem readNames_cases (options : Options) (option : String) :
    (readNames option (lookup? options [option])).1 = [] ∧
        (¬ ∃ warning, Discarded options option warning) ∨
      ∃ warning, (readNames option (lookup? options [option])).1 = [warning] ∧
        Discarded options option warning := by
  by_cases listed : ∃ items, Entries.get? options option = some (.list items) ∨
      Entries.get? options option = some (.tuple items)
  · obtain ⟨items, given⟩ := listed
    exact readNames_of_list given
  have noList : ∀ items, Entries.get? options option ≠ some (.list items) :=
    fun items given => listed ⟨items, .inl given⟩
  have noTuple : ∀ items, Entries.get? options option ≠ some (.tuple items) :=
    fun items given => listed ⟨items, .inr given⟩
  have bare := entries_of_other noList noTuple
  rw [lookup?_singleton]
  cases given : Entries.get? options option with
  | none =>
    refine .inl ⟨rfl, ?_⟩
    rintro ⟨warning, left⟩
    cases left with
    | whole other => simp [given] at other
    | part member => simp [bare] at member
  | some value =>
    cases value with
    | null =>
      refine .inl ⟨rfl, ?_⟩
      rintro ⟨warning, left⟩
      cases left with
      | whole other present =>
        rw [given] at other
        exact present (Option.some.inj other).symm
      | part member => simp [bare] at member
    | list items => exact absurd given (noList items)
    | tuple items => exact absurd given (noTuple items)
    | _ => exact .inr ⟨_, rfl, .whole given (by simp) (by simp) (by simp)⟩

theorem filter_readNames (options : Options) (read option : String) :
    (readNames read (lookup? options [read])).1.filter (·.list? = some option) =
      if read = option then (readNames read (lookup? options [read])).1 else [] := by
  rcases readNames_cases options read with ⟨nothing, -⟩ | ⟨warning, told, left⟩
  · simp [nothing]
  · rw [told]
    by_cases same : read = option
    · simp [list?_of_discarded left, same]
    · simp [list?_of_discarded left, same]

/-- A warning about the API, a flag, the audience or the time limit is about no list of names. -/
theorem list?_of_mem_others {value : Option (Datum String)} {warning : OptionWarning}
    (member : warning ∈ (readApiUrl value).1 ∨ warning ∈ (readFlag value).1 ∨
      warning ∈ (readAudience value).1 ∨ warning ∈ (readTimeout value).1) : warning.list? = none := by
  rcases member with url | flag | audience | timeout
  · unfold readApiUrl at url
    split at url <;> simp_all [OptionWarning.list?]
  · unfold readFlag at flag
    split at flag <;> simp_all [OptionWarning.list?]
  · unfold readAudience at audience
    split at audience <;> simp_all [OptionWarning.list?]
  · unfold readTimeout at timeout
    split at timeout
    · cases timeout
    · cases timeout
    · split at timeout
      · simp_all [OptionWarning.list?]
      · split at timeout <;> cases timeout
    · split at timeout
      · simp_all [OptionWarning.list?]
      · split at timeout <;> cases timeout
    · simp_all [OptionWarning.list?]

/-- The warnings about an option with a list of names are those of reading it. -/
theorem filter_warnings (options : Options) (own : option = "allowed_orgs" ∨ option = "allowed_repos") :
    (ofOptions options).1.filter (·.list? = some option) =
      (readNames option (lookup? options [option])).1 := by
  have others {warnings : List OptionWarning} (silent : ∀ warning ∈ warnings, warning.list? = none) :
      warnings.filter (·.list? = some option) = [] := by
    rw [List.filter_eq_nil_iff]
    intro warning member
    simp [silent warning member]
  unfold ofOptions
  simp only [List.filter_append]
  rw [others fun _ member => list?_of_mem_others (.inl member),
    others fun _ member => list?_of_mem_others (.inr (.inl member)),
    others fun _ member => list?_of_mem_others (.inr (.inr (.inl member))),
    others fun _ member => list?_of_mem_others (.inr (.inr (.inr member))), filter_readNames,
    filter_readNames]
  rcases own with rfl | rfl
  · simp
  · simp

theorem warns (options : Options) (own : option = "allowed_orgs" ∨ option = "allowed_repos") :
    Warns options option (ofOptions options).1 := by
  have read := filter_warnings options own
  rcases readNames_cases options option with ⟨nothing, none⟩ | ⟨warning, told, left⟩
  · rw [nothing] at read
    exact ⟨fun warning left => absurd ⟨warning, left⟩ none, fun _ => read⟩
  · rw [told] at read
    refine ⟨fun other alsoLeft => ?_, fun none => absurd ⟨warning, left⟩ none⟩
    rw [left.unique alsoLeft] at read
    exact read

theorem names_of_ok {settings : Settings} (made : (ofOptions options).2 = .ok settings) :
    settings.organizations = (entries options "allowed_orgs").filterMap name? ∧
      settings.repositories = (entries options "allowed_repos").filterMap name? := by
  obtain ⟨-, organizations, repositories, -⟩ := read_of_ok made
  rw [← readNames_snd, ← readNames_snd]
  exact ⟨organizations.symm, repositories.symm⟩

end Settings

namespace AccessPolicy

open Settings

variable {options : Options} {policy : AccessPolicy}

theorem lists_of_ok (made : (ofOptions (.mapping options)).2 = .ok policy) :
    policy.organizations = distinct ((entries options "allowed_orgs").filterMap name?) ∧
      policy.repositories = .ofList ((entries options "allowed_repos").filterMap name?) := by
  obtain ⟨settings, given, accepted⟩ := settings_of_ok made
  obtain ⟨organizations, repositories⟩ := names_of_ok given
  obtain ⟨-, distinctNames, setOfNames, -⟩ := ofSettings_eq_ok accepted
  rw [distinctNames, setOfNames, organizations, repositories]
  exact ⟨rfl, rfl⟩

theorem warnings_ofOptions (options : Options) :
    (ofOptions (.mapping options)).1 = (Settings.ofOptions options).1 := by
  unfold ofOptions
  rw [ofDatum_of_mapping]

/-- A policy lists the organizations of its options in order of first appearance, each once, and holds
their repositories as a set; it lets everybody in only if no name stands in the option. Whatever else an
option with a list holds is left out with one warning about that option. -/
theorem ofOptions_lists (made : (ofOptions (.mapping options)).2 = .ok policy) :
    Listed options "allowed_orgs" policy.organizations ∧
      (∀ name, name ∈ policy.repositories ↔ Names options "allowed_repos" name) ∧
      (policy.organizations = [] ↔ ∀ name, ¬ Names options "allowed_orgs" name) ∧
      (policy.repositories.isEmpty = true ↔ ∀ name, ¬ Names options "allowed_repos" name) ∧
      ∀ option, option = "allowed_orgs" ∨ option = "allowed_repos" →
        Warns options option (ofOptions (.mapping options)).1 := by
  obtain ⟨organizations, repositories⟩ := lists_of_ok made
  have listed : Listed options "allowed_orgs" policy.organizations := by
    rw [organizations]
    exact listed_distinct options "allowed_orgs"
  have members (name : String) : name ∈ policy.repositories ↔ Names options "allowed_repos" name := by
    rw [repositories, NameSet.mem_ofList]
    exact mem_filterMap_name?_iff
  refine ⟨listed, members, ?_, ?_, ?_⟩
  · rw [List.eq_nil_iff_forall_not_mem]
    exact forall_congr' fun name => not_congr (listed.mem name)
  · rw [NameSet.isEmpty, List.isEmpty_iff, List.eq_nil_iff_forall_not_mem]
    exact forall_congr' fun name => not_congr (members name)
  · intro option own
    rw [warnings_ofOptions]
    exact warns options own

/-- Options with a list of organizations that repeats one and holds no names besides, and with a text
in place of a list of repositories. -/
def mixedOptions : Options :=
  [("realm", .text "registry"),
    ("allowed_orgs", .list [.text "beta", .int 1, .text "", .text "alpha", .text "beta"]),
    ("allowed_repos", .text "o/r")]

/-- Two organizations are listed in the order given, the repositories are not restricted, and either
option leaves its warning. -/
theorem mixedOptions_listed :
    ∃ policy, (ofOptions (.mapping mixedOptions)).2 = .ok policy ∧
      policy.organizations = ["beta", "alpha"] ∧
      Listed mixedOptions "allowed_orgs" policy.organizations ∧
      policy.repositories.isEmpty = true ∧
      (ofOptions (.mapping mixedOptions)).1.filter (·.list? = some "allowed_repos") =
        [.listIgnored "allowed_repos" (.text "o/r")] := by
  have made : (ofOptions (.mapping mixedOptions)).2 =
      .ok { ofRealm "registry" (by decide) with organizations := ["beta", "alpha"] } := by
    decide +kernel
  obtain ⟨listed, -, -, -, warns⟩ := ofOptions_lists made
  refine ⟨_, made, rfl, listed, rfl, ?_⟩
  have left : Discarded mixedOptions "allowed_repos" (.listIgnored "allowed_repos" (.text "o/r")) :=
    .whole rfl (by rintro ⟨⟩) (by rintro _ ⟨⟩) (by rintro _ ⟨⟩)
  exact (warns "allowed_repos" (.inr rfl)).told _ left

end AccessPolicy

end RegistryGate
