import RegistryGate.Json.Reader

/-!
# Values from documents

The reader of documents gives nothing but what a document can write (`plain_of_read`): bytes, tuples
and exceptions never come from the network, and in the strict dialect no surrogates. The texts of such
a value can be changed if each one that it may hold can be (`Plain.mapText?`).
-/

namespace RegistryGate

/-- A value of one of the kinds that a document can write, whose texts are all allowed. -/
inductive Datum.Plain {τ : Type} (allowed : τ → Prop) : Datum τ → Prop where
  | null : Plain allowed .null
  | bool (value : Bool) : Plain allowed (.bool value)
  | int (value : Int) : Plain allowed (.int value)
  | real (value : Binary64) : Plain allowed (.real value)
  | text {value : τ} (may : allowed value) : Plain allowed (.text value)
  | list {items : List (Datum τ)} (all : ∀ item ∈ items, Plain allowed item) :
    Plain allowed (.list items)
  | mapping {entries : List (τ × Datum τ)} (names : ∀ entry ∈ entries, allowed entry.1)
    (all : ∀ entry ∈ entries, Plain allowed entry.2) : Plain allowed (.mapping entries)

theorem eq_ok_of_toOption {ε δ : Type} {result : Except ε δ} {value : δ}
    (given : result.toOption = some value) : result = .ok value := by
  cases result with
  | error fault => cases given
  | ok other =>
    cases given
    rfl

namespace Json

theorem bind_eq_ok {ε α β : Type} {x : Except ε α} {next : α → Except ε β} {result : β}
    (h : (x >>= next) = .ok result) : ∃ value, x = .ok value ∧ next value = .ok result := by
  cases x with
  | error fault => cases h
  | ok value => exact ⟨value, rfl, h⟩

/-- A text that a dialect lets through. -/
def Dialect.Allows (dialect : Dialect) (text : WideText) : Prop :=
  dialect.admits text.points = true

variable {dialect : Dialect} {item : Input → Except ReadError (Document × Input)}

/-! ## One level -/

/-- Whatever a reader of values gives is plain, with texts that the dialect allows. -/
def GivesPlain (dialect : Dialect) (item : Input → Except ReadError (Document × Input)) : Prop :=
  ∀ input value rest, item input = .ok (value, rest) → value.Plain dialect.Allows

theorem allows_of_readString {input rest : Input} {text : WideText}
    (read : readString dialect input = .ok (text, rest)) : dialect.Allows text := by
  unfold readString at read
  split at read
  · dsimp only at read
    split at read
    case isTrue admitted =>
      cases read
      exact admitted
    case isFalse => cases read
  · cases read

theorem plain_of_readItems (plain : GivesPlain dialect item) {bound : Nat} {input rest : Input}
    {values : List Document} (read : readItems item bound input = .ok (values, rest)) :
    ∀ value ∈ values, value.Plain dialect.Allows := by
  induction bound generalizing input values rest with
  | zero => cases read
  | succ bound ih =>
    rw [readItems] at read
    obtain ⟨⟨value, behind⟩, first, read⟩ := bind_eq_ok read
    have plainFirst := plain _ _ _ first
    dsimp only at read
    split at read
    · cases read
    · split at read
      · obtain ⟨⟨others, last⟩, later, read⟩ := bind_eq_ok read
        cases read
        exact List.forall_mem_cons.mpr ⟨plainFirst, ih later⟩
      · split at read
        · cases read
          exact List.forall_mem_singleton.mpr plainFirst
        · cases read

theorem plain_of_readMembers (plain : GivesPlain dialect item) {bound : Nat} {input rest : Input}
    {members : List (WideText × Document)}
    (read : readMembers dialect item bound input = .ok (members, rest)) :
    ∀ member ∈ members, dialect.Allows member.1 ∧ member.2.Plain dialect.Allows := by
  induction bound generalizing input members rest with
  | zero => cases read
  | succ bound ih =>
    rw [readMembers] at read
    split at read
    · cases read
    · split at read
      · cases read
      · obtain ⟨⟨key, behind⟩, named, read⟩ := bind_eq_ok read
        have allowed := allows_of_readString named
        dsimp only at read
        split at read
        · cases read
        · split at read
          · cases read
          · obtain ⟨⟨value, behindValue⟩, first, read⟩ := bind_eq_ok read
            have plainFirst := plain _ _ _ first
            dsimp only at read
            split at read
            · cases read
            · split at read
              · obtain ⟨⟨others, last⟩, later, read⟩ := bind_eq_ok read
                cases read
                exact List.forall_mem_cons.mpr ⟨⟨allowed, plainFirst⟩, ih later⟩
              · split at read
                · cases read
                  exact List.forall_mem_singleton.mpr ⟨allowed, plainFirst⟩
                · cases read

theorem plain_of_readNumber {input rest : Input} {value : Document}
    (read : readNumber dialect input = .ok (value, rest)) : value.Plain dialect.Allows := by
  unfold readNumber at read
  dsimp only at read
  split at read
  · cases read
  · split at read
    · cases read
    · split at read
      · cases read
        exact .real _
      · split at read
        · cases read
          exact .int _
        · cases read
          exact .real _

theorem plain_of_readWord? {input rest : Input} {value : Document}
    (read : readWord? input = some (value, rest)) : value.Plain dialect.Allows := by
  obtain ⟨entry, member, found⟩ := List.exists_of_findSome?_eq_some read
  obtain ⟨behind, -, pair⟩ := Option.map_eq_some_iff.mp found
  cases pair
  simp only [words, List.mem_cons, List.not_mem_nil, or_false] at member
  rcases member with rfl | rfl | rfl | rfl | rfl | rfl
  · exact .null
  · exact .bool _
  · exact .bool _
  · exact .real _
  · exact .real _
  · exact .real _

theorem plain_of_readArray (plain : GivesPlain dialect item) :
    GivesPlain dialect (readArray item) := by
  intro input value rest read
  unfold readArray at read
  split at read
  · cases read
  · split at read
    · cases read
      exact .list fun _ member => absurd member List.not_mem_nil
    · obtain ⟨⟨values, behind⟩, items, read⟩ := bind_eq_ok read
      cases read
      exact .list (plain_of_readItems plain items)

theorem plain_of_readObject (plain : GivesPlain dialect item) :
    GivesPlain dialect (readObject dialect item) := by
  intro input value rest read
  unfold readObject at read
  split at read
  · cases read
  · split at read
    · cases read
      exact .mapping (fun _ member => absurd member List.not_mem_nil)
        fun _ member => absurd member List.not_mem_nil
    · obtain ⟨⟨members, behind⟩, found, read⟩ := bind_eq_ok read
      cases read
      have each := plain_of_readMembers plain found
      exact .mapping (fun entry member => (each entry (Entries.mem_ofPairs member)).1)
        fun entry member => (each entry (Entries.mem_ofPairs member)).2

theorem plain_of_readLevel (plain : GivesPlain dialect item) (opens : Bool) :
    GivesPlain dialect (readLevel dialect opens item) := by
  intro input value rest read
  unfold readLevel at read
  split at read
  · cases read
  · split at read
    · obtain ⟨⟨text, behind⟩, string, read⟩ := bind_eq_ok read
      cases read
      exact .text (allows_of_readString string)
    · split at read
      · split at read
        · exact plain_of_readArray plain _ _ _ read
        · cases read
      · split at read
        · split at read
          · exact plain_of_readObject plain _ _ _ read
          · cases read
        · split at read
          case h_1 found word =>
            cases read
            exact plain_of_readWord? word
          case h_2 => exact plain_of_readNumber read

/-! ## All levels -/

theorem plain_of_readValue (dialect : Dialect) (depth : Nat) :
    GivesPlain dialect (readValue dialect depth) := by
  induction depth with
  | zero => exact plain_of_readLevel (by rintro _ _ _ ⟨⟩) _
  | succ depth ih => exact plain_of_readLevel ih true

/-- A document holds nothing but what documents can write. -/
theorem plain_of_read {depth : Nat} {input : Input} {document : Document}
    (found : read depth input dialect = .ok document) : document.Plain dialect.Allows := by
  obtain ⟨⟨value, behind⟩, whole, found⟩ := bind_eq_ok found
  dsimp only at found
  split at found
  · cases found
    exact plain_of_readValue dialect depth _ _ _ whole
  · cases found

end Json

/-! ## Changed texts -/

namespace Datum

variable {σ τ : Type} {f : τ → Option σ}

/-- A value with any texts, of one of the kinds that a document can write. -/
abbrev AnyPlain (value : Datum τ) : Prop := value.Plain fun _ => True

theorem mapItems?_of_forall {items : List (Datum τ)}
    (each : ∀ item ∈ items, ∃ changed, item.mapText? f = some changed ∧ changed.AnyPlain) :
    ∃ changed, mapItems? f items = some changed ∧ ∀ item ∈ changed, item.AnyPlain := by
  induction items with
  | nil => exact ⟨[], rfl, fun _ member => absurd member List.not_mem_nil⟩
  | cons item rest ih =>
    obtain ⟨⟨first, one, plain⟩, later⟩ := List.forall_mem_cons.mp each
    obtain ⟨others, more, all⟩ := ih later
    refine ⟨first :: others, ?_, List.forall_mem_cons.mpr ⟨plain, all⟩⟩
    simp only [mapItems?, one, more, Option.bind_eq_bind, Option.bind_some, Option.pure_def]

theorem mapEntries?_of_forall {entries : List (τ × Datum τ)}
    (names : ∀ entry ∈ entries, ∃ changed, f entry.1 = some changed)
    (each : ∀ entry ∈ entries, ∃ changed, entry.2.mapText? f = some changed ∧ changed.AnyPlain) :
    ∃ changed, mapEntries? f entries = some changed ∧ ∀ entry ∈ changed, entry.2.AnyPlain := by
  induction entries with
  | nil => exact ⟨[], rfl, fun _ member => absurd member List.not_mem_nil⟩
  | cons entry rest ih =>
    obtain ⟨⟨name, key⟩, laterNames⟩ := List.forall_mem_cons.mp names
    obtain ⟨⟨first, one, plain⟩, later⟩ := List.forall_mem_cons.mp each
    obtain ⟨others, more, all⟩ := ih laterNames later
    refine ⟨(name, first) :: others, ?_, List.forall_mem_cons.mpr ⟨plain, all⟩⟩
    simp only [mapEntries?, key, one, more, Option.bind_eq_bind, Option.bind_some, Option.pure_def]

/-- The texts of a plain value can be changed if all those that it may hold can be, and the value
stays plain. -/
theorem Plain.mapText? {allowed : τ → Prop} {value : Datum τ} (plain : value.Plain allowed)
    (defined : ∀ text, allowed text → ∃ changed, f text = some changed) :
    ∃ changed, value.mapText? f = some changed ∧ changed.AnyPlain := by
  induction plain with
  | null => exact ⟨.null, rfl, .null⟩
  | bool value => exact ⟨.bool value, rfl, .bool value⟩
  | int value => exact ⟨.int value, rfl, .int value⟩
  | real value => exact ⟨.real value, rfl, .real value⟩
  | text may =>
    obtain ⟨changed, found⟩ := defined _ may
    exact ⟨.text changed, by rw [Datum.mapText?, found]; rfl, .text trivial⟩
  | list all ih =>
    obtain ⟨changed, found, plain⟩ := mapItems?_of_forall ih
    exact ⟨.list changed, by rw [Datum.mapText?, found]; rfl, .list plain⟩
  | mapping names all ih =>
    obtain ⟨changed, found, plain⟩ :=
      mapEntries?_of_forall (fun entry member => defined _ (names entry member)) ih
    exact ⟨.mapping changed, by rw [Datum.mapText?, found]; rfl,
      .mapping (fun _ _ => trivial) plain⟩

end Datum

/-! ## Texts without surrogates -/

/-- A text that the strict dialect allows is a `String`. -/
theorem WideText.exists_string {text : WideText} (allowed : Json.Dialect.strict.Allows text) :
    ∃ string, text.toString? = some string := by
  obtain ⟨points⟩ := text
  have solid : ∀ point ∈ points, point.isSurrogate = false := by
    simpa [Json.Dialect.Allows, Json.Dialect.admits] using allowed
  have chars : ∃ chars, points.mapM CodePoint.toChar? = some chars := by
    clear allowed
    induction points with
    | nil => exact ⟨[], rfl⟩
    | cons point rest ih =>
      obtain ⟨here, later⟩ := List.forall_mem_cons.mp solid
      obtain ⟨chars, found⟩ := ih later
      refine ⟨Char.ofNat point.val :: chars, ?_⟩
      simp [List.mapM_cons, CodePoint.toChar?, here, found]
  obtain ⟨chars, found⟩ := chars
  exact ⟨String.ofList chars, by simp [toString?, toChars?, found]⟩

end RegistryGate
