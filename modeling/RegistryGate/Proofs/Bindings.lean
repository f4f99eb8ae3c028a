import Mathlib.Data.List.Induction
import RegistryGate.BackendRegistry

/-!
# Bindings

A registry in any run of registrations, builds and look-ups. What a name is bound to is told by the
steps of the run alone: it is the factory of the first step that registers something under the name
(`get?_reached`). So a binding is never lost or changed, no step that fails leaves anything behind, and
a backend is built by the factory that its name was bound to first (`reached_writeOnce`).
-/

namespace RegistryGate.BackendRegistry

variable {β : Type} {registry : BackendRegistry β} {name : String} {factory : Factory β}

/-! ## Registrations -/

theorem register_empty (registry : BackendRegistry β) (factory : Factory β) :
    registry.register "" factory = .error .emptyName := if_pos rfl

theorem register_taken (solid : name ≠ "") (taken : registry.contains name = true)
    (factory : Factory β) : registry.register name factory = .error (.nameTaken name) := by
  rw [register, if_neg solid, if_pos taken]

theorem register_fresh (solid : name ≠ "") (free : registry.contains name = false)
    (factory : Factory β) :
    registry.register name factory = .ok ⟨Entries.insert registry.factories name factory⟩ := by
  rw [register, if_neg solid, if_neg (by rw [free]; decide)]

/-- A registration fails for the empty name and for a name that is bound. -/
theorem register_eq_error_iff {error : ConfigError} :
    registry.register name factory = .error error ↔
      name = "" ∧ error = .emptyName ∨
        name ≠ "" ∧ registry.contains name = true ∧ error = .nameTaken name := by
  constructor
  · intro failed
    by_cases empty : name = ""
    · subst empty
      rw [register_empty] at failed
      cases failed
      exact .inl ⟨rfl, rfl⟩
    · cases taken : registry.contains name with
      | true =>
        rw [register_taken empty taken] at failed
        cases failed
        exact .inr ⟨empty, rfl, rfl⟩
      | false =>
        rw [register_fresh empty taken] at failed
        cases failed
  · rintro (⟨rfl, rfl⟩ | ⟨solid, taken, rfl⟩)
    · exact register_empty registry factory
    · exact register_taken solid taken factory

/-! ## Steps -/

/-- What is done with a registry. -/
inductive Step (β : Type) where
  | register (name : String) (factory : Factory β)
  | registerDefaults
  | create (name : String) (options : Datum String)
  | contains (name : String)

/-- What a step answers. -/
inductive Answer (β : Type) where
  | registered (result : Except ConfigError Unit)
  | created (events : List Event) (result : Except StartupError β)
  | contained (found : Bool)

/-- What a registration answers, and the registry after it. -/
def settle (registry : BackendRegistry β) :
    Except ConfigError (BackendRegistry β) → Answer β × BackendRegistry β
  | .ok after => (.registered (.ok ()), after)
  | .error error => (.registered (.error error), registry)

variable (reading : Rat) (turn : Engine → β)

/-- Takes a step. Only a registration that succeeds changes the registry. -/
def perform (registry : BackendRegistry β) : Step β → Answer β × BackendRegistry β
  | .register name factory => registry.settle (registry.register name factory)
  | .registerDefaults => registry.settle (registry.registerDefaults reading turn)
  | .create name options =>
    (.created (registry.create name options).1 (registry.create name options).2, registry)
  | .contains name => (.contained (registry.contains name), registry)

/-- The registry that a run of steps comes to. -/
def reached (steps : List (Step β)) : BackendRegistry β :=
  steps.foldl (fun registry step => (registry.perform reading turn step).2) empty

/-- The factory that a step would register, and the name for it. -/
def Step.offer? : Step β → Option (String × Factory β)
  | .register name factory => some (name, factory)
  | .registerDefaults => some (githubKey, (githubFactory reading).map turn)
  | .create .. => none
  | .contains _ => none

/-- The factory that a step would register under a name. The empty name is for none. -/
def Step.factory? (step : Step β) (name : String) : Option (Factory β) :=
  (step.offer? reading turn).bind fun offer =>
    if offer.1 = name ∧ name ≠ "" then some offer.2 else none

/-- The factory of the first of some steps that would register one under a name. -/
def firstFactory (steps : List (Step β)) (name : String) : Option (Factory β) :=
  steps.findSome? (·.factory? reading turn name)

variable {reading turn}

theorem get?_settle_register (registry : BackendRegistry β) (offered other : String)
    (factory : Factory β) :
    Entries.get? (registry.settle (registry.register offered factory)).2.factories other =
      (Entries.get? registry.factories other).or
        (if offered = other ∧ other ≠ "" then some factory else none) := by
  by_cases empty : offered = ""
  · subst empty
    have nothing : ¬ ("" = other ∧ other ≠ "") := fun offers => offers.2 offers.1.symm
    rw [register_empty, settle, if_neg nothing, Option.or_none]
  cases taken : registry.contains offered with
  | true =>
    rw [register_taken empty taken, settle]
    by_cases same : offered = other
    · subst same
      rw [Option.or_of_isSome taken]
    · rw [if_neg fun offers => same offers.1, Option.or_none]
  | false =>
    rw [register_fresh empty taken, settle, Entries.get?_insert]
    by_cases same : offered = other
    · subst same
      rw [contains, Option.isSome_eq_false_iff, Option.isNone_iff_eq_none] at taken
      rw [if_pos rfl, if_pos ⟨rfl, empty⟩, taken, Option.none_or]
    · rw [if_neg same, if_neg fun offers => same offers.1, Option.or_none]

/-- A step binds what was unbound before, and nothing else. -/
theorem get?_perform (registry : BackendRegistry β) (step : Step β) (name : String) :
    Entries.get? (registry.perform reading turn step).2.factories name =
      (Entries.get? registry.factories name).or (step.factory? reading turn name) := by
  cases step with
  | register offered factory => exact get?_settle_register registry offered name factory
  | registerDefaults => exact get?_settle_register registry githubKey name _
  | create offered options => exact (Option.or_none).symm
  | contains offered => exact (Option.or_none).symm

theorem reached_concat (steps : List (Step β)) (step : Step β) :
    reached reading turn (steps ++ [step]) =
      ((reached reading turn steps).perform reading turn step).2 := by
  rw [reached, List.foldl_append]
  rfl

theorem firstFactory_append (steps more : List (Step β)) (name : String) :
    firstFactory reading turn (steps ++ more) name =
      (firstFactory reading turn steps name).or (firstFactory reading turn more name) :=
  List.findSome?_append

/-- A name is bound to the factory of the first step that registers one under it. -/
theorem get?_reached (steps : List (Step β)) (name : String) :
    Entries.get? (reached reading turn steps).factories name = firstFactory reading turn steps name := by
  induction steps using List.reverseRecOn with
  | nil => rfl
  | append_singleton steps step ih =>
    have alone : firstFactory reading turn [step] name = step.factory? reading turn name := by
      rw [firstFactory, List.findSome?_cons]
      cases step.factory? reading turn name <;> rfl
    rw [reached_concat, get?_perform, ih, firstFactory_append, alone]

theorem Step.offer?_of_factory? {step : Step β} (gives : step.factory? reading turn name = some factory) :
    step.offer? reading turn = some (name, factory) ∧ name ≠ "" := by
  obtain ⟨offer, offers, gives⟩ := Option.bind_eq_some_iff.mp gives
  obtain ⟨⟨rfl, solid⟩, same⟩ := Option.ite_none_right_eq_some.mp gives
  cases same
  exact ⟨offers, solid⟩

theorem Step.factory?_of_offer? {step : Step β} (offers : step.offer? reading turn = some (name, factory))
    (solid : name ≠ "") : step.factory? reading turn name = some factory := by
  rw [Step.factory?, offers, Option.bind_some, if_pos ⟨rfl, solid⟩]

theorem perform_of_offer? {step : Step β} (offers : step.offer? reading turn = some (name, factory))
    (registry : BackendRegistry β) :
    registry.perform reading turn step = registry.settle (registry.register name factory) := by
  cases step with
  | register => cases offers; rfl
  | registerDefaults => cases offers; rfl
  | create => cases offers
  | contains => cases offers

theorem settle_register_iff :
    (registry.settle (registry.register name factory)).1 = .registered (.ok ()) ↔
      name ≠ "" ∧ registry.contains name = false := by
  by_cases empty : name = ""
  · subst empty
    rw [register_empty, settle]
    exact ⟨by rintro ⟨⟩, fun fresh => absurd rfl fresh.1⟩
  · cases taken : registry.contains name with
    | true =>
      rw [register_taken empty taken, settle]
      exact ⟨by rintro ⟨⟩, by rintro ⟨-, ⟨⟩⟩⟩
    | false =>
      rw [register_fresh empty taken, settle]
      exact ⟨fun _ => ⟨empty, rfl⟩, fun _ => rfl⟩

theorem contains_reached_eq_false_iff (steps : List (Step β)) (name : String) :
    (reached reading turn steps).contains name = false ↔ firstFactory reading turn steps name = none := by
  rw [contains, get?_reached, Option.isSome_eq_false_iff, Option.isNone_iff_eq_none]

variable (reading turn) in
/-- A step of a run registers a factory under a name, and succeeds. -/
def Succeeds (steps : List (Step β)) (name : String) (factory : Factory β) : Prop :=
  ∃ before step behind, steps = before ++ step :: behind ∧
    step.offer? reading turn = some (name, factory) ∧
    ((reached reading turn before).perform reading turn step).1 = .registered (.ok ())

/-- The step that succeeds for a name is the first one that would register something under it. -/
theorem succeeds_iff {steps : List (Step β)} :
    Succeeds reading turn steps name factory ↔ firstFactory reading turn steps name = some factory := by
  constructor
  · rintro ⟨before, step, behind, rfl, offers, succeeds⟩
    rw [perform_of_offer? offers, settle_register_iff] at succeeds
    obtain ⟨solid, free⟩ := succeeds
    refine List.findSome?_eq_some_iff.mpr ⟨before, step, behind, rfl,
      Step.factory?_of_offer? offers solid, ?_⟩
    exact List.findSome?_eq_none_iff.mp ((contains_reached_eq_false_iff before name).mp free)
  · intro first
    obtain ⟨before, step, behind, rfl, gives, none⟩ := List.findSome?_eq_some_iff.mp first
    obtain ⟨offers, solid⟩ := Step.offer?_of_factory? gives
    refine ⟨before, step, behind, rfl, offers, ?_⟩
    rw [perform_of_offer? offers, settle_register_iff]
    exact ⟨solid, (contains_reached_eq_false_iff before name).mpr (List.findSome?_eq_none_iff.mpr none)⟩

theorem get?_reached_eq_some_iff {steps : List (Step β)} :
    Entries.get? (reached reading turn steps).factories name = some factory ↔
      Succeeds reading turn steps name factory := by
  rw [get?_reached, succeeds_iff]

theorem contains_reached_iff {steps : List (Step β)} :
    (reached reading turn steps).contains name = true ↔
      ∃ factory, Succeeds reading turn steps name factory := by
  simp only [contains, Option.isSome_iff_exists, get?_reached_eq_some_iff]

/-- What has succeeded has succeeded in every run that goes on. -/
theorem Succeeds.append {steps : List (Step β)} (succeeds : Succeeds reading turn steps name factory)
    (more : List (Step β)) : Succeeds reading turn (steps ++ more) name factory := by
  obtain ⟨before, step, behind, rfl, offers, answered⟩ := succeeds
  exact ⟨before, step, behind ++ more, List.append_assoc .., offers, answered⟩

/-- Only a registration that succeeds leaves something behind. -/
theorem perform_unchanged (registry : BackendRegistry β) (step : Step β)
    (fails : (registry.perform reading turn step).1 ≠ .registered (.ok ())) :
    (registry.perform reading turn step).2 = registry := by
  have settled (result : Except ConfigError (BackendRegistry β))
      (fails : (registry.settle result).1 ≠ .registered (.ok ())) : (registry.settle result).2 = registry := by
    cases result with
    | ok after => exact absurd rfl fails
    | error error => rfl
  cases step with
  | register name factory => exact settled _ fails
  | registerDefaults => exact settled _ fails
  | create => rfl
  | contains => rfl

/-! ## Names -/

theorem names_increasing (registry : BackendRegistry β) : registry.names.Pairwise (· < ·) :=
  (NameSet.ofList _).increasing

theorem mem_names_iff (registry : BackendRegistry β) (name : String) :
    name ∈ registry.names ↔ registry.contains name = true := by
  rw [contains, Entries.isSome_get?]
  exact NameSet.mem_ofList

/-! ## Builds -/

/-- The registry with each factory replaced by another, which may depend on its name. -/
def replace (registry : BackendRegistry β) (change : String → Factory β → Factory β) :
    BackendRegistry β :=
  ⟨registry.factories.map fun entry => (entry.1, change entry.1 entry.2)⟩

theorem names_replace (registry : BackendRegistry β) (change : String → Factory β → Factory β) :
    (registry.replace change).names = registry.names := by
  rw [names, names, replace, List.map_map]
  rfl

theorem get?_replace (registry : BackendRegistry β) (change : String → Factory β → Factory β)
    (name : String) :
    Entries.get? (registry.replace change).factories name =
      (Entries.get? registry.factories name).map (change name) :=
  Entries.get?_map registry.factories change name

theorem create_of_bound (change : String → Factory β → Factory β)
    (bound : Entries.get? registry.factories name = some factory) {options : Datum String}
    {entries : Settings.Options} (converted : Options.ofDatum options = .ok entries) :
    (registry.replace change).create name options = change name factory entries := by
  rw [create, get?_replace, bound]
  simp only [Option.map_some, converted]

theorem create_of_unconverted (change : String → Factory β → Factory β)
    (bound : Entries.get? registry.factories name = some factory) {options : Datum String}
    {fault : Fault} (broken : Options.ofDatum options = .error fault) :
    (registry.replace change).create name options = ([], .error (.fault fault)) := by
  rw [create, get?_replace, bound]
  simp only [Option.map_some, broken]

theorem create_of_unbound (change : String → Factory β → Factory β)
    (unbound : Entries.get? registry.factories name = none) (options : Datum String) :
    (registry.replace change).create name options =
      ([], .error (.config (.unknownBackend name registry.names))) := by
  rw [create, get?_replace, unbound, names_replace]
  rfl

theorem replace_same (registry : BackendRegistry β) : registry.replace (fun _ factory => factory) = registry := by
  rw [replace, List.map_id'']
  exact fun _ => rfl

/-! ## Runs -/

variable (reading turn) in
/-- What holds of a registry at the end of a run of steps. -/
structure WriteOnce (steps : List (Step β)) (registry : BackendRegistry β) : Prop where
  /-- A name is bound to the factory of the registration that succeeded for it, which is the first one that
  names it. -/
  bound : ∀ name factory, Entries.get? registry.factories name = some factory ↔
    Succeeds reading turn steps name factory
  first : ∀ name factory, Succeeds reading turn steps name factory ↔
    firstFactory reading turn steps name = some factory
  /-- It stays bound to that factory. -/
  lasting : ∀ name factory, Succeeds reading turn steps name factory → ∀ more,
    Entries.get? (reached reading turn (steps ++ more)).factories name = some factory
  /-- A further registration fails for the empty name and for a name that is bound, and only then. -/
  refused : ∀ step name factory, step.offer? reading turn = some (name, factory) → ∀ error,
    (registry.perform reading turn step).1 = .registered (.error error) ↔
      name = "" ∧ error = .emptyName ∨
        name ≠ "" ∧ (∃ factory, Succeeds reading turn steps name factory) ∧ error = .nameTaken name
  /-- A step that is not a successful registration leaves the registry as it is. -/
  unchanged : ∀ step, (registry.perform reading turn step).1 ≠ .registered (.ok ()) →
    (registry.perform reading turn step).2 = registry
  increasing : registry.names.Pairwise (· < ·)
  named : ∀ name, name ∈ registry.names ↔ ∃ factory, Succeeds reading turn steps name factory
  contained : ∀ name, registry.contains name = true ↔ ∃ factory, Succeeds reading turn steps name factory
  /-- A backend is what the factory of its name makes of the options, and whatever the factories are
  replaced by, that one is asked and no other. -/
  built : ∀ name factory, Succeeds reading turn steps name factory → ∀ options entries,
    Options.ofDatum options = .ok entries → registry.create name options = factory entries ∧
      ∀ change, (registry.replace change).create name options = change name factory entries
  /-- Options that are no mapping fail on their own. -/
  unconverted : ∀ name factory, Succeeds reading turn steps name factory → ∀ options fault,
    Options.ofDatum options = .error fault → ∀ change,
      (registry.replace change).create name options = ([], .error (.fault fault))
  /-- A backend is unknown, whatever the factories do, exactly if its name was never bound. -/
  unknown : ∀ name options, (∀ change, (registry.replace change).create name options =
      ([], .error (.config (.unknownBackend name registry.names)))) ↔
    ∀ factory, ¬ Succeeds reading turn steps name factory

/-- Names are bound once and for ever. In every run of registrations, builds and look-ups, of which any
may fail, the registry is what the successful registrations have made of it. -/
theorem reached_writeOnce (reading : Rat) (turn : Engine → β) (steps : List (Step β)) :
    WriteOnce reading turn steps (reached reading turn steps) where
  bound _ _ := get?_reached_eq_some_iff
  first _ _ := succeeds_iff
  lasting _ _ succeeds more := get?_reached_eq_some_iff.mpr (succeeds.append more)
  refused step name factory offers error := by
    rw [perform_of_offer? offers, ← contains_reached_iff, ← register_eq_error_iff]
    cases (reached reading turn steps).register name factory with
    | ok after => exact ⟨by rintro ⟨⟩, by rintro ⟨⟩⟩
    | error other => simp only [settle, Answer.registered.injEq, Except.error.injEq]
  unchanged := perform_unchanged _
  increasing := names_increasing _
  named _ := (mem_names_iff _ _).trans contains_reached_iff
  contained _ := contains_reached_iff
  built name factory succeeds options entries converted := by
    have built (change : String → Factory β → Factory β) :=
      create_of_bound change (get?_reached_eq_some_iff.mpr succeeds) converted
    refine ⟨?_, built⟩
    rw [← replace_same (reached reading turn steps)]
    exact built _
  unconverted name factory succeeds options fault broken change :=
    create_of_unconverted change (get?_reached_eq_some_iff.mpr succeeds) broken
  unknown name options := by
    constructor
    · intro unknown factory succeeds
      have bound := get?_reached_eq_some_iff.mpr succeeds
      -- A factory that breaks would be noticed if it were asked.
      have unasked := unknown fun _ _ _ => ([], .error (.fault .wrongType))
      cases converted : Options.ofDatum options with
      | ok entries =>
        rw [create_of_bound _ bound converted] at unasked
        cases unasked
      | error fault =>
        rw [create_of_unconverted _ bound converted] at unasked
        cases unasked
    · intro never change
      refine create_of_unbound change ?_ options
      exact Option.eq_none_iff_forall_ne_some.mpr fun factory bound =>
        never factory (get?_reached_eq_some_iff.mp bound)

end RegistryGate.BackendRegistry
