import RegistryGate.Engine

/-!
# Backend registry

Backends are built by factories that are registered under names. A name is bound once and for ever;
everything else leaves the registry as it is.
-/

namespace RegistryGate

/-- Builds a backend from its options, and logs what it did. -/
abbrev Factory (β : Type) := Settings.Options → List Event × Except StartupError β

/-- A factory of which each backend is turned into another. -/
def Factory.map {α β : Type} (factory : Factory α) (turn : α → β) : Factory β := fun options =>
  ((factory options).1, (factory options).2.map turn)

/-- Factories by name, in the order of their registration. -/
structure BackendRegistry (β : Type) where
  factories : List (String × Factory β)

namespace BackendRegistry

variable {β : Type}

def empty : BackendRegistry β := ⟨[]⟩

def contains (registry : BackendRegistry β) (name : String) : Bool :=
  (Entries.get? registry.factories name).isSome

/-- The names that are bound, in code-point order. -/
def names (registry : BackendRegistry β) : List String :=
  (NameSet.ofList (registry.factories.map (·.1))).names

def register (registry : BackendRegistry β) (name : String) (factory : Factory β) :
    Except ConfigError (BackendRegistry β) :=
  if name = "" then .error .emptyName
  else if registry.contains name then .error (.nameTaken name)
  else .ok ⟨Entries.insert registry.factories name factory⟩

end BackendRegistry

/-! ## Options -/

namespace Options

mutual

/-- Whether a value can be a key: no list and no mapping can, nor what holds one. -/
def isKey : Datum String → Bool
  | .list _ | .mapping _ => false
  | .tuple items => areKeys items
  | _ => true

def areKeys : List (Datum String) → Bool
  | [] => true
  | item :: rest => isKey item && areKeys rest

end

/-- The entry that a member of a sequence stands for: a pair of a name and a value. A text of two
characters, or a mapping of two names, is a pair too. What is under another key than a name is no
option. -/
def entry? : Datum String → Except Fault (Option (String × Datum String))
  | .list [key, value] | .tuple [key, value] =>
    match key with
    | .text name => .ok (some (name, value))
    | key => if isKey key then .ok none else .error .wrongType
  | .list _ | .tuple _ => .error .wrongValue
  | .text pair =>
    match pair.toList with
    | [key, value] => .ok (some (String.singleton key, .text (String.singleton value)))
    | _ => .error .wrongValue
  | .mapping [(key, _), (value, _)] => .ok (some (key, .text value))
  | .mapping _ => .error .wrongValue
  | .bytes [_, _] => .ok none
  | .bytes _ => .error .wrongValue
  | _ => .error .wrongType

/-- The mapping that a sequence of entries makes. -/
def ofItems : List (Datum String) → Except Fault Settings.Options
  | items => (items.mapM entry?).map fun entries => Entries.ofPairs (entries.filterMap id)

/-- The mapping that a value stands for: a value that holds nothing is the empty one, and a sequence
lists its entries. -/
def ofDatum (options : Datum String) : Except Fault Settings.Options :=
  if options.isEmptyValue then .ok []
  else
    match options with
    | .mapping entries => .ok entries
    | .list items | .tuple items => ofItems items
    | .text text => ofItems (text.toList.map fun c => .text (String.singleton c))
    | _ => .error .wrongType

end Options

namespace BackendRegistry

variable {β : Type}

def create (registry : BackendRegistry β) (name : String) (options : Datum String) :
    List Event × Except StartupError β :=
  match Entries.get? registry.factories name with
  | none => ([], .error (.config (.unknownBackend name registry.names)))
  | some factory =>
    match Options.ofDatum options with
    | .error fault => ([], .error (.fault fault))
    | .ok options => factory options

end BackendRegistry

/-! ## The standard backend -/

/-- The name that the standard backend is registered under. -/
def githubKey : String := "github"

/-- Builds the standard engine from options. Repositories without claims are of no effect, which
leaves a warning. -/
def githubEngine (reading : Rat) (options : Datum String) :
    List Event × Except StartupError Engine :=
  let (warnings, policy) := AccessPolicy.ofOptions options
  let warned := warnings.map Event.optionIgnored
  match policy with
  | .error error => (warned, .error error)
  | .ok policy =>
    (warned ++
      [.backendConfigured policy.realm policy.apiBase policy.claimsEnabled
        policy.organizations.length policy.repositories.size] ++
      (if !policy.claimsEnabled && !policy.repositories.isEmpty then [.repositoriesUnused] else []),
      .ok (.ofPolicy policy reading))

def githubFactory (reading : Rat) : Factory Engine := fun options =>
  githubEngine reading (.mapping options)

/-- Registers the standard backend, where its engines are turned into backends of some kind. -/
def BackendRegistry.registerDefaults {β : Type} (registry : BackendRegistry β) (reading : Rat)
    (turn : Engine → β) : Except ConfigError (BackendRegistry β) :=
  registry.register githubKey ((githubFactory reading).map turn)

end RegistryGate
