import RegistryGate.ConfigError
import RegistryGate.Settings
import RegistryGate.Text.NameSet

/-!
# Access policies

What an engine goes by: its realm, the API to ask, and whom and what to let in. A policy is made
once and read by every request. The organizations keep their order, because they are asked in that
order.
-/

namespace RegistryGate

/-- The rules of access. Without organizations every user is let in, without repositories every
repository, and with an empty audience every audience. -/
structure AccessPolicy where
  realm : String
  apiBase : String
  organizations : List String
  repositories : NameSet
  claimsEnabled : Bool
  expectedAudience : String
  timeout : Seconds
  realm_ne_empty : realm ≠ ""
deriving DecidableEq

namespace AccessPolicy

/-- The policy with a given realm and the default for all else. -/
def ofRealm (realm : String) (h : realm ≠ "") : AccessPolicy :=
  ⟨realm, defaultApiUrl, [], .empty, false, "", .real defaultTimeout, h⟩

/-- A list without repetitions, each entry in its first place. -/
def distinct : List String → List String
  | [] => []
  | name :: rest => name :: (distinct rest).filter (· ≠ name)

def ofSettings (settings : Settings) : Except ConfigError AccessPolicy :=
  if h : settings.realm = "" then .error .noRealm
  else .ok
    { realm := settings.realm
      apiBase := settings.apiUrl
      organizations := distinct settings.organizations
      repositories := .ofList settings.repositories
      claimsEnabled := settings.claimsEnabled
      expectedAudience := settings.expectedAudience
      timeout := .real settings.timeout
      realm_ne_empty := h }

/-- The policy that options describe. Options that hold nothing are those of an empty mapping. -/
def ofOptions (options : Datum String) :
    Settings.Warned (Except StartupError AccessPolicy) :=
  let (warnings, settings) :=
    Settings.ofDatum (if options.isEmptyValue then .mapping [] else options)
  (warnings,
    match settings with
    | .error (.invalid issues) => .error (.config (.invalidOptions issues))
    | .error .timeoutOverflow => .error (.fault .overflow)
    | .ok settings => (ofSettings settings).mapError .config)

end AccessPolicy

end RegistryGate
