import RegistryGate.Fault
import RegistryGate.Text.Quoted
import RegistryGate.Validation

/-!
# Configuration errors

Why a backend cannot be registered, found or built. All of them are fatal at start-up.
-/

namespace RegistryGate

/-- An error in the configuration. -/
inductive ConfigError where
  | noRealm
  /-- Options that do not describe a policy. -/
  | invalidOptions (issues : List Issue)
  | emptyName
  | nameTaken (name : String)
  /-- No backend is registered under a name; the registered names are given. -/
  | unknownBackend (name : String) (available : List String)
  | refused (reason : String)
deriving DecidableEq, Inhabited

def ConfigError.message : ConfigError → String
  | .noRealm => "\"realm\" must be set for github access controller"
  | .invalidOptions issues =>
    "\"realm\" must be set for github access controller: " ++ toString issues.length ++
      (if issues.length = 1 then " validation error" else " validation errors") ++
      " for GitHubBackendSettings"
  | .emptyName => "auth backend name must not be empty"
  | .nameTaken name => "auth backend " ++ Text.quoted name ++ " is already registered"
  | .unknownBackend name available =>
    "Unknown auth backend: " ++ Text.quoted name ++ " (available: " ++
      (if available.isEmpty then "none" else ", ".intercalate available) ++ ")"
  | .refused reason => reason

/-- Why a backend cannot be built: an error in its configuration, or a fault that is not foreseen.
-/
inductive StartupError where
  | config (error : ConfigError)
  | fault (fault : Fault)
deriving DecidableEq, Inhabited

end RegistryGate
