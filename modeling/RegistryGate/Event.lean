import RegistryGate.AuthError
import RegistryGate.Number.Decimal
import RegistryGate.Settings

/-!
# Log events

Everything that is logged, each with its level and its text. Faults are named by the caller of
`text`, because their names belong to the surroundings.
-/

namespace RegistryGate

/-- How serious an event is. -/
inductive Level where
  | debug
  | info
  | warning
  | error
  | critical
deriving DecidableEq, Inhabited

namespace Level

def name : Level → String
  | .debug => "DEBUG"
  | .info => "INFO"
  | .warning => "WARNING"
  | .error => "ERROR"
  | .critical => "CRITICAL"

def rank : Level → Nat
  | .debug => 10
  | .info => 20
  | .warning => 30
  | .error => 40
  | .critical => 50

def all : List Level := [.debug, .info, .warning, .error, .critical]

def ofName? (name : String) : Option Level := all.find? (·.name == name)

end Level

/-- Something that is logged. `request` is the identifier of the request it happened in. -/
inductive Event where
  | optionIgnored (warning : OptionWarning)
  | backendRegistered (name : String)
  | backendConfigured (realm apiBase : String) (claimsEnabled : Bool)
      (organizations repositories : Nat)
  | repositoriesUnused
  | claimsAccepted (actor repository : String) (request : String)
  | apiUnreachable (request : String) (fault : Fault)
  | apiRefused (status : Int) (request : String)
  | profileUnusable (request : String) (fault : Fault)
  | membershipUnknown (organization : String) (request : String) (fault : Fault)
  | membershipConfirmed (login : WideText) (organization : String)
  | membershipAbsent (login : WideText) (organization : String) (status : Int)
  | notAMember (login : WideText) (request : String)
  | remoteAccepted (login : WideText) (request : String)
  | verifierRefused (verifier request : String) (error : AuthError)
  | verifierBroke (verifier request : String)
  | authFailed (request path : String) (cause : AuthError)
  | rejected (method path client : String) (elapsed : Rat)
deriving Inhabited

namespace Event

def level : Event → Level
  | .optionIgnored _ => .warning
  | .backendRegistered _ => .debug
  | .backendConfigured .. => .info
  | .repositoriesUnused => .warning
  | .claimsAccepted .. => .info
  | .apiUnreachable .. => .error
  | .apiRefused .. => .error
  | .profileUnusable .. => .error
  | .membershipUnknown .. => .warning
  | .membershipConfirmed .. => .debug
  | .membershipAbsent .. => .debug
  | .notAMember .. => .error
  | .remoteAccepted .. => .info
  | .verifierRefused .. => .debug
  | .verifierBroke .. => .error
  | .authFailed .. => .warning
  | .rejected .. => .info

/-- The text of an event, given the names of faults. -/
def text (nameOf : Fault → String) : Event → WideText
  | .optionIgnored warning => warning.text
  | .backendRegistered name => "Registered auth backend " ++ Text.quoted name
  | .backendConfigured realm apiBase claimsEnabled organizations repositories =>
    "GitHub auth backend configured: realm=" ++ realm ++ ", api=" ++ apiBase ++ ", oidc=" ++
      Datum.showBool claimsEnabled ++ ", orgs=" ++ toString organizations ++ ", repos=" ++
      toString repositories
  | .repositoriesUnused =>
    "allowed_repos only applies to OIDC tokens, but enable_oidc is off"
  | .claimsAccepted actor repository request =>
    "GitHub Actions OIDC authenticated: actor=" ++ actor ++ ", repo=" ++ repository ++
      " (request " ++ request ++ ")"
  | .apiUnreachable request fault =>
    "error calling GitHub API (request " ++ request ++ "): " ++ nameOf fault
  | .apiRefused status request =>
    "GitHub API returned status: " ++ toString status ++ " (request " ++ request ++ ")"
  | .profileUnusable request fault =>
    "error parsing GitHub user (request " ++ request ++ "): " ++ nameOf fault
  | .membershipUnknown organization request fault =>
    "membership check for org " ++ organization ++ " failed (request " ++ request ++ "): " ++
      nameOf fault
  | .membershipConfirmed login organization =>
    ("user " : WideText) ++ login ++ (" confirmed as member of " ++ organization : String)
  | .membershipAbsent login organization status =>
    ("membership check for " : WideText) ++ login ++
      (" in " ++ organization ++ " returned " ++ toString status : String)
  | .notAMember login request =>
    ("user " : WideText) ++ login ++
      (" is not a member of allowed organizations (request " ++ request ++ ")" : String)
  | .remoteAccepted login request =>
    ("GitHub user " : WideText) ++ login ++
      (" authenticated successfully (request " ++ request ++ ")" : String)
  | .verifierRefused verifier request error =>
    verifier ++ " verification failed for request " ++ request ++ ": " ++ error.message
  | .verifierBroke verifier request =>
    verifier ++ " verifier raised unexpectedly for request " ++ request
  | .authFailed request path cause =>
    "Auth failed for request " ++ request ++ " " ++ path ++ " (" ++ cause.label ++ "): " ++
      cause.message
  | .rejected method path client elapsed =>
    "Rejected " ++ method ++ " " ++ path ++ " from " ++ client ++ " after " ++ tenths elapsed ++
      "ms"

end Event

end RegistryGate
