import RegistryGate.BackendRegistry
import RegistryGate.Log.Loggers

/-!
# Name and fixed values

The name and the version of the backend, and the fixed values that its users may rely on.
-/

namespace RegistryGate.About

def name : String := "registry-github-auth"

def version : String := "0.1.0"

/-- The path of a membership, with the places of the organization and the login in braces. -/
def membershipPattern : String := "/orgs/\x7borg\x7d/members/\x7blogin\x7d"

def constants : List (String × Datum String) :=
  [("BACKEND_NAME", .text name),
   ("BACKEND_VERSION", .text version),
   ("CHALLENGE_HEADER", .text challengeHeader),
   ("CHALLENGE_SERVICE", .text challengeService),
   ("DEFAULT_API_URL", .text defaultApiUrl),
   ("DEFAULT_LOG_LEVEL", .text Log.Loggers.defaultLevel.name),
   ("GITHUB_BACKEND_KEY", .text githubKey),
   ("GITHUB_MEDIA_TYPE", .text Request.mediaType),
   ("LOG_DIR", .text Log.directory),
   ("ORG_MEMBER_ENDPOINT", .text membershipPattern),
   ("REQUEST_TIMEOUT", .real defaultTimeout),
   ("USER_ENDPOINT", .text (.ofList Identity.profilePath))]

end RegistryGate.About
