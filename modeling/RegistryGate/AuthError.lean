import RegistryGate.Claims.Token
import RegistryGate.Fault
import RegistryGate.Grant
import RegistryGate.Text.Quoted

/-!
# Authentication errors

Why a request is not authenticated. An error carries its data; its label and its message are for the
logs, and the message never shows what went wrong on the network.
-/

namespace RegistryGate

/-- Why a credential cannot be used. -/
inductive MalformedReason where
  /-- The header is of no known scheme, or nothing stands behind the scheme. -/
  | scheme
  | token (error : Claims.TokenError)
  /-- A reason given in words. -/
  | described (text : String)
deriving DecidableEq, Inhabited

/-- Why a request is not authenticated. -/
inductive AuthError where
  | missingCredential (message : String)
  | malformedCredential (reason : MalformedReason)
  | tokenExpired (expiresAt now : Int)
  | audienceMismatch (audience expected : String)
  | repositoryNotAllowed (repository : String)
  | membershipDenied (principal : WideText)
  | remoteVerification (status : Option Int) (cause : Option Fault)
  /-- A strategy broke, or there was none. -/
  | authenticationFailure (message : String)
  | unspecified (message : String)
deriving DecidableEq, Inhabited

namespace AuthError

/-- No credential was presented. -/
def noCredential : AuthError := .missingCredential "no credentials presented"

/-- A strategy broke unexpectedly. -/
def unexpected : AuthError := .authenticationFailure "authentication failed"

/-- There was no strategy to try. -/
def noStrategies : AuthError := .authenticationFailure "no verifiers configured"

/-- The kind of an error as the logs name it. -/
def label : AuthError → String
  | .missingCredential _ => "MissingCredential"
  | .malformedCredential _ => "MalformedCredential"
  | .tokenExpired _ _ => "TokenExpired"
  | .audienceMismatch _ _ => "AudienceMismatch"
  | .repositoryNotAllowed _ => "RepositoryNotAllowed"
  | .membershipDenied _ => "OrgMembershipDenied"
  | .remoteVerification _ _ => "RemoteVerificationFailure"
  | .authenticationFailure _ => "AuthenticationFailure"
  | .unspecified _ => "AuthError"

def message : AuthError → String
  | .missingCredential message => message
  | .malformedCredential .scheme => "unsupported authorization scheme or empty token"
  | .malformedCredential (.token error) => error.message
  | .malformedCredential (.described text) => text
  | .tokenExpired expiresAt now =>
    "claims token expired at " ++ toString expiresAt ++ " (now " ++ toString now ++ ")"
  | .audienceMismatch audience expected =>
    "claims token audience " ++ Text.quoted audience ++ " does not match " ++ Text.quoted expected
  | .repositoryNotAllowed repository => "repository " ++ Text.quoted repository ++ " not allowed"
  | .membershipDenied principal =>
    "user " ++ Text.quoted principal ++ " is not a member of any allowed organization"
  | .remoteVerification _ _ => "identity provider verification failed"
  | .authenticationFailure message => message
  | .unspecified message => message

end AuthError

/-- How a strategy fails: with an error that it names, or by breaking. -/
inductive VerifierFailure where
  | refused (error : AuthError)
  | broke (fault : Fault)
deriving DecidableEq, Inhabited

end RegistryGate
