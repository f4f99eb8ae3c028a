import RegistryGate.AccessPolicy
import RegistryGate.AuthError

/-!
# Checking claims

The rules that the claims of a token have to meet, in order of priority: the audience, the expiry
and the repository.
-/

namespace RegistryGate.Claims

/-- The whole part of a clock reading, cut off toward zero. -/
def wholeSeconds (reading : Rat) : Int := reading.num.tdiv reading.den

def check (policy : AccessPolicy) (reading : Rat) (payload : Payload) : Except AuthError Unit :=
  let now := wholeSeconds reading
  if policy.expectedAudience ≠ "" ∧ payload.audience ≠ policy.expectedAudience then
    .error (.audienceMismatch payload.audience policy.expectedAudience)
  else if payload.expiresAt ≤ now then
    .error (.tokenExpired payload.expiresAt now)
  else if policy.repositories.isEmpty = false ∧ payload.repository ∉ policy.repositories then
    .error (.repositoryNotAllowed payload.repository)
  else .ok ()

end RegistryGate.Claims
