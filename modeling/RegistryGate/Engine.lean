import RegistryGate.Challenge
import RegistryGate.Claims.Check
import RegistryGate.Identity.Lookup

/-!
# Authorization engines

An engine asks its verifiers in order for the grant of a credential. The first grant counts and no
later verifier is asked; when all of them fail the request is challenged, and the error of the last
one is the cause.
-/

namespace RegistryGate

/-- A strategy for checking a credential. It may log, but asking verifiers and entering grants is up
to the engine. A cancellation ends it. -/
structure Verifier where
  name : String
  verify : RequestContext → Credential → Procedure (Except VerifierFailure Grant)
  onlyLogs : ∀ context credential, (verify context credential).OnlyLogs
  interruptible : ∀ context credential, (verify context credential).Interruptible

namespace Verifier

/-- Reads the claims of a token and checks them at a reading of the wall clock. -/
def claims (policy : AccessPolicy) (reading : Rat) : Verifier where
  name := "claims"
  verify context credential :=
    match Claims.decode credential.value with
    | .error error => .done (.error (.refused (.malformedCredential (.token error))))
    | .ok payload =>
      match Claims.check policy reading payload with
      | .error error => .done (.error (.refused error))
      | .ok () => do
        Procedure.log (.claimsAccepted payload.actor payload.repository context.id)
        return .ok ⟨payload.actor, "claims"⟩
  onlyLogs _ credential := by
    split
    · trivial
    · split <;> trivial
  interruptible _ credential := by
    split
    · trivial
    · split <;> trivial

/-- Asks the API who a token belongs to. -/
def remote (policy : AccessPolicy) (depth : Nat := Identity.maxDepth) : Verifier where
  name := Identity.strategy
  verify context credential := Identity.verify policy context.id credential.value depth
  onlyLogs context credential := Identity.verify_onlyLogs policy context.id credential.value depth
  interruptible context credential :=
    Identity.verify_interruptible policy context.id credential.value depth

/-- Comes to a given result after a given time. -/
def scripted (name : String) (delay : Rat) (result : Except VerifierFailure Grant) : Verifier where
  name
  verify _ _ := .pause delay (.done result) .cancelled
  onlyLogs _ _ := ⟨trivial, trivial⟩
  interruptible _ _ := ⟨trivial, rfl⟩

end Verifier

/-- Verifiers in order of priority, and the realm that challenges name. -/
structure Engine where
  realm : String
  verifiers : List Verifier

namespace Engine

/-- The standard chain: claims, if the policy enables them, and then the API. -/
def ofPolicy (policy : AccessPolicy) (reading : Rat) (depth : Nat := Identity.maxDepth) : Engine where
  realm := policy.realm
  verifiers :=
    (if policy.claimsEnabled then [Verifier.claims policy reading] else []) ++
      [Verifier.remote policy depth]

theorem mem_verifiers_ofPolicy {policy : AccessPolicy} {reading : Rat} {depth : Nat}
    {verifier : Verifier} (member : verifier ∈ (ofPolicy policy reading depth).verifiers) :
    verifier = Verifier.claims policy reading ∨ verifier = Verifier.remote policy depth := by
  rcases List.mem_append.mp member with enabled | last
  · split at enabled
    · exact .inl (List.mem_singleton.mp enabled)
    · exact absurd enabled List.not_mem_nil
  · exact .inr (List.mem_singleton.mp last)

def verifierNames (engine : Engine) : List String := engine.verifiers.map (·.name)

/-- Refuses a request, and logs the cause. -/
def challenge (engine : Engine) (context : RequestContext) (cause : AuthError)
    (failures : List AuthError) : Procedure (Except Challenge Grant) := do
  Procedure.log (.authFailed context.id context.path cause)
  return .error (.make engine.realm cause failures true)

/-- Asks verifiers in order. `place` is the place of the first one in the chain, and `failures`
holds the errors of those before it. Every failure of a verifier is caught, and no cancellation. -/
def ask (context : RequestContext) (credential : Credential) (place : Nat)
    (failures : List AuthError) : List Verifier → Procedure (Except (List AuthError) Grant)
  | [] => .done (.error failures)
  | verifier :: rest => do
    Procedure.consult place
    match ← (verifier.verify context credential).attempt with
    | none => .cancelled
    | some result =>
      match result with
      | .ok grant => do
        Procedure.grant grant
        return .ok grant
      | .error (.refused error) => do
        Procedure.log (.verifierRefused verifier.name context.id error)
        ask context credential (place + 1) (failures ++ [error]) rest
      | .error (.broke _) => do
        Procedure.log (.verifierBroke verifier.name context.id)
        ask context credential (place + 1) (failures ++ [.unexpected]) rest

theorem ask_cons (context : RequestContext) (credential : Credential) (place : Nat)
    (failures : List AuthError) (verifier : Verifier) (rest : List Verifier) :
    ask context credential place failures (verifier :: rest) = (do
      Procedure.consult place
      match ← verifier.verify context credential with
      | .ok grant => do
        Procedure.grant grant
        return .ok grant
      | .error (.refused error) => do
        Procedure.log (.verifierRefused verifier.name context.id error)
        ask context credential (place + 1) (failures ++ [error]) rest
      | .error (.broke _) => do
        Procedure.log (.verifierBroke verifier.name context.id)
        ask context credential (place + 1) (failures ++ [.unexpected]) rest) := by
  rw [ask]
  exact congrArg (Procedure.consult place >>= ·)
    (funext fun _ => Procedure.attempt_bind (verifier.verify context credential) rfl)

def authorize (engine : Engine) (context : RequestContext) (credential : Option Credential) :
    Procedure (Except Challenge Grant) :=
  match credential with
  | none => engine.challenge context .noCredential []
  | some credential => do
    match ← ask context credential 0 [] engine.verifiers with
    | .ok grant => return .ok grant
    | .error failures =>
      let failures := if failures.isEmpty then [.noStrategies] else failures
      engine.challenge context (failures.getLast?.getD .noStrategies) failures

def authorizeHeader (engine : Engine) (context : RequestContext) (header : Option (List Char)) :
    Procedure (Except Challenge Grant) :=
  match header with
  | none | some [] => engine.challenge context .noCredential []
  | some header =>
    match Credential.extract? header with
    | none => engine.challenge context (.malformedCredential .scheme) []
    | some credential => engine.authorize context (some credential)

end Engine

end RegistryGate
