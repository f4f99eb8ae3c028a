import RegistryGate.AccessPolicy
import RegistryGate.Base64Url
import RegistryGate.Credential
import RegistryGate.Identity.Profile
import RegistryGate.Procedure
import RegistryGate.RequestContext

/-!
# Looking up identities

An opaque token is checked by asking the API whose it is. When the policy names organizations, the
membership of that user is asked for in each of them, in order, until one confirms it. A failed
profile lookup fails the request; a failed membership lookup rules out that one organization.
-/

namespace RegistryGate

namespace Request

def mediaType : String := "application/vnd.github+json"

/-- What is sent in place of the credential when the base address itself holds a user and a
password. -/
def basicAuthorization (userinfo : List Char) : List Char :=
  let (user, password) := Url.splitAt ':' userinfo
  let bytes := Percent.decode user ++ 0x3a :: Percent.decode (password.getD [])
  let text := (Base64Url.encode bytes).map fun c =>
    if c = '-' then '+' else if c = '_' then '/' else c
  "Basic ".toList ++ Base64Url.pad text

/-- What a request to an address carries for a token: the token itself, unless the address holds a
user or a password of its own. -/
def carried (url : Url) (token : List Char) : List Char :=
  if url.userinfo.isEmpty || url.userinfo == [':'] then "token ".toList ++ token
  else basicAuthorization url.userinfo

/-- The request for a path with a token. The address is made before the header; a token that is not
ASCII cannot be sent. -/
def make (client : Client) (path token : List Char) : Except Fault Request :=
  match Url.join? client.base path with
  | none => .error .invalidUrl
  | some url =>
    if token.all (·.toNat < 0x80) then .ok ⟨url, carried url token, mediaType⟩
    else .error .unencodable

end Request

namespace Identity

/-- What is made of the end of an exchange. An answer is filed under the address that it came from,
which has to name its scheme for that. -/
def settle (request : Request) (ended : Except Fault Answer) : Except Fault Answer :=
  match ended with
  | .ok answer => if request.url.namesScheme then .ok answer else .error .wrongValue
  | .error fault => .error fault

/-- Asks for a path with a token, within the time limit of the policy. Without any time left nothing
is sent. A cancellation of the wait is passed on. -/
def get (policy : AccessPolicy) (client : Client) (path token : List Char) :
    Procedure (Except Fault Answer) :=
  match policy.timeout.limit with
  | .error fault => .done (.error fault)
  | .ok limit =>
    match Request.make client path token with
    | .error fault => .done (.error fault)
    | .ok request =>
      .exchange client request limit (fun ended => .done (settle request ended)) .cancelled

def client (policy : AccessPolicy) : Procedure (Except Fault Client) :=
  .connect policy.apiBase.toList policy.timeout .done

/-- Whether a fault of an exchange is expected, so that the request fails for it. -/
def isExchangeFailure : Fault → Bool
  | .transport _ => true
  | .timeout => true
  | _ => false

def isSuccess (status : Int) : Bool := 200 ≤ status && status ≤ 299

def profilePath : List Char := "/user".toList

/-- What the end of an exchange says about the owner of a token. -/
def conclude (request : String) (depth : Nat) :
    Except Fault Answer → Procedure (Except VerifierFailure Identity)
  | .error fault =>
    if isExchangeFailure fault then do
      Procedure.log (.apiUnreachable request fault)
      return .error (.refused (.remoteVerification none (some fault)))
    else return .error (.broke fault)
  | .ok answer =>
    if isSuccess answer.status then
      match ofBody answer.body depth with
      | .ok identity => return .ok identity
      | .error fault =>
        if isHandled fault then do
          Procedure.log (.profileUnusable request (.profile fault))
          return .error
            (.refused (.remoteVerification (some answer.status) (some (.profile fault))))
        else return .error (.broke (.profile fault))
    else do
      Procedure.log (.apiRefused answer.status request)
      return .error (.refused (.remoteVerification (some answer.status) none))

/-- Finds out who a token belongs to. The handlers around the exchange name no cancellation. -/
def fetch (policy : AccessPolicy) (request : String) (token : List Char)
    (depth : Nat := maxDepth) : Procedure (Except VerifierFailure Identity) := do
  match ← client policy with
  | .error fault => return .error (.broke fault)
  | .ok client =>
    match ← (get policy client profilePath token).attempt with
    | none => .cancelled
    | some ended => conclude request depth ended

theorem fetch_eq (policy : AccessPolicy) (request : String) (token : List Char) (depth : Nat) :
    fetch policy request token depth = (do
      match ← client policy with
      | .error fault => return .error (.broke fault)
      | .ok client => get policy client profilePath token >>= conclude request depth) := by
  refine congrArg (client policy >>= ·) (funext fun held => ?_)
  cases held with
  | error fault => rfl
  | ok client => exact Procedure.attempt_bind (get policy client profilePath token) rfl

/-- The path that tells whether a user is a member of an organization. -/
def memberPath? (organization : String) (login : WideText) : Option (List Char) := do
  let organization ← Percent.encodeSegment? organization
  let login ← Percent.encodeSegment? login
  return "/orgs/".toList ++ organization ++ "/members/".toList ++ login

/-- Whether a fault only leaves a membership unknown. -/
def isMembershipFailure : Fault → Bool
  | .transport _ => true
  | .timeout => true
  | .invalidUrl => true
  | _ => false

/-- What the end of an exchange says about a membership, and whether the rest of the organizations
are asked. -/
def weigh (request : String) (login : WideText) (organization : String)
    (rest : Procedure (Except Fault Bool)) : Except Fault Answer → Procedure (Except Fault Bool)
  | .error fault =>
    if isMembershipFailure fault then do
      Procedure.log (.membershipUnknown organization request fault)
      rest
    else return .error fault
  | .ok answer =>
    if answer.status = 204 then do
      Procedure.log (.membershipConfirmed login organization)
      return .ok true
    else do
      Procedure.log (.membershipAbsent login organization answer.status)
      rest

/-- Asks organizations in order whether a user is a member, until one confirms it. The handlers around
an exchange name no cancellation. -/
def scanOrganizations (policy : AccessPolicy) (client : Client) (request : String)
    (token : List Char) (login : WideText) : List String → Procedure (Except Fault Bool)
  | [] => .done (.ok false)
  | organization :: rest =>
    match memberPath? organization login with
    | none => .done (.error .unencodable)
    | some path => do
      match ← (get policy client path token).attempt with
      | none => .cancelled
      | some ended =>
        weigh request login organization (scanOrganizations policy client request token login rest)
          ended

theorem scanOrganizations_cons (policy : AccessPolicy) (client : Client) (request : String)
    (token : List Char) (login : WideText) (organization : String) (rest : List String) :
    scanOrganizations policy client request token login (organization :: rest) =
      match memberPath? organization login with
      | none => .done (.error .unencodable)
      | some path =>
        get policy client path token >>=
          weigh request login organization
            (scanOrganizations policy client request token login rest) := by
  rw [scanOrganizations]
  cases memberPath? organization login with
  | none => rfl
  | some path => exact Procedure.attempt_bind (get policy client path token) rfl

/-- Whether some organization of the policy confirms a user as a member. -/
def isMember (policy : AccessPolicy) (request : String) (token : List Char) (login : WideText) :
    Procedure (Except Fault Bool) := do
  match ← client policy with
  | .error fault => return .error fault
  | .ok client => scanOrganizations policy client request token login policy.organizations

/-- Whether the policy admits a user: every user, unless it names organizations. -/
def admits (policy : AccessPolicy) (request : String) (token : List Char) (login : WideText) :
    Procedure (Except Fault Bool) :=
  if policy.organizations.isEmpty then .done (.ok true) else isMember policy request token login

def strategy : String := "remote"

/-- Lets the owner of a token in, if the policy admits them. -/
def verify (policy : AccessPolicy) (request : String) (token : List Char)
    (depth : Nat := maxDepth) : Procedure (Except VerifierFailure Grant) := do
  match ← fetch policy request token depth with
  | .error failure => return .error failure
  | .ok identity =>
    match ← admits policy request token identity.principal with
    | .error fault => return .error (.broke fault)
    | .ok false => do
      Procedure.log (.notAMember identity.principal request)
      return .error (.refused (.membershipDenied identity.principal))
    | .ok true => do
      Procedure.log (.remoteAccepted identity.principal request)
      return .ok ⟨identity.principal, strategy⟩

/-! ## Properties of lookups -/

section Composes

variable {P : ∀ α : Type, Procedure α → Prop} {policy : AccessPolicy} {token : List Char}

theorem conclude_composes (composes : Procedure.Composes P) (request : String) (depth : Nat)
    (ended : Except Fault Answer) : P _ (conclude request depth ended) := by
  cases ended with
  | error fault =>
    simp only [conclude]
    split
    · exact composes.bind (composes.log _) fun _ => composes.done _
    · exact composes.done _
  | ok answer =>
    simp only [conclude]
    split
    · split
      · exact composes.done _
      · split
        · exact composes.bind (composes.log _) fun _ => composes.done _
        · exact composes.done _
    · exact composes.bind (composes.log _) fun _ => composes.done _

theorem weigh_composes (composes : Procedure.Composes P) (request : String) (login : WideText)
    (organization : String) {rest : Procedure (Except Fault Bool)} (later : P _ rest)
    (ended : Except Fault Answer) : P _ (weigh request login organization rest ended) := by
  cases ended with
  | error fault =>
    simp only [weigh]
    split
    · exact composes.bind (composes.log _) fun _ => later
    · exact composes.done _
  | ok answer =>
    simp only [weigh]
    split
    · exact composes.bind (composes.log _) fun _ => composes.done _
    · exact composes.bind (composes.log _) fun _ => later

/-! A lookup has whatever property getting hold of the client and asking for a path have, if the log
does not affect it. -/

theorem fetch_composes (composes : Procedure.Composes P) (connects : P _ (client policy))
    (gets : ∀ client path, P _ (get policy client path token)) (request : String) (depth : Nat) :
    P _ (fetch policy request token depth) := by
  rw [fetch_eq]
  refine composes.bind connects fun held => ?_
  cases held with
  | error fault => exact composes.done _
  | ok client => exact composes.bind (gets client _) (conclude_composes composes request depth)

theorem scanOrganizations_composes (composes : Procedure.Composes P) {client : Client}
    (gets : ∀ path, P _ (get policy client path token)) (request : String) (login : WideText)
    (organizations : List String) :
    P _ (scanOrganizations policy client request token login organizations) := by
  induction organizations with
  | nil => exact composes.done _
  | cons organization rest ih =>
    rw [scanOrganizations_cons]
    split
    · exact composes.done _
    · exact composes.bind (gets _) (weigh_composes composes request login organization ih)

theorem isMember_composes (composes : Procedure.Composes P) (connects : P _ (client policy))
    (gets : ∀ client path, P _ (get policy client path token)) (request : String) (login : WideText) :
    P _ (isMember policy request token login) := by
  refine composes.bind connects fun held => ?_
  cases held with
  | error fault => exact composes.done _
  | ok client => exact scanOrganizations_composes composes (gets client) request login _

theorem admits_composes (composes : Procedure.Composes P) (connects : P _ (client policy))
    (gets : ∀ client path, P _ (get policy client path token)) (request : String) (login : WideText) :
    P _ (admits policy request token login) := by
  unfold admits
  split
  · exact composes.done _
  · exact isMember_composes composes connects gets request login

theorem verify_composes (composes : Procedure.Composes P) (connects : P _ (client policy))
    (gets : ∀ client path, P _ (get policy client path token)) (request : String) (depth : Nat) :
    P _ (verify policy request token depth) := by
  refine composes.bind (fetch_composes composes connects gets request depth) fun fetched => ?_
  cases fetched with
  | error failure => exact composes.done _
  | ok identity =>
    refine composes.bind (admits_composes composes connects gets request identity.principal)
      fun answer => ?_
    rcases answer with fault | (_ | _)
    · exact composes.done _
    · exact composes.bind (composes.log _) fun _ => composes.done _
    · exact composes.bind (composes.log _) fun _ => composes.done _

end Composes

theorem get_onlyLogs (policy : AccessPolicy) (client : Client) (path token : List Char) :
    (get policy client path token).OnlyLogs := by
  unfold get
  split
  · trivial
  · split
    · trivial
    · exact ⟨fun _ => trivial, trivial⟩

theorem fetch_onlyLogs (policy : AccessPolicy) (request : String) (token : List Char) (depth : Nat) :
    (fetch policy request token depth).OnlyLogs :=
  fetch_composes Procedure.onlyLogs_composes (fun _ => trivial)
    (fun client path => get_onlyLogs policy client path token) request depth

theorem admits_onlyLogs (policy : AccessPolicy) (request : String) (token : List Char)
    (login : WideText) : (admits policy request token login).OnlyLogs :=
  admits_composes Procedure.onlyLogs_composes (fun _ => trivial)
    (fun client path => get_onlyLogs policy client path token) request login

theorem verify_onlyLogs (policy : AccessPolicy) (request : String) (token : List Char) (depth : Nat) :
    (verify policy request token depth).OnlyLogs :=
  verify_composes Procedure.onlyLogs_composes (fun _ => trivial)
    (fun client path => get_onlyLogs policy client path token) request depth

theorem get_interruptible (policy : AccessPolicy) (client : Client) (path token : List Char) :
    (get policy client path token).Interruptible := by
  unfold get
  split
  · trivial
  · split
    · trivial
    · exact ⟨fun _ => trivial, rfl⟩

/-! No handler on the way catches a cancellation. -/

theorem fetch_interruptible (policy : AccessPolicy) (request : String) (token : List Char)
    (depth : Nat) : (fetch policy request token depth).Interruptible :=
  fetch_composes Procedure.interruptible_composes (fun _ => trivial)
    (fun client path => get_interruptible policy client path token) request depth

theorem isMember_interruptible (policy : AccessPolicy) (request : String) (token : List Char)
    (login : WideText) : (isMember policy request token login).Interruptible :=
  isMember_composes Procedure.interruptible_composes (fun _ => trivial)
    (fun client path => get_interruptible policy client path token) request login

theorem admits_interruptible (policy : AccessPolicy) (request : String) (token : List Char)
    (login : WideText) : (admits policy request token login).Interruptible :=
  admits_composes Procedure.interruptible_composes (fun _ => trivial)
    (fun client path => get_interruptible policy client path token) request login

theorem verify_interruptible (policy : AccessPolicy) (request : String) (token : List Char)
    (depth : Nat) : (verify policy request token depth).Interruptible :=
  verify_composes Procedure.interruptible_composes (fun _ => trivial)
    (fun client path => get_interruptible policy client path token) request depth

end Identity

end RegistryGate
