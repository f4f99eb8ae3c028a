import RegistryGate.Proofs.Chain
import RegistryGate.Proofs.Lookups

/-!
# The decision of the standard engine

The standard engine accepts the claims of a token if its policy enables them, and otherwise relies on
the API (`authorize_accepted`, `authorize_vouched`, `authorize_neither`). What it decides about a
header is stated once as `Decides`, for any account of how lookups end.
-/

namespace RegistryGate

/-! ## Headers -/

/-- A header bears a token behind one of the two schemes. -/
def Bears (header : Option (List Char)) (token : List Char) : Prop :=
  token ≠ [] ∧
    (header = some ("Bearer ".toList ++ token) ∨ header = some ("token ".toList ++ token))

theorem Credential.CarriedBy.bears {credential : Credential} {text : List Char}
    (carried : credential.CarriedBy text) : Bears (some text) credential.value := by
  obtain ⟨nonempty, rfl⟩ := carried
  refine ⟨nonempty, ?_⟩
  cases credential.scheme with
  | bearer => exact .inl rfl
  | token => exact .inr rfl

theorem Bears.carried {header : Option (List Char)} {token : List Char} (bears : Bears header token) :
    ∃ credential text, header = some text ∧ Credential.CarriedBy credential text ∧
      credential.value = token := by
  obtain ⟨nonempty, bearer | plain⟩ := bears
  · exact ⟨⟨.bearer, token⟩, _, bearer, ⟨nonempty, rfl⟩, rfl⟩
  · exact ⟨⟨.token, token⟩, _, plain, ⟨nonempty, rfl⟩, rfl⟩

theorem Bears.unique {header : Option (List Char)} {a b : List Char} (first : Bears header a)
    (second : Bears header b) : a = b := by
  obtain ⟨credential, text, rfl, carried, rfl⟩ := first.carried
  obtain ⟨other, _, ⟨⟩, alsoCarried, rfl⟩ := second.carried
  have same := (Credential.extract?_eq_some_iff.mpr carried).symm.trans
    (Credential.extract?_eq_some_iff.mpr alsoCarried)
  rw [Option.some.inj same]

/-! ## Claims -/

namespace Claims

/-- A policy accepts the claims of a token at a reading of the clock. -/
structure Accepted (policy : AccessPolicy) (reading : Rat) (token : List Char) (payload : Payload) :
    Prop where
  enabled : policy.claimsEnabled = true
  decoded : decode token = .ok payload
  audience : policy.expectedAudience = "" ∨ policy.expectedAudience = payload.audience
  unexpired : wholeSeconds reading < payload.expiresAt
  repository : policy.repositories.isEmpty = true ∨ payload.repository ∈ policy.repositories

theorem check_eq_ok_iff {policy : AccessPolicy} {reading : Rat} {payload : Payload} :
    check policy reading payload = .ok () ↔
      (policy.expectedAudience = "" ∨ policy.expectedAudience = payload.audience) ∧
        wholeSeconds reading < payload.expiresAt ∧
        (policy.repositories.isEmpty = true ∨ payload.repository ∈ policy.repositories) := by
  unfold check
  dsimp only
  split
  case isTrue mismatch =>
    refine ⟨by rintro ⟨⟩, ?_⟩
    rintro ⟨none | same, -⟩
    · exact absurd none mismatch.1
    · exact absurd same.symm mismatch.2
  case isFalse matching =>
    have audience : policy.expectedAudience = "" ∨ policy.expectedAudience = payload.audience := by
      by_cases none : policy.expectedAudience = ""
      · exact .inl none
      · by_cases same : payload.audience = policy.expectedAudience
        · exact .inr same.symm
        · exact absurd ⟨none, same⟩ matching
    split
    case isTrue expired =>
      refine ⟨by rintro ⟨⟩, ?_⟩
      rintro ⟨-, unexpired, -⟩
      omega
    case isFalse unexpired =>
      have later : wholeSeconds reading < payload.expiresAt := by omega
      split
      case isTrue foreign =>
        refine ⟨by rintro ⟨⟩, ?_⟩
        rintro ⟨-, -, every | listed⟩
        · rw [every] at foreign
          exact absurd foreign.1 (by decide)
        · exact absurd listed foreign.2
      case isFalse listed =>
        refine ⟨fun _ => ⟨audience, later, ?_⟩, fun _ => rfl⟩
        cases every : policy.repositories.isEmpty with
        | true => exact .inl rfl
        | false => exact .inr (by_contra fun foreign => listed ⟨every, foreign⟩)

theorem accepted_iff {policy : AccessPolicy} {reading : Rat} {token : List Char} {payload : Payload}
    (enabled : policy.claimsEnabled = true) :
    Accepted policy reading token payload ↔
      decode token = .ok payload ∧ check policy reading payload = .ok () := by
  rw [check_eq_ok_iff]
  constructor
  · intro accepted
    exact ⟨accepted.decoded, accepted.audience, accepted.unexpired, accepted.repository⟩
  · rintro ⟨decoded, audience, unexpired, repository⟩
    exact ⟨enabled, decoded, audience, unexpired, repository⟩

theorem Accepted.unique {policy : AccessPolicy} {reading : Rat} {token : List Char} {a b : Payload}
    (first : Accepted policy reading token a) (second : Accepted policy reading token b) : a = b := by
  cases first.decoded.symm.trans second.decoded
  rfl

end Claims

/-! ## Turns of the standard chain -/

namespace Engine

variable {policy : AccessPolicy} {reading : Rat} {api : Api} {context : RequestContext}
  {credential : Credential} {now : Rat} {slot : ClientSlot} {address : List Char} {depth : Nat}

theorem verify_claims (policy : AccessPolicy) (reading : Rat) (context : RequestContext)
    (credential : Credential) (api : Api) (now : Rat) (slot : ClientSlot) :
    let turn := ((Verifier.claims policy reading).verify context credential).run api none now slot
    turn.ended = now ∧ turn.slot = slot ∧ turn.requests = [] ∧
      ∀ grant, turn.value = some (.ok grant) ↔
        ∃ payload, Claims.decode credential.value = .ok payload ∧
          Claims.check policy reading payload = .ok () ∧ grant = ⟨payload.actor, "claims"⟩ := by
  simp only [Verifier.claims]
  cases decoded : Claims.decode credential.value with
  | error error =>
    refine ⟨rfl, rfl, rfl, fun grant => ⟨by rintro ⟨⟩, ?_⟩⟩
    rintro ⟨payload, ⟨⟩, -⟩
  | ok payload =>
    cases checked : Claims.check policy reading payload with
    | error error =>
      simp only [checked]
      refine ⟨rfl, rfl, rfl, fun grant => ⟨by rintro ⟨⟩, ?_⟩⟩
      rintro ⟨_, ⟨⟩, accepted, -⟩
      cases checked.symm.trans accepted
    | ok _ =>
      simp only [checked]
      refine ⟨rfl, rfl, rfl, fun grant => ⟨?_, ?_⟩⟩
      · rintro ⟨⟩
        exact ⟨payload, rfl, checked, rfl⟩
      · rintro ⟨_, ⟨⟩, -, rfl⟩
        rfl

/-- The chain begins with accepted claims, or it comes down to the API. -/
theorem turns_ofPolicy (policy : AccessPolicy) (reading : Rat) (depth : Nat)
    (context : RequestContext) (credential : Credential) (api : Api) (now : Rat) (slot : ClientSlot) :
    let turns := turns api context credential now slot (ofPolicy policy reading depth).verifiers
    (∃ payload turn rest, Claims.Accepted policy reading credential.value payload ∧
      turns = turn :: rest ∧ turn.Granted ⟨payload.actor, "claims"⟩ ∧ turn.requests = []) ∨
    (∀ payload, ¬ Claims.Accepted policy reading credential.value payload) ∧
      ∃ before, (∀ turn ∈ before, turn.Failed) ∧
        turns = before ++
          [(Identity.verify policy context.id credential.value depth).run api none now slot] := by
  cases enabled : policy.claimsEnabled with
  | false =>
    refine .inr ⟨fun payload accepted => ?_, [], fun _ member => absurd member List.not_mem_nil, ?_⟩
    · rw [accepted.enabled] at enabled
      cases enabled
    · simp only [ofPolicy, enabled]
      rfl
  | true =>
    obtain ⟨ended, kept, silent, granted⟩ :=
      verify_claims policy reading context credential api now slot
    have chain : (ofPolicy policy reading depth).verifiers =
        [Verifier.claims policy reading, Verifier.remote policy depth] := by
      simp only [ofPolicy, enabled]
      rfl
    rw [chain]
    let first := ((Verifier.claims policy reading).verify context credential).run api none now slot
    obtain ⟨result, came⟩ : ∃ result, first.value = some result :=
      ((Verifier.claims policy reading).interruptible context credential).exists_value api now slot
    cases result with
    | ok grant =>
      obtain ⟨payload, decoded, checked, rfl⟩ := (granted grant).mp came
      exact .inl ⟨payload, _, _, (Claims.accepted_iff enabled).mpr ⟨decoded, checked⟩, rfl, came,
        silent⟩
    | error failure =>
      refine .inr ⟨fun payload accepted => ?_, [first], ?_, ?_⟩
      · obtain ⟨decoded, checked⟩ := (Claims.accepted_iff enabled).mp accepted
        cases came.symm.trans ((granted _).mpr ⟨payload, decoded, checked, rfl⟩)
      · intro turn member
        rw [List.mem_singleton.mp member]
        exact ⟨failure, came⟩
      · simp only [turns, ended, kept]
        rfl

variable (context now)

/-- Accepted claims give a grant to the actor, and nothing is sent. -/
theorem authorize_accepted {payload : Claims.Payload}
    (accepted : Claims.Accepted policy reading credential.value payload) :
    let run := ((ofPolicy policy reading depth).authorize context (some credential)).run api none now slot
    run.value = some (.ok ⟨payload.actor, "claims"⟩) ∧ run.requests = [] := by
  rcases turns_ofPolicy policy reading depth context credential api now slot with
    ⟨other, turn, rest, alsoAccepted, chain, granted, silent⟩ | ⟨refused, -⟩
  · cases accepted.unique alsoAccepted
    rw [← List.nil_append (turn :: rest)] at chain
    obtain ⟨value, -, -, requests⟩ :=
      authorize_first_grant chain (fun _ member => absurd member List.not_mem_nil) granted
    refine ⟨value, requests.trans ?_⟩
    simp [silent]
  · exact absurd accepted (refused payload)

/-- Without accepted claims the API decides: it gives a grant to the owner it vouches for. -/
theorem authorize_vouched {login : WideText}
    (sound : slot.Sound policy.apiBase.toList address)
    (refused : ∀ payload, ¬ Claims.Accepted policy reading credential.value payload)
    (vouched :
      Identity.Vouched policy depth (Identity.ending policy api address) credential.value login) :
    (((ofPolicy policy reading depth).authorize context (some credential)).run api none now
      slot).value = some (.ok ⟨login, "remote"⟩) := by
  rcases turns_ofPolicy policy reading depth context credential api now slot with
    ⟨payload, -, -, accepted, -⟩ | ⟨-, before, failed, chain⟩
  · exact absurd accepted (refused payload)
  · exact (authorize_first_grant chain failed
      ((Identity.verify_eq_ok_iff sound _).mpr ⟨login, rfl, vouched⟩)).1

/-- Without either the request is challenged with the realm of the policy. -/
theorem authorize_neither (sound : slot.Sound policy.apiBase.toList address)
    (refused : ∀ payload, ¬ Claims.Accepted policy reading credential.value payload)
    (unknown : ∀ login,
      ¬ Identity.Vouched policy depth (Identity.ending policy api address) credential.value login) :
    ∃ challenge : Challenge,
      (((ofPolicy policy reading depth).authorize context (some credential)).run api none now
        slot).value = some (.error challenge) ∧ challenge.realm = policy.realm := by
  rcases turns_ofPolicy policy reading depth context credential api now slot with
    ⟨payload, -, -, accepted, -⟩ | ⟨-, before, failed, chain⟩
  · exact absurd accepted (refused payload)
  · have allFailed : ∀ turn ∈
        turns api context credential now slot (ofPolicy policy reading depth).verifiers,
        turn.Failed := by
      intro turn member
      rcases grants_or_failed member with ⟨grant, granted⟩ | alsoFailed
      · rw [chain] at member
        rcases List.mem_append.mp member with early | last
        · exact failed turn early
        · rw [List.mem_singleton.mp last] at granted
          obtain ⟨login, -, vouched⟩ := (Identity.verify_eq_ok_iff sound grant).mp granted
          exact absurd vouched (unknown login)
      · exact alsoFailed
    obtain ⟨⟨cause, -, value⟩, -⟩ := authorize_none_grants allFailed
    exact ⟨_, value, rfl⟩

/-! ## Decisions -/

/-- What the standard engine decides about a header, told by how lookups end. It grants on accepted
claims without sending anything; otherwise it grants what the API vouches for; otherwise it challenges
with the realm of the policy. -/
structure Decides (policy : AccessPolicy) (reading : Rat) (depth : Nat) (ending : Identity.Ending)
    (header : Option (List Char)) (run : Run (Except Challenge Grant)) : Prop where
  claims : ∀ actor : String,
    run.value = some (.ok ⟨actor, "claims"⟩) ∧ run.requests = [] ↔
      ∃ token payload, Bears header token ∧ Claims.Accepted policy reading token payload ∧
        payload.actor = actor
  remote : ∀ login : WideText,
    run.value = some (.ok ⟨login, "remote"⟩) ↔
      (∀ token payload, Bears header token → ¬ Claims.Accepted policy reading token payload) ∧
        ∃ token, Bears header token ∧ Identity.Vouched policy depth ending token login
  refused : (∀ token payload, Bears header token → ¬ Claims.Accepted policy reading token payload) →
    (∀ token login, Bears header token → ¬ Identity.Vouched policy depth ending token login) →
    ∃ challenge : Challenge, run.value = some (.error challenge) ∧ challenge.realm = policy.realm

/-- The run of the standard engine on a header, by what the header bears. -/
inductive Course (policy : AccessPolicy) (reading : Rat) (depth : Nat) (ending : Identity.Ending)
    (header : Option (List Char)) (run : Run (Except Challenge Grant)) : Prop where
  | accepted {token : List Char} {payload : Claims.Payload} (bears : Bears header token)
    (accepted : Claims.Accepted policy reading token payload)
    (value : run.value = some (.ok ⟨payload.actor, "claims"⟩)) (requests : run.requests = [])
  | vouched {token : List Char} {login : WideText} (bears : Bears header token)
    (refused : ∀ payload, ¬ Claims.Accepted policy reading token payload)
    (vouched : Identity.Vouched policy depth ending token login)
    (value : run.value = some (.ok ⟨login, "remote"⟩))
  | neither
    (refused : ∀ token payload, Bears header token → ¬ Claims.Accepted policy reading token payload)
    (unknown : ∀ token login, Bears header token → ¬ Identity.Vouched policy depth ending token login)
    {challenge : Challenge} (value : run.value = some (.error challenge))
    (realm : challenge.realm = policy.realm)

theorem course_ofPolicy (policy : AccessPolicy) (reading : Rat) (depth : Nat)
    (context : RequestContext) (header : Option (List Char)) (api : Api) (now : Rat)
    (sound : slot.Sound policy.apiBase.toList address) :
    Course policy reading depth (Identity.ending policy api address) header
      (((ofPolicy policy reading depth).authorizeHeader context header).run api none now slot) := by
  by_cases borne : ∃ token, Bears header token
  · obtain ⟨token, bears⟩ := borne
    obtain ⟨credential, text, rfl, carried, rfl⟩ := bears.carried
    rw [authorizeHeader_of_carried carried]
    by_cases accepted : ∃ payload, Claims.Accepted policy reading credential.value payload
    · obtain ⟨payload, accepted⟩ := accepted
      obtain ⟨value, requests⟩ := authorize_accepted context now accepted
      exact .accepted bears accepted value requests
    · have refused := not_exists.mp accepted
      by_cases vouched : ∃ login,
          Identity.Vouched policy depth (Identity.ending policy api address) credential.value login
      · obtain ⟨login, vouched⟩ := vouched
        exact .vouched bears refused vouched (authorize_vouched context now sound refused vouched)
      · have unknown := not_exists.mp vouched
        obtain ⟨challenge, value, realm⟩ := authorize_neither context now sound refused unknown
        refine .neither ?_ ?_ value realm
        · intro token payload alsoBears
          rw [alsoBears.unique bears]
          exact refused payload
        · intro token login alsoBears
          rw [alsoBears.unique bears]
          exact unknown login
  · have nothing := not_exists.mp borne
    obtain ⟨challenge, value, realm⟩ : ∃ challenge : Challenge,
        (((ofPolicy policy reading depth).authorizeHeader context header).run api none now slot).value =
          some (.error challenge) ∧ challenge.realm = policy.realm := by
      rcases header with _ | _ | ⟨c, rest⟩
      · exact ⟨_, rfl, rfl⟩
      · exact ⟨_, rfl, rfl⟩
      · rw [authorizeHeader_of_unread (List.cons_ne_nil c rest)
          fun credential carried => nothing _ carried.bears]
        exact ⟨_, rfl, rfl⟩
    exact .neither (fun token _ bears => absurd bears (nothing token))
      (fun token _ bears => absurd bears (nothing token)) value realm

variable {ending : Identity.Ending} {header : Option (List Char)} {run : Run (Except Challenge Grant)}

theorem granted_unique {login owner : WideText} {a b : String}
    (first : run.value = some (.ok ⟨login, a⟩)) (second : run.value = some (.ok ⟨owner, b⟩)) :
    login = owner ∧ a = b := by
  have same := Except.ok.inj (Option.some.inj (first.symm.trans second))
  exact ⟨congrArg Grant.principal same, congrArg Grant.strategy same⟩

theorem Course.decides (course : Course policy reading depth ending header run) :
    Decides policy reading depth ending header run := by
  cases course with
  | @accepted token payload bears accepted value requests =>
    refine ⟨fun actor => ⟨?_, ?_⟩, fun login => ⟨fun granted => ?_, ?_⟩, fun refused => ?_⟩
    · rintro ⟨granted, -⟩
      have same := (granted_unique value granted).1
      exact ⟨token, payload, bears, accepted, WideText.ofString_injective same⟩
    · rintro ⟨other, alsoPayload, alsoBears, alsoAccepted, rfl⟩
      cases bears.unique alsoBears
      cases accepted.unique alsoAccepted
      exact ⟨value, requests⟩
    · exact absurd (granted_unique value granted).2 (by decide)
    · rintro ⟨refused, -⟩
      exact absurd accepted (refused token payload bears)
    · exact absurd accepted (refused token payload bears)
  | @vouched token login bears refused vouched value =>
    have refusedAll : ∀ token payload, Bears header token →
        ¬ Claims.Accepted policy reading token payload := by
      intro other payload alsoBears
      rw [alsoBears.unique bears]
      exact refused payload
    refine ⟨fun actor => ⟨?_, ?_⟩, fun owner => ⟨fun granted => ?_, ?_⟩, fun _ unknown => ?_⟩
    · rintro ⟨granted, -⟩
      exact absurd (granted_unique value granted).2 (by decide)
    · rintro ⟨other, payload, alsoBears, accepted, -⟩
      exact absurd accepted (refusedAll other payload alsoBears)
    · rw [← (granted_unique value granted).1]
      exact ⟨refusedAll, token, bears, vouched⟩
    · rintro ⟨-, other, alsoBears, alsoVouched⟩
      cases bears.unique alsoBears
      cases vouched.unique alsoVouched
      exact value
    · exact absurd vouched (unknown token login bears)
  | neither refused unknown value realm =>
    refine ⟨fun actor => ⟨?_, ?_⟩, fun login => ⟨fun granted => ?_, ?_⟩,
      fun _ _ => ⟨_, value, realm⟩⟩
    · rintro ⟨granted, -⟩
      cases value.symm.trans granted
    · rintro ⟨token, payload, bears, accepted, -⟩
      exact absurd accepted (refused token payload bears)
    · cases value.symm.trans granted
    · rintro ⟨-, token, bears, vouched⟩
      exact absurd vouched (unknown token login bears)

/-- The standard engine decides by how lookups end, at any point of the life of its client. They end as
they ought to if the base address names its scheme and holds no user; for a single path, and whatever
the API and the token, they do so only if the URL of the path is of that kind. -/
theorem ofPolicy_decides (policy : AccessPolicy) (reading : Rat) (depth : Nat)
    (context : RequestContext) (header : Option (List Char)) (api : Api) (now : Rat)
    (address : List Char) (slot : ClientSlot)
    (life : slot.Life policy.apiBase.toList policy.timeout address) :
    let run := ((ofPolicy policy reading depth).authorizeHeader context header).run api none now slot
    Decides policy reading depth (Identity.ending policy api address) header run ∧
      ((∀ base, Url.base? address = some base → base.scheme ≠ [] ∧ base.NoUser) →
        Decides policy reading depth (Identity.promised policy api address) header run) ∧
      (∀ limit, policy.timeout.limit = .ok limit → ∀ path,
        ((∀ api token, Identity.ending policy api address path token =
            Identity.promised policy api address path token) ↔
          ∀ base url, Url.base? address = some base → Url.join? base path = some url →
            url.namesScheme = true ∧ url.NoUser)) := by
  have decides := (course_ofPolicy policy reading depth context header api now life.sound).decides
  refine ⟨decides, fun plain => ?_, fun _ limited path => Identity.ending_eq_promised_iff limited⟩
  have same : Identity.ending policy api address = Identity.promised policy api address := by
    funext path token
    refine Identity.ending_eq_promised fun base url read joined => ?_
    obtain ⟨named, free⟩ := plain base read
    exact Url.join?_of_base read named free joined
  rw [← same]
  exact decides

theorem ofRealm_decides_at_start :
    let policy := AccessPolicy.ofRealm "r" (by decide)
    let api : Api := fun _ => ⟨0, .ok ⟨404, []⟩⟩
    let header := some "token x".toList
    Decides policy 0 Identity.maxDepth (Identity.promised policy api policy.apiBase.toList) header
      (((ofPolicy policy 0).authorizeHeader ⟨"GET", "/v2/", "1"⟩ header).run api none 0 .ofOwner) := by
  intro policy api header
  have plain : (Url.base? policy.apiBase.toList).all
      (fun base => !base.scheme.isEmpty && base.userinfo.isEmpty) = true := by decide +kernel
  refine (ofPolicy_decides policy 0 Identity.maxDepth ⟨"GET", "/v2/", "1"⟩ header api 0
    policy.apiBase.toList .ofOwner .owner).2.1 fun base read => ?_
  rw [read, Option.all_some, Bool.and_eq_true, Bool.not_eq_true', List.isEmpty_eq_false_iff,
    List.isEmpty_iff] at plain
  exact ⟨plain.1, .inl plain.2⟩

theorem value_of_toOption {grant : Grant}
    (granted : run.value.bind Except.toOption = some grant) : run.value = some (.ok grant) := by
  obtain ⟨result, value, given⟩ := Option.bind_eq_some_iff.mp granted
  cases result with
  | error challenge => cases given
  | ok other =>
    cases given
    exact value

/-- A base address that holds a user and a password. -/
def sharedAddress : String := "https://u:p@github.test/api/v3"

def sharedPolicy : AccessPolicy :=
  { AccessPolicy.ofRealm "r" (by decide) with apiBase := sharedAddress }

/-- An API that knows that user alone. -/
def sharedApi : Api := fun request =>
  ⟨0, .ok (if request.authorization = "Basic dTpw".toList then
    ⟨200, Text.utf8 "\x7b\"login\":\"owner\",\"id\":1\x7d".toList⟩ else ⟨404, []⟩)⟩

/-- With a user in the base address any token is taken for that user. -/
theorem shared_not_decides :
    ¬ Decides sharedPolicy 0 Identity.maxDepth
      (Identity.promised sharedPolicy sharedApi sharedAddress.toList) (some "token x".toList)
      (((ofPolicy sharedPolicy 0).authorizeHeader ⟨"", "", "1"⟩ (some "token x".toList)).run sharedApi
        none 0 .ofOwner) := by
  intro decides
  have granted := value_of_toOption (show
    (((ofPolicy sharedPolicy 0).authorizeHeader ⟨"", "", "1"⟩ (some "token x".toList)).run sharedApi
      none 0 .ofOwner).value.bind Except.toOption = some ⟨"owner", "remote"⟩ by decide +kernel)
  obtain ⟨-, token, bears, identity, ⟨answer, ended, success, -⟩, -⟩ :=
    (decides.remote "owner").mp granted
  have borne : Bears (some "token x".toList) ['x'] := ⟨by decide, .inr (by decide)⟩
  rw [bears.unique borne] at ended
  have notFound : (Identity.promised sharedPolicy sharedApi sharedAddress.toList
      Identity.profilePath ['x']).toOption = some ⟨404, []⟩ := by decide +kernel
  rw [ended] at notFound
  cases notFound
  exact absurd success (by decide)

/-! ## Who is granted access -/

/-- A grant without a principal comes from accepted claims without an actor, and from nothing else: the
API never vouches for nobody. -/
theorem ofPolicy_grants_nobody_iff (policy : AccessPolicy) (reading : Rat) (depth : Nat)
    (context : RequestContext) (header : Option (List Char)) (api : Api) (now : Rat)
    (address : List Char) (slot : ClientSlot)
    (life : slot.Life policy.apiBase.toList policy.timeout address) :
    (∃ grant, (((ofPolicy policy reading depth).authorizeHeader context header).run api none now
        slot).value = some (.ok grant) ∧ grant.principal.isEmpty = true) ↔
      ∃ token payload, Bears header token ∧ Claims.Accepted policy reading token payload ∧
        payload.actor = "" := by
  have course := course_ofPolicy policy reading depth context header api now life.sound
  generalize ((ofPolicy policy reading depth).authorizeHeader context header).run api none now slot = run
    at course
  cases course with
  | @accepted token payload bears accepted value requests =>
    constructor
    · rintro ⟨grant, granted, nobody⟩
      cases value.symm.trans granted
      exact ⟨token, payload, bears, accepted, WideText.isEmpty_ofString.mp nobody⟩
    · rintro ⟨other, alsoPayload, alsoBears, alsoAccepted, nobody⟩
      cases bears.unique alsoBears
      cases accepted.unique alsoAccepted
      exact ⟨_, value, WideText.isEmpty_ofString.mpr nobody⟩
  | @vouched token login bears refused vouched value =>
    constructor
    · rintro ⟨grant, granted, nobody⟩
      cases value.symm.trans granted
      cases vouched.named.symm.trans nobody
    · rintro ⟨other, payload, alsoBears, accepted, -⟩
      rw [alsoBears.unique bears] at accepted
      exact absurd accepted (refused payload)
  | neither refused unknown value realm =>
    constructor
    · rintro ⟨grant, granted, -⟩
      cases value.symm.trans granted
    · rintro ⟨token, payload, bears, accepted, -⟩
      exact absurd accepted (refused token payload bears)

/-- Claims without an actor. -/
def nobodyClaims : Claims.Payload where
  subject := "repo:o/r"
  audience := "a"
  repository := "o/r"
  actor := ""
  workflow := ""
  ref := ""
  expiresAt := 100
  issuedAt := 0

def nobodyHeader : List Char := "Bearer ".toList ++ Claims.encode nobodyClaims [] ['s']

def nobodyPolicy : AccessPolicy :=
  { AccessPolicy.ofRealm "r" (by decide) with claimsEnabled := true }

def emptyApi : Api := fun _ => ⟨0, .ok ⟨404, []⟩⟩

def nobodyRun : Run (Except Challenge Grant) :=
  ((ofPolicy nobodyPolicy 0).authorizeHeader ⟨"", "", "1"⟩ (some nobodyHeader)).run emptyApi none 0
    .ofOwner

theorem value_nobodyRun : nobodyRun.value = some (.ok ⟨"", "claims"⟩) :=
  value_of_toOption (by decide +kernel)

theorem nobody_is_granted :
    ¬ ∀ grant, nobodyRun.value = some (.ok grant) → grant.principal.isEmpty = false := by
  intro named
  exact absurd (named _ value_nobodyRun) (by decide)

theorem nobody_is_accepted : ∃ token payload, Bears (some nobodyHeader) token ∧
    Claims.Accepted nobodyPolicy 0 token payload ∧ payload.actor = "" :=
  (ofPolicy_grants_nobody_iff nobodyPolicy 0 Identity.maxDepth ⟨"", "", "1"⟩ (some nobodyHeader)
    emptyApi 0 nobodyPolicy.apiBase.toList .ofOwner .owner).mp ⟨_, value_nobodyRun, by decide⟩

end Engine

end RegistryGate
