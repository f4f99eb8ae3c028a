import Mathlib.Tactic.Linarith
import RegistryGate.Identity.Lookup
import RegistryGate.Proofs.Addresses
import RegistryGate.Proofs.Runs
import RegistryGate.Proofs.Slots

/-!
# Identity lookups

How a lookup ends is a matter of the policy, the API and the address alone (`run_get`). From the ends of
the lookups it follows what the lookup of a profile comes to (`run_fetch`), who a token belongs to
(`fetch_eq_ok_iff`), whether an organization confirms them (`scanOrganizations_eq_ok_iff`) and whether
the policy lets them in (`verify_eq_ok_iff`).
-/

namespace RegistryGate.Identity

/-! ## Ends of lookups -/

/-- How the lookup of a path with a token ends. -/
abbrev Ending := List Char → List Char → Except Fault Answer

/-- How lookups on an address end, told by the request for a URL and a token and by what is made of
the end of an exchange. -/
def endingWith (request : Url → List Char → Request)
    (received : Request → Except Fault Answer → Except Fault Answer) (policy : AccessPolicy)
    (api : Api) (address : List Char) : Ending := fun path token =>
  match policy.timeout.limit with
  | .error fault => .error fault
  | .ok limit =>
    match (Url.base? address).bind (Url.join? · path) with
    | none => .error .invalidUrl
    | some url =>
      if token.all (·.toNat < 0x80) then
        received (request url token) ((api (request url token)).under limit)
      else .error .unencodable

def ending : AccessPolicy → Api → List Char → Ending :=
  endingWith (fun url token => ⟨url, Request.carried url token, Request.mediaType⟩) settle

variable {policy : AccessPolicy} {api : Api} {address : List Char} {now : Rat} {slot : ClientSlot}
  {client : Client} {request : String} {path token : List Char} {login : WideText} {depth : Nat}

/-- A lookup on an open client leaves the slot alone and ends as the API and the policy have it. -/
theorem run_get (policy : AccessPolicy) (api : Api) (path token : List Char) (now : Rat)
    (base : Url.base? address = some client.base) (isOpen : slot.isClosed client = false) :
    ∃ ended trace, (get policy client path token).run api none now slot =
      ⟨some (ending policy api address path token), ended, slot, trace⟩ := by
  unfold get ending endingWith
  cases policy.timeout.limit with
  | error fault => exact ⟨now, [], rfl⟩
  | ok limit =>
    simp only [base, Option.bind_some, Request.make]
    cases Url.join? client.base path with
    | none => exact ⟨now, [], rfl⟩
    | some url =>
      cases token.all (·.toNat < 0x80) with
      | true =>
        simp only [if_true, Procedure.run, isOpen, cutOff?, Option.bind_none, Bool.false_eq_true,
          if_false]
        exact ⟨_, _, rfl⟩
      | false => exact ⟨now, [], rfl⟩

theorem ending_ne_ok (invalid : Url.base? address = none) (answer : Answer) :
    ending policy api address path token ≠ .ok answer := by
  unfold ending endingWith
  rw [invalid, Option.bind_none]
  cases policy.timeout.limit <;> rintro ⟨⟩

/-- How lookups on an address ought to end: every request carries the token, and every answer counts
that comes in time. -/
def promised : AccessPolicy → Api → List Char → Ending :=
  endingWith (fun url token => ⟨url, "token ".toList ++ token, Request.mediaType⟩)
    fun _ ended => ended

/-- A request carries the token just when the address holds no user. -/
theorem carried_eq_iff {url : Url} :
    Request.carried url token = "token ".toList ++ token ↔ url.NoUser := by
  have blank : (url.userinfo.isEmpty || url.userinfo == [':']) = true ↔ url.NoUser := by
    rw [Bool.or_eq_true, List.isEmpty_iff, beq_iff_eq]
    rfl
  unfold Request.carried
  split
  case isTrue free => exact ⟨fun _ => blank.mp free, fun _ => rfl⟩
  case isFalse user =>
    refine ⟨fun same => ?_, fun free => absurd (blank.mpr free) user⟩
    have basic : (Request.basicAuthorization url.userinfo).head? = some 'B' := rfl
    have plain : ("token ".toList ++ token).head? = some 't' := rfl
    rw [same, plain] at basic
    exact absurd basic (by decide)

/-- A reply that comes in time. -/
def timely (limit : Limit) (result : Except Fault Answer) : Reply :=
  match limit with
  | .atMost seconds => ⟨seconds - 1, result⟩
  | _ => ⟨0, result⟩

theorem timely_under (limit : Limit) (result : Except Fault Answer) :
    (timely limit result).under limit = result := by
  cases limit with
  | forever => rfl
  | atMost seconds =>
    have early : ¬ seconds ≤ seconds - 1 := by linarith
    have uncut : (Limit.atMost seconds).cut? (seconds - 1) = none := if_neg early
    simp only [timely, Reply.under, uncut, Option.isSome_none, Bool.false_eq_true, if_false]
  | unordered => rfl

theorem endingWith_of_url {make : Url → List Char → Request}
    {received : Request → Except Fault Answer → Except Fault Answer} {url : Url}
    {limit : Limit} (limited : policy.timeout.limit = .ok limit)
    (read : (Url.base? address).bind (Url.join? · path) = some url)
    (ascii : token.all (·.toNat < 0x80) = true) :
    endingWith make received policy api address path token =
      received (make url token) ((api (make url token)).under limit) := by
  simp only [endingWith, limited, read, ascii, if_true]

theorem settle_of_named {url : Url} (named : url.namesScheme = true) (text : List Char)
    (ended : Except Fault Answer) : settle ⟨url, text, Request.mediaType⟩ ended = ended := by
  cases ended with
  | error fault => rfl
  | ok answer => simp only [settle, named, if_true]

/-- Lookups of a path end as they ought to if its URL names a scheme and holds no user. -/
theorem ending_eq_promised (plain : ∀ base url, Url.base? address = some base →
    Url.join? base path = some url → url.namesScheme = true ∧ url.NoUser) :
    ending policy api address path token = promised policy api address path token := by
  unfold ending promised endingWith
  cases read : (Url.base? address).bind (Url.join? · path) with
  | none => rfl
  | some url =>
    obtain ⟨base, based, joined⟩ := Option.bind_eq_some_iff.mp read
    obtain ⟨named, free⟩ := plain base url based joined
    simp only [carried_eq_iff.mpr free, settle_of_named named]

/-- They end as they ought to whatever the API and the token only then. -/
theorem ending_eq_promised_iff {limit : Limit} (limited : policy.timeout.limit = .ok limit) :
    (∀ api token, ending policy api address path token = promised policy api address path token) ↔
      ∀ base url, Url.base? address = some base → Url.join? base path = some url →
        url.namesScheme = true ∧ url.NoUser := by
  constructor
  case mpr => exact fun plain api token => ending_eq_promised plain
  intro same base url based joined
  have read : (Url.base? address).bind (Url.join? · path) = some url := by
    rw [based, Option.bind_some, joined]
  have agree (result : Request → Except Fault Answer) :
      settle ⟨url, Request.carried url ['x'], Request.mediaType⟩
          (result ⟨url, Request.carried url ['x'], Request.mediaType⟩) =
        result ⟨url, "token ".toList ++ ['x'], Request.mediaType⟩ := by
    have ends := same (fun made => timely limit (result made)) ['x']
    have ascii : ['x'].all (·.toNat < 0x80) = true := by decide
    rw [ending, promised, endingWith_of_url limited read ascii, endingWith_of_url limited read ascii,
      timely_under, timely_under] at ends
    exact ends
  have named : url.namesScheme = true := by
    have counted := agree fun _ => .ok default
    cases scheme : url.namesScheme with
    | true => rfl
    | false =>
      simp only [settle, scheme] at counted
      cases counted
  have sameText : Request.carried url ['x'] = "token ".toList ++ ['x'] := by
    -- An API that answers the request with the token alone tells the two requests apart.
    have told := agree fun made =>
      if made.authorization = "token ".toList ++ ['x'] then .ok default else .error .timeout
    rw [settle_of_named named, if_pos rfl] at told
    by_contra different
    rw [if_neg different] at told
    cases told
  exact ⟨named, carried_eq_iff.mp sameText⟩

theorem run_client :
    (Identity.client policy).run api none now slot =
      ⟨some (slot.ensure policy.apiBase.toList policy.timeout).1, now,
        (slot.ensure policy.apiBase.toList policy.timeout).2, []⟩ := rfl

/-- Whoever asks for the client goes on with an open one on the address, or without any if the address is
none. -/
theorem run_client_bind {α : Type} (sound : slot.Sound policy.apiBase.toList address)
    (next : Except Fault Client → Procedure α) (api : Api) (now : Rat) :
    (∃ client after, Url.base? address = some client.base ∧
      after.Sound policy.apiBase.toList address ∧ after.isClosed client = false ∧
      (Identity.client policy >>= next).run api none now slot =
        (next (.ok client)).run api none now after) ∨
    (Url.base? address = none ∧ (Identity.client policy >>= next).run api none now slot =
      (next (.error .invalidUrl)).run api none now slot) := by
  rw [Procedure.run_bind, run_client, Run.andThen_of_some rfl]
  rcases sound.ensure_eq policy.timeout with ⟨client, after, held, alsoSound, kept⟩ | ⟨held, invalid⟩
  · rw [held]
    exact .inl ⟨client, after, (alsoSound.held client kept).1, alsoSound, alsoSound.isClosed kept, rfl⟩
  · rw [held]
    exact .inr ⟨invalid, rfl⟩

/-! ## The owner of a token -/

/-- The profile that the lookup of a token ends with. -/
def Owner (depth : Nat) (ending : Ending) (token : List Char) (identity : Identity) : Prop :=
  ∃ answer, ending profilePath token = .ok answer ∧ isSuccess answer.status = true ∧
    ofBody answer.body depth = .ok identity

variable {e : Ending} {identity : Identity}

theorem owner_iff {answer : Answer} (ended : e profilePath token = .ok answer) :
    Owner depth e token identity ↔
      isSuccess answer.status = true ∧ ofBody answer.body depth = .ok identity := by
  constructor
  · rintro ⟨other, alsoEnded, success, read⟩
    cases ended.symm.trans alsoEnded
    exact ⟨success, read⟩
  · rintro ⟨success, read⟩
    exact ⟨answer, ended, success, read⟩

theorem Owner.unique {a b : Identity} (first : Owner depth e token a)
    (second : Owner depth e token b) : a = b := by
  obtain ⟨answer, ended, -, read⟩ := first
  obtain ⟨-, alsoRead⟩ := (owner_iff ended).mp second
  exact Except.ok.inj (read.symm.trans alsoRead)

theorem Owner.named (owner : Owner depth e token identity) : identity.principal.isEmpty = false := by
  obtain ⟨answer, -, -, read⟩ := owner
  exact principal_of_ofBody read

/-- What the lookup of a profile comes to, told by how its exchange ends. -/
def verdict (depth : Nat) : Except Fault Answer → Except VerifierFailure Identity
  | .error fault =>
    if isExchangeFailure fault then .error (.refused (.remoteVerification none (some fault)))
    else .error (.broke fault)
  | .ok answer =>
    if isSuccess answer.status then
      match ofBody answer.body depth with
      | .ok identity => .ok identity
      | .error fault =>
        if isHandled fault then
          .error (.refused (.remoteVerification (some answer.status) (some (.profile fault))))
        else .error (.broke (.profile fault))
    else .error (.refused (.remoteVerification (some answer.status) none))

theorem verdict_of_profile {answer : Answer} (success : isSuccess answer.status = true)
    (read : ofBody answer.body depth = .ok identity) :
    verdict depth (.ok answer) = .ok identity := by
  simp only [verdict, success, read, if_true]

theorem verdict_eq_ok_iff {ended : Except Fault Answer} :
    verdict depth ended = .ok identity ↔ ∃ answer, ended = .ok answer ∧
      isSuccess answer.status = true ∧ ofBody answer.body depth = .ok identity := by
  constructor
  · intro found
    cases ended with
    | error fault =>
      simp only [verdict] at found
      split at found
      · cases found
      · cases found
    | ok answer =>
      simp only [verdict] at found
      split at found
      case isTrue success =>
        split at found
        case h_1 other read =>
          cases found
          exact ⟨answer, rfl, success, read⟩
        case h_2 =>
          split at found
          · cases found
          · cases found
      case isFalse => cases found
  · rintro ⟨answer, rfl, success, read⟩
    exact verdict_of_profile success read

/-- The lookup of a profile comes to its verdict, unless the address is none. -/
theorem run_fetch (policy : AccessPolicy) (api : Api) (request : String) (token : List Char)
    (depth : Nat) (now : Rat) (sound : slot.Sound policy.apiBase.toList address) :
    let run := (fetch policy request token depth).run api none now slot
    run.slot.Sound policy.apiBase.toList address ∧
      (Url.base? address ≠ none → run.value =
        some (verdict depth (ending policy api address profilePath token))) ∧
      (Url.base? address = none → run.value = some (.error (.broke .invalidUrl))) := by
  rw [fetch_eq]
  rcases run_client_bind sound _ api now with
    ⟨client, after, based, alsoSound, isOpen, goesOn⟩ | ⟨invalid, goesOn⟩
  · obtain ⟨time, trace, got⟩ := run_get policy api profilePath token now based isOpen
    rw [goesOn]
    dsimp only
    rw [Procedure.run_bind, got, Run.andThen_of_some rfl]
    have valid : Url.base? address ≠ none := by
      rw [based]
      exact Option.some_ne_none client.base
    have never {goal : Prop} (invalid : Url.base? address = none) : goal := absurd invalid valid
    unfold verdict
    cases ending policy api address profilePath token with
    | error fault =>
      simp only [conclude]
      split
      · exact ⟨alsoSound, fun _ => rfl, never⟩
      · exact ⟨alsoSound, fun _ => rfl, never⟩
    | ok answer =>
      simp only [conclude]
      split
      · cases ofBody answer.body depth with
        | ok identity => exact ⟨alsoSound, fun _ => rfl, never⟩
        | error fault =>
          dsimp only
          split
          · exact ⟨alsoSound, fun _ => rfl, never⟩
          · exact ⟨alsoSound, fun _ => rfl, never⟩
      · exact ⟨alsoSound, fun _ => rfl, never⟩
  · rw [goesOn]
    exact ⟨sound, fun based => absurd invalid based, fun _ => rfl⟩

/-- A token is found to belong to somebody just when its lookup ends with their profile. -/
theorem fetch_eq_ok_iff (policy : AccessPolicy) (api : Api) (request : String) (token : List Char)
    (depth : Nat) (now : Rat) (sound : slot.Sound policy.apiBase.toList address) :
    let run := (fetch policy request token depth).run api none now slot
    run.slot.Sound policy.apiBase.toList address ∧
      ∀ identity, run.value = some (.ok identity) ↔
        Owner depth (ending policy api address) token identity := by
  obtain ⟨alsoSound, came, broke⟩ := run_fetch policy api request token depth now sound
  refine ⟨alsoSound, fun identity => ?_⟩
  by_cases invalid : Url.base? address = none
  · rw [broke invalid]
    refine iff_of_false (by rintro ⟨⟩) ?_
    rintro ⟨answer, ended, -⟩
    exact absurd ended (ending_ne_ok invalid answer)
  · rw [came invalid, Option.some.injEq]
    exact verdict_eq_ok_iff

/-! ## Memberships -/

/-- An organization confirms a user: the lookup of the membership is answered by exactly 204. -/
def Confirms (ending : Ending) (token : List Char) (login : WideText) (organization : String) :
    Prop :=
  ∃ path answer, memberPath? organization login = some path ∧ ending path token = .ok answer ∧
    answer.status = 204

/-- An organization is passed over: the lookup is answered otherwise, or it ends in a fault that leaves
the membership unknown. -/
def PassedOver (ending : Ending) (token : List Char) (login : WideText) (organization : String) :
    Prop :=
  ∃ path, memberPath? organization login = some path ∧
    ((∃ answer, ending path token = .ok answer ∧ answer.status ≠ 204) ∨
      ∃ fault, ending path token = .error fault ∧ isMembershipFailure fault = true)

/-- Some organization of a list confirms a user, and those before it are passed over. -/
def ConfirmedBy (ending : Ending) (token : List Char) (login : WideText)
    (organizations : List String) : Prop :=
  ∃ before organization after, organizations = before ++ organization :: after ∧
    Confirms ending token login organization ∧
    ∀ earlier ∈ before, PassedOver ending token login earlier

variable {organization : String} {rest : List String}

theorem not_confirmedBy_nil : ¬ ConfirmedBy e token login [] := by
  rintro ⟨before, organization, after, split, -⟩
  cases before <;> cases split

theorem confirmedBy_cons_iff :
    ConfirmedBy e token login (organization :: rest) ↔
      Confirms e token login organization ∨
        PassedOver e token login organization ∧ ConfirmedBy e token login rest := by
  constructor
  · rintro ⟨before, confirming, after, split, confirms, passed⟩
    cases before with
    | nil =>
      cases split
      exact .inl confirms
    | cons first before =>
      cases split
      exact .inr ⟨passed _ List.mem_cons_self, before, confirming, after, rfl, confirms,
        fun earlier member => passed earlier (List.mem_cons_of_mem _ member)⟩
  · rintro (confirms | ⟨first, before, confirming, after, rfl, confirms, passed⟩)
    · exact ⟨[], organization, rest, rfl, confirms, fun _ member => absurd member List.not_mem_nil⟩
    · exact ⟨organization :: before, confirming, after, rfl, confirms,
        List.forall_mem_cons.mpr ⟨first, passed⟩⟩

theorem confirms_iff (written : memberPath? organization login = some path) :
    Confirms e token login organization ↔ ∃ answer, e path token = .ok answer ∧ answer.status = 204 := by
  unfold Confirms
  rw [written]
  constructor
  · rintro ⟨_, answer, ⟨⟩, answered⟩
    exact ⟨answer, answered⟩
  · rintro ⟨answer, answered⟩
    exact ⟨path, answer, rfl, answered⟩

theorem passedOver_iff (written : memberPath? organization login = some path) :
    PassedOver e token login organization ↔
      (∃ answer, e path token = .ok answer ∧ answer.status ≠ 204) ∨
        ∃ fault, e path token = .error fault ∧ isMembershipFailure fault = true := by
  unfold PassedOver
  rw [written]
  constructor
  · rintro ⟨_, ⟨⟩, ended⟩
    exact ended
  · intro ended
    exact ⟨path, rfl, ended⟩

theorem scanOrganizations_eq_ok_iff (base : Url.base? address = some client.base)
    (isOpen : slot.isClosed client = false) (organizations : List String) :
    ((scanOrganizations policy client request token login organizations).run api none now slot).value =
        some (.ok true) ↔
      ConfirmedBy (ending policy api address) token login organizations := by
  induction organizations generalizing now with
  | nil => exact ⟨by rintro ⟨⟩, fun confirmed => absurd confirmed not_confirmedBy_nil⟩
  | cons organization rest ih =>
    rw [confirmedBy_cons_iff, scanOrganizations_cons]
    cases written : memberPath? organization login with
    | none =>
      refine ⟨by rintro ⟨⟩, ?_⟩
      rintro (⟨path, answer, alsoWritten, -⟩ | ⟨⟨path, alsoWritten, -⟩, -⟩)
      · cases written.symm.trans alsoWritten
      · cases written.symm.trans alsoWritten
    | some path =>
      obtain ⟨time, trace, got⟩ := run_get policy api path token now base isOpen
      dsimp only
      rw [Procedure.run_bind, got, Run.andThen_of_some rfl, confirms_iff written,
        passedOver_iff written]
      cases ending policy api address path token with
      | error fault =>
        simp only [weigh]
        split
        case isTrue caught =>
          constructor
          · intro later
            exact .inr ⟨.inr ⟨fault, rfl, caught⟩, ih.mp later⟩
          · rintro (⟨answer, ⟨⟩, -⟩ | ⟨-, later⟩)
            exact ih.mpr later
        case isFalse uncaught =>
          refine ⟨by rintro ⟨⟩, ?_⟩
          rintro (⟨answer, ⟨⟩, -⟩ | ⟨⟨answer, ⟨⟩, -⟩ | ⟨_, ⟨⟩, caught⟩, -⟩)
          exact absurd caught uncaught
      | ok answer =>
        simp only [weigh]
        split
        case isTrue confirming =>
          exact ⟨fun _ => .inl ⟨answer, rfl, confirming⟩, fun _ => rfl⟩
        case isFalse other =>
          constructor
          · intro later
            exact .inr ⟨.inl ⟨answer, rfl, other⟩, ih.mp later⟩
          · rintro (⟨_, ⟨⟩, confirming⟩ | ⟨-, later⟩)
            · exact absurd confirming other
            · exact ih.mpr later

/-- The policy lets a user in: it names no organizations, or one of them confirms the user. -/
def Admitted (policy : AccessPolicy) (ending : Ending) (token : List Char) (login : WideText) :
    Prop :=
  policy.organizations = [] ∨ ConfirmedBy ending token login policy.organizations

theorem admits_eq_ok_iff (request : String) (login : WideText) (now : Rat)
    (sound : slot.Sound policy.apiBase.toList address) {profile : Answer}
    (reachable : ending policy api address profilePath token = .ok profile) :
    ((admits policy request token login).run api none now slot).value = some (.ok true) ↔
      Admitted policy (ending policy api address) token login := by
  unfold admits Admitted
  split
  case isTrue nobody =>
    exact ⟨fun _ => .inl (List.isEmpty_iff.mp nobody), fun _ => rfl⟩
  case isFalse somebody =>
    rw [or_iff_right (mt List.isEmpty_iff.mpr somebody)]
    simp only [isMember]
    rcases run_client_bind sound _ api now with
      ⟨client, after, based, -, isOpen, goesOn⟩ | ⟨invalid, -⟩
    · rw [goesOn]
      exact scanOrganizations_eq_ok_iff based isOpen _
    · exact absurd reachable (ending_ne_ok invalid profile)

/-! ## Verification -/

/-- The API vouches for the owner of a token, and the policy lets them in. -/
def Vouched (policy : AccessPolicy) (depth : Nat) (ending : Ending) (token : List Char)
    (login : WideText) : Prop :=
  ∃ identity, Owner depth ending token identity ∧ identity.principal = login ∧
    Admitted policy ending token login

theorem vouched_iff (owner : Owner depth e token identity) :
    Vouched policy depth e token login ↔
      login = identity.principal ∧ Admitted policy e token identity.principal := by
  constructor
  · rintro ⟨other, alsoOwner, rfl, admitted⟩
    cases owner.unique alsoOwner
    exact ⟨rfl, admitted⟩
  · rintro ⟨rfl, admitted⟩
    exact ⟨identity, owner, rfl, admitted⟩

theorem Vouched.unique {a b : WideText} (first : Vouched policy depth e token a)
    (second : Vouched policy depth e token b) : a = b := by
  obtain ⟨identity, owner, rfl, -⟩ := first
  exact ((vouched_iff owner).mp second).1.symm

theorem Vouched.named (vouched : Vouched policy depth e token login) : login.isEmpty = false := by
  obtain ⟨identity, owner, rfl, -⟩ := vouched
  exact owner.named

/-- A grant is given just to the owner of the token, and only if the policy lets them in. -/
theorem verify_eq_ok_iff (sound : slot.Sound policy.apiBase.toList address) (grant : Grant) :
    ((verify policy request token depth).run api none now slot).value = some (.ok grant) ↔
      ∃ login, grant = ⟨login, strategy⟩ ∧
        Vouched policy depth (ending policy api address) token login := by
  obtain ⟨alsoSound, owner⟩ := fetch_eq_ok_iff policy api request token depth now sound
  obtain ⟨fetched, came⟩ := (fetch_interruptible policy request token depth).exists_value api now slot
  simp only [verify]
  rw [Procedure.run_bind, Run.andThen_of_some came]
  generalize (fetch policy request token depth).run api none now slot = run at alsoSound owner came ⊢
  cases fetched with
  | error failure =>
    refine iff_of_false (by rintro ⟨⟩) ?_
    rintro ⟨login, -, identity, owned, -⟩
    cases came.symm.trans ((owner identity).mpr owned)
  | ok identity =>
    have owned := (owner identity).mp came
    obtain ⟨profile, reachable, -⟩ := owned
    have decided := admits_eq_ok_iff request identity.principal run.ended alsoSound reachable
    obtain ⟨answer, answered⟩ := (admits_interruptible policy request token
      identity.principal).exists_value api run.ended run.slot
    dsimp only
    rw [Procedure.run_bind, Run.andThen_of_some answered]
    rw [answered] at decided
    simp only [vouched_iff ((owner identity).mp came), ← decided]
    rcases answer with fault | (_ | _)
    · exact iff_of_false (by rintro ⟨⟩) (by rintro ⟨login, -, -, ⟨⟩⟩)
    · exact iff_of_false (by rintro ⟨⟩) (by rintro ⟨login, -, -, ⟨⟩⟩)
    · constructor
      · rintro ⟨⟩
        exact ⟨identity.principal, rfl, rfl, rfl⟩
      · rintro ⟨login, rfl, rfl, -⟩
        rfl

end RegistryGate.Identity
