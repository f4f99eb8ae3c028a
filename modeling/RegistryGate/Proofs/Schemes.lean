import RegistryGate.Proofs.Isolation

/-!
# Schemes of credentials

The credential of a header is all that stands behind its scheme, as it stands there. Under which of the
two schemes it is presented makes no difference to what the standard engine does for it, and whatever is
sent for it is sent with the same authorization (`authorizeHeader_either_scheme`).
-/

namespace RegistryGate

theorem Credential.extract?_eq_none_iff {header : List Char} :
    extract? header = none ↔ ∀ credential : Credential, ¬ credential.CarriedBy header := by
  rw [Option.eq_none_iff_forall_ne_some]
  exact forall_congr' fun credential => not_congr extract?_eq_some_iff

namespace Engine

variable {policy : AccessPolicy} {reading : Rat} {depth : Nat} {api : Api} {deadline : Option Rat}
  {now : Rat} {address : List Char} {slot otherSlot : ClientSlot} {context : RequestContext} {id : String}
  {value : List Char}

theorem authorizeHeader_lead (engine : Engine) (context : RequestContext) (scheme : Scheme)
    (present : value ≠ []) :
    engine.authorizeHeader context (some (scheme.lead ++ value)) =
      engine.authorize context (some ⟨scheme, value⟩) :=
  authorizeHeader_of_carried ⟨present, rfl⟩

/-- On slots for one address, what is done for a credential under one scheme repeats what is done for it
under another. -/
theorem repeats_run_authorizeHeader (sound : slot.Sound policy.apiBase.toList address)
    (soundOther : otherSlot.Sound policy.apiBase.toList address) (present : value ≠ [])
    (scheme otherScheme : Scheme) :
    (((ofPolicy policy reading depth).authorizeHeader context (some (scheme.lead ++ value))).run api deadline
      now slot).Repeats id
      (((ofPolicy policy reading depth).authorizeHeader { context with id }
        (some (otherScheme.lead ++ value))).run api deadline now otherSlot) := by
  rw [authorizeHeader_lead _ context scheme present, authorizeHeader_lead _ _ otherScheme present]
  refine (repeats_authorize context id ?_).run now sound soundOther
  rfl

/-- What is sent for a credential, under either scheme, asks for it. -/
theorem requests_of_mem_authorizeHeader (sound : slot.Sound policy.apiBase.toList address)
    (scheme : Scheme) {request : Request} {outcome : Outcome} (present : value ≠ [])
    (member : (request, outcome) ∈ (((ofPolicy policy reading depth).authorizeHeader context
      (some (scheme.lead ++ value))).run api deadline now slot).requests) :
    ∃ path, Identity.Requests address path value request := by
  rw [authorizeHeader_lead _ context scheme present] at member
  obtain ⟨full, sent⟩ := (authorize_interruptible _ context _).exists_outcome_of_deadline member
  exact (sent_of_mem_authorize sound sent).exists_requests

/-- A header gives a credential just if it is one of the two schemes and the credential behind it. Under
either scheme a credential comes to the same result, metadata, log and requests at any point of the life
of the client, but for the identifier of the request in the log. The requests carry the credential as it
is, unless their address holds a user. -/
theorem authorizeHeader_either_scheme (policy : AccessPolicy) (reading : Rat) (depth : Nat) (api : Api)
    (deadline : Option Rat) (now : Rat) (address : List Char) (slot otherSlot : ClientSlot)
    (context : RequestContext) (id : String) (header value : List Char) :
    (∀ credential : Credential, Credential.extract? header = some credential ↔
      credential.value ≠ [] ∧ header = credential.scheme.lead ++ credential.value) ∧
    (Credential.extract? header = none ↔
      ∀ (scheme : Scheme) (value : List Char), value ≠ [] → header ≠ scheme.lead ++ value) ∧
    (slot.Life policy.apiBase.toList policy.timeout address →
      otherSlot.Life policy.apiBase.toList policy.timeout address → value ≠ [] →
      let engine := ofPolicy policy reading depth
      let run := (engine.authorizeHeader context (some ("Bearer ".toList ++ value))).run api deadline
        now slot
      let other := (engine.authorizeHeader { context with id } (some ("token ".toList ++ value))).run
        api deadline now otherSlot
      run.Repeats id other ∧ (∀ before, other.metadata before = run.metadata before) ∧
        other.events = run.events.map (Event.forRequest id) ∧ other.requests = run.requests ∧
        ∀ request outcome, (request, outcome) ∈ run.requests →
          (request.authorization = "token ".toList ++ value ↔ request.url.NoUser) ∧
            ((∀ base, Url.base? address = some base → base.scheme ≠ [] ∧ base.NoUser) →
              request.authorization = "token ".toList ++ value)) := by
  refine ⟨fun credential => Credential.extract?_eq_some_iff, ?_, ?_⟩
  · rw [Credential.extract?_eq_none_iff]
    constructor
    · intro none scheme value present same
      exact none ⟨scheme, value⟩ ⟨present, same⟩
    · rintro none credential ⟨present, same⟩
      exact none credential.scheme credential.value present same
  · intro life otherLife present engine run other
    have repeats : run.Repeats id other :=
      repeats_run_authorizeHeader life.sound otherLife.sound present .bearer .token
    refine ⟨repeats, repeats.metadata, repeats.events, repeats.requests, fun request outcome member => ?_⟩
    obtain ⟨path, asks⟩ := requests_of_mem_authorizeHeader life.sound .bearer present member
    exact ⟨asks.carries_iff, asks.carries⟩

/-- A user is granted access under either scheme, on a new client and then on the one that is held, and is
asked about with the same token. -/
theorem anna_either_scheme :
    let policy := AccessPolicy.ofRealm "r" (by decide)
    let engine := ofPolicy policy 0
    let held := (ClientSlot.ofOwner.ensure policy.apiBase.toList policy.timeout).2
    let run := (engine.authorizeHeader ⟨"GET", "/v2/", "1"⟩ (some "Bearer a".toList)).run Session.pairApi
      none 0 .ofOwner
    let other := (engine.authorizeHeader ⟨"GET", "/v2/", "2"⟩ (some "token a".toList)).run
      Session.pairApi none 0 held
    Credential.extract? "Bearer a".toList = some ⟨.bearer, "a".toList⟩ ∧
      run.value = some (.ok ⟨"anna", "remote"⟩) ∧ other.value = run.value ∧
      other.events = run.events.map (Event.forRequest "2") ∧
      other.requests.map (·.1.authorization) = ["token a".toList] := by
  intro policy engine held run other
  have present : "a".toList ≠ [] := by decide
  obtain ⟨carries, -, either⟩ := authorizeHeader_either_scheme policy 0 Identity.maxDepth
    Session.pairApi none 0 policy.apiBase.toList .ofOwner held ⟨"GET", "/v2/", "1"⟩ "2"
    "Bearer a".toList "a".toList
  obtain ⟨repeats, -, events, requests, -⟩ := either .owner (.ensured .owner) present
  have granted : run.value = some (.ok ⟨"anna", "remote"⟩) := value_of_toOption (by decide +kernel)
  have carried : run.requests.map (·.1.authorization) = ["token a".toList] := by decide +kernel
  exact ⟨(carries _).mpr ⟨present, by decide⟩, granted, repeats.value, events,
    (congrArg _ requests).trans carried⟩

/-- With a user in the base address a request carries that user instead of the credential. -/
theorem shared_credential_not_carried :
    ¬ ∀ request outcome, (request, outcome) ∈ (((ofPolicy sharedPolicy 0).authorizeHeader
        ⟨"GET", "/v2/", "1"⟩ (some "Bearer x".toList)).run sharedApi none 0 .ofOwner).requests →
      request.authorization = "token x".toList := by
  intro carried
  have sent : (((ofPolicy sharedPolicy 0).authorizeHeader ⟨"GET", "/v2/", "1"⟩
      (some "Bearer x".toList)).run sharedApi none 0 .ofOwner).requests.map (·.1.authorization) =
        ["Basic dTpw".toList] := by decide +kernel
  have inside := List.mem_singleton_self "Basic dTpw".toList
  rw [← sent] at inside
  obtain ⟨⟨request, outcome⟩, asked, same⟩ := List.mem_map.mp inside
  rw [carried request outcome asked] at same
  exact absurd same (by decide)

end Engine

end RegistryGate
