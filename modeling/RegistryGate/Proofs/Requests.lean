import RegistryGate.Proofs.Decision

/-!
# What is sent

Every request that is sent for a token asks for its profile, or for a membership of the user that the
token belongs to in an organization of the policy (`sent_of_mem_authorize`). It carries the token
unless its address holds a user.
-/

namespace RegistryGate

/-! ## Requests of composed procedures -/

namespace Procedure

variable {α β : Type} {api : Api} {now : Rat} {slot : ClientSlot} {request : Request}
  {outcome : Outcome}

theorem mem_requests_bind {procedure : Procedure α} {f : α → Procedure β}
    (member : (request, outcome) ∈ ((procedure >>= f).run api none now slot).requests) :
    (request, outcome) ∈ (procedure.run api none now slot).requests ∨
      ∃ value, (procedure.run api none now slot).value = some value ∧
        (request, outcome) ∈ ((f value).run api none (procedure.run api none now slot).ended
          (procedure.run api none now slot).slot).requests := by
  rw [run_bind] at member
  cases came : (procedure.run api none now slot).value with
  | none =>
    rw [Run.andThen_of_none came] at member
    exact .inl member
  | some value =>
    rw [Run.andThen_of_some came] at member
    simp only [Run.requests, List.filterMap_append, List.mem_append] at member ⊢
    exact member.imp_right fun later => ⟨value, rfl, later⟩

theorem requests_after_requested (run : Run α) (time : Rat) (request : Request) (outcome : Outcome) :
    (run.after ⟨time, .requested request outcome⟩).requests = (request, outcome) :: run.requests :=
  rfl

theorem requests_after_noted (run : Run α) (time : Rat) (note : Note) :
    (run.after ⟨time, .noted note⟩).requests = run.requests := by
  cases note <;> rfl

/-- A deadline only keeps requests from being sent. -/
theorem Interruptible.exists_outcome_of_deadline {procedure : Procedure α} {deadline : Option Rat}
    (interruptible : procedure.Interruptible)
    (member : (request, outcome) ∈ (procedure.run api deadline now slot).requests) :
    ∃ full, (request, full) ∈ (procedure.run api none now slot).requests := by
  induction procedure generalizing now slot with
  | done value => exact absurd member List.not_mem_nil
  | cancelled => exact interruptible.elim
  | record note next ih =>
    simp only [run, requests_after_noted] at member ⊢
    exact ih interruptible member
  | clock next ih => exact ih now (interruptible now) member
  | pause seconds next stopped ih _ =>
    obtain ⟨rest, rfl⟩ := interruptible
    simp only [run] at member
    split at member
    · exact absurd member List.not_mem_nil
    · exact ih rest member
  | connect base readTimeout next ih => exact ih _ (interruptible _) member
  | exchange client sent limit next stopped ih _ =>
    obtain ⟨rest, rfl⟩ := interruptible
    simp only [run, cutOff?, Option.bind_none] at member ⊢
    split at member
    case isTrue closed =>
      rw [if_pos closed]
      exact ih _ (rest _) member
    case isFalse isOpen =>
      rw [if_neg isOpen]
      simp only [requests_after_requested, List.mem_cons]
      split at member
      · cases List.mem_singleton.mp member
        exact ⟨_, .inl rfl⟩
      · rcases List.mem_cons.mp member with same | later
        · cases same
          exact ⟨_, .inl rfl⟩
        · obtain ⟨full, found⟩ := ih _ (rest _) later
          exact ⟨full, .inr found⟩

end Procedure

/-! ## Lookups -/

namespace Identity

variable {policy : AccessPolicy} {api : Api} {address : List Char} {now : Rat} {slot : ClientSlot}
  {client : Client} {id : String} {path token : List Char} {login : WideText} {request : Request}
  {outcome : Outcome} {depth : Nat}

/-- The request that asks for a path with a token. -/
def Requests (address path token : List Char) (request : Request) : Prop :=
  ∃ url, (Url.base? address).bind (Url.join? · path) = some url ∧
    request = ⟨url, Request.carried url token, Request.mediaType⟩

/-- The requests that may be sent for a token. -/
inductive Sent (policy : AccessPolicy) (depth : Nat) (api : Api) (address token : List Char)
    (request : Request) : Prop where
  | profile (asks : Requests address profilePath token request)
  | membership {identity : Identity} {organization : String} {path : List Char}
    (owner : Owner depth (ending policy api address) token identity)
    (listed : organization ∈ policy.organizations)
    (written : memberPath? organization identity.principal = some path)
    (asks : Requests address path token request)

theorem Requests.carries_iff (asks : Requests address path token request) :
    request.authorization = "token ".toList ++ token ↔ request.url.NoUser := by
  obtain ⟨url, -, rfl⟩ := asks
  exact carried_eq_iff

theorem Requests.carries (asks : Requests address path token request)
    (plain : ∀ base, Url.base? address = some base → base.scheme ≠ [] ∧ base.NoUser) :
    request.authorization = "token ".toList ++ token := by
  rw [asks.carries_iff]
  obtain ⟨url, read, rfl⟩ := asks
  obtain ⟨base, based, joined⟩ := Option.bind_eq_some_iff.mp read
  obtain ⟨named, free⟩ := plain base based
  exact (Url.join?_of_base based named free joined).2

theorem Sent.exists_requests (sent : Sent policy depth api address token request) :
    ∃ path, Requests address path token request := by
  cases sent with
  | profile asks => exact ⟨profilePath, asks⟩
  | membership _ _ _ asks => exact ⟨_, asks⟩

theorem requests_of_mem_get (base : Url.base? address = some client.base)
    (member : (request, outcome) ∈ ((get policy client path token).run api none now slot).requests) :
    Requests address path token request := by
  unfold get at member
  cases limited : policy.timeout.limit with
  | error fault =>
    rw [limited] at member
    exact absurd member List.not_mem_nil
  | ok limit =>
    rw [limited] at member
    unfold Request.make at member
    cases joined : Url.join? client.base path with
    | none =>
      rw [joined] at member
      exact absurd member List.not_mem_nil
    | some url =>
      rw [joined] at member
      dsimp only at member
      refine ⟨url, by rw [base, Option.bind_some, joined], ?_⟩
      cases ascii : token.all (·.toNat < 0x80) with
      | false =>
        rw [ascii] at member
        exact absurd member List.not_mem_nil
      | true =>
        rw [ascii] at member
        simp only [if_true, Procedure.run, cutOff?, Option.bind_none] at member
        split at member
        · exact absurd member List.not_mem_nil
        · cases List.mem_singleton.mp member
          rfl

/-- Whatever a procedure sends after it got hold of the client is sent on an open client on the
address, if it sends nothing without a client. -/
theorem exists_client_of_mem_requests {α : Type} {next : Except Fault Client → Procedure α}
    (sound : slot.Sound policy.apiBase.toList address)
    (member : (request, outcome) ∈ ((Identity.client policy >>= next).run api none now
      slot).requests)
    (silent : ∀ fault, ∃ value, next (.error fault) = .done value) :
    ∃ client after, Url.base? address = some client.base ∧
      (request, outcome) ∈ ((next (.ok client)).run api none now after).requests := by
  rcases run_client_bind sound next api now with
    ⟨client, after, based, -, -, goesOn⟩ | ⟨-, goesOn⟩
  · rw [goesOn] at member
    exact ⟨client, after, based, member⟩
  · obtain ⟨value, done⟩ := silent .invalidUrl
    rw [goesOn, done] at member
    exact absurd member List.not_mem_nil

theorem requests_of_mem_fetch (sound : slot.Sound policy.apiBase.toList address)
    (member : (request, outcome) ∈ ((fetch policy id token depth).run api none now slot).requests) :
    Requests address profilePath token request := by
  rw [fetch_eq] at member
  obtain ⟨client, after, base, member⟩ :=
    exists_client_of_mem_requests sound member fun fault => ⟨_, rfl⟩
  rcases Procedure.mem_requests_bind member with asked | ⟨ended, -, member⟩
  · exact requests_of_mem_get base asked
  · -- Whatever the lookup ends with, nothing else is sent.
    cases ended with
    | error fault =>
      simp only [conclude] at member
      split at member
      · exact absurd member List.not_mem_nil
      · exact absurd member List.not_mem_nil
    | ok answer =>
      simp only [conclude] at member
      split at member
      · split at member
        · exact absurd member List.not_mem_nil
        · split at member
          · exact absurd member List.not_mem_nil
          · exact absurd member List.not_mem_nil
      · exact absurd member List.not_mem_nil

theorem requests_of_mem_scanOrganizations (base : Url.base? address = some client.base)
    {organizations : List String}
    (member : (request, outcome) ∈ ((scanOrganizations policy client id token login
      organizations).run api none now slot).requests) :
    ∃ organization ∈ organizations, ∃ path, memberPath? organization login = some path ∧
      Requests address path token request := by
  induction organizations generalizing now slot with
  | nil => exact absurd member List.not_mem_nil
  | cons organization rest ih =>
    have later {now : Rat} {slot : ClientSlot}
        (member : (request, outcome) ∈ ((scanOrganizations policy client id token login rest).run api
          none now slot).requests) :
        ∃ other ∈ organization :: rest, ∃ path, memberPath? other login = some path ∧
          Requests address path token request := by
      obtain ⟨other, listed, found⟩ := ih member
      exact ⟨other, List.mem_cons_of_mem _ listed, found⟩
    rw [scanOrganizations_cons] at member
    cases written : memberPath? organization login with
    | none =>
      rw [written] at member
      exact absurd member List.not_mem_nil
    | some path =>
      rw [written] at member
      rcases Procedure.mem_requests_bind member with asked | ⟨ended, -, member⟩
      · exact ⟨organization, List.mem_cons_self, path, written, requests_of_mem_get base asked⟩
      · cases ended with
        | error fault =>
          simp only [weigh] at member
          split at member
          · exact later member
          · exact absurd member List.not_mem_nil
        | ok answer =>
          simp only [weigh] at member
          split at member
          · exact absurd member List.not_mem_nil
          · exact later member

theorem requests_of_mem_isMember (sound : slot.Sound policy.apiBase.toList address)
    (member : (request, outcome) ∈ ((isMember policy id token login).run api none now slot).requests) :
    ∃ organization ∈ policy.organizations, ∃ path, memberPath? organization login = some path ∧
      Requests address path token request := by
  simp only [isMember] at member
  obtain ⟨client, after, base, member⟩ :=
    exists_client_of_mem_requests sound member fun fault => ⟨_, rfl⟩
  exact requests_of_mem_scanOrganizations base member

theorem requests_of_mem_admits (sound : slot.Sound policy.apiBase.toList address)
    (member : (request, outcome) ∈ ((admits policy id token login).run api none now slot).requests) :
    ∃ organization ∈ policy.organizations, ∃ path, memberPath? organization login = some path ∧
      Requests address path token request := by
  unfold admits at member
  split at member
  · exact absurd member List.not_mem_nil
  · exact requests_of_mem_isMember sound member

/-- What is sent to verify a token asks for its profile, or for a membership of its owner. -/
theorem sent_of_mem_verify (sound : slot.Sound policy.apiBase.toList address)
    (member : (request, outcome) ∈ ((verify policy id token depth).run api none now slot).requests) :
    Sent policy depth api address token request := by
  obtain ⟨alsoSound, owner⟩ := fetch_eq_ok_iff policy api id token depth now sound
  simp only [verify] at member
  rcases Procedure.mem_requests_bind member with asked | ⟨fetched, came, member⟩
  · exact .profile (requests_of_mem_fetch sound asked)
  · cases fetched with
    | error failure => exact absurd member List.not_mem_nil
    | ok identity =>
      rcases Procedure.mem_requests_bind member with asked | ⟨admitted, -, member⟩
      · obtain ⟨organization, listed, path, written, asks⟩ :=
          requests_of_mem_admits alsoSound asked
        exact .membership ((owner identity).mp came) listed written asks
      · rcases admitted with fault | (_ | _)
        · exact absurd member List.not_mem_nil
        · exact absurd member List.not_mem_nil
        · exact absurd member List.not_mem_nil

end Identity

/-! ## The standard engine -/

namespace Engine

variable {policy : AccessPolicy} {reading : Rat} {api : Api} {context : RequestContext}
  {credential : Credential} {now : Rat} {slot : ClientSlot} {address : List Char} {request : Request}
  {outcome : Outcome} {depth : Nat}

/-- Whatever a chain sends is sent in one of its turns. -/
theorem exists_turn_of_mem_authorize {engine : Engine}
    (member : (request, outcome) ∈
      ((engine.authorize context (some credential)).run api none now slot).requests) :
    ∃ turn ∈ turns api context credential now slot engine.verifiers,
      (request, outcome) ∈ turn.requests := by
  rcases all_failed_or_first_grant (turns api context credential now slot engine.verifiers)
      (fun turn member => grants_or_failed member) with
    failed | ⟨before, turn, rest, grant, split, failed, granted⟩
  · obtain ⟨-, -, -, requests⟩ := authorize_none_grants failed
    rw [requests] at member
    exact List.mem_flatMap.mp member
  · obtain ⟨-, -, -, requests⟩ := authorize_first_grant split failed granted
    rw [requests] at member
    obtain ⟨asked, early, found⟩ := List.mem_flatMap.mp member
    refine ⟨asked, ?_, found⟩
    rw [split, List.append_cons]
    exact List.mem_append_left _ early

/-- The standard chain sends nothing but what it sends to verify the token. -/
theorem mem_turns_ofPolicy {turn : Turn}
    (member : turn ∈ turns api context credential now slot (ofPolicy policy reading depth).verifiers) :
    turn.requests = [] ∨
      turn = (Identity.verify policy context.id credential.value depth).run api none now slot := by
  unfold ofPolicy at member
  cases enabled : policy.claimsEnabled with
  | false =>
    rw [enabled] at member
    exact .inr (List.mem_singleton.mp member)
  | true =>
    rw [enabled] at member
    obtain ⟨ended, kept, silent, -⟩ := verify_claims policy reading context credential api now slot
    rcases List.mem_cons.mp member with rfl | later
    · exact .inl silent
    · rw [ended, kept] at later
      exact .inr (List.mem_singleton.mp later)

theorem sent_of_mem_authorize (sound : slot.Sound policy.apiBase.toList address)
    (member : (request, outcome) ∈ (((ofPolicy policy reading depth).authorize context
      (some credential)).run api none now slot).requests) :
    Identity.Sent policy depth api address credential.value request := by
  obtain ⟨turn, inside, asked⟩ := exists_turn_of_mem_authorize member
  rcases mem_turns_ofPolicy inside with silent | rfl
  · rw [silent] at asked
    exact absurd asked List.not_mem_nil
  · exact Identity.sent_of_mem_verify sound asked

theorem sent_of_mem_authorizeHeader (sound : slot.Sound policy.apiBase.toList address)
    {header : Option (List Char)}
    (member : (request, outcome) ∈ (((ofPolicy policy reading depth).authorizeHeader context
      header).run api none now slot).requests) :
    ∃ token, Bears header token ∧ Identity.Sent policy depth api address token request := by
  rcases header with _ | _ | ⟨c, rest⟩
  · exact absurd member List.not_mem_nil
  · exact absurd member List.not_mem_nil
  · simp only [authorizeHeader] at member
    cases extracted : Credential.extract? (c :: rest) with
    | none =>
      rw [extracted] at member
      exact absurd member List.not_mem_nil
    | some credential =>
      rw [extracted] at member
      exact ⟨credential.value, (Credential.extract?_eq_some_iff.mp extracted).bears,
        sent_of_mem_authorize sound member⟩

end Engine

end RegistryGate
