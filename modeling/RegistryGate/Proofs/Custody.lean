import RegistryGate.Proofs.Requests

/-!
# Custody of the client

What a verifier does with clients while it is used and closed in any order. A use leaves the slot as
getting hold of the client does, and all that it sends goes over that client (`Use.keeps`). So a client
that was handed to the verifier stays with it (`handed`). Of those that the verifier opens itself one at
most is open at any time, the one that it holds (`Owns`), and from one closing to the next every use has
the same (`client_in_custody`).
-/

namespace RegistryGate

/-- What a procedure does with a client. -/
inductive Contact where
  | obtained (client : Client)
  /-- A request is sent over the client, or would be if the client were open. -/
  | sent (client : Client) (request : Request)

namespace Contact

def client : Contact → Client
  | obtained client => client
  | sent client _ => client

def request? : Contact → Option Request
  | obtained _ => none
  | sent _ request => some request

end Contact

namespace Procedure

variable {α β : Type}

/-- What a procedure does with clients when it is carried out. -/
def contacts (api : Api) (deadline : Option Rat) (now : Rat) (slot : ClientSlot) :
    Procedure α → List Contact
  | .done _ => []
  | .cancelled => []
  | .record _ next => next.contacts api deadline now slot
  | .clock next => (next now).contacts api deadline now slot
  | .pause seconds next stopped =>
    match cutOff? deadline now seconds with
    | some time => stopped.contacts api none time slot
    | none => next.contacts api deadline (now + seconds) slot
  | .connect base readTimeout next =>
    ((slot.ensure base readTimeout).1.toOption.map .obtained).toList ++
      (next (slot.ensure base readTimeout).1).contacts api deadline now
        (slot.ensure base readTimeout).2
  | .exchange client request limit next stopped =>
    .sent client request ::
      if slot.isClosed client then (next (.error .closedClient)).contacts api deadline now slot
      else
        match cutOff? deadline now ((api request).duration limit) with
        | some time => stopped.contacts api none time slot
        | none =>
          (next ((api request).under limit)).contacts api deadline
            (now + (api request).duration limit) slot

/-- A procedure that gets hold of clients for one address and one read timeout, and sends requests only
over the client that it got hold of last. -/
def OverHeld (base : List Char) (readTimeout : Seconds) : Option Client → Procedure α → Prop
  | _, .done _ => True
  | _, .cancelled => True
  | last, .record _ next => next.OverHeld base readTimeout last
  | last, .clock next => ∀ now, (next now).OverHeld base readTimeout last
  | last, .pause _ next stopped =>
    next.OverHeld base readTimeout last ∧ stopped.OverHeld base readTimeout last
  | last, .connect address timeout next =>
    address = base ∧ timeout = readTimeout ∧
      (∀ fault, (next (.error fault)).OverHeld base readTimeout last) ∧
      ∀ client, (next (.ok client)).OverHeld base readTimeout (some client)
  | last, .exchange client _ _ next stopped =>
    last = some client ∧ (∀ ended, (next ended).OverHeld base readTimeout last) ∧
      stopped.OverHeld base readTimeout last

variable {base : List Char} {readTimeout : Seconds} {last : Option Client} {api : Api}
  {deadline : Option Rat} {now : Rat} {slot : ClientSlot}

theorem OverHeld.bind {procedure : Procedure α} {f : α → Procedure β}
    (first : procedure.OverHeld base readTimeout last)
    (second : ∀ value later, (f value).OverHeld base readTimeout later) :
    (procedure >>= f).OverHeld base readTimeout last := by
  show (procedure.bind f).OverHeld base readTimeout last
  induction procedure generalizing last with
  | done value => exact second value last
  | cancelled => trivial
  | record note next ih => exact ih first
  | clock next ih => exact fun now => ih now (first now)
  | pause seconds next stopped ih ihStopped => exact ⟨ih first.1, ihStopped first.2⟩
  | connect address timeout next ih =>
    obtain ⟨same, sameTimeout, failed, opened⟩ := first
    exact ⟨same, sameTimeout, fun fault => ih _ (failed fault), fun client => ih _ (opened client)⟩
  | exchange client request limit next stopped ih ihStopped =>
    exact ⟨first.1, fun ended => ih ended (first.2.1 ended), ihStopped first.2.2⟩

/-- A sequence keeps to its clients if its parts do, whichever client each part finds. -/
theorem overHeld_composes (base : List Char) (readTimeout : Seconds) :
    Composes fun _ procedure => ∀ last, procedure.OverHeld base readTimeout last where
  done _ _ := trivial
  log _ _ := trivial
  bind first second last := (first last).bind second

end Procedure

namespace ClientSlot

/-- Whoever gets hold of the client twice gets the same the second time. -/
theorem ensure_ensure (slot : ClientSlot) (base : List Char) (readTimeout : Seconds) :
    (slot.ensure base readTimeout).2.ensure base readTimeout = slot.ensure base readTimeout := by
  cases held : slot.held with
  | some client => simp only [ensure, held]
  | none =>
    cases made : newClient slot.opened base readTimeout with
    | ok client => simp only [ensure, held, made]
    | error fault => simp only [ensure, held, made]

theorem close_of_none {slot : ClientSlot} (empty : slot.held = none) : slot.close = slot := by
  simp only [close, empty]

theorem close_of_held {slot : ClientSlot} {client : Client} (held : slot.held = some client)
    (owned : slot.owned = true) :
    slot.close = { slot with held := none, closed := client.number :: slot.closed } := by
  simp only [close, held, owned, if_true]

end ClientSlot

namespace Procedure

variable {α : Type} {base : List Char} {readTimeout : Seconds} {last : Option Client} {api : Api}
  {deadline : Option Rat} {now : Rat} {slot : ClientSlot} {procedure : Procedure α}

/-- A procedure that keeps to its clients has contact with the one that the slot gives, and leaves the
slot as it is or as getting hold of the client does. -/
theorem OverHeld.contacts (keeps : procedure.OverHeld base readTimeout last) (api : Api)
    (deadline : Option Rat) (now : Rat) (slot : ClientSlot)
    (known : ∀ client, last = some client → slot.ensure base readTimeout = (.ok client, slot)) :
    ((procedure.run api deadline now slot).slot = slot ∨
      (procedure.run api deadline now slot).slot = (slot.ensure base readTimeout).2) ∧
    ∀ contact ∈ procedure.contacts api deadline now slot,
      (slot.ensure base readTimeout).1 = .ok contact.client := by
  induction procedure generalizing last deadline now slot with
  | done value => exact ⟨.inl rfl, fun contact member => absurd member List.not_mem_nil⟩
  | cancelled => exact ⟨.inl rfl, fun contact member => absurd member List.not_mem_nil⟩
  | record note next ih => exact ih keeps deadline now slot known
  | clock next ih => exact ih now (keeps now) deadline now slot known
  | pause seconds next stopped ih ihStopped =>
    cases cut : cutOff? deadline now seconds with
    | some time =>
      simp only [run, Procedure.contacts, cut]
      exact ihStopped keeps.2 none time slot known
    | none =>
      simp only [run, Procedure.contacts, cut]
      exact ih keeps.1 deadline (now + seconds) slot known
  | connect address timeout next ih =>
    obtain ⟨rfl, rfl, failed, opened⟩ := keeps
    have again := slot.ensure_ensure address timeout
    -- From here on the slot gives what it has just given.
    have later (ended : Except Fault Client) (last : Option Client)
        (gave : (slot.ensure address timeout).1 = ended)
        (keeps : (next ended).OverHeld address timeout last)
        (known : ∀ client, last = some client → ended = .ok client) :
        ((run api deadline now (slot.ensure address timeout).2 (next ended)).slot =
          (slot.ensure address timeout).2) ∧
        ∀ contact ∈ Procedure.contacts api deadline now (slot.ensure address timeout).2 (next ended),
          (slot.ensure address timeout).1 = .ok contact.client := by
      have known' (client : Client) (same : last = some client) :
          (slot.ensure address timeout).2.ensure address timeout =
            (.ok client, (slot.ensure address timeout).2) := by
        rw [again, ← known client same, ← gave]
      have ended := ih ended keeps deadline now _ known'
      rw [again, or_self] at ended
      exact ended
    simp only [run, Procedure.contacts]
    cases gave : (slot.ensure address timeout).1 with
    | error fault =>
      have known' (client : Client) (same : last = some client) : Except.error fault = .ok client := by
        rw [known client same] at gave
        exact gave.symm
      obtain ⟨kept, contacts⟩ := later _ last gave (failed fault) known'
      rw [gave] at contacts
      exact ⟨.inr kept, contacts⟩
    | ok client =>
      obtain ⟨kept, contacts⟩ := later _ (some client) gave (opened client) fun _ same =>
        congrArg Except.ok (Option.some.inj same)
      rw [gave] at contacts
      refine ⟨.inr kept, fun contact member => ?_⟩
      rcases List.mem_append.mp member with first | later
      · rw [List.mem_singleton.mp first]
        rfl
      · exact contacts contact later
  | exchange client request limit next stopped ih ihStopped =>
    obtain ⟨rfl, rest, last⟩ := keeps
    have first : (slot.ensure base readTimeout).1 = .ok client := by rw [known client rfl]
    have joined {more : List Contact}
        (others : ∀ contact ∈ more, (slot.ensure base readTimeout).1 = .ok contact.client) :
        ∀ contact ∈ Contact.sent client request :: more,
          (slot.ensure base readTimeout).1 = .ok contact.client := by
      intro contact member
      rcases List.mem_cons.mp member with rfl | other
      · exact first
      · exact others contact other
    cases isClosed : slot.isClosed client with
    | true =>
      simp only [run, Procedure.contacts, isClosed, if_true]
      obtain ⟨slots, contacts⟩ := ih _ (rest _) deadline now slot known
      exact ⟨slots, joined contacts⟩
    | false =>
      cases cut : cutOff? deadline now ((api request).duration limit) with
      | some time =>
        simp only [run, Procedure.contacts, isClosed, Bool.false_eq_true, if_false, cut]
        obtain ⟨slots, contacts⟩ := ihStopped last none time slot known
        exact ⟨slots, joined contacts⟩
      | none =>
        simp only [run, Procedure.contacts, isClosed, Bool.false_eq_true, if_false, cut]
        obtain ⟨slots, contacts⟩ :=
          ih _ (rest _) deadline (now + (api request).duration limit) slot known
        exact ⟨slots, joined contacts⟩

/-- Over open clients every request is sent that a procedure has contact for. -/
theorem filterMap_contacts {closed : List Nat} (same : slot.closed = closed)
    (opens : ∀ contact ∈ procedure.contacts api deadline now slot, contact.client.number ∉ closed) :
    (procedure.contacts api deadline now slot).filterMap Contact.request? =
      (procedure.run api deadline now slot).requests.map (·.1) := by
  induction procedure generalizing deadline now slot with
  | done value => rfl
  | cancelled => rfl
  | record note next ih =>
    rw [run, requests_after_noted]
    exact ih same opens
  | clock next ih => exact ih now same opens
  | pause seconds next stopped ih ihStopped =>
    cases cut : cutOff? deadline now seconds with
    | some time =>
      simp only [Procedure.contacts, cut] at opens
      simp only [run, Procedure.contacts, cut]
      exact ihStopped same opens
    | none =>
      simp only [Procedure.contacts, cut] at opens
      simp only [run, Procedure.contacts, cut]
      exact ih same opens
  | connect address timeout next ih =>
    have later := ih (slot.ensure address timeout).1
      ((slot.closed_ensure address timeout).trans same)
      fun contact member => opens contact (List.mem_append_right _ member)
    rw [Procedure.contacts, List.filterMap_append, later, run]
    cases (slot.ensure address timeout).1 <;> rfl
  | exchange client request limit next stopped ih ihStopped =>
    have isOpen : slot.isClosed client = false := by
      have outside := opens (.sent client request) List.mem_cons_self
      rw [ClientSlot.isClosed, same, ← Bool.not_eq_true, List.contains_iff_mem]
      exact outside
    cases cut : cutOff? deadline now ((api request).duration limit) with
    | some time =>
      simp only [Procedure.contacts, isOpen, Bool.false_eq_true, if_false, cut] at opens
      simp only [run, Procedure.contacts, isOpen, Bool.false_eq_true, if_false, cut]
      rw [requests_after_requested, List.map_cons, ← ihStopped same fun contact member =>
        opens contact (List.mem_cons_of_mem _ member)]
      rfl
    | none =>
      simp only [Procedure.contacts, isOpen, Bool.false_eq_true, if_false, cut] at opens
      simp only [run, Procedure.contacts, isOpen, Bool.false_eq_true, if_false, cut]
      rw [requests_after_requested, List.map_cons, ← ih _ same fun contact member =>
        opens contact (List.mem_cons_of_mem _ member)]
      rfl

end Procedure

/-! ## Lookups -/

namespace Identity

variable (policy : AccessPolicy) (request : String) (token : List Char) (login : WideText)

theorem get_bind_overHeld {α : Type} {base : List Char} {readTimeout : Seconds} (client : Client)
    (path : List Char) {f : Except Fault Answer → Procedure α}
    (second : ∀ ended, (f ended).OverHeld base readTimeout (some client)) :
    (get policy client path token >>= f).OverHeld base readTimeout (some client) := by
  show ((get policy client path token).bind f).OverHeld base readTimeout (some client)
  unfold get
  split
  · exact second _
  · split
    · exact second _
    · exact ⟨rfl, fun ended => second _, trivial⟩

theorem client_overHeld (last : Option Client) :
    (client policy).OverHeld policy.apiBase.toList policy.timeout last :=
  ⟨rfl, rfl, fun _ => trivial, fun _ => trivial⟩

theorem fetch_overHeld (depth : Nat) (last : Option Client) :
    (fetch policy request token depth).OverHeld policy.apiBase.toList policy.timeout last := by
  rw [fetch_eq]
  refine ⟨rfl, rfl, fun fault => trivial, fun client => ?_⟩
  refine get_bind_overHeld policy token client profilePath fun ended => ?_
  exact conclude_composes (Procedure.overHeld_composes _ _) request depth ended (some client)

theorem scanOrganizations_overHeld {base : List Char} {readTimeout : Seconds} (client : Client)
    (organizations : List String) :
    (scanOrganizations policy client request token login organizations).OverHeld base readTimeout
      (some client) := by
  induction organizations with
  | nil => trivial
  | cons organization rest ih =>
    rw [scanOrganizations_cons]
    split
    · trivial
    · refine get_bind_overHeld policy token client _ fun ended => ?_
      cases ended with
      | error fault =>
        simp only [weigh]
        split
        · exact ih
        · trivial
      | ok answer =>
        simp only [weigh]
        split
        · trivial
        · exact ih

theorem isMember_overHeld (last : Option Client) :
    (isMember policy request token login).OverHeld policy.apiBase.toList policy.timeout last :=
  ⟨rfl, rfl, fun _ => trivial, fun client =>
    scanOrganizations_overHeld policy request token login client policy.organizations⟩

theorem verify_overHeld (depth : Nat) (last : Option Client) :
    (verify policy request token depth).OverHeld policy.apiBase.toList policy.timeout last := by
  refine (fetch_overHeld policy request token depth last).bind fun fetched later => ?_
  cases fetched with
  | error failure => trivial
  | ok identity =>
    have admits_overHeld : (admits policy request token identity.principal).OverHeld
        policy.apiBase.toList policy.timeout later := by
      unfold admits
      split
      · trivial
      · exact isMember_overHeld policy request token identity.principal later
    refine admits_overHeld.bind fun admitted _ => ?_
    split <;> trivial

end Identity

/-! ## Uses and closings -/

namespace Custody

/-- What a verifier is used for. -/
inductive Use where
  | ensure
  | fetch (token : List Char)
  | isMember (token : List Char) (login : WideText)
  | verify (token : List Char)

/-- What a use meets with: the API, the identifier of its request, the time that it begins at, and the
time that it is cut off at, if it is. -/
structure Occasion where
  api : Api
  request : String
  now : Rat
  deadline : Option Rat

/-- What is done with a verifier. -/
inductive Step where
  | use (what : Use) (occasion : Occasion)
  | close

/-- What comes of it: the contact with clients, the requests that are seen, and the slot afterwards. -/
structure Doing where
  contacts : List Contact
  requests : List Request
  slot : ClientSlot

def Occasion.carryOut {α : Type} (occasion : Occasion) (slot : ClientSlot) (procedure : Procedure α) :
    Doing where
  contacts := procedure.contacts occasion.api occasion.deadline occasion.now slot
  requests := (procedure.run occasion.api occasion.deadline occasion.now slot).requests.map (·.1)
  slot := (procedure.run occasion.api occasion.deadline occasion.now slot).slot

variable (policy : AccessPolicy)

def Use.doing (occasion : Occasion) (slot : ClientSlot) : Use → Doing
  | .ensure => occasion.carryOut slot (Identity.client policy)
  | .fetch token => occasion.carryOut slot (Identity.fetch policy occasion.request token)
  | .isMember token login =>
    occasion.carryOut slot (Identity.isMember policy occasion.request token login)
  | .verify token => occasion.carryOut slot (Identity.verify policy occasion.request token)

def Step.doing (slot : ClientSlot) : Step → Doing
  | .use what occasion => what.doing policy occasion slot
  | .close => ⟨[], [], slot.close⟩

/-- The slot after some steps. -/
def past (slot : ClientSlot) (steps : List Step) : ClientSlot :=
  steps.foldl (fun slot step => (step.doing policy slot).slot) slot

/-- All contact with clients in some steps. -/
def contacts (slot : ClientSlot) : List Step → List Contact
  | [] => []
  | step :: rest => (step.doing policy slot).contacts ++ contacts (step.doing policy slot).slot rest

/-- The client that the policy asks for, from the slot. -/
def give (slot : ClientSlot) : Except Fault Client × ClientSlot :=
  slot.ensure policy.apiBase.toList policy.timeout

variable {policy} {slot : ClientSlot} {occasion : Occasion} {contact : Contact} {client : Client}

theorem give_give (slot : ClientSlot) : give policy (give policy slot).2 = give policy slot :=
  slot.ensure_ensure _ _

/-- A use leaves the slot as getting hold of the client does, and has contact with that client only. -/
structure Doing.Keeps (policy : AccessPolicy) (slot : ClientSlot) (doing : Doing) : Prop where
  after : doing.slot = (give policy slot).2
  only : ∀ contact ∈ doing.contacts, (give policy slot).1 = .ok contact.client
  obtained : ∀ client, .obtained client ∈ doing.contacts ↔ (give policy slot).1 = .ok client
  requests : (∀ contact ∈ doing.contacts, contact.client.number ∉ slot.closed) →
    doing.contacts.filterMap Contact.request? = doing.requests

theorem Occasion.carryOut_keeps {α : Type} (occasion : Occasion) (slot : ClientSlot)
    {procedure : Procedure α} {next : Except Fault Client → Procedure α}
    (begins : procedure = .connect policy.apiBase.toList policy.timeout next)
    (keeps : procedure.OverHeld policy.apiBase.toList policy.timeout none) :
    (occasion.carryOut slot procedure).Keeps policy slot := by
  have contacts (slot : ClientSlot) :=
    keeps.contacts occasion.api occasion.deadline occasion.now slot (by rintro _ ⟨⟩)
  have only := (contacts slot).2
  refine ⟨?_, only, fun client => ⟨fun member => only _ member, fun gave => ?_⟩, fun opens =>
    Procedure.filterMap_contacts rfl opens⟩
  · -- It is as if the client had been there before.
    have ended := (contacts (give policy slot).2).1
    have again : (give policy slot).2.ensure policy.apiBase.toList policy.timeout = give policy slot :=
      give_give slot
    rw [again, or_self] at ended
    subst begins
    rw [Procedure.run, again] at ended
    exact ended
  · subst begins
    refine List.mem_append_left _ ?_
    have gave : (slot.ensure policy.apiBase.toList policy.timeout).1 = .ok client := gave
    rw [gave]
    exact List.mem_singleton.mpr rfl

theorem Use.keeps (policy : AccessPolicy) (what : Use) (occasion : Occasion) (slot : ClientSlot) :
    (what.doing policy occasion slot).Keeps policy slot := by
  cases what with
  | ensure => exact occasion.carryOut_keeps slot rfl (Identity.client_overHeld policy none)
  | fetch token => exact occasion.carryOut_keeps slot rfl (Identity.fetch_overHeld policy _ token _ none)
  | isMember token login =>
    exact occasion.carryOut_keeps slot rfl (Identity.isMember_overHeld policy _ token login none)
  | verify token => exact occasion.carryOut_keeps slot rfl (Identity.verify_overHeld policy _ token _ none)

theorem past_cons (slot : ClientSlot) (step : Step) (rest : List Step) :
    past policy slot (step :: rest) = past policy (step.doing policy slot).slot rest := rfl

/-- As long as the client is not closed, all contact is with the client that the slot gives. -/
theorem mem_contacts_of_uses {steps : List Step} (uses : .close ∉ steps)
    (member : contact ∈ contacts policy slot steps) : (give policy slot).1 = .ok contact.client := by
  induction steps generalizing slot with
  | nil => cases member
  | cons step rest ih =>
    cases step with
    | close => exact absurd List.mem_cons_self uses
    | use what occasion =>
      have keeps := what.keeps policy occasion slot
      rcases List.mem_append.mp member with first | later
      · exact keeps.only contact first
      · have same : (Step.doing policy slot (.use what occasion)).slot = (give policy slot).2 := keeps.after
        rw [same] at later
        rw [← give_give slot]
        exact ih (fun inside => uses (List.mem_cons_of_mem _ inside)) later

/-! ## A client of another owner -/

/-- What holds of a verifier that was handed a client, whatever is done with it. -/
structure Handed (policy : AccessPolicy) (client : Client) (steps : List Step) : Prop where
  /-- The client is neither closed nor dropped. -/
  stays : past policy (.handed client) steps = .handed client
  /-- There is contact with no other. -/
  only : ∀ contact ∈ contacts policy (.handed client) steps, contact.client = client
  /-- Every use gets hold of it, and what it sends it sends over it. -/
  used : ∀ (what : Use) occasion,
    .obtained client ∈ (what.doing policy occasion (.handed client)).contacts ∧
    (what.doing policy occasion (.handed client)).contacts.filterMap Contact.request? =
      (what.doing policy occasion (.handed client)).requests

theorem Step.doing_handed (policy : AccessPolicy) (step : Step) (client : Client) :
    (step.doing policy (.handed client)).slot = .handed client ∧
      ∀ contact ∈ (step.doing policy (.handed client)).contacts, contact.client = client := by
  cases step with
  | close => exact ⟨rfl, fun contact member => absurd member List.not_mem_nil⟩
  | use what occasion =>
    have keeps := what.keeps policy occasion (.handed client)
    refine ⟨keeps.after, fun contact member => ?_⟩
    exact (Except.ok.inj (keeps.only contact member)).symm

theorem handed (client : Client) (steps : List Step) : Handed policy client steps := by
  have run : past policy (.handed client) steps = .handed client ∧
      ∀ contact ∈ contacts policy (.handed client) steps, contact.client = client := by
    induction steps with
    | nil => exact ⟨rfl, fun contact member => absurd member List.not_mem_nil⟩
    | cons step rest ih =>
      obtain ⟨stays, only⟩ := step.doing_handed policy client
      rw [past_cons, contacts, stays]
      refine ⟨ih.1, fun contact member => ?_⟩
      rcases List.mem_append.mp member with first | later
      · exact only contact first
      · exact ih.2 contact later
  refine ⟨run.1, run.2, fun what occasion => ?_⟩
  have keeps := what.keeps policy occasion (.handed client)
  exact ⟨(keeps.obtained client).mpr rfl, keeps.requests fun _ _ => List.not_mem_nil⟩

/-! ## Clients of its own -/

/-- What holds of the clients that a verifier has opened itself. -/
structure Owns (policy : AccessPolicy) (slot : ClientSlot) : Prop where
  owned : slot.owned = true
  /-- The client that it holds is open, on the address and with the timeout of the policy. -/
  held : ∀ client, slot.held = some client → client.number ∉ slot.closed ∧
    Url.base? policy.apiBase.toList = some client.base ∧ client.readTimeout = policy.timeout
  /-- All others are closed. -/
  opened : ∀ number, number < slot.opened ↔
    number ∈ slot.closed ∨ ∃ client, slot.held = some client ∧ client.number = number
  /-- None was closed twice. -/
  once : slot.closed.Nodup

theorem owns_ofOwner : Owns policy .ofOwner where
  owned := rfl
  held := by rintro _ ⟨⟩
  opened number := by
    refine ⟨fun below => absurd below (Nat.not_lt_zero _), ?_⟩
    rintro (member | ⟨_, ⟨⟩, _⟩)
    cases member
  once := List.nodup_nil

theorem give_of_held (held : slot.held = some client) : give policy slot = (.ok client, slot) := by
  simp only [give, ClientSlot.ensure, held]

/-- A verifier that holds no client gets a new one, unless the address of the policy is none. -/
theorem give_of_none (policy : AccessPolicy) (empty : slot.held = none) :
    (∃ client, give policy slot =
        (.ok client, { slot with held := some client, opened := slot.opened + 1 }) ∧
      client.number = slot.opened ∧ Url.base? policy.apiBase.toList = some client.base ∧
      client.readTimeout = policy.timeout) ∨
    ∃ fault, give policy slot = (.error fault, slot) ∧ Url.base? policy.apiBase.toList = none := by
  unfold give ClientSlot.ensure ClientSlot.newClient
  rw [empty]
  cases Url.base? policy.apiBase.toList with
  | none => exact .inr ⟨.invalidUrl, rfl, rfl⟩
  | some base => exact .inl ⟨⟨slot.opened, base, policy.timeout⟩, rfl, rfl, rfl, rfl⟩

theorem Owns.give (owns : Owns policy slot) : Owns policy (give policy slot).2 := by
  cases held : slot.held with
  | some client =>
    rw [give_of_held held]
    exact owns
  | none =>
    rcases give_of_none policy held with
      ⟨client, gave, number, parsed, timeout⟩ | ⟨fault, gave, -⟩
    · rw [gave]
      refine ⟨owns.owned, ?_, fun other => ?_, owns.once⟩
      · rintro _ ⟨⟩
        refine ⟨fun member => ?_, parsed, timeout⟩
        -- The number of a new client is the count so far, which no earlier client reaches.
        have below := (owns.opened client.number).mpr (.inl member)
        rw [number] at below
        exact Nat.lt_irrefl _ below
      · have earlier := owns.opened other
        simp only [held, reduceCtorEq, false_and, exists_false, or_false] at earlier
        simp only [Option.some.injEq, exists_eq_left', number]
        rw [Nat.lt_succ_iff_lt_or_eq, earlier, eq_comm (a := other)]
    · rw [gave]
      exact owns

theorem Owns.close (owns : Owns policy slot) : Owns policy slot.close := by
  cases held : slot.held with
  | none =>
    rw [ClientSlot.close_of_none held]
    exact owns
  | some client =>
    rw [ClientSlot.close_of_held held owns.owned]
    refine ⟨owns.owned, by rintro _ ⟨⟩, fun number => ?_,
      List.nodup_cons.mpr ⟨(owns.held client held).1, owns.once⟩⟩
    rw [owns.opened number, held]
    simp only [Option.some.injEq, exists_eq_left', List.mem_cons, reduceCtorEq, false_and,
      exists_false, or_false]
    rw [or_comm, eq_comm]

theorem Owns.past (owns : Owns policy slot) (steps : List Step) : Owns policy (past policy slot steps) := by
  induction steps generalizing slot with
  | nil => exact owns
  | cons step rest ih =>
    cases step with
    | close => exact ih owns.close
    | use what occasion =>
      have after : (Step.doing policy slot (.use what occasion)).slot = (Custody.give policy slot).2 :=
        (what.keeps policy occasion slot).after
      rw [past_cons, after]
      exact ih owns.give

/-- A verifier gets the client that it holds from then on. -/
theorem fst_give_eq_ok_iff :
    (give policy slot).1 = .ok client ↔ (give policy slot).2.held = some client := by
  cases held : slot.held with
  | some other =>
    rw [give_of_held held, held]
    exact ⟨fun gave => congrArg some (Except.ok.inj gave),
      fun same => congrArg Except.ok (Option.some.inj same)⟩
  | none =>
    rcases give_of_none policy held with ⟨other, gave, -⟩ | ⟨fault, gave, -⟩
    · rw [gave]
      exact ⟨fun gave => congrArg some (Except.ok.inj gave),
        fun same => congrArg Except.ok (Option.some.inj same)⟩
    · rw [gave, held]
      exact ⟨by rintro ⟨⟩, by rintro ⟨⟩⟩

theorem Owns.given (owns : Owns policy slot) (gave : (Custody.give policy slot).1 = .ok client) :
    client.number ∉ slot.closed := by
  have still := (owns.give.held client (fst_give_eq_ok_iff.mp gave)).1
  have same : (Custody.give policy slot).2.closed = slot.closed := slot.closed_ensure _ _
  rwa [same] at still

/-- What a verifier that opens its own clients may do at any time. -/
structure Kept (policy : AccessPolicy) (slot : ClientSlot) : Prop where
  owns : Owns policy slot
  /-- A use gets hold of the client that is held afterwards, and what it sends it sends over that one,
  which is open. -/
  used : ∀ (what : Use) occasion,
    (∀ client, .obtained client ∈ (what.doing policy occasion slot).contacts ↔
      (what.doing policy occasion slot).slot.held = some client) ∧
    (∀ contact ∈ (what.doing policy occasion slot).contacts,
      (what.doing policy occasion slot).slot.held = some contact.client ∧
        contact.client.number ∉ slot.closed) ∧
    (what.doing policy occasion slot).contacts.filterMap Contact.request? =
      (what.doing policy occasion slot).requests
  /-- Until it is closed, there is contact with one client at most. -/
  shared : ∀ steps, .close ∉ steps → ∀ one ∈ contacts policy slot steps,
    ∀ other ∈ contacts policy slot steps, one.client = other.client
  /-- Closing closes the client held and forgets it, and a second time does nothing. -/
  closes : slot.close.held = none ∧
    slot.close.closed = (slot.held.map Client.number).toList ++ slot.closed ∧
    slot.close.opened = slot.opened ∧ slot.close.close = slot.close
  /-- The next use opens a new client on the same address and with the same timeout. -/
  reopens : ∀ (what : Use) occasion client,
    .obtained client ∈ (what.doing policy occasion slot.close).contacts ↔
      client.number = slot.opened ∧ Url.base? policy.apiBase.toList = some client.base ∧
        client.readTimeout = policy.timeout

theorem Owns.kept (owns : Owns policy slot) : Kept policy slot := by
  have empty : slot.close.held = none ∧
      slot.close.closed = (slot.held.map Client.number).toList ++ slot.closed ∧
      slot.close.opened = slot.opened := by
    cases held : slot.held with
    | none =>
      rw [ClientSlot.close_of_none held]
      exact ⟨held, rfl, rfl⟩
    | some client =>
      rw [ClientSlot.close_of_held held owns.owned]
      exact ⟨rfl, rfl, rfl⟩
  refine ⟨owns, fun what occasion => ?_, fun steps uses one first other second => ?_,
    ⟨empty.1, empty.2.1, empty.2.2, ClientSlot.close_of_none empty.1⟩,
    fun what occasion client => ?_⟩
  · have keeps := what.keeps policy occasion slot
    have opens (contact : Contact) (member : contact ∈ (what.doing policy occasion slot).contacts) :
        contact.client.number ∉ slot.closed := owns.given (keeps.only contact member)
    refine ⟨fun client => ?_, fun contact member => ⟨?_, opens contact member⟩, keeps.requests opens⟩
    · rw [keeps.obtained client, keeps.after]
      exact fst_give_eq_ok_iff
    · rw [keeps.after]
      exact fst_give_eq_ok_iff.mp (keeps.only contact member)
  · have same := mem_contacts_of_uses uses first
    rw [mem_contacts_of_uses uses second] at same
    exact (Except.ok.inj same).symm
  · rw [(what.keeps policy occasion slot.close).obtained client, ← empty.2.2]
    rcases give_of_none policy empty.1 with
      ⟨other, gave, number, parsed, timeout⟩ | ⟨fault, gave, none⟩
    · rw [gave]
      constructor
      · rintro ⟨⟩
        exact ⟨number, parsed, timeout⟩
      · rintro ⟨number', parsed', timeout'⟩
        have same : other.base = client.base := Option.some.inj (parsed.symm.trans parsed')
        have equal : other = client := by
          cases other
          cases client
          simp_all only
        exact congrArg Except.ok equal
    · rw [gave, none]
      constructor
      · rintro ⟨⟩
      · rintro ⟨-, ⟨⟩, -⟩

/-- A client that a verifier was handed stays with it. Of those that it opens itself, all are closed
but for the one that it holds, and every use goes over that one. -/
theorem client_in_custody (policy : AccessPolicy) :
    (∀ client steps, Handed policy client steps) ∧
      ∀ steps, Kept policy (past policy .ofOwner steps) :=
  ⟨handed, fun steps => (owns_ofOwner.past steps).kept⟩

end Custody

end RegistryGate
