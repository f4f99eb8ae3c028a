import RegistryGate.Identity.Script
import RegistryGate.Proofs.Requests

/-!
# Scanning organizations

Each lookup of a membership confirms it, rules out its organization or breaks the scan. The organizations
are asked in order up to the first that is not ruled out, and that one decides (`run_scanOrganizations`).
So only what is found up to there matters, and of a lookup that rules out its organization only that it
does (`isMember_scans`).
-/

namespace RegistryGate

/-! ## Traces of composed runs -/

namespace Procedure

variable {α β : Type} {api : Api} {now : Rat} {slot : ClientSlot}

/-- What follows a procedure adds its requests and its log to those of the procedure. -/
theorem seen_bind {procedure : Procedure α} {f : α → Procedure β} {value : α}
    (came : (procedure.run api none now slot).value = some value) :
    let first := procedure.run api none now slot
    let rest := (f value).run api none first.ended first.slot
    let run := (procedure >>= f).run api none now slot
    run.value = rest.value ∧ run.requests = first.requests ++ rest.requests ∧
      run.events = first.events ++ rest.events := by
  intro first rest run
  have run_eq : run = { rest with trace := first.trace ++ rest.trace } := by
    show (procedure >>= f).run api none now slot = _
    rw [run_bind, Run.andThen_of_some came]
  rw [run_eq]
  exact ⟨rfl, List.filterMap_append, List.filterMap_append⟩

end Procedure

namespace Identity

/-! ## What lookups find -/

/-- What a lookup finds about a membership. -/
inductive Finding where
  | confirmed
  | ruledOut
  | broke (fault : Fault)
deriving DecidableEq

/-- Exactly the status 204 confirms a membership. Any other status rules out the organization, and so
does a fault that leaves the membership unknown. -/
def Finding.of : Except Fault Answer → Finding
  | .ok answer => if answer.status = 204 then .confirmed else .ruledOut
  | .error fault => if isMembershipFailure fault then .ruledOut else .broke fault

/-- What a finding means for the user, if it is the last one. -/
def Finding.decides : Finding → Except Fault Bool
  | .confirmed => .ok true
  | .ruledOut => .ok false
  | .broke fault => .error fault

theorem Finding.decides_injective {a b : Finding} (same : a.decides = b.decides) : a = b := by
  cases a <;> cases b <;> simp_all [decides]

/-- How the lookup of a membership in an organization ends. -/
def lookup (ending : Ending) (token : List Char) (login : WideText) (organization : String) :
    Except Fault Answer :=
  match memberPath? organization login with
  | none => .error .unencodable
  | some path => ending path token

/-- The request that a lookup of a path sends. Without a limit to wait for, for a token that is not ASCII
and for a path without a URL nothing is sent. -/
def lookupRequest? (policy : AccessPolicy) (address path token : List Char) : Option Request :=
  if policy.timeout.limit.toOption.isSome = true ∧ token.all (·.toNat < 0x80) = true then
    ((Url.base? address).bind (Url.join? · path)).map fun url =>
      ⟨url, Request.carried url token, Request.mediaType⟩
  else none

/-- What becomes of a request that a lookup sends. -/
def outcome (policy : AccessPolicy) (api : Api) (sent : Request) : Outcome :=
  match policy.timeout.limit with
  | .ok limit => (api sent).outcome limit
  | .error _ => .failed

/-- The request that asks an organization about a user. -/
def memberRequest? (policy : AccessPolicy) (address token : List Char) (login : WideText)
    (organization : String) : Option Request :=
  (memberPath? organization login).bind (lookupRequest? policy address · token)

/-- What is logged of a lookup. -/
def note? (request : String) (login : WideText) (organization : String) :
    Except Fault Answer → Option Event
  | .ok answer =>
    if answer.status = 204 then some (.membershipConfirmed login organization)
    else some (.membershipAbsent login organization answer.status)
  | .error fault =>
    if isMembershipFailure fault then some (.membershipUnknown organization request fault) else none

/-- The organizations up to the first that is not ruled out, which is the last one asked. -/
def asked (finds : String → Finding) : List String → List String
  | [] => []
  | organization :: rest =>
    if finds organization = .ruledOut then organization :: asked finds rest else [organization]

/-- What the first organization that is not ruled out decides. -/
def decision (finds : String → Finding) : List String → Except Fault Bool
  | [] => .ok false
  | organization :: rest =>
    if finds organization = .ruledOut then decision finds rest else (finds organization).decides

variable {finds : String → Finding} {organization : String} {organizations : List String}

theorem asked_eq_self (ruledOut : ∀ organization ∈ organizations, finds organization = .ruledOut) :
    asked finds organizations = organizations ∧ decision finds organizations = .ok false := by
  induction organizations with
  | nil => exact ⟨rfl, rfl⟩
  | cons first rest ih =>
    obtain ⟨here, later⟩ := List.forall_mem_cons.mp ruledOut
    obtain ⟨all, nobody⟩ := ih later
    rw [asked, if_pos here, all, decision, if_pos here]
    exact ⟨rfl, nobody⟩

theorem asked_append {before : List String} (ruledOut : ∀ earlier ∈ before, finds earlier = .ruledOut)
    (behind : List String) :
    asked finds (before ++ behind) = before ++ asked finds behind ∧
      decision finds (before ++ behind) = decision finds behind := by
  induction before with
  | nil => exact ⟨rfl, rfl⟩
  | cons first before ih =>
    obtain ⟨here, later⟩ := List.forall_mem_cons.mp ruledOut
    obtain ⟨front, same⟩ := ih later
    rw [List.cons_append, asked, if_pos here, front, decision, if_pos here]
    exact ⟨rfl, same⟩

/-- Either every organization is ruled out, or one of them is the first that is not. -/
theorem all_ruledOut_or_first (finds : String → Finding) (organizations : List String) :
    (∀ organization ∈ organizations, finds organization = .ruledOut) ∨
      ∃ before organization after, organizations = before ++ organization :: after ∧
        (∀ earlier ∈ before, finds earlier = .ruledOut) ∧ finds organization ≠ .ruledOut := by
  induction organizations with
  | nil => exact .inl fun _ member => absurd member List.not_mem_nil
  | cons first rest ih =>
    by_cases here : finds first = .ruledOut
    · rcases ih with later | ⟨before, organization, after, rfl, earlier, settles⟩
      · exact .inl (List.forall_mem_cons.mpr ⟨here, later⟩)
      · exact .inr ⟨first :: before, organization, after, rfl,
          List.forall_mem_cons.mpr ⟨here, earlier⟩, settles⟩
    · exact .inr ⟨[], first, rest, rfl, fun _ member => absurd member List.not_mem_nil, here⟩

/-- Whoever finds the same for the organizations that are asked asks the same ones and decides the
same. -/
theorem asked_congr {other : String → Finding}
    (agree : ∀ organization ∈ asked finds organizations, other organization = finds organization) :
    asked other organizations = asked finds organizations ∧
      decision other organizations = decision finds organizations := by
  induction organizations with
  | nil => exact ⟨rfl, rfl⟩
  | cons first rest ih =>
    by_cases here : finds first = .ruledOut
    · rw [asked, if_pos here] at agree
      obtain ⟨same, later⟩ := List.forall_mem_cons.mp agree
      obtain ⟨front, decided⟩ := ih later
      rw [here] at same
      simp only [asked, decision, here, same, if_true, front, decided, and_self]
    · rw [asked, if_neg here] at agree
      have same := agree first List.mem_cons_self
      simp only [asked, decision, same, if_neg here, and_self]

theorem asked_of_first {before after : List String}
    (ruledOut : ∀ earlier ∈ before, finds earlier = .ruledOut)
    (settles : finds organization ≠ .ruledOut) :
    asked finds (before ++ organization :: after) = before ++ [organization] := by
  rw [(asked_append ruledOut _).1, asked, if_neg settles]

/-- A finding about an organization, when all before it are ruled out. -/
def First (finds : String → Finding) (organizations : List String) (finding : Finding) : Prop :=
  ∃ before organization after, organizations = before ++ organization :: after ∧
    (∀ earlier ∈ before, finds earlier = .ruledOut) ∧ finds organization = finding

theorem decision_of_first {before after : List String}
    (ruledOut : ∀ earlier ∈ before, finds earlier = .ruledOut)
    (settles : finds organization ≠ .ruledOut) :
    decision finds (before ++ organization :: after) = (finds organization).decides := by
  rw [(asked_append ruledOut _).2, decision, if_neg settles]

/-- The first finding that settles the matter is the one that decides. -/
theorem decision_eq_decides_iff {finding : Finding} (settles : finding ≠ .ruledOut) :
    decision finds organizations = finding.decides ↔ First finds organizations finding := by
  constructor
  · intro decided
    rcases all_ruledOut_or_first finds organizations with
      all | ⟨before, organization, after, rfl, earlier, found⟩
    · rw [(asked_eq_self all).2] at decided
      exact absurd (Finding.decides_injective (a := .ruledOut) decided).symm settles
    · rw [decision_of_first earlier found] at decided
      exact ⟨before, organization, after, rfl, earlier, Finding.decides_injective decided⟩
  · rintro ⟨before, organization, after, rfl, earlier, rfl⟩
    exact decision_of_first earlier settles

theorem decision_eq_ok_false_iff :
    decision finds organizations = .ok false ↔
      ∀ organization ∈ organizations, finds organization = .ruledOut := by
  constructor
  · intro nobody
    rcases all_ruledOut_or_first finds organizations with
      all | ⟨before, organization, after, rfl, earlier, found⟩
    · exact all
    · rw [decision_of_first earlier found] at nobody
      exact absurd (Finding.decides_injective (b := .ruledOut) nobody) found
  · intro all
    exact (asked_eq_self all).2

/-! ## The scan -/

variable {policy : AccessPolicy} {api : Api} {address : List Char} {now : Rat} {slot : ClientSlot}
  {client : Client} {request : String} {path token : List Char} {login : WideText}

/-- A lookup on an open client sends its request, if it has one, and logs nothing. -/
theorem run_get_seen (policy : AccessPolicy) (api : Api) (path token : List Char) (now : Rat)
    (base : Url.base? address = some client.base) (isOpen : slot.isClosed client = false) :
    let run := (get policy client path token).run api none now slot
    run.value = some (ending policy api address path token) ∧ run.slot = slot ∧
      run.requests = (lookupRequest? policy address path token).toList.map (fun sent =>
        (sent, outcome policy api sent)) ∧
      run.events = [] := by
  unfold get ending endingWith lookupRequest? outcome
  cases policy.timeout.limit with
  | error fault => simp [Procedure.run, Run.requests, Run.events, Except.toOption]
  | ok limit =>
    simp only [base, Option.bind_some, Request.make]
    cases Url.join? client.base path with
    | none => simp [Procedure.run, Run.requests, Run.events]
    | some url =>
      cases ascii : token.all (·.toNat < 0x80) with
      | false => simp [Procedure.run, Run.requests, Run.events]
      | true =>
        simp [Procedure.run, isOpen, cutOff?, Run.requests, Run.events, Run.after, Except.toOption]

/-- What the organizations are found to say about a user. -/
def findings (policy : AccessPolicy) (api : Api) (address token : List Char) (login : WideText)
    (organization : String) : Finding :=
  .of (lookup (ending policy api address) token login organization)

/-- The requests that go out for organizations, with what becomes of each. -/
def sends (policy : AccessPolicy) (api : Api) (address token : List Char) (login : WideText)
    (organizations : List String) : List (Request × Outcome) :=
  (organizations.filterMap (memberRequest? policy address token login)).map fun sent =>
    (sent, outcome policy api sent)

theorem sends_cons (organization : String) (rest : List String) :
    sends policy api address token login (organization :: rest) =
      (memberRequest? policy address token login organization).toList.map (fun sent =>
        (sent, outcome policy api sent)) ++ sends policy api address token login rest := by
  unfold sends
  cases asks : memberRequest? policy address token login organization with
  | none => simp [asks]
  | some sent => simp [asks]

/-- What a scan of organizations comes to, what it sends and what it logs. -/
structure Scanned (policy : AccessPolicy) (api : Api) (address : List Char) (request : String)
    (token : List Char) (login : WideText) (organizations : List String)
    (run : Run (Except Fault Bool)) : Prop where
  value : run.value = some (decision (findings policy api address token login) organizations)
  requests : run.requests = sends policy api address token login
    (asked (findings policy api address token login) organizations)
  events : run.events =
    (asked (findings policy api address token login) organizations).filterMap fun organization =>
      note? request login organization (lookup (ending policy api address) token login organization)

variable {event : Event} {ended : Except Fault Answer} {rest : List String}
  {first : Run (Except Fault Answer)} {run later : Run (Except Fault Bool)}

/-- A lookup that rules out its organization, a note of it, and a scan of the others make a scan. -/
theorem Scanned.cons (scanned : Scanned policy api address request token login rest later)
    (found : findings policy api address token login organization = .ruledOut)
    (noted : note? request login organization
      (lookup (ending policy api address) token login organization) = some event)
    (value : run.value = later.value)
    (requests : run.requests = (memberRequest? policy address token login organization).toList.map
      (fun sent => (sent, outcome policy api sent)) ++ later.requests)
    (events : run.events = event :: later.events) :
    Scanned policy api address request token login (organization :: rest) run := by
  constructor
  · rw [value, scanned.value, decision, if_pos found]
  · rw [requests, scanned.requests, asked, if_pos found, sends_cons]
  · rw [events, scanned.events, asked, if_pos found, List.filterMap_cons, noted]

/-- A lookup that settles the matter is a scan, whatever other organizations there are. -/
theorem Scanned.settled (rest : List String)
    (found : findings policy api address token login organization ≠ .ruledOut)
    (value : run.value = some (findings policy api address token login organization).decides)
    (requests : run.requests = (memberRequest? policy address token login organization).toList.map
      fun sent => (sent, outcome policy api sent))
    (events : run.events = (note? request login organization
      (lookup (ending policy api address) token login organization)).toList) :
    Scanned policy api address request token login (organization :: rest) run := by
  have alone : asked (findings policy api address token login) (organization :: rest) =
      [organization] := by
    rw [asked, if_neg found]
  constructor
  · rw [value, decision, if_neg found]
  · rw [requests, alone, sends_cons]
    simp [sends]
  · rw [events, alone]
    cases logged : note? request login organization
      (lookup (ending policy api address) token login organization) <;> simp [logged]

theorem weigh_of_ruledOut (found : Finding.of ended = .ruledOut)
    (others : Procedure (Except Fault Bool)) :
    ∃ event, note? request login organization ended = some event ∧
      weigh request login organization others ended =
        (Procedure.log event >>= fun _ => others) := by
  cases ended with
  | error fault =>
    by_cases caught : isMembershipFailure fault = true
    · exact ⟨.membershipUnknown organization request fault, by simp [note?, caught],
        by simp [weigh, caught]⟩
    · simp [Finding.of, caught] at found
  | ok answer =>
    by_cases confirming : answer.status = 204
    · simp [Finding.of, confirming] at found
    · exact ⟨.membershipAbsent login organization answer.status, by simp [note?, confirming],
        by simp [weigh, confirming]⟩

theorem run_weigh_of_settled (found : Finding.of ended ≠ .ruledOut)
    (others : Procedure (Except Fault Bool)) (now : Rat) (slot : ClientSlot) :
    let run := (weigh request login organization others ended).run api none now slot
    run.value = some (Finding.of ended).decides ∧ run.requests = [] ∧
      run.events = (note? request login organization ended).toList := by
  cases ended with
  | error fault =>
    by_cases caught : isMembershipFailure fault = true
    · simp [Finding.of, caught] at found
    · simp [weigh, Finding.of, Finding.decides, note?, caught, Procedure.run_pure, Run.requests,
        Run.events]
  | ok answer =>
    by_cases confirming : answer.status = 204
    · simp only [weigh, Finding.of, note?, confirming, if_true]
      exact ⟨rfl, rfl, rfl⟩
    · simp [Finding.of, confirming] at found

theorem run_scanOrganizations (base : Url.base? address = some client.base)
    (isOpen : slot.isClosed client = false) (organizations : List String) :
    Scanned policy api address request token login organizations
      ((scanOrganizations policy client request token login organizations).run api none now slot) := by
  induction organizations generalizing now with
  | nil => exact ⟨rfl, rfl, rfl⟩
  | cons organization rest ih =>
    cases written : memberPath? organization login with
    | none =>
      have ended : lookup (ending policy api address) token login organization = .error .unencodable := by
        simp only [lookup, written]
      have found : findings policy api address token login organization = .broke .unencodable := by
        simp only [findings, ended]
        rfl
      have unsent : memberRequest? policy address token login organization = none := by
        simp only [memberRequest?, written, Option.bind_none]
      simp only [scanOrganizations, written]
      apply Scanned.settled rest
      · simp [found]
      · simp [Procedure.run, found, Finding.decides]
      · simp [Procedure.run, Run.requests, unsent]
      · simp [Procedure.run, Run.events, ended, note?, isMembershipFailure]
    | some path =>
      have ended : lookup (ending policy api address) token login organization =
          ending policy api address path token := by
        simp only [lookup, written]
      have asks : memberRequest? policy address token login organization =
          lookupRequest? policy address path token := by
        simp only [memberRequest?, written, Option.bind_some]
      obtain ⟨came, kept, sent, silent⟩ := run_get_seen policy api path token now base isOpen
      rw [← ended] at came
      rw [← asks] at sent
      simp only [scanOrganizations_cons, written]
      let others := scanOrganizations policy client request token login rest
      obtain ⟨value, requests, events⟩ :=
        Procedure.seen_bind (f := weigh request login organization others) came
      rw [sent, kept] at requests
      rw [silent, kept, List.nil_append] at events
      rw [kept] at value
      by_cases found : findings policy api address token login organization = .ruledOut
      · obtain ⟨event, noted, continued⟩ := weigh_of_ruledOut found others
        rw [continued] at value requests events
        exact ih.cons found noted value requests events
      · obtain ⟨decided, unsent, logged⟩ := run_weigh_of_settled found others _ slot
        rw [unsent, List.append_nil] at requests
        rw [logged] at events
        exact Scanned.settled rest found (value.trans decided) requests events

/-! ## The question -/

theorem carried_congr {a b : Url} (same : a.userinfo = b.userinfo) (token : List Char) :
    Request.carried a token = Request.carried b token := by
  unfold Request.carried
  rw [same]

theorem userinfo_of_join? {base a b : Url} {first second : List Char}
    (one : Url.join? base first = some a) (other : Url.join? base second = some b) :
    a.userinfo = b.userinfo := by
  have user {path : List Char} {url : Url} (joined : Url.join? base path = some url) :
      url.userinfo =
        Percent.encodeKeeping Url.isUserinfoChar (Url.splitUserinfo base.authority).1 := by
    unfold Url.join? at joined
    obtain ⟨relative, -, joined⟩ := Option.bind_eq_some_iff.mp joined
    obtain ⟨path, query, made⟩ := Url.withTarget?_eq_some joined
    exact (Url.ofParts?_eq_some made).2.1
  rw [user one, user other]

theorem requests_of_mem_sends {sent : Request} {outcome : Outcome} {organizations : List String}
    (member : (sent, outcome) ∈ sends policy api address token login organizations) :
    ∃ organization ∈ organizations, ∃ path, memberPath? organization login = some path ∧
      Requests address path token sent := by
  obtain ⟨request, inside, made⟩ := List.mem_map.mp member
  cases made
  obtain ⟨organization, listed, asks⟩ := List.mem_filterMap.mp inside
  obtain ⟨path, written, asks⟩ := Option.bind_eq_some_iff.mp asks
  refine ⟨organization, listed, path, written, ?_⟩
  unfold lookupRequest? at asks
  split at asks
  · obtain ⟨url, read, rfl⟩ := Option.map_eq_some_iff.mp asks
    exact ⟨url, read, rfl⟩
  · cases asks

theorem authorization_unique {one other : Request} {first second : List Char}
    (asks : Requests address first token one) (alsoAsks : Requests address second token other) :
    one.authorization = other.authorization := by
  obtain ⟨url, read, rfl⟩ := asks
  obtain ⟨another, alsoRead, rfl⟩ := alsoAsks
  obtain ⟨base, based, joined⟩ := Option.bind_eq_some_iff.mp read
  obtain ⟨same, alsoBased, alsoJoined⟩ := Option.bind_eq_some_iff.mp alsoRead
  rw [based] at alsoBased
  cases alsoBased
  exact carried_congr (userinfo_of_join? joined alsoJoined) token

theorem map_fst_sends (api : Api) (organizations : List String) :
    (sends policy api address token login organizations).map (·.1) =
      organizations.filterMap (memberRequest? policy address token login) := by
  simp [sends, Function.comp_def]

/-- What a verifier does that is asked whether a user is a member of an organization. -/
structure Scans (policy : AccessPolicy) (api : Api) (address : List Char) (request : String)
    (token : List Char) (login : WideText) (ask : Api → Run (Except Fault Bool)) : Prop where
  /-- It asks all organizations in order, up to the first that is not ruled out. -/
  all : (∀ organization ∈ policy.organizations,
      findings policy api address token login organization = .ruledOut) →
    (ask api).requests = sends policy api address token login policy.organizations
  upTo : ∀ before organization after, policy.organizations = before ++ organization :: after →
    (∀ earlier ∈ before, findings policy api address token login earlier = .ruledOut) →
    findings policy api address token login organization ≠ .ruledOut →
    (ask api).requests = sends policy api address token login (before ++ [organization])
  /-- Of each organization asked, unless the scan breaks there, a note is taken. -/
  notes : (ask api).events =
    (asked (findings policy api address token login) policy.organizations).filterMap
      fun organization => note? request login organization
        (lookup (ending policy api address) token login organization)
  /-- The requests carry the same credential, which is the token unless their address holds a user. -/
  sameToken : ∀ one ∈ (ask api).requests, ∀ other ∈ (ask api).requests,
    one.1.authorization = other.1.authorization
  carries : ∀ sent ∈ (ask api).requests,
    sent.1.authorization = "token ".toList ++ token ↔ sent.1.url.NoUser
  member : (ask api).value = some (.ok true) ↔
    First (findings policy api address token login) policy.organizations .confirmed
  broke : ∀ fault, (ask api).value = some (.error fault) ↔
    First (findings policy api address token login) policy.organizations (.broke fault)
  stranger : (ask api).value = some (.ok false) ↔ ∀ organization ∈ policy.organizations,
    findings policy api address token login organization = .ruledOut
  /-- Nothing depends on what else there is to be found. -/
  stable : ∀ other, (∀ organization ∈
      asked (findings policy api address token login) policy.organizations,
      findings policy other address token login organization =
        findings policy api address token login organization) →
    (ask other).value = (ask api).value ∧
      (ask other).requests.map (·.1) = (ask api).requests.map (·.1)

theorem scans {ask : Api → Run (Except Fault Bool)}
    (scanned : ∀ api, Scanned policy api address request token login policy.organizations (ask api))
    (api : Api) : Scans policy api address request token login ask where
  all := by
    intro ruledOut
    rw [(scanned api).requests, (asked_eq_self ruledOut).1]
  upTo := by
    intro before organization after split ruledOut settles
    rw [(scanned api).requests, split, asked_of_first ruledOut settles]
  notes := (scanned api).events
  sameToken := by
    rintro ⟨one, first⟩ member ⟨other, second⟩ alsoMember
    rw [(scanned api).requests] at member alsoMember
    obtain ⟨_, -, path, -, asks⟩ := requests_of_mem_sends member
    obtain ⟨_, -, another, -, alsoAsks⟩ := requests_of_mem_sends alsoMember
    exact authorization_unique asks alsoAsks
  carries := by
    rintro ⟨sent, outcome⟩ member
    rw [(scanned api).requests] at member
    obtain ⟨_, -, path, -, asks⟩ := requests_of_mem_sends member
    exact asks.carries_iff
  member := by
    rw [(scanned api).value, Option.some.injEq]
    have settles : Finding.confirmed ≠ .ruledOut := by rintro ⟨⟩
    exact decision_eq_decides_iff settles
  broke := by
    intro fault
    rw [(scanned api).value, Option.some.injEq]
    have settles : Finding.broke fault ≠ .ruledOut := by rintro ⟨⟩
    exact decision_eq_decides_iff settles
  stranger := by
    rw [(scanned api).value, Option.some.injEq]
    exact decision_eq_ok_false_iff
  stable := by
    intro other agree
    obtain ⟨same, decided⟩ := asked_congr agree
    rw [(scanned other).value, (scanned api).value, (scanned other).requests, (scanned api).requests,
      map_fst_sends, map_fst_sends, same, decided]
    exact ⟨rfl, rfl⟩

/-- A user is a member if the first organization that is not ruled out confirms it. The organizations up
to that one are asked, in order and with the same token, and no others; nothing else matters for the
answer or for what is asked. Without a client, because the address is none, nothing is asked at all. -/
theorem isMember_scans (policy : AccessPolicy) (api : Api) (request : String) (token : List Char)
    (login : WideText) (now : Rat) (address : List Char) (slot : ClientSlot)
    (sound : slot.Sound policy.apiBase.toList address) :
    let ask (api : Api) := (isMember policy request token login).run api none now slot
    (Url.base? address ≠ none → Scans policy api address request token login ask) ∧
      (Url.base? address = none → (ask api).value = some (.error .invalidUrl) ∧
        (ask api).requests = []) ∧
      ((∀ base, Url.base? address = some base → base.scheme ≠ [] ∧ base.NoUser) →
        ∀ organization, lookup (ending policy api address) token login organization =
          lookup (promised policy api address) token login organization) := by
  intro ask
  refine ⟨?_, ?_, ?_⟩
  · intro valid
    refine scans (fun api => ?_) api
    simp only [ask, isMember]
    rcases run_client_bind sound _ api now with
      ⟨client, after, based, -, isOpen, goesOn⟩ | ⟨invalid, -⟩
    · rw [goesOn]
      exact run_scanOrganizations based isOpen _
    · exact absurd invalid valid
  · intro invalid
    simp only [ask, isMember]
    rcases run_client_bind sound _ api now with ⟨client, after, based, -⟩ | ⟨-, goesOn⟩
    · rw [invalid] at based
      cases based
    · rw [goesOn]
      exact ⟨rfl, rfl⟩
  · intro plain organization
    unfold lookup
    cases memberPath? organization login with
    | none => rfl
    | some path =>
      dsimp only
      apply ending_eq_promised
      intro base url based joined
      obtain ⟨named, free⟩ := plain base based
      exact Url.join?_of_base based named free joined

def threeOrganizations : AccessPolicy :=
  ⟨"teams", defaultApiUrl, ["alpha", "beta", "gamma"], .empty, false, "", .real defaultTimeout, by
    decide⟩

/-- Of one organization, everybody is a member. -/
def betaApi : Api := Route.api [⟨"/orgs/beta/members/ann".toList, none, ⟨0, .ok ⟨204, []⟩⟩⟩]

/-- The first organization is asked and does not know the user, the second confirms the membership, and
the third is never asked. -/
theorem threeOrganizations_member :
    let run := (isMember threeOrganizations "1" ['t'] "ann").run betaApi none 0 .ofOwner
    run.value = some (.ok true) ∧
      run.requests.map (·.2) = [.answered 404, .answered 204] ∧
      run.events.length = 2 := by
  have based : Url.base? threeOrganizations.apiBase.toList ≠ none := by decide +kernel
  have alpha : findings threeOrganizations betaApi threeOrganizations.apiBase.toList ['t'] "ann" "alpha" =
      .ruledOut := by decide +kernel
  have beta : findings threeOrganizations betaApi threeOrganizations.apiBase.toList ['t'] "ann" "beta" =
      .confirmed := by decide +kernel
  have scan := (isMember_scans threeOrganizations betaApi "1" ['t'] "ann" 0
    threeOrganizations.apiBase.toList .ofOwner ClientSlot.sound_ofOwner).1 based
  have first : ∀ earlier ∈ ["alpha"], findings threeOrganizations betaApi
      threeOrganizations.apiBase.toList ['t'] "ann" earlier = .ruledOut :=
    List.forall_mem_singleton.mpr alpha
  have settles : findings threeOrganizations betaApi threeOrganizations.apiBase.toList ['t'] "ann" "beta" ≠
      .ruledOut := by
    rw [beta]
    rintro ⟨⟩
  refine ⟨scan.member.mpr ⟨["alpha"], "beta", ["gamma"], rfl, first, beta⟩, ?_, ?_⟩
  · rw [scan.upTo ["alpha"] "beta" ["gamma"] rfl first settles]
    decide +kernel
  · rw [scan.notes, show threeOrganizations.organizations = ["alpha"] ++ "beta" :: ["gamma"] from rfl,
      asked_of_first first settles]
    decide +kernel

end Identity

end RegistryGate
