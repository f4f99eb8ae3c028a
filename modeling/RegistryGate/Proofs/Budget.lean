import RegistryGate.Proofs.Isolation
import RegistryGate.Proofs.Waiting

/-!
# What a call costs

A call of the standard engine asks for one profile, and for one membership in each organization of
its policy at most (`Session.procedure_sendsAtMost`). Each request has its own share of time, and
nothing else takes any (`Procedure.Limited.ended_run`), so that the whole call takes as many shares as
it may send requests (`Session.cost_bounded`). Without any time nothing is sent.
-/

namespace RegistryGate

namespace Seconds

/-- Whether a finite limit leaves no time is a matter of its exact value. -/
theorem isNonpositive_iff {seconds : Seconds} {limit : Rat} (exact : seconds.toRat? = some limit) :
    seconds.isNonpositive = true ↔ limit ≤ 0 := by
  constructor
  · intro spent
    cases seconds with
    | whole value =>
      cases exact
      exact Rat.intCast_nonpos.mpr (of_decide_eq_true spent)
    | real value =>
      cases value with
      | infinite negative => cases exact
      | nan => cases exact
      | finite negative mantissa exponent =>
        simp only [isNonpositive, Binary64.isNonpositive, Bool.or_eq_true, beq_iff_eq] at spent
        simp only [toRat?, Binary64.toRat?, Option.some.injEq] at exact
        subst exact
        rcases spent with rfl | rfl
        · rw [if_pos rfl, neg_nonpos]
          split
          · exact Nat.cast_nonneg _
          · exact Rat.mkRat_nonneg (Int.natCast_nonneg _) _
        · simp
  · intro nonpositive
    by_contra left
    exact absurd (toRat?_pos (Bool.eq_false_iff.mpr left) exact) (not_lt.mpr nonpositive)

end Seconds

/-! ## Requests and time of a procedure -/

/-- Under a limit an exchange takes no longer than that. -/
theorem Reply.duration_le (reply : Reply) (limit : Rat) : reply.duration (.atMost limit) ≤ limit := by
  simp only [duration, Limit.cut?]
  split
  · exact le_refl limit
  · rename_i early
    exact (not_le.mp early).le

/-- A wait that is cut off is cut off before its end. -/
theorem le_of_cutOff? {deadline : Option Rat} {now wait time : Rat}
    (cut : cutOff? deadline now wait = some time) : time ≤ now + wait := by
  unfold cutOff? at cut
  cases deadline with
  | none => cases cut
  | some instant =>
    rw [Option.bind_some] at cut
    split at cut
    · rename_i reached
      cases cut
      exact reached.2
    · cases cut

namespace Procedure

variable {α β : Type}

/-- A procedure that sends at most a number of requests, whatever the answers are. -/
def SendsAtMost : Procedure α → Nat → Prop
  | .done _, _ => True
  | .cancelled, _ => True
  | .record _ next, count => next.SendsAtMost count
  | .clock next, count => ∀ now, (next now).SendsAtMost count
  | .pause _ next stopped, count => next.SendsAtMost count ∧ stopped.SendsAtMost count
  | .connect _ _ next, count => ∀ client, (next client).SendsAtMost count
  | .exchange _ _ _ next stopped, count =>
    0 < count ∧ (∀ answer, (next answer).SendsAtMost (count - 1)) ∧ stopped.SendsAtMost (count - 1)

variable {procedure : Procedure α} {count more : Nat}

theorem SendsAtMost.mono (sends : procedure.SendsAtMost count) (le : count ≤ more) :
    procedure.SendsAtMost more := by
  induction procedure generalizing count more with
  | done value => trivial
  | cancelled => trivial
  | record note next ih => exact ih sends le
  | clock next ih => exact fun now => ih now (sends now) le
  | pause seconds next stopped ih ihStopped => exact ⟨ih sends.1 le, ihStopped sends.2 le⟩
  | connect base readTimeout next ih => exact fun client => ih client (sends client) le
  | exchange client request limit next stopped ih ihStopped =>
    obtain ⟨some, rest, last⟩ := sends
    have fewer : count - 1 ≤ more - 1 := Nat.sub_le_sub_right le 1
    exact ⟨some.trans_le le, fun answer => ih answer (rest answer) fewer, ihStopped last fewer⟩

theorem SendsAtMost.bind {f : α → Procedure β} (first : procedure.SendsAtMost count)
    (second : ∀ value, (f value).SendsAtMost more) : (procedure >>= f).SendsAtMost (count + more) := by
  show (procedure.bind f).SendsAtMost (count + more)
  induction procedure generalizing count with
  | done value => exact (second value).mono (Nat.le_add_left more count)
  | cancelled => trivial
  | record note next ih => exact ih first
  | clock next ih => exact fun now => ih now (first now)
  | pause seconds next stopped ih ihStopped => exact ⟨ih first.1, ihStopped first.2⟩
  | connect base readTimeout next ih => exact fun client => ih client (first client)
  | exchange client request limit next stopped ih ihStopped =>
    obtain ⟨some, rest, last⟩ := first
    have fewer : count + more - 1 = count - 1 + more := by omega
    refine ⟨Nat.add_pos_left some more, ?_⟩
    rw [fewer]
    exact ⟨fun answer => ih answer (rest answer), ihStopped last⟩

theorem SendsAtMost.idle_bind {f : α → Procedure β} (first : procedure.SendsAtMost 0)
    (second : ∀ value, (f value).SendsAtMost count) : (procedure >>= f).SendsAtMost count := by
  rw [← Nat.zero_add count]
  exact first.bind second

theorem SendsAtMost.bind_idle {f : α → Procedure β} (first : procedure.SendsAtMost count)
    (second : ∀ value, (f value).SendsAtMost 0) : (procedure >>= f).SendsAtMost count :=
  first.bind second

theorem idle_composes : Composes fun _ procedure => procedure.SendsAtMost 0 :=
  ⟨fun _ => trivial, fun _ => trivial, SendsAtMost.bind⟩

variable {api : Api} {now : Rat} {slot : ClientSlot} {seconds : Seconds} {limit : Rat}

/-- No step of a procedure takes longer than the time limit. -/
theorem Limited.span_le (limited : procedure.Limited seconds) (exact : seconds.toRat? = some limit)
    (positive : 0 < limit) {span : Span} (member : span ∈ procedure.timeline api now slot) :
    span.ends ≤ span.begins + limit := by
  induction procedure generalizing now slot with
  | done value => exact absurd member List.not_mem_nil
  | cancelled => exact absurd member List.not_mem_nil
  | record note next ih =>
    rcases List.mem_cons.mp member with rfl | later
    · exact le_add_of_nonneg_right positive.le
    · exact ih limited later
  | clock next ih => exact ih now (limited now) member
  | pause wait next stopped _ _ => exact limited.elim
  | connect base readTimeout next ih => exact ih _ (limited _) member
  | exchange client request bound next stopped ih _ =>
    obtain ⟨set, rest, -⟩ := limited
    obtain ⟨rfl, -⟩ := Seconds.limit_eq_ok exact set
    rw [timeline] at member
    split at member
    · exact ih _ (rest _) member
    · rcases List.mem_cons.mp member with rfl | later
      · exact add_le_add_right ((api request).duration_le limit) now
      · exact ih _ (rest _) later

end Procedure

/-! ## Requests and time of a task -/

namespace Task

variable {α : Type} {seconds : Seconds} {begun : Rat} {count : Nat} {task : Task α} {api : Api}

/-- The requests that a task has sent. -/
def sent (task : Task α) : List (Request × Outcome) := task.trace.filterMap Entry.request?

/-- A task that has kept, and will keep, to a number of requests: each of those sent so far has taken one
time limit at most, and nothing else has taken any time. -/
structure Affordable (seconds : Seconds) (begun : Rat) (count : Nat) (task : Task α) : Prop where
  limited : task.rest.Limited seconds
  sends : ∃ left, task.rest.SendsAtMost left ∧ task.sent.length + left ≤ count
  time : ∀ limit, seconds.toRat? = some limit → 0 < limit →
    task.time ≤ begun + task.sent.length * limit
  idle : seconds.isNonpositive = true → task.sent = [] ∧ task.time = begun

/-- A step that sends nothing takes no time. -/
theorem Affordable.goOn {next : Procedure α} {left : Nat} {entries : List Entry}
    (affordable : Affordable seconds begun count task) (limited : next.Limited seconds)
    (sends : next.SendsAtMost left) (within : task.sent.length + left ≤ count)
    (quiet : entries.filterMap Entry.request? = []) (deadline : Option Rat) :
    Affordable seconds begun count ⟨next, deadline, task.time, task.trace ++ entries⟩ := by
  have same : sent ⟨next, deadline, task.time, task.trace ++ entries⟩ = task.sent := by
    rw [sent, List.filterMap_append, quiet, List.append_nil, sent]
  refine ⟨limited, ⟨left, sends, ?_⟩, ?_, ?_⟩
  · rwa [same]
  · rw [same]
    exact affordable.time
  · rw [same]
    exact affordable.idle

/-- A step that sends a request takes one time limit at most. -/
theorem Affordable.spend {next : Procedure α} {left : Nat} {request : Request} {outcome : Outcome}
    {instant : Rat} {limit : Limit} (affordable : Affordable seconds begun count task)
    (limited : next.Limited seconds) (sends : next.SendsAtMost left)
    (within : task.sent.length + 1 + left ≤ count) (set : seconds.limit = .ok limit)
    (soon : ∀ value, limit = .atMost value → instant ≤ task.time + value) (deadline : Option Rat) :
    Affordable seconds begun count
      ⟨next, deadline, instant, task.trace ++ [⟨task.time, .requested request outcome⟩]⟩ := by
  have longer : (sent ⟨next, deadline, instant,
      task.trace ++ [⟨task.time, .requested request outcome⟩]⟩).length = task.sent.length + 1 := by
    rw [sent, List.filterMap_append, List.length_append]
    rfl
  refine ⟨limited, ⟨left, sends, ?_⟩, fun value exact positive => ?_, fun spent => ?_⟩
  · rwa [longer]
  · have before := affordable.time value exact positive
    have after := soon value (Seconds.limit_eq_ok exact set).1
    have share : ((task.sent.length + 1 : Nat) : Rat) * value = task.sent.length * value + value := by
      rw [Nat.cast_add, Nat.cast_one, add_mul, one_mul]
    rw [longer, share]
    dsimp only
    linarith
  · unfold Seconds.limit at set
    rw [if_pos spent] at set
    cases set

theorem Affordable.advance (affordable : Affordable seconds begun count task) (api : Api)
    (slot : ClientSlot) : Affordable seconds begun count (task.advance api slot).1 := by
  obtain ⟨left, sends, within⟩ := affordable.sends
  have limited := affordable.limited
  obtain ⟨rest, deadline, time, trace⟩ := task
  cases rest with
  | done value => exact affordable
  | cancelled => exact affordable
  | record note next =>
    have quiet : [Entry.mk time (.noted note)].filterMap Entry.request? = [] := rfl
    have later : next.Limited seconds ∧ next.SendsAtMost left := ⟨limited, sends⟩
    exact affordable.goOn later.1 later.2 within quiet deadline
  | clock next => exact affordable.goOn (limited _) (sends _) within List.filterMap_nil deadline
  | pause wait next stopped => exact limited.elim
  | connect base readTimeout next =>
    exact affordable.goOn (limited _) (sends _) within List.filterMap_nil deadline
  | exchange client request limit next stopped =>
    obtain ⟨set, rest, last⟩ := limited
    obtain ⟨positive, sendsRest, sendsLast⟩ := sends
    simp only [advance, Procedure.step]
    cases slot.isClosed client with
    | true =>
      exact affordable.goOn (rest _) ((sendsRest _).mono (Nat.sub_le left 1)) within
        List.filterMap_nil deadline
    | false =>
      have share : (trace.filterMap Entry.request?).length + 1 + (left - 1) ≤ count := by
        have before : (trace.filterMap Entry.request?).length + left ≤ count := within
        omega
      have wait (value : Rat) (given : limit = .atMost value) :
          time + (api request).duration limit ≤ time + value := by
        rw [given]
        exact add_le_add_right ((api request).duration_le value) time
      cases cut : cutOff? deadline time ((api request).duration limit) with
      | some instant =>
        exact affordable.spend last sendsLast share set
          (fun value given => (le_of_cutOff? cut).trans (wait value given)) none
      | none => exact affordable.spend (rest _) (sendsRest _) share set wait deadline

/-- A task comes to an end within what it is allowed. -/
theorem Affordable.finish (affordable : Affordable seconds begun count task) (api : Api)
    (slot : ClientSlot) :
    (task.finish api slot).requests.length ≤ count ∧
      (∀ limit, seconds.toRat? = some limit → 0 < limit →
        (task.finish api slot).ended ≤ begun + count * limit) ∧
      (seconds.isNonpositive = true →
        (task.finish api slot).requests = [] ∧ (task.finish api slot).ended = begun) := by
  obtain ⟨ended, later, same, atEnd, kept⟩ :=
    exists_ended_of_kept affordable (fun _ slot affordable => affordable.advance api slot) slot
  obtain ⟨value, finished⟩ := atEnd.exists_finish api later
  obtain ⟨left, -, within⟩ := kept.sends
  have few : ended.sent.length ≤ count := (Nat.le_add_right _ left).trans within
  rw [← same, finished]
  refine ⟨few, fun limit exact positive => ?_, kept.idle⟩
  have shares : (ended.sent.length : Rat) * limit ≤ count * limit :=
    mul_le_mul_of_nonneg_right (Nat.cast_le.mpr few) positive.le
  exact (kept.time limit exact positive).trans (add_le_add_right shares begun)

end Task

/-! ## Requests of lookups -/

namespace Identity

variable (policy : AccessPolicy) (request : String) (token : List Char) (login : WideText)

theorem get_sendsAtMost (client : Client) (path : List Char) :
    (get policy client path token).SendsAtMost 1 := by
  unfold get
  split
  · trivial
  · split
    · trivial
    · exact ⟨Nat.one_pos, fun _ => trivial, trivial⟩

theorem fetch_sendsAtMost (depth : Nat) : (fetch policy request token depth).SendsAtMost 1 := by
  rw [fetch_eq]
  intro held
  cases held with
  | error fault => trivial
  | ok client =>
    exact (get_sendsAtMost policy token client profilePath).bind_idle
      (conclude_composes Procedure.idle_composes request depth)

theorem weigh_sendsAtMost {rest : Procedure (Except Fault Bool)} {count : Nat}
    (later : rest.SendsAtMost count) (organization : String) (ended : Except Fault Answer) :
    (weigh request login organization rest ended).SendsAtMost count := by
  cases ended with
  | error fault =>
    simp only [weigh]
    split
    · exact later
    · trivial
  | ok answer =>
    simp only [weigh]
    split
    · trivial
    · exact later

theorem scanOrganizations_sendsAtMost (client : Client) (organizations : List String) :
    (scanOrganizations policy client request token login organizations).SendsAtMost
      organizations.length := by
  induction organizations with
  | nil => trivial
  | cons organization rest ih =>
    rw [List.length_cons, Nat.add_comm, scanOrganizations_cons]
    split
    · trivial
    · exact (get_sendsAtMost policy token client _).bind
        (weigh_sendsAtMost request login ih organization)

theorem admits_sendsAtMost :
    (admits policy request token login).SendsAtMost policy.organizations.length := by
  unfold admits
  split
  · trivial
  · intro held
    cases held with
    | error fault => trivial
    | ok client =>
      exact scanOrganizations_sendsAtMost policy request token login client policy.organizations

theorem verify_sendsAtMost (depth : Nat) :
    (verify policy request token depth).SendsAtMost (1 + policy.organizations.length) := by
  refine (fetch_sendsAtMost policy request token depth).bind fun fetched => ?_
  cases fetched with
  | error failure => trivial
  | ok identity =>
    refine (admits_sendsAtMost policy request token identity.principal).bind_idle fun admitted => ?_
    rcases admitted with fault | (_ | _)
    · trivial
    · trivial
    · trivial

end Identity

/-! ## Requests of engines -/

namespace Engine

variable {context : RequestContext} {credential : Credential} {engine : Engine}

/-- A chain sends what its verifiers send, all of them together. -/
theorem ask_sendsAtMost {verifiers : List Verifier} {counts : List Nat}
    (each : List.Forall₂ (fun verifier count => (verifier.verify context credential).SendsAtMost count)
      verifiers counts) (place : Nat) (failures : List AuthError) :
    (ask context credential place failures verifiers).SendsAtMost counts.sum := by
  induction each generalizing place failures with
  | nil => trivial
  | cons first _ ih =>
    rw [List.sum_cons, ask_cons]
    refine Procedure.SendsAtMost.idle_bind trivial fun _ => first.bind fun result => ?_
    rcases result with (error | fault) | grant
    · exact ih _ _
    · exact ih _ _
    · trivial

/-- The standard chain asks for a profile and for a membership in each organization, at most. -/
theorem ask_ofPolicy_sendsAtMost (policy : AccessPolicy) (reading : Rat) (depth : Nat)
    (context : RequestContext) (credential : Credential) :
    (ask context credential 0 [] (ofPolicy policy reading depth).verifiers).SendsAtMost
      (1 + policy.organizations.length) := by
  have remote : ((Verifier.remote policy depth).verify context credential).SendsAtMost
      (1 + policy.organizations.length) :=
    Identity.verify_sendsAtMost policy context.id credential.value depth
  have claims : ((Verifier.claims policy reading).verify context credential).SendsAtMost 0 := by
    simp only [Verifier.claims]
    split
    · trivial
    · split <;> trivial
  cases enabled : policy.claimsEnabled with
  | true =>
    have chain := ask_sendsAtMost (.cons claims (.cons remote .nil)) 0 []
    simp only [ofPolicy, enabled]
    exact chain.mono (by simp)
  | false =>
    have chain := ask_sendsAtMost (.cons remote .nil) 0 []
    simp only [ofPolicy, enabled]
    exact chain

theorem authorize_sendsAtMost (policy : AccessPolicy) (reading : Rat) (depth : Nat)
    (context : RequestContext) (credential : Option Credential) :
    ((ofPolicy policy reading depth).authorize context credential).SendsAtMost
      (1 + policy.organizations.length) := by
  cases credential with
  | none => trivial
  | some credential =>
    refine (ask_ofPolicy_sendsAtMost policy reading depth context credential).bind_idle
      fun result => ?_
    cases result with
    | error failures => trivial
    | ok grant => trivial

theorem authorizeHeader_sendsAtMost (policy : AccessPolicy) (reading : Rat) (depth : Nat)
    (context : RequestContext) (header : Option (List Char)) :
    ((ofPolicy policy reading depth).authorizeHeader context header).SendsAtMost
      (1 + policy.organizations.length) := by
  rcases header with _ | _ | ⟨c, rest⟩
  · trivial
  · trivial
  · simp only [authorizeHeader]
    split
    · trivial
    · exact authorize_sendsAtMost policy reading depth context _

end Engine

/-! ## Calls -/

/-- A time limit of zero or less, as a number. -/
def Seconds.NoneLeft (seconds : Seconds) : Prop :=
  (∃ limit, seconds.toRat? = some limit ∧ limit ≤ 0) ∨ seconds = .real (.infinite true)

theorem Seconds.NoneLeft.isNonpositive {seconds : Seconds} (spent : seconds.NoneLeft) :
    seconds.isNonpositive = true := by
  rcases spent with ⟨limit, exact, nonpositive⟩ | rfl
  · exact (isNonpositive_iff exact).mpr nonpositive
  · rfl

/-- A run that keeps to what a policy allows: one request for the profile and one for each
organization, a limited time for each of them, and nothing if the limit leaves no time. -/
structure Run.Affordable {α : Type} (policy : AccessPolicy) (begun : Rat) (run : Run α) : Prop where
  requests : run.requests.length ≤ 1 + policy.organizations.length
  ended : ∀ limit, policy.timeout.toRat? = some limit → 0 < limit →
    run.ended ≤ begun + (1 + policy.organizations.length) * limit
  idle : policy.timeout.NoneLeft → run.requests = [] ∧ run.ended = begun

theorem Task.Affordable.run {α : Type} {policy : AccessPolicy} {begun : Rat} {task : Task α}
    (affordable : Task.Affordable policy.timeout begun (1 + policy.organizations.length) task)
    (api : Api) (slot : ClientSlot) : (task.finish api slot).Affordable policy begun := by
  obtain ⟨requests, ended, idle⟩ := affordable.finish api slot
  rw [Nat.cast_add, Nat.cast_one] at ended
  exact ⟨requests, ended, fun spent => idle spent.isNonpositive⟩

namespace Session

variable (policy : AccessPolicy) (reading : Rat) (depth : Nat) (call : Call) (id : String)

theorem procedure_limited :
    (procedure (Engine.ofPolicy policy reading depth) call id).Limited policy.timeout := by
  have composes := Procedure.limited_composes policy.timeout
  unfold procedure
  cases call.presented with
  | header value =>
    exact Engine.authorizeHeader_composes composes (fun _ => trivial)
      (fun credential _ => Engine.ofPolicy_limited policy reading depth _ credential) value
  | credential value =>
    exact Engine.authorize_composes composes (fun _ => trivial)
      (fun credential _ => Engine.ofPolicy_limited policy reading depth _ credential) value

theorem procedure_sendsAtMost :
    (procedure (Engine.ofPolicy policy reading depth) call id).SendsAtMost
      (1 + policy.organizations.length) := by
  unfold procedure
  cases call.presented with
  | header value => exact Engine.authorizeHeader_sendsAtMost policy reading depth _ value
  | credential value => exact Engine.authorize_sendsAtMost policy reading depth _ value

/-- A call that begins has sent nothing so far. -/
theorem procedure_affordable (deadline : Option Rat) (now : Rat) :
    Task.Affordable policy.timeout now (1 + policy.organizations.length)
      ⟨procedure (Engine.ofPolicy policy reading depth) call id, deadline, now, []⟩ where
  limited := procedure_limited policy reading depth call id
  sends := ⟨_, procedure_sendsAtMost policy reading depth call id, (Nat.zero_add _).le⟩
  time limit _ _ := by
    simp [Task.sent]
  idle _ := ⟨rfl, rfl⟩

/-- What a call costs is bounded by the policy of its engine. Whatever the API answers and however
late, whatever has happened to the engine before and whatever else is going on, a call sends at most
one request more than there are organizations and ends within as many time limits, and each of its
requests ends within one. Without any time it sends nothing. -/
theorem cost_bounded (api : Api) :
    (∀ call id now slot, let procedure := procedure (Engine.ofPolicy policy reading depth) call id
      (∃ result, (procedure.run api none now slot).value = some result) ∧
      (∀ deadline, (procedure.run api deadline now slot).Affordable policy now) ∧
      (procedure.run api none now slot).trace =
        (procedure.timeline api now slot).filterMap Span.entry? ∧
      ∀ limit, policy.timeout.toRat? = some limit → 0 < limit →
        ∀ span ∈ procedure.timeline api now slot, span.ends ≤ span.begins + limit) ∧
    ∀ address fresh, fresh.Fresh policy.apiBase.toList address → ∀ history schedule calls,
      ∀ run ∈ (((start api fresh).past policy depth history).together
        (Engine.ofPolicy policy reading depth) schedule calls).1, run.Affordable policy 0 := by
  refine ⟨fun call id now slot => ?_, fun address fresh new history schedule calls run member => ?_⟩
  · have limited := procedure_limited policy reading depth call id
    exact ⟨(interruptible_procedure _ call id).exists_value api now slot,
      fun deadline => (procedure_affordable policy reading depth call id deadline now).run api slot,
      Procedure.trace_run_timeline _ api now slot,
      fun limit exact positive span inside => limited.span_le exact positive inside⟩
  · let session := (start api fresh).past policy depth history
    let Affordable (task : Task (Except Challenge Grant)) : Prop :=
      Task.Affordable policy.timeout 0 (1 + policy.organizations.length) task
    have begun (task : Task (Except Challenge Grant))
        (member : task ∈ session.tasks (Engine.ofPolicy policy reading depth) calls) :
        Affordable task := by
      obtain ⟨call, id, rfl⟩ := exists_call_of_mem_tasks member
      exact procedure_affordable policy reading depth call id call.deadline 0
    have kept (task : Task (Except Challenge Grant)) (slot : ClientSlot) (holds : Affordable task) :
        Affordable (task.advance session.api slot).1 := holds.advance session.api slot
    obtain ⟨ended, later, rfl, holds⟩ :=
      Concurrent.exists_task_of_mem_run kept (fun _ => connects_of_mem_tasks) begun member
    exact holds.run session.api later

/-- An API that names the owner of a token after a second, never gets to an answer about the
organization `o`, and knows no member of another. -/
def stallingApi : Api := fun request =>
  if "/user".toList.reverse.isPrefixOf request.url.target.reverse then
    ⟨1, .ok ⟨200, Text.utf8 "\x7b\"login\":\"anna\",\"id\":1\x7d".toList⟩⟩
  else if "/orgs/o/members/anna".toList.reverse.isPrefixOf request.url.target.reverse then
    ⟨60, .ok ⟨204, []⟩⟩
  else ⟨1, .ok ⟨404, []⟩⟩

/-- A call that has to wait for two organizations sends three requests, one of which is aborted, and
ends after four of the six seconds that it may take. The same call with no time sends nothing. -/
theorem stalled_call_bounded :
    let policy := { AccessPolicy.ofRealm "r" (by decide) with
      organizations := ["o", "p"], timeout := .whole 2 }
    let rushed := { policy with timeout := .whole 0 }
    let call := headerCall "a"
    let procedure := procedure (Engine.ofPolicy policy 0) call "1"
    let run := procedure.run stallingApi none 0 .ofOwner
    let idle := (Session.procedure (Engine.ofPolicy rushed 0) call "1").run stallingApi none 0 .ofOwner
    (policy.timeout.toRat? = some 2 ∧ 0 < (2 : Rat) ∧ rushed.timeout.NoneLeft ∧
      ClientSlot.ofOwner.Fresh policy.apiBase.toList policy.apiBase.toList) ∧
    (run.requests.map (·.2) = [.answered 200, .cancelled, .answered 404] ∧ run.ended = 4) ∧
    (∃ result, run.value = some result) ∧ run.requests.length ≤ 3 ∧ run.ended ≤ 6 ∧
    (∀ span ∈ procedure.timeline stallingApi 0 .ofOwner, span.ends ≤ span.begins + 2) ∧
    (idle.requests = [] ∧ idle.ended = 0) ∧
    ∀ run ∈ ((start stallingApi .ofOwner).together (Engine.ofPolicy policy 0) (inTurn 16 2)
      [call, call]).1, run.Affordable policy 0 := by
  intro policy rushed call procedure run idle
  have exact : policy.timeout.toRat? = some 2 := rfl
  have positive : 0 < (2 : Rat) := by decide
  have spent : rushed.timeout.NoneLeft := .inl ⟨0, rfl, le_refl 0⟩
  obtain ⟨alone, among⟩ := cost_bounded policy 0 Identity.maxDepth stallingApi
  obtain ⟨value, affordable, -, spans⟩ := alone call "1" 0 .ofOwner
  have ended := (affordable none).ended 2 exact positive
  have none_sent :=
    (((cost_bounded rushed 0 Identity.maxDepth stallingApi).1 call "1" 0 .ofOwner).2.1 none).idle spent
  refine ⟨⟨exact, positive, spent, .owner⟩, ⟨by decide +kernel, by decide +kernel⟩, value,
    (affordable none).requests, ?_, spans 2 exact positive, none_sent, ?_⟩
  · have six : (0 : Rat) + (1 + (2 : Nat)) * 2 = 6 := by decide +kernel
    exact ended.trans_eq six
  · exact among policy.apiBase.toList .ofOwner .owner [] (inTurn 16 2) [call, call]

end Session

end RegistryGate
