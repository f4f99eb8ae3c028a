import RegistryGate.Proofs.Chain
import RegistryGate.Proofs.Waiting
import RegistryGate.Session

/-!
# Cancelled calls

A call that is cancelled before its end comes to nothing: it neither grants nor refuses, and what it
has done is what the whole run had done by then, but for the request under way, which is marked
(`CutShort`). No call has entered its grant before its very end (`Session.time_of_granted`), so that a
cancelled one leaves the metadata as they were.
-/

namespace RegistryGate

/-- A run as far as it has come before an instant. -/
def Run.till {α : Type} (run : Run α) (instant : Rat) : Run α :=
  { run with trace := run.trace.filter fun entry => entry.time < instant }

/-- A run that was cut off at an instant, told by the timeline of the whole one: it came to no value
and entered no grant, and it logged, asked and sent what the whole run had by then, and nothing
after. Of what was sent the request that was under way, if any, is marked as cancelled. -/
structure CutShort {α : Type} (timeline : List Span) (instant : Rat) (whole cut : Run α) : Prop where
  course : whole.trace = timeline.filterMap Span.entry?
  ordered : timeline.Pairwise fun earlier later => earlier.ends ≤ later.begins
  value : cut.value = none
  ended : cut.ended = instant
  metadata : ∀ before, cut.metadata before = before
  events : cut.events = (whole.till instant).events
  consulted : cut.consulted = (whole.till instant).consulted
  requests : cut.requests.map (·.1) = (whole.till instant).requests.map (·.1)
  trace : cut.trace = cutTrace instant timeline

/-- A procedure that waits for nothing in the past, catches no cancellation and enters its grant at its
very end is cut short by a deadline. -/
theorem Procedure.Onward.cutShort {α : Type} {procedure : Procedure α} (onward : procedure.Onward)
    (interruptible : procedure.Interruptible) {api : Api} (replies : api.Onward) {now instant : Rat}
    {slot : ClientSlot}
    (last : ∀ entry ∈ (procedure.run api none now slot).trace, ∀ grant,
      entry.seen = .noted (.granted grant) → entry.time = (procedure.run api none now slot).ended)
    (later : now < instant) (early : instant < (procedure.run api none now slot).ended) :
    CutShort (procedure.timeline api now slot) instant (procedure.run api none now slot)
      (procedure.run api (some instant) now slot) := by
  obtain ⟨value, ended, trace⟩ := run_deadline onward interruptible replies later early
  have course := trace_run_timeline procedure api now slot
  have ungranted : (procedure.run api (some instant) now slot).grants = [] := by
    refine List.filterMap_eq_nil_iff.mpr fun entry member => ?_
    rw [trace] at member
    obtain ⟨seen, listed, begun, same⟩ := mem_cutTrace member
    rw [← course] at listed
    -- A grant stands at the end of the whole run, which the deadline is before.
    have notGranted (grant : Grant) : seen ≠ .noted (.granted grant) := by
      intro granted
      have atEnd := last _ listed grant granted
      exact absurd (atEnd ▸ begun) (not_lt.mpr early.le)
    cases seen with
    | noted note =>
      have kept : entry.seen = .noted note := same.elim id id
      cases note with
      | logged event => simp only [kept]
      | consulted place => simp only [kept]
      | granted grant => exact absurd rfl (notGranted grant)
    | requested request outcome =>
      rcases same with kept | cancelled <;> simp only [*, Observation.interrupted]
  refine ⟨course, timeline_ordered onward replies now slot, value, ended, ?_, ?_, ?_, ?_, trace⟩
  · intro before
    rw [Run.metadata, ungranted]
    rfl
  · rw [Run.events, Run.events, Run.till, trace, course]
    exact filterMap_cutTrace (by rintro time (note | ⟨request, outcome⟩) <;> rfl) instant _
  · rw [Run.consulted, Run.consulted, Run.till, trace, course]
    exact filterMap_cutTrace (by rintro time (note | ⟨request, outcome⟩) <;> rfl) instant _
  · rw [Run.requests, Run.requests, Run.till, trace, course, List.map_filterMap, List.map_filterMap]
    exact filterMap_cutTrace (by rintro time (note | ⟨request, outcome⟩) <;> rfl) instant _

/-! ## Grants -/

namespace Engine

variable {engine : Engine} {api : Api} {context : RequestContext} {credential : Credential}
  {now : Rat} {slot : ClientSlot} {entry : Entry} {grant : Grant}

/-- A verifier enters no grant. -/
theorem not_granted_of_mem_verify {verifier : Verifier}
    (member : entry ∈ ((verifier.verify context credential).run api none now slot).trace) :
    entry.seen ≠ .noted (.granted grant) := by
  intro granted
  rcases (verifier.onlyLogs context credential).mem_trace member with
    ⟨event, logged⟩ | ⟨request, outcome, asked⟩
  · cases granted.symm.trans logged
  · cases granted.symm.trans asked

/-- The engine enters a grant when it has asked its verifiers, and does not wait afterwards. -/
theorem time_of_granted_ask (granted : entry.seen = .noted (.granted grant)) (place : Nat)
    (failures : List AuthError) {verifiers : List Verifier}
    (member : entry ∈
      ((ask context credential place failures verifiers).run api none now slot).trace) :
    entry.time = ((ask context credential place failures verifiers).run api none now slot).ended := by
  induction verifiers generalizing place failures now slot with
  | nil => exact absurd member List.not_mem_nil
  | cons verifier rest ih =>
    obtain ⟨result, came⟩ :=
      (verifier.interruptible context credential).exists_value api now slot
    cases result with
    | ok passed =>
      rw [ask_cons_granted came] at member ⊢
      rcases List.mem_cons.mp member with rfl | member
      · cases granted
      · rcases List.mem_append.mp member with verified | atEnd
        · exact absurd granted (not_granted_of_mem_verify verified)
        · rw [List.mem_singleton.mp atEnd]
    | error failure =>
      rw [ask_cons_failed came] at member ⊢
      rcases List.mem_cons.mp member with rfl | member
      · cases granted
      · rcases List.mem_append.mp member with verified | member
        · exact absurd granted (not_granted_of_mem_verify verified)
        · rcases List.mem_cons.mp member with rfl | later
          · cases granted
          · exact ih (place + 1) _ later

theorem time_of_granted_authorize (granted : entry.seen = .noted (.granted grant))
    (credential : Option Credential)
    (member : entry ∈ ((engine.authorize context credential).run api none now slot).trace) :
    entry.time = ((engine.authorize context credential).run api none now slot).ended := by
  cases credential with
  | none =>
    rcases List.mem_singleton.mp member with rfl
    cases granted
  | some credential =>
    simp only [authorize] at member ⊢
    obtain ⟨result, came⟩ := (ask_interruptible context credential 0 []
      engine.verifiers).exists_value api now slot
    rw [Procedure.run_bind, Run.andThen_of_some came] at member ⊢
    rcases List.mem_append.mp member with asked | after
    · have atEnd := time_of_granted_ask granted 0 [] asked
      cases result with
      | ok passed => exact atEnd
      | error failures => exact atEnd
    · cases result with
      | ok passed => exact absurd after List.not_mem_nil
      | error failures =>
        rcases List.mem_singleton.mp after with rfl
        cases granted

end Engine

/-! ## Calls -/

namespace Session

variable {engine : Engine} {api : Api} {call : Call} {id : String} {now : Rat} {slot : ClientSlot}

theorem onward_procedure (made : engine.Made) (call : Call) (id : String) :
    (procedure engine call id).Onward := by
  unfold procedure
  cases call.presented with
  | header value => exact made.onward_authorizeHeader _ value
  | credential value => exact made.onward_authorize _ value

theorem interruptible_procedure (engine : Engine) (call : Call) (id : String) :
    (procedure engine call id).Interruptible := by
  unfold procedure
  cases call.presented with
  | header value => exact engine.authorizeHeader_interruptible _ value
  | credential value => exact engine.authorize_interruptible _ value

theorem time_of_granted {entry : Entry} {grant : Grant}
    (granted : entry.seen = .noted (.granted grant))
    (member : entry ∈ ((procedure engine call id).run api none now slot).trace) :
    entry.time = ((procedure engine call id).run api none now slot).ended := by
  unfold procedure at member ⊢
  cases presented : call.presented with
  | credential value =>
    rw [presented] at member
    exact Engine.time_of_granted_authorize granted value member
  | header value =>
    rw [presented] at member
    have refusal (cause : AuthError) (context : RequestContext) :
        entry ∉ ((engine.challenge context cause []).run api none now slot).trace := by
      intro logged
      rcases List.mem_singleton.mp logged with rfl
      cases granted
    rcases value with _ | _ | ⟨c, rest⟩
    · exact absurd member (refusal _ _)
    · exact absurd member (refusal _ _)
    · simp only [Engine.authorizeHeader] at member ⊢
      cases read : Credential.extract? (c :: rest) with
      | none =>
        rw [read] at member
        exact absurd member (refusal _ _)
      | some credential =>
        rw [read] at member
        exact Engine.time_of_granted_authorize granted (some credential) member

/-- A call that is cancelled before its end is cut short there, wherever it is at the time: in a
verifier, in the lookup of a profile or in that of a membership. -/
theorem cancelled_cutShort (engine : Engine) (made : engine.Made) (api : Api) (replies : api.Onward)
    (call : Call) (id : String) (now instant : Rat) (slot : ClientSlot) (later : now < instant)
    (early : instant < ((procedure engine call id).run api none now slot).ended) :
    CutShort ((procedure engine call id).timeline api now slot) instant
      ((procedure engine call id).run api none now slot)
      ((procedure engine call id).run api (some instant) now slot) := by
  have onward : (procedure engine call id).Onward := onward_procedure made call id
  have interruptible : (procedure engine call id).Interruptible := interruptible_procedure engine call id
  exact onward.cutShort interruptible replies
    (fun entry member grant granted => time_of_granted granted member) later early

/-- An API that names the owner of a token after one second and confirms a membership after three. -/
def slowApi : Api := fun request =>
  if "/user".toList.reverse.isPrefixOf request.url.target.reverse then
    ⟨1, .ok ⟨200, Text.utf8 "\x7b\"login\":\"anna\",\"id\":1\x7d".toList⟩⟩
  else ⟨3, .ok ⟨204, []⟩⟩

theorem slowApi_onward : slowApi.Onward := by
  intro request
  unfold slowApi
  split
  · decide
  · decide

/-- A user would be let in after four seconds. Cancelled after two, the call is in the lookup of the
membership. -/
theorem membership_lookup_cut_short :
    let policy := { AccessPolicy.ofRealm "images" (by decide) with organizations := ["o"] }
    let engine := Engine.ofPolicy policy 0
    let call : Call := ⟨.header (some "token a".toList), "GET", "/v2/", none⟩
    let whole := (procedure engine call "1").run slowApi none 0 .ofOwner
    let cut := (procedure engine call "1").run slowApi (some 2) 0 .ofOwner
    whole.value.bind Except.toOption = some ⟨"anna", "remote"⟩ ∧ 0 < (2 : Rat) ∧ 2 < whole.ended ∧
      CutShort ((procedure engine call "1").timeline slowApi 0 .ofOwner) 2 whole cut ∧
      cut.requests.map (·.2) = [.answered 200, .cancelled] := by
  intro policy engine call whole cut
  have later : 0 < (2 : Rat) := by decide
  have early : 2 < whole.ended := by decide +kernel
  refine ⟨by decide +kernel, later, early, ?_, by decide +kernel⟩
  exact cancelled_cutShort engine (.standard policy 0 _) slowApi slowApi_onward call "1" 0 2 .ofOwner
    later early

end Session

end RegistryGate
