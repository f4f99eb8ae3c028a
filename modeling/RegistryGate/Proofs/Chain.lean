import RegistryGate.Engine
import RegistryGate.Proofs.Runs

/-!
# The verifier chain

A turn is the run of one verifier from where the verifier before it ended. The engine asks for the
turns in order up to and including the first that grants (`ask_first_grant`), and for all of them if
none does (`ask_none_grants`); what it returns, what it enters in the metadata and whom it asks follow
from the turns alone.
-/

namespace RegistryGate

/-- The error that a failure counts as. -/
def VerifierFailure.error : VerifierFailure → AuthError
  | .refused error => error
  | .broke _ => .unexpected

/-- What is logged about a failure. -/
def VerifierFailure.event (verifier request : String) : VerifierFailure → Event
  | .refused error => .verifierRefused verifier request error
  | .broke _ => .verifierBroke verifier request

abbrev Turn := Run (Except VerifierFailure Grant)

namespace Turn

def Granted (turn : Turn) (grant : Grant) : Prop := turn.value = some (.ok grant)

def Failed (turn : Turn) : Prop := ∃ failure, turn.value = some (.error failure)

/-- All turns before a place fail. -/
def FailedBefore (turns : List Turn) (place : Nat) : Prop :=
  ∀ earlier < place, ∃ turn : Turn, turns[earlier]? = some turn ∧ turn.Failed

/-- The error that a failed turn counts as. -/
def error (turn : Turn) : AuthError :=
  match turn.value with
  | some (.error failure) => failure.error
  | _ => .unexpected

theorem error_of_value {turn : Turn} {failure : VerifierFailure}
    (h : turn.value = some (.error failure)) : turn.error = failure.error := by
  simp only [error, h]

theorem Granted.not_failed {turn : Turn} {grant : Grant} (granted : turn.Granted grant) :
    ¬ turn.Failed := by
  rintro ⟨failure, ended⟩
  cases granted.symm.trans ended

theorem Granted.unique {turn : Turn} {a b : Grant} (first : turn.Granted a)
    (second : turn.Granted b) : a = b := by
  cases first.symm.trans second
  rfl

end Turn

/-- A verifier neither asks verifiers nor enters grants. -/
theorem Verifier.notes_verify (verifier : Verifier) (api : Api) (context : RequestContext)
    (credential : Credential) (now : Rat) (slot : ClientSlot) :
    let turn := (verifier.verify context credential).run api none now slot
    turn.consulted = [] ∧ turn.grants = [] :=
  ⟨(verifier.onlyLogs context credential).consulted_run,
    (verifier.onlyLogs context credential).grants_run⟩

namespace Engine

variable {api : Api} {context : RequestContext} {credential : Credential} {now : Rat}
  {slot : ClientSlot}

/-- The turns of verifiers, each from where the one before it ended. -/
def turns (api : Api) (context : RequestContext) (credential : Credential) (now : Rat)
    (slot : ClientSlot) : List Verifier → List Turn
  | [] => []
  | verifier :: rest =>
    let turn := (verifier.verify context credential).run api none now slot
    turn :: turns api context credential turn.ended turn.slot rest

theorem length_turns (verifiers : List Verifier) :
    (turns api context credential now slot verifiers).length = verifiers.length := by
  induction verifiers generalizing now slot with
  | nil => rfl
  | cons verifier rest ih => simp only [turns, List.length_cons, ih]

theorem grants_or_failed {verifiers : List Verifier} {turn : Turn}
    (member : turn ∈ turns api context credential now slot verifiers) :
    (∃ grant, turn.Granted grant) ∨ turn.Failed := by
  induction verifiers generalizing now slot with
  | nil => exact absurd member List.not_mem_nil
  | cons verifier rest ih =>
    rcases List.mem_cons.mp member with rfl | later
    · obtain ⟨value, ended⟩ :=
        (verifier.interruptible context credential).exists_value api now slot
      cases value with
      | ok grant => exact .inl ⟨grant, ended⟩
      | error failure => exact .inr ⟨failure, ended⟩
    · exact ih later

/-! ## One verifier -/

variable {place : Nat} {failures : List AuthError} {verifier : Verifier} {rest : List Verifier}

theorem ask_cons_granted {grant : Grant}
    (granted : ((verifier.verify context credential).run api none now slot).value =
      some (.ok grant)) :
    (ask context credential place failures (verifier :: rest)).run api none now slot =
      let turn := (verifier.verify context credential).run api none now slot
      ⟨some (.ok grant), turn.ended, turn.slot,
        ⟨now, .noted (.consulted place)⟩ ::
          (turn.trace ++ [⟨turn.ended, .noted (.granted grant)⟩])⟩ := by
  rw [ask_cons, Procedure.run_consult_bind, Procedure.run_bind, Run.andThen_of_some granted]
  rfl

theorem ask_cons_failed {failure : VerifierFailure}
    (failed : ((verifier.verify context credential).run api none now slot).value =
      some (.error failure)) :
    (ask context credential place failures (verifier :: rest)).run api none now slot =
      let turn := (verifier.verify context credential).run api none now slot
      let later := (ask context credential (place + 1) (failures ++ [failure.error]) rest).run api
        none turn.ended turn.slot
      { later with
        trace := ⟨now, .noted (.consulted place)⟩ ::
          (turn.trace ++
            ⟨turn.ended, .noted (.logged (failure.event verifier.name context.id))⟩ ::
              later.trace) } := by
  rw [ask_cons, Procedure.run_consult_bind, Procedure.run_bind, Run.andThen_of_some failed]
  cases failure <;> rfl

/-- A verifier that grants ends the asking. -/
theorem seen_ask_granted {grant : Grant}
    (granted : ((verifier.verify context credential).run api none now slot).value =
      some (.ok grant)) :
    let run := (ask context credential place failures (verifier :: rest)).run api none now slot
    run.value = some (.ok grant) ∧ run.consulted = [place] ∧ run.grants = [grant] ∧
      run.requests = ((verifier.verify context credential).run api none now slot).requests := by
  obtain ⟨consulted, grants⟩ := verifier.notes_verify api context credential now slot
  simp only [Run.consulted, Run.grants] at consulted grants
  rw [ask_cons_granted granted]
  simp [Run.consulted, Run.grants, Run.requests, List.filterMap_cons, consulted, grants]

/-- A verifier that fails leaves its place and its requests, and the rest of the chain decides. -/
theorem seen_ask_failed {failure : VerifierFailure}
    (failed : ((verifier.verify context credential).run api none now slot).value =
      some (.error failure)) :
    let run := (ask context credential place failures (verifier :: rest)).run api none now slot
    let turn := (verifier.verify context credential).run api none now slot
    let later := (ask context credential (place + 1) (failures ++ [failure.error]) rest).run api
      none turn.ended turn.slot
    run.value = later.value ∧ run.consulted = place :: later.consulted ∧
      run.grants = later.grants ∧ run.requests = turn.requests ++ later.requests := by
  obtain ⟨consulted, grants⟩ := verifier.notes_verify api context credential now slot
  simp only [Run.consulted, Run.grants] at consulted grants
  rw [ask_cons_failed failed]
  simp [Run.consulted, Run.grants, Run.requests, List.filterMap_cons, consulted, grants]

/-! ## All verifiers -/

/-- The engine asks up to and including the first verifier that grants, and nobody after it. -/
theorem ask_first_grant (place : Nat) (failures : List AuthError) {verifiers : List Verifier}
    {before after : List Turn} {turn : Turn} {grant : Grant}
    (split : turns api context credential now slot verifiers = before ++ turn :: after)
    (failed : ∀ earlier ∈ before, earlier.Failed) (granted : turn.Granted grant) :
    let run := (ask context credential place failures verifiers).run api none now slot
    run.value = some (.ok grant) ∧ run.consulted = List.range' place (before.length + 1) ∧
      run.grants = [grant] ∧ run.requests = (before ++ [turn]).flatMap Run.requests := by
  induction verifiers generalizing before place failures now slot with
  | nil => simp [turns] at split
  | cons verifier rest ih =>
    cases before with
    | nil =>
      obtain ⟨rfl, -⟩ := List.cons_eq_cons.mp split
      obtain ⟨value, consulted, grants, requests⟩ := seen_ask_granted granted
      refine ⟨value, consulted, grants, requests.trans ?_⟩
      simp
    | cons first before =>
      obtain ⟨rfl, behind⟩ := List.cons_eq_cons.mp split
      obtain ⟨failure, ended⟩ := failed _ List.mem_cons_self
      obtain ⟨value, consulted, grants, requests⟩ := ih (place + 1) (failures ++ [failure.error])
        behind fun earlier member => failed earlier (List.mem_cons_of_mem _ member)
      obtain ⟨sameValue, placed, sameGrants, joined⟩ := seen_ask_failed ended
      refine ⟨sameValue.trans value, ?_, sameGrants.trans grants, ?_⟩
      · rw [placed, consulted, ← List.range'_succ, List.length_cons]
      · rw [joined, requests, List.cons_append, List.flatMap_cons]

/-- When no verifier grants the engine asks them all and collects their errors. -/
theorem ask_none_grants (place : Nat) (failures : List AuthError) {verifiers : List Verifier}
    (failed : ∀ turn ∈ turns api context credential now slot verifiers, turn.Failed) :
    let run := (ask context credential place failures verifiers).run api none now slot
    let turns := turns api context credential now slot verifiers
    run.value = some (.error (failures ++ turns.map Turn.error)) ∧
      run.consulted = List.range' place turns.length ∧ run.grants = [] ∧
      run.requests = turns.flatMap Run.requests := by
  induction verifiers generalizing place failures now slot with
  | nil => simp [ask, turns, Procedure.run_done, Run.consulted, Run.grants, Run.requests]
  | cons verifier rest ih =>
    obtain ⟨failure, ended⟩ := failed _ List.mem_cons_self
    obtain ⟨value, consulted, grants, requests⟩ := ih (place + 1) (failures ++ [failure.error])
      fun turn member => failed turn (List.mem_cons_of_mem _ member)
    obtain ⟨sameValue, placed, sameGrants, joined⟩ := seen_ask_failed ended
    refine ⟨?_, ?_, sameGrants.trans grants, ?_⟩
    · rw [sameValue, value, turns, List.map_cons, Turn.error_of_value ended, List.append_assoc]
      rfl
    · rw [placed, consulted, ← List.range'_succ, turns, List.length_cons]
    · rw [joined, requests, turns, List.flatMap_cons]

/-! ## Properties of chains

An engine has whatever property its verifiers have, if notes do not affect it. -/

section Composes

variable {P : ∀ α : Type, Procedure α → Prop}

theorem ask_composes (composes : Procedure.Composes P)
    (notes : ∀ note, P _ (.record note (.done ()))) {verifiers : List Verifier}
    (each : ∀ verifier ∈ verifiers, P _ (verifier.verify context credential)) (place : Nat)
    (failures : List AuthError) : P _ (ask context credential place failures verifiers) := by
  induction verifiers generalizing place failures with
  | nil => exact composes.done _
  | cons verifier rest ih =>
    have later := ih fun other member => each other (List.mem_cons_of_mem _ member)
    rw [ask_cons]
    refine composes.bind (notes _) fun _ => ?_
    refine composes.bind (each verifier List.mem_cons_self) fun result => ?_
    rcases result with (error | fault) | grant
    · exact composes.bind (notes _) fun _ => later _ _
    · exact composes.bind (notes _) fun _ => later _ _
    · exact composes.bind (notes _) fun _ => composes.done _

theorem challenge_composes (composes : Procedure.Composes P) (engine : Engine)
    (context : RequestContext) (cause : AuthError) (failures : List AuthError) :
    P _ (engine.challenge context cause failures) :=
  composes.bind (composes.log _) fun _ => composes.done _

variable {engine : Engine}

theorem authorize_composes (composes : Procedure.Composes P)
    (notes : ∀ note, P _ (.record note (.done ())))
    (each : ∀ credential, ∀ verifier ∈ engine.verifiers, P _ (verifier.verify context credential))
    (credential : Option Credential) : P _ (engine.authorize context credential) := by
  cases credential with
  | none => exact challenge_composes composes engine context _ _
  | some credential =>
    refine composes.bind (ask_composes composes notes (each credential) 0 []) fun result => ?_
    cases result with
    | error failures => exact challenge_composes composes engine context _ _
    | ok grant => exact composes.done _

theorem authorizeHeader_composes (composes : Procedure.Composes P)
    (notes : ∀ note, P _ (.record note (.done ())))
    (each : ∀ credential, ∀ verifier ∈ engine.verifiers, P _ (verifier.verify context credential))
    (header : Option (List Char)) : P _ (engine.authorizeHeader context header) := by
  rcases header with _ | _ | ⟨c, rest⟩
  · exact challenge_composes composes engine context _ _
  · exact challenge_composes composes engine context _ _
  · simp only [authorizeHeader]
    split
    · exact challenge_composes composes engine context _ _
    · exact authorize_composes composes notes each _

end Composes

/-! No handler of the engine catches a cancellation. -/

theorem ask_interruptible (context : RequestContext) (credential : Credential) (place : Nat)
    (failures : List AuthError) (verifiers : List Verifier) :
    (ask context credential place failures verifiers).Interruptible :=
  ask_composes Procedure.interruptible_composes (fun _ => trivial)
    (fun verifier _ => verifier.interruptible context credential) place failures

theorem authorize_interruptible (engine : Engine) (context : RequestContext)
    (credential : Option Credential) : (engine.authorize context credential).Interruptible :=
  authorize_composes Procedure.interruptible_composes (fun _ => trivial)
    (fun credential verifier _ => verifier.interruptible context credential) credential

theorem authorizeHeader_interruptible (engine : Engine) (context : RequestContext)
    (header : Option (List Char)) : (engine.authorizeHeader context header).Interruptible :=
  authorizeHeader_composes Procedure.interruptible_composes (fun _ => trivial)
    (fun credential verifier _ => verifier.interruptible context credential) header

/-! ## The engine -/

theorem all_failed_or_first_grant (turns : List Turn)
    (ended : ∀ turn ∈ turns, (∃ grant, turn.Granted grant) ∨ turn.Failed) :
    (∀ turn ∈ turns, turn.Failed) ∨
      ∃ before turn after grant, turns = before ++ turn :: after ∧
        (∀ earlier ∈ before, earlier.Failed) ∧ turn.Granted grant := by
  induction turns with
  | nil => exact .inl fun turn member => absurd member List.not_mem_nil
  | cons first rest ih =>
    rcases ended first List.mem_cons_self with ⟨grant, granted⟩ | failed
    · exact .inr ⟨[], first, rest, grant, rfl, fun _ member => absurd member List.not_mem_nil, granted⟩
    · rcases ih fun turn member => ended turn (List.mem_cons_of_mem _ member) with
        all | ⟨before, turn, after, grant, rfl, earlier, granted⟩
      · exact .inl (List.forall_mem_cons.mpr ⟨failed, all⟩)
      · exact .inr ⟨first :: before, turn, after, grant, rfl,
          List.forall_mem_cons.mpr ⟨failed, earlier⟩, granted⟩

variable {engine : Engine}

theorem run_challenge (cause : AuthError) (failures : List AuthError) :
    (engine.challenge context cause failures).run api none now slot =
      ⟨some (.error (.make engine.realm cause failures true)), now, slot,
        [⟨now, .noted (.logged (.authFailed context.id context.path cause))⟩]⟩ := rfl

theorem authorize_first_grant {before after : List Turn} {turn : Turn} {grant : Grant}
    (split : turns api context credential now slot engine.verifiers = before ++ turn :: after)
    (failed : ∀ earlier ∈ before, earlier.Failed) (granted : turn.Granted grant) :
    let run := (engine.authorize context (some credential)).run api none now slot
    run.value = some (.ok grant) ∧ run.consulted = List.range (before.length + 1) ∧
      run.grants = [grant] ∧ run.requests = (before ++ [turn]).flatMap Run.requests := by
  obtain ⟨value, consulted, grants, requests⟩ :=
    ask_first_grant 0 [] split failed granted
  simp only [authorize]
  rw [Procedure.run_bind, Run.andThen_of_some value, List.range_eq_range']
  simp only [Run.consulted, Run.grants, Run.requests] at consulted grants requests ⊢
  refine ⟨rfl, ?_, ?_, ?_⟩
  · simpa [Procedure.run_pure] using consulted
  · simpa [Procedure.run_pure] using grants
  · simpa [Procedure.run_pure] using requests

/-- The errors that a challenge reports: those of the verifiers, or that there are none. -/
def reported (turns : List Turn) : List AuthError :=
  if turns = [] then [.noStrategies] else turns.map Turn.error

theorem authorize_none_grants
    (failed : ∀ turn ∈ turns api context credential now slot engine.verifiers, turn.Failed) :
    let run := (engine.authorize context (some credential)).run api none now slot
    let turns := turns api context credential now slot engine.verifiers
    (∃ cause, (reported turns).getLast? = some cause ∧
      run.value = some (.error ⟨engine.realm, cause, reported turns, true⟩)) ∧
      run.consulted = List.range turns.length ∧ run.grants = [] ∧
      run.requests = turns.flatMap Run.requests := by
  obtain ⟨value, consulted, grants, requests⟩ :=
    ask_none_grants 0 [] failed
  simp only [authorize]
  rw [Procedure.run_bind, Run.andThen_of_some value, List.range_eq_range']
  simp only [List.nil_append]
  generalize turns api context credential now slot engine.verifiers = turns at *
  have same : (if (turns.map Turn.error).isEmpty = true then [AuthError.noStrategies]
      else turns.map Turn.error) = reported turns := by
    cases turns <;> rfl
  have some : reported turns ≠ [] := by
    cases turns <;> simp [reported]
  obtain ⟨cause, last⟩ := List.getLast?_isSome.mpr some |> Option.isSome_iff_exists.mp
  rw [same, last, run_challenge]
  simp only [Run.consulted, Run.grants, Run.requests] at consulted grants requests ⊢
  refine ⟨⟨cause, rfl, ?_⟩, ?_, ?_, ?_⟩
  · simp [Challenge.make, some]
  · simp [consulted]
  · simp [grants]
  · simp [requests]

/-- What a chain makes of a credential, told by the turns of its verifiers: the run asks each verifier
at most once, in order, and just when all before it failed; it does nothing but what the verifiers
asked do. The first grant is returned and named in the metadata; without one the run ends in a
challenge that reports the errors of all, the last of them as its cause. -/
structure AsksInOrder (realm : String) (turns : List Turn) (before : Metadata)
    (run : Run (Except Challenge Grant)) : Prop where
  ordered : run.consulted.Pairwise (· < ·)
  asked : ∀ place,
    place ∈ run.consulted ↔ place < turns.length ∧ Turn.FailedBefore turns place
  requests : run.requests = (turns.take run.consulted.length).flatMap Run.requests
  granted : ∀ (place : Nat) (turn : Turn) (grant : Grant), turns[place]? = some turn →
    turn.Granted grant → Turn.FailedBefore turns place →
    run.value = some (.ok grant) ∧ before.Names (run.metadata before) grant
  refused : (∀ turn ∈ turns, turn.Failed) →
    (∃ cause, (reported turns).getLast? = some cause ∧
      run.value = some (.error ⟨realm, cause, reported turns, true⟩)) ∧
    run.metadata before = before

theorem failedBefore_first_grant {before after : List Turn} {turn : Turn} {grant : Grant}
    (failed : ∀ earlier ∈ before, earlier.Failed) (granted : turn.Granted grant) (place : Nat) :
    Turn.FailedBefore (before ++ turn :: after) place ↔ place ≤ before.length := by
  constructor
  · intro all
    refine Nat.le_of_not_lt fun beyond => ?_
    obtain ⟨other, found, alsoFailed⟩ := all before.length beyond
    rw [List.getElem?_append_right (Nat.le_refl _), Nat.sub_self] at found
    cases found
    exact granted.not_failed alsoFailed
  · intro low earlier below
    have inside : earlier < before.length := Nat.lt_of_lt_of_le below low
    refine ⟨before[earlier], ?_, failed _ (List.getElem_mem inside)⟩
    rw [List.getElem?_append_left inside, List.getElem?_eq_getElem inside]

theorem asksInOrder_of_first_grant {realm : String} {metadata : Metadata} {before after : List Turn}
    {turn : Turn} {grant : Grant} {run : Run (Except Challenge Grant)}
    (failed : ∀ earlier ∈ before, earlier.Failed) (granted : turn.Granted grant)
    (value : run.value = some (.ok grant))
    (consulted : run.consulted = List.range (before.length + 1)) (grants : run.grants = [grant])
    (requests : run.requests = (before ++ [turn]).flatMap Run.requests) :
    AsksInOrder realm (before ++ turn :: after) metadata run where
  ordered := by
    rw [consulted]
    exact List.pairwise_lt_range
  asked place := by
    rw [consulted, List.mem_range, failedBefore_first_grant failed granted]
    simp only [List.length_append, List.length_cons]
    omega
  requests := by
    rw [requests, consulted, List.length_range, List.take_append,
      List.take_of_length_le (Nat.le_succ _), Nat.add_sub_cancel_left]
    rfl
  granted place other grant' found alsoGranted all := by
    -- A place beyond the first grant has that grant before it, and one below it has a failed turn.
    have low := (failedBefore_first_grant failed granted place).mp all
    rcases Nat.lt_or_eq_of_le low with inside | rfl
    · rw [List.getElem?_append_left inside] at found
      exact absurd (failed other (List.mem_of_getElem? found)) alsoGranted.not_failed
    · rw [List.getElem?_append_right (Nat.le_refl _), Nat.sub_self] at found
      cases found
      cases granted.unique alsoGranted
      rw [Run.metadata, grants]
      exact ⟨value, Metadata.enter_names metadata grant⟩
  refused all := absurd (all turn (by simp)) granted.not_failed

theorem asksInOrder_of_none_grants {realm : String} {metadata : Metadata} {turns : List Turn}
    {run : Run (Except Challenge Grant)} (failed : ∀ turn ∈ turns, turn.Failed)
    (value : ∃ cause, (reported turns).getLast? = some cause ∧
      run.value = some (.error ⟨realm, cause, reported turns, true⟩))
    (consulted : run.consulted = List.range turns.length) (grants : run.grants = [])
    (requests : run.requests = turns.flatMap Run.requests) :
    AsksInOrder realm turns metadata run where
  ordered := by
    rw [consulted]
    exact List.pairwise_lt_range
  asked place := by
    rw [consulted, List.mem_range]
    refine ⟨fun lower => ⟨lower, fun earlier below => ?_⟩, fun asked => asked.1⟩
    have inside := Nat.lt_trans below lower
    exact ⟨turns[earlier], List.getElem?_eq_getElem inside, failed _ (List.getElem_mem inside)⟩
  requests := by rw [requests, consulted, List.length_range, List.take_length]
  granted place turn grant found granted _ :=
    absurd (failed turn (List.mem_of_getElem? found)) granted.not_failed
  refused _ := ⟨value, by rw [Run.metadata, grants]; rfl⟩

/-- A run that refuses for a cause without asking any verifier. -/
structure RefusedUnasked (realm : String) (cause : AuthError) (before : Metadata)
    (run : Run (Except Challenge Grant)) : Prop where
  value : run.value = some (.error ⟨realm, cause, [cause], true⟩)
  consulted : run.consulted = []
  requests : run.requests = []
  metadata : run.metadata before = before

theorem challenge_refusedUnasked (cause : AuthError) (before : Metadata) :
    RefusedUnasked engine.realm cause before
      ((engine.challenge context cause []).run api none now slot) :=
  ⟨rfl, rfl, rfl, rfl⟩

/-! ## Headers -/

theorem authorizeHeader_of_carried {header : List Char} (carried : credential.CarriedBy header) :
    engine.authorizeHeader context (some header) = engine.authorize context (some credential) := by
  have read := Credential.extract?_eq_some_iff.mpr carried
  cases header with
  | nil => cases read
  | cons c rest => simp only [authorizeHeader, read]

theorem authorizeHeader_of_unread {header : List Char} (nonempty : header ≠ [])
    (carriesNone : ∀ credential : Credential, ¬ credential.CarriedBy header) :
    engine.authorizeHeader context (some header) =
      engine.challenge context (.malformedCredential .scheme) [] := by
  have unread : Credential.extract? header = none :=
    Option.eq_none_iff_forall_ne_some.mpr fun credential found =>
      carriesNone credential (Credential.extract?_eq_some_iff.mp found)
  obtain ⟨c, rest, rfl⟩ := List.exists_cons_of_ne_nil nonempty
  simp only [authorizeHeader, unread]

/-- The engine asks its verifiers in order until one grants; without a usable credential it asks
none. -/
theorem authorize_asks_in_order (engine : Engine) (context : RequestContext) (api : Api) (now : Rat)
    (slot : ClientSlot) (before : Metadata) :
    (∀ credential,
      let turns := turns api context credential now slot engine.verifiers
      turns.length = engine.verifiers.length ∧
        AsksInOrder engine.realm turns before
          ((engine.authorize context (some credential)).run api none now slot)) ∧
    RefusedUnasked engine.realm .noCredential before
      ((engine.authorize context none).run api none now slot) ∧
    (∀ header : Option (List Char), header = none ∨ header = some [] →
      RefusedUnasked engine.realm .noCredential before
        ((engine.authorizeHeader context header).run api none now slot)) ∧
    (∀ header : List Char, header ≠ [] → (∀ credential : Credential, ¬ credential.CarriedBy header) →
      RefusedUnasked engine.realm (.malformedCredential .scheme) before
        ((engine.authorizeHeader context (some header)).run api none now slot)) ∧
    (∀ (header : List Char) (credential : Credential), credential.CarriedBy header →
      engine.authorizeHeader context (some header) = engine.authorize context (some credential)) := by
  refine ⟨?_, ?_, ?_, ?_, ?_⟩
  · intro credential
    refine ⟨length_turns engine.verifiers, ?_⟩
    rcases all_failed_or_first_grant (turns api context credential now slot engine.verifiers)
      (fun turn member => grants_or_failed member) with
      failed | ⟨passed, turn, after, grant, split, failed, granted⟩
    · obtain ⟨value, consulted, grants, requests⟩ := authorize_none_grants failed
      exact asksInOrder_of_none_grants failed value consulted grants requests
    · obtain ⟨value, consulted, grants, requests⟩ := authorize_first_grant split failed granted
      rw [split]
      exact asksInOrder_of_first_grant failed granted value consulted grants requests
  · exact challenge_refusedUnasked _ _
  · rintro header (rfl | rfl)
    · exact challenge_refusedUnasked _ _
    · exact challenge_refusedUnasked _ _
  · intro header nonempty carriesNone
    rw [authorizeHeader_of_unread nonempty carriesNone]
    exact challenge_refusedUnasked _ _
  · exact fun header credential carried => authorizeHeader_of_carried carried

end Engine

end RegistryGate
