import RegistryGate.Proofs.Repetition

/-!
# Closed clients

A verifier that opens its clients itself may be told to close the one that it holds while a call is about
to send a request over it. The request is then not sent, and the standard engine refuses the call
(`Engine.breaksOff_authorizeHeader`). Beside the same call on a client that stays open, a call so goes on
alike, or it breaks off where the other sends a request (`Concurrent.outlasts_or_breaksOff`); and it
breaks off only if the client is closed after one of its own steps.
-/

namespace RegistryGate

/-! ## Procedures that break off -/

namespace Procedure

variable {α β : Type} {P : α → Prop} {Q : β → Prop} {procedure : Procedure α} {f : α → Procedure β}

/-- A procedure that comes to a value of a kind and does nothing but log on the way. -/
def EndsIn (P : α → Prop) : Procedure α → Prop
  | .done value => P value
  | .record (.logged _) next => next.EndsIn P
  | _ => False

/-- A procedure that ends in a value of a kind when it is told that its client is closed, and that waits
for nothing once it has entered a grant. -/
def BreaksOff (P : α → Prop) : Procedure α → Prop
  | .done _ => True
  | .cancelled => True
  | .record (.granted _) next => next.EndsIn fun _ => True
  | .record _ next => next.BreaksOff P
  | .clock next => ∀ now, (next now).BreaksOff P
  | .pause _ next stopped => next.BreaksOff P ∧ stopped.BreaksOff P
  | .connect _ _ next => ∀ client, (next client).BreaksOff P
  | .exchange _ _ _ next stopped =>
    (next (.error .closedClient)).EndsIn P ∧ (∀ answer, (next answer).BreaksOff P) ∧
      stopped.BreaksOff P

theorem EndsIn.bind (ends : procedure.EndsIn P) (second : ∀ value, P value → (f value).EndsIn Q) :
    (procedure >>= f).EndsIn Q := by
  show (procedure.bind f).EndsIn Q
  induction procedure with
  | done value => exact second value ends
  | record note next ih =>
    cases note with
    | logged event => exact ih ends
    | consulted place => exact ends.elim
    | granted grant => exact ends.elim
  | cancelled => exact ends.elim
  | clock => exact ends.elim
  | pause => exact ends.elim
  | connect => exact ends.elim
  | exchange => exact ends.elim

/-- A sequence breaks off as its parts do, if only its last part enters grants. -/
theorem BreaksOff.bind (first : procedure.BreaksOff P)
    (grants : procedure.OnlyLogs ∨ ∀ value, (f value).EndsIn fun _ => True)
    (broken : ∀ value, P value → (f value).EndsIn Q) (second : ∀ value, (f value).BreaksOff Q) :
    (procedure >>= f).BreaksOff Q := by
  show (procedure.bind f).BreaksOff Q
  induction procedure with
  | done value => exact second value
  | cancelled => trivial
  | record note next ih =>
    cases note with
    | logged event => exact ih first grants
    | consulted place => exact ih first (grants.imp_left False.elim)
    | granted grant =>
      rcases grants with onlyLogs | ends
      · exact onlyLogs.elim
      · exact EndsIn.bind first fun value _ => ends value
  | clock next ih => exact fun now => ih now (first now) (grants.imp_left (· now))
  | pause seconds next stopped ih ihStopped =>
    exact ⟨ih first.1 (grants.imp_left And.left), ihStopped first.2 (grants.imp_left And.right)⟩
  | connect base readTimeout next ih =>
    exact fun client => ih client (first client) (grants.imp_left (· client))
  | exchange client request limit next stopped ih ihStopped =>
    refine ⟨EndsIn.bind first.1 broken, fun answer => ?_, ?_⟩
    · exact ih answer (first.2.1 answer) (grants.imp_left fun onlyLogs => onlyLogs.1 answer)
    · exact ihStopped first.2.2 (grants.imp_left And.right)

/-- What ends without waiting has nothing to break off. -/
theorem EndsIn.breaksOff {Q : α → Prop} (ends : procedure.EndsIn P) : procedure.BreaksOff Q := by
  induction procedure with
  | done value => trivial
  | cancelled => trivial
  | record note next ih =>
    cases note with
    | logged event => exact ih ends
    | consulted place => exact ends.elim
    | granted grant => exact ends.elim
  | clock => exact ends.elim
  | pause => exact ends.elim
  | connect => exact ends.elim
  | exchange => exact ends.elim

theorem ends_composes : Composes fun _ procedure => procedure.EndsIn fun _ => True :=
  ⟨fun _ => trivial, fun _ => trivial, fun first second => first.bind fun value _ => second value⟩

end Procedure

/-! ## Lookups -/

namespace Identity

variable {policy : AccessPolicy} {client : Client} {path token : List Char}

theorem get_breaksOff : (get policy client path token).BreaksOff (· = .error .closedClient) := by
  unfold get
  split
  · trivial
  · split
    · trivial
    · exact ⟨rfl, fun _ => trivial, trivial⟩

theorem fetch_breaksOff (request : String) (depth : Nat) :
    (fetch policy request token depth).BreaksOff (· = .error (.broke .closedClient)) := by
  rw [fetch_eq]
  intro held
  cases held with
  | error fault => trivial
  | ok client =>
    refine get_breaksOff.bind (.inl (get_onlyLogs policy client profilePath token)) ?_ fun ended =>
      (conclude_composes Procedure.ends_composes request depth ended).breaksOff
    rintro _ rfl
    rfl

theorem weigh_breaksOff {P : Except Fault Bool → Prop} {rest : Procedure (Except Fault Bool)}
    (later : rest.BreaksOff P) (request : String) (login : WideText) (organization : String)
    (ended : Except Fault Answer) : (weigh request login organization rest ended).BreaksOff P := by
  cases ended with
  | error fault =>
    simp only [weigh]
    split
    · exact later
    · trivial
  | ok answer =>
    simp only [weigh]
    split
    · trivial
    · exact later

theorem scanOrganizations_breaksOff (request : String) (login : WideText)
    (organizations : List String) :
    (scanOrganizations policy client request token login organizations).BreaksOff
      (· = .error .closedClient) := by
  induction organizations with
  | nil => trivial
  | cons organization rest ih =>
    rw [scanOrganizations_cons]
    split
    · trivial
    · refine get_breaksOff.bind (.inl (get_onlyLogs policy client _ token)) ?_
        (weigh_breaksOff ih request login organization)
      rintro _ rfl
      rfl

theorem admits_breaksOff (request : String) (login : WideText) :
    (admits policy request token login).BreaksOff (· = .error .closedClient) := by
  unfold admits
  split
  · trivial
  · intro held
    cases held with
    | error fault => trivial
    | ok client => exact scanOrganizations_breaksOff request login policy.organizations

theorem verify_breaksOff (request : String) (depth : Nat) :
    (verify policy request token depth).BreaksOff (· = .error (.broke .closedClient)) := by
  refine (fetch_breaksOff request depth).bind (.inl (fetch_onlyLogs policy request token depth)) ?_
    fun fetched => ?_
  · rintro _ rfl
    rfl
  · cases fetched with
    | error failure => trivial
    | ok identity =>
      refine (admits_breaksOff request identity.principal).bind
        (.inl (admits_onlyLogs policy request token identity.principal)) ?_ fun admitted => ?_
      · rintro _ rfl
        rfl
      · rcases admitted with fault | (_ | _)
        · trivial
        · trivial
        · trivial

end Identity

/-! ## The standard engine -/

namespace Engine

variable {policy : AccessPolicy} {reading : Rat} {depth : Nat} {context : RequestContext}

/-- Refused by the verifier that asks the API, the last one of the standard chain, for no known reason. -/
def Unverified (policy : AccessPolicy) (ended : Except Challenge Grant) : Prop :=
  ∃ earlier, ended = .error (.make policy.realm .unexpected (earlier ++ [.unexpected]) true)

theorem ask_remote_breaksOff (credential : Credential) (place : Nat) (failures : List AuthError) :
    (ask context credential place failures [Verifier.remote policy depth]).BreaksOff
      fun ended => ∃ earlier, ended = .error (earlier ++ [.unexpected]) := by
  rw [ask_cons]
  refine (Identity.verify_breaksOff context.id depth).bind
    (.inl (Identity.verify_onlyLogs policy context.id credential.value depth)) ?_ fun result => ?_
  · rintro _ rfl
    exact ⟨failures, rfl⟩
  · rcases result with (error | fault) | grant
    · trivial
    · trivial
    · trivial

/-- The verifier of claims sends nothing that it could break off. -/
theorem verify_claims_breaksOff (credential : Credential) :
    ((Verifier.claims policy reading).verify context credential).BreaksOff fun _ => False := by
  simp only [Verifier.claims]
  split
  · trivial
  · split
    · trivial
    · trivial

theorem ask_breaksOff (credential : Credential) :
    (ask context credential 0 [] (ofPolicy policy reading depth).verifiers).BreaksOff
      fun ended => ∃ earlier, ended = .error (earlier ++ [.unexpected]) := by
  unfold ofPolicy
  cases policy.claimsEnabled with
  | false => exact ask_remote_breaksOff credential 0 []
  | true =>
    show (ask _ _ _ _ (Verifier.claims policy reading :: [Verifier.remote policy depth])).BreaksOff _
    rw [ask_cons]
    refine (verify_claims_breaksOff credential).bind
      (.inl ((Verifier.claims policy reading).onlyLogs context credential))
      (fun _ impossible => impossible.elim) fun result => ?_
    rcases result with (error | fault) | grant
    · exact ask_remote_breaksOff credential 1 _
    · exact ask_remote_breaksOff credential 1 _
    · trivial

theorem authorize_breaksOff (credential : Option Credential) :
    ((ofPolicy policy reading depth).authorize context credential).BreaksOff (Unverified policy) := by
  cases credential with
  | none => trivial
  | some credential =>
    refine (ask_breaksOff credential).bind (.inr fun asked => ?_) ?_ fun asked => ?_
    · cases asked with
      | error failures => trivial
      | ok grant => trivial
    · rintro _ ⟨earlier, rfl⟩
      refine ⟨earlier, ?_⟩
      simp [ofPolicy]
    · cases asked with
      | error failures => trivial
      | ok grant => trivial

/-- The standard engine refuses a call whose client is closed before a request. -/
theorem authorizeHeader_breaksOff (header : Option (List Char)) :
    ((ofPolicy policy reading depth).authorizeHeader context header).BreaksOff (Unverified policy) := by
  rcases header with _ | _ | ⟨c, rest⟩
  · trivial
  · trivial
  · simp only [authorizeHeader]
    split
    · trivial
    · exact authorize_breaksOff _

end Engine

/-! ## Beside a client that stays open -/

/-- A run breaks off where another goes on to send a request: it has sent what the other has sent by then,
it enters nothing in the metadata, and it comes to a value of a kind. -/
structure Run.BreaksOff {α : Type} (P : α → Prop) (run whole : Run α) : Prop where
  value : ∃ value, run.value = some value ∧ P value
  metadata : ∀ before, run.metadata before = before
  course : ∃ earlier request outcome later,
    whole.trace = earlier ++ ⟨run.ended, .requested request outcome⟩ :: later ∧
      run.requests = earlier.filterMap Entry.request?

theorem Run.BreaksOff.requests_subset {α : Type} {P : α → Prop} {run whole : Run α}
    (breaksOff : run.BreaksOff P whole) : run.requests ⊆ whole.requests := by
  obtain ⟨earlier, request, outcome, later, split, same⟩ := breaksOff.course
  rw [same, Run.requests, split, List.filterMap_append]
  exact List.subset_append_left _ _

/-- The client is closed after a step of the task at a place. -/
def ClosedAmid (place : Nat) (schedule : List Move) : Prop :=
  ∃ before after, schedule = before ++ .close :: after ∧ .step place ∈ before

namespace ClosedAmid

variable {place : Nat} {schedule : List Move}

theorem append (amid : ClosedAmid place schedule) (later : List Move) :
    ClosedAmid place (schedule ++ later) := by
  obtain ⟨before, after, rfl, stepped⟩ := amid
  exact ⟨before, after ++ later, List.append_assoc .., stepped⟩

theorem close (stepped : .step place ∈ schedule) : ClosedAmid place (schedule ++ [.close]) :=
  ⟨schedule, [], rfl, stepped⟩

theorem not_nil : ¬ ClosedAmid place [] := by
  rintro ⟨before, after, same, -⟩
  exact absurd same.symm (List.append_ne_nil_of_right_ne_nil _ (List.cons_ne_nil _ _))

theorem cons_iff {first : Move} :
    ClosedAmid place (first :: schedule) ↔
      first = .step place ∧ .close ∈ schedule ∨ ClosedAmid place schedule := by
  constructor
  · rintro ⟨_ | ⟨_, before⟩, after, same, stepped⟩
    · exact absurd stepped List.not_mem_nil
    · obtain ⟨rfl, rfl⟩ := List.cons_eq_cons.mp same
      rcases List.mem_cons.mp stepped with rfl | stepped
      · exact .inl ⟨rfl, List.mem_append_right _ List.mem_cons_self⟩
      · exact .inr ⟨before, after, rfl, stepped⟩
  · rintro (⟨rfl, closed⟩ | ⟨before, after, rfl, stepped⟩)
    · obtain ⟨before, after, rfl⟩ := List.mem_iff_append.mp closed
      exact ⟨.step place :: before, after, rfl, List.mem_cons_self⟩
    · exact ⟨first :: before, after, rfl, List.mem_cons_of_mem _ stepped⟩

instance decidable (place : Nat) : (schedule : List Move) → Decidable (ClosedAmid place schedule)
  | [] => .isFalse not_nil
  | _ :: schedule =>
    have := decidable place schedule
    decidable_of_iff' _ cons_iff

/-- Only a close within a schedule comes before steps behind it. -/
theorem of_append_replicate {count : Nat}
    (amid : ClosedAmid place (schedule ++ List.replicate count (.step place))) :
    ClosedAmid place schedule := by
  obtain ⟨before, after, same, stepped⟩ := amid
  rcases List.append_eq_append_iff.mp same with ⟨middle, rfl, behind⟩ | ⟨middle, rfl, behind⟩
  · have close : Move.close ∈ List.replicate count (Move.step place) := by
      rw [behind]
      exact List.mem_append_right _ List.mem_cons_self
    cases List.eq_of_mem_replicate close
  · cases middle with
    | nil =>
      have close : Move.close ∈ List.replicate count (Move.step place) := by
        rw [List.nil_append] at behind
        rw [← behind]
        exact List.mem_cons_self
      cases List.eq_of_mem_replicate close
    | cons first rest =>
      rw [List.cons_append] at behind
      obtain ⟨rfl, -⟩ := List.cons_eq_cons.mp behind
      exact ⟨before, rest, rfl, stepped⟩

theorem of_ownMoves (amid : ClosedAmid 0 (ownMoves place schedule)) : ClosedAmid place schedule := by
  obtain ⟨before, after, same, stepped⟩ := amid
  obtain ⟨mine, rest, rfl, ownBefore, ownRest⟩ := List.filterMap_eq_append_iff.mp same
  obtain ⟨others, move, later, rfl, -, closes, -⟩ := List.filterMap_eq_cons_iff.mp ownRest
  have isClose : move = .close := by
    cases move with
    | close => rfl
    | step other =>
      simp only [Move.own?] at closes
      split at closes <;> cases closes
  subst isClose
  refine ⟨mine ++ others, later, (List.append_assoc ..).symm, List.mem_append_left _ ?_⟩
  rw [← ownBefore] at stepped
  obtain ⟨move, member, own⟩ := List.mem_filterMap.mp stepped
  cases move with
  | close => cases own
  | step other =>
    simp only [Move.own?] at own
    split at own
    · rename_i here
      exact here ▸ member
    · cases own

end ClosedAmid

/-- No grant is entered in a trace. -/
def Ungranted (trace : List Entry) : Prop :=
  ∀ entry ∈ trace, ∀ grant, entry.seen ≠ .noted (.granted grant)

theorem Ungranted.append_singleton {trace : List Entry} {entry : Entry} (ungranted : Ungranted trace)
    (last : ∀ grant, entry.seen ≠ .noted (.granted grant)) : Ungranted (trace ++ [entry]) := by
  intro other member
  rcases List.mem_append.mp member with before | atEnd
  · exact ungranted other before
  · rwa [List.mem_singleton.mp atEnd]

theorem Ungranted.metadata {α : Type} {run : Run α} (ungranted : Ungranted run.trace)
    (before : Metadata) : run.metadata before = before := by
  have none : run.grants = [] := by
    refine List.filterMap_eq_nil_iff.mpr fun entry member => ?_
    have notGranted := ungranted entry member
    rcases entry with ⟨time, (event | place | grant) | ⟨request, outcome⟩⟩
    · rfl
    · rfl
    · exact absurd rfl (notGranted grant)
    · rfl
  rw [Run.metadata, none]
  rfl

namespace Task

variable {α : Type} {P : α → Prop} {task other : Task α} {slot otherSlot : ClientSlot} {api : Api}

/-- No grant has been entered so far, or nothing is left to be done but to log. -/
def GrantsLast (task : Task α) : Prop :=
  Ungranted task.trace ∨ task.rest.EndsIn fun _ => True

theorem breaksOff_advance (breaksOff : task.rest.BreaksOff P) (last : task.GrantsLast) (api : Api)
    (slot : ClientSlot) :
    (task.advance api slot).1.rest.BreaksOff P ∧ (task.advance api slot).1.GrantsLast := by
  obtain ⟨rest, deadline, time, trace⟩ := task
  -- What waits for something has not entered a grant before.
  have waits {next : Procedure α} (later : next.BreaksOff P) (ungranted : Ungranted trace) :
      next.BreaksOff P ∧ (Ungranted (trace ++ []) ∨ next.EndsIn fun _ => True) :=
    ⟨later, .inl (by rwa [List.append_nil])⟩
  have enters {next : Procedure α} {entry : Entry} (later : next.BreaksOff P)
      (ungranted : Ungranted trace) (other : ∀ grant, entry.seen ≠ .noted (.granted grant)) :
      next.BreaksOff P ∧ (Ungranted (trace ++ [entry]) ∨ next.EndsIn fun _ => True) :=
    ⟨later, .inl (ungranted.append_singleton other)⟩
  cases rest with
  | done value => exact ⟨trivial, last⟩
  | cancelled => exact ⟨trivial, last⟩
  | record note next =>
    cases note with
    | logged event =>
      rcases last with ungranted | ends
      · exact enters breaksOff ungranted (fun grant same => by cases same)
      · exact ⟨ends.breaksOff, .inr ends⟩
    | consulted place =>
      exact enters breaksOff (last.resolve_right id) (fun grant same => by cases same)
    | granted grant => exact ⟨Procedure.EndsIn.breaksOff breaksOff, .inr breaksOff⟩
  | clock next => exact waits (breaksOff time) (last.resolve_right id)
  | pause seconds next stopped =>
    simp only [advance, Procedure.step]
    cases cutOff? deadline time seconds with
    | some instant => exact waits breaksOff.2 (last.resolve_right id)
    | none => exact waits breaksOff.1 (last.resolve_right id)
  | connect base readTimeout next => exact waits (breaksOff _) (last.resolve_right id)
  | exchange client request limit next stopped =>
    have ungranted := last.resolve_right id
    simp only [advance, Procedure.step]
    cases slot.isClosed client with
    | true => exact waits (breaksOff.2.1 _) ungranted
    | false =>
      cases cutOff? deadline time ((api request).duration limit) with
      | some instant => exact enters breaksOff.2.2 ungranted (fun grant same => by cases same)
      | none => exact enters (breaksOff.2.1 _) ungranted (fun grant same => by cases same)

/-- How a task stands beside one that repeats it: its client is open like the other's, or it has been
closed after a step of the task. `mine` are the moves that have concerned the task. -/
structure Keeps (id : String) (own address : List Char) (api : Api) (P : α → Prop) (whole : Run α)
    (mine : List Move) (held : Option (Client × Client)) (task other : Task α)
    (slot otherSlot : ClientSlot) : Prop where
  beside : Beside id own address held task other slot otherSlot
  whole : other.finish api otherSlot = whole
  breaksOff : task.rest.BreaksOff P
  last : task.GrantsLast
  stepped : held ≠ none → .step 0 ∈ mine
  isOpen : ∀ client otherClient, held = some (client, otherClient) → otherSlot.held = some otherClient ∧
    (slot.held = some client ∨
      slot.isClosed client = true ∧ slot.owned = true ∧ ClosedAmid 0 mine)

/-- A task that has broken off is about to end, where the whole run sends a request. -/
structure Broken (P : α → Prop) (whole : Run α) (mine : List Move) (task : Task α)
    (slot : ClientSlot) : Prop where
  ends : task.rest.EndsIn P
  ungranted : Ungranted task.trace
  owned : slot.owned = true
  amid : ClosedAmid 0 mine
  course : ∃ earlier request outcome later,
    whole.trace = earlier ++ ⟨task.time, .requested request outcome⟩ :: later ∧
      task.trace.filterMap Entry.request? = earlier.filterMap Entry.request?

/-- Where a task stands beside a whole run. -/
inductive Follows (id : String) (own address : List Char) (api : Api) (P : α → Prop) (whole : Run α)
    (mine : List Move) (task : Task α) (slot : ClientSlot) : Prop where
  | keeps {held : Option (Client × Client)} {other : Task α} {otherSlot : ClientSlot}
    (keeps : Keeps id own address api P whole mine held task other slot otherSlot)
  | broken (broken : Broken P whole mine task slot)

variable {id : String} {own address : List Char} {whole : Run α} {mine : List Move}
  {held : Option (Client × Client)}

/-- What a task finds when it sends a request over an open client. -/
theorem exists_requested (api : Api) {client : Client} (isOpen : slot.isClosed client = false)
    (request : Request) (limit : Limit) (next : Except Fault Answer → Procedure α)
    (stopped : Procedure α) (deadline : Option Rat) (time : Rat) (trace : List Entry) :
    ∃ outcome later, (finish api slot
      ⟨.exchange client request limit next stopped, deadline, time, trace⟩).trace =
        trace ++ ⟨time, .requested request outcome⟩ :: later := by
  simp only [finish, Procedure.run, isOpen, Bool.false_eq_true, if_false]
  cases cutOff? deadline time ((api request).duration limit) with
  | some instant => exact ⟨_, _, rfl⟩
  | none => exact ⟨_, _, rfl⟩

/-- A task whose client has been closed breaks off at its next request. -/
theorem Keeps.breakOff {client : Client}
    (keeps : Keeps id own address api P whole mine held task other slot otherSlot)
    (sends : task.sends? = some client) (closed : slot.isClosed client = true) :
    Broken P whole (mine ++ [.step 0]) (task.advance api slot).1 (task.advance api slot).2 := by
  obtain ⟨beside, rfl, breaksOff, last, -, isOpen⟩ := keeps
  obtain ⟨rest, deadline, time, trace⟩ := task
  obtain ⟨otherRest, otherDeadline, otherTime, otherTrace⟩ := other
  obtain ⟨repeats, sameDeadline, sameTime, sameTrace, sound, soundOther⟩ := beside
  dsimp only at repeats sameDeadline sameTime sameTrace
  subst sameDeadline sameTime sameTrace
  cases repeats with
  | @exchange _ otherClient request limit next otherNext stopped otherStopped rest stop =>
    cases sends
    obtain ⟨holdsOther, holds | ⟨-, owned, amid⟩⟩ := isOpen client otherClient rfl
    · cases (sound.isClosed holds).symm.trans closed
    · have ungranted : Ungranted trace := last.resolve_right fun ends => ends
      obtain ⟨outcome, later, requested⟩ := exists_requested api (soundOther.isClosed holdsOther)
        request limit otherNext otherStopped otherDeadline otherTime (trace.map (Entry.forRequest id))
      simp only [advance, Procedure.step, closed, if_true]
      refine ⟨breaksOff.1, ?_, owned, amid.append _, _, request, outcome, later, requested, ?_⟩
      · rwa [List.append_nil]
      · rw [List.append_nil]
        exact (Entry.requests_map_forRequest id trace).symm
  | _ => cases sends

theorem Keeps.advance (keeps : Keeps id own address api P whole mine held task other slot otherSlot) :
    Follows id own address api P whole (mine ++ [.step 0]) (task.advance api slot).1
      (task.advance api slot).2 := by
  by_cases stale : ∃ client, task.sends? = some client ∧ slot.isClosed client = true
  · obtain ⟨client, sends, closed⟩ := stale
    exact .broken (keeps.breakOff sends closed)
  · have advanced := keeps.beside.advance api fun client otherClient sends pair => by
      rw [keeps.beside.soundOther.isClosed (keeps.isOpen client otherClient pair).1]
      exact Bool.eq_false_iff.mpr fun closed => stale ⟨client, sends, closed⟩
    obtain ⟨breaksOff, last⟩ := breaksOff_advance keeps.breaksOff keeps.last api slot
    have wholly := (finish_advance api otherSlot other).trans keeps.whole
    revert advanced breaksOff last wholly
    generalize task.advance api slot = state
    generalize other.advance api otherSlot = otherState
    rintro (⟨later⟩ | ⟨later, holds, holdsOther⟩) breaksOff last wholly
    · refine .keeps ⟨later, wholly, breaksOff, last, fun connected =>
        List.mem_append_left _ (keeps.stepped connected), fun client otherClient pair => ?_⟩
      obtain ⟨holdsOther, holds | ⟨closed, owned, amid⟩⟩ := keeps.isOpen client otherClient pair
      · exact ⟨holdsOther, .inl holds⟩
      · exact ⟨holdsOther, .inr ⟨closed, owned, amid.append _⟩⟩
    · refine .keeps ⟨later, wholly, breaksOff, last, fun _ =>
        List.mem_append_right _ (List.mem_singleton_self _), ?_⟩
      rintro _ _ ⟨⟩
      exact ⟨holdsOther, .inl holds⟩

theorem Broken.advance (broken : Broken P whole mine task slot) (api : Api) :
    Broken P whole (mine ++ [.step 0]) (task.advance api slot).1 (task.advance api slot).2 := by
  obtain ⟨ends, ungranted, owned, amid, course⟩ := broken
  obtain ⟨rest, deadline, time, trace⟩ := task
  cases rest with
  | done value => exact ⟨ends, ungranted, owned, amid.append _, course⟩
  | record note next =>
    cases note with
    | logged event =>
      obtain ⟨earlier, request, outcome, later, split, same⟩ := course
      refine ⟨ends, ungranted.append_singleton (fun grant same => by cases same), owned,
        amid.append _, earlier, request, outcome, later, split, ?_⟩
      rw [← same]
      simp [Task.advance, Procedure.step]
    | consulted place => exact ends.elim
    | granted grant => exact ends.elim
  | cancelled => exact ends.elim
  | clock => exact ends.elim
  | pause => exact ends.elim
  | connect => exact ends.elim
  | exchange => exact ends.elim

/-- A task goes on following the whole run through its own steps, through what other tasks do to the slot
and through the closing of the client. -/
theorem follows_steady (id : String) (own address : List Char) (api : Api) (P : α → Prop)
    (whole : Run α) :
    Concurrent.Steady own api (Follows id own address api P whole) where
  step follows := by
    cases follows with
    | keeps keeps => exact keeps.advance
    | broken broken => exact .broken (broken.advance _)
  others follows ensured := by
    cases follows with
    | keeps keeps =>
      obtain ⟨⟨repeats, deadline, time, trace, sound, soundOther⟩, wholly, breaksOff, last, stepped,
        isOpen⟩ := keeps
      refine .keeps ⟨⟨repeats, deadline, time, trace, ensured.sound sound, soundOther⟩, wholly,
        breaksOff, last, stepped, fun client otherClient pair => ?_⟩
      obtain ⟨holdsOther, holds | ⟨closed, owned, amid⟩⟩ := isOpen client otherClient pair
      · exact ⟨holdsOther, .inl (ensured.held holds)⟩
      · exact ⟨holdsOther, .inr ⟨(ensured.isClosed client).trans closed, ensured.owned.trans owned,
          amid⟩⟩
    | broken broken =>
      exact .broken ⟨broken.ends, broken.ungranted, ensured.owned.trans broken.owned, broken.amid,
        broken.course⟩
  close {mine task slot} follows := by
    cases follows with
    | keeps keeps =>
      obtain ⟨⟨repeats, deadline, time, trace, sound, soundOther⟩, wholly, breaksOff, last, stepped,
        isOpen⟩ := keeps
      refine .keeps ⟨⟨repeats, deadline, time, trace, sound.close, soundOther⟩, wholly, breaksOff, last,
        fun connected => List.mem_append_left _ (stepped connected), fun client otherClient pair => ?_⟩
      obtain ⟨holdsOther, holds | ⟨closed, owned, amid⟩⟩ := isOpen client otherClient pair
      · refine ⟨holdsOther, ?_⟩
        cases owner : slot.owned with
        | false => exact .inl (by rwa [ClientSlot.close_of_handed owner])
        | true =>
          have connected : Move.step 0 ∈ mine := stepped (by rw [pair]; exact Option.some_ne_none _)
          exact .inr ⟨ClientSlot.isClosed_close_of_owned owner holds,
            slot.owned_close.trans owner, .close connected⟩
      · exact ⟨holdsOther, .inr ⟨ClientSlot.isClosed_close closed, slot.owned_close.trans owned,
          amid.append _⟩⟩
    | broken broken =>
      exact .broken ⟨broken.ends, broken.ungranted, slot.owned_close.trans broken.owned,
        broken.amid.append _, broken.course⟩

/-- A task that has ended goes as the whole run does, or it has broken off. -/
theorem Follows.finish (follows : Follows id own address api P whole mine task slot)
    (ended : task.Ended) :
    (task.finish api slot).Repeats id whole ∨
      slot.owned = true ∧ ClosedAmid 0 mine ∧ (task.finish api slot).BreaksOff P whole := by
  cases follows with
  | keeps keeps => exact .inl (keeps.whole ▸ keeps.beside.finish ended)
  | broken broken =>
    obtain ⟨ends, ungranted, owned, amid, earlier, request, outcome, later, split, same⟩ := broken
    rcases ended with ⟨value, done⟩ | cancelled
    · rw [done] at ends
      have finished : task.finish api slot = ⟨some value, task.time, slot, task.trace⟩ := by
        simp only [Task.finish, done, Procedure.run, List.append_nil]
      rw [finished]
      exact .inr ⟨owned, amid, ⟨value, rfl, ends⟩, ungranted.metadata,
        earlier, request, outcome, later, split, same⟩
    · rw [cancelled] at ends
      exact ends.elim

end Task

end RegistryGate
