import RegistryGate.Engine
import RegistryGate.Proofs.Tasks

/-!
# Repeated requests

A procedure repeats another for a request if it does the same and logs the same, but for the identifier
of the request and the clients that the two hold (`Procedure.Repeats`). Side by side the two go step by
step alike, as long as their clients are both open or both closed (`Task.Beside.advance`), and so one run
is the other with that identifier in the log (`Procedure.Repeats.run`). The standard engine repeats what
it does for any other request with the same credential, whatever its scheme (`repeats_authorize`).
-/

namespace RegistryGate

/-! ## Other identifiers -/

/-- The event of a request as one of the request with a given identifier. Some events name no request. -/
def Event.forRequest (id : String) : Event → Event
  | .claimsAccepted actor repository _ => .claimsAccepted actor repository id
  | .apiUnreachable _ fault => .apiUnreachable id fault
  | .apiRefused status _ => .apiRefused status id
  | .profileUnusable _ fault => .profileUnusable id fault
  | .membershipUnknown organization _ fault => .membershipUnknown organization id fault
  | .notAMember login _ => .notAMember login id
  | .remoteAccepted login _ => .remoteAccepted login id
  | .verifierRefused verifier _ error => .verifierRefused verifier id error
  | .verifierBroke verifier _ => .verifierBroke verifier id
  | .authFailed _ path cause => .authFailed id path cause
  | event => event

def Note.forRequest (id : String) : Note → Note
  | .logged event => .logged (event.forRequest id)
  | note => note

def Observation.forRequest (id : String) : Observation → Observation
  | .noted note => .noted (note.forRequest id)
  | seen => seen

def Entry.forRequest (id : String) (entry : Entry) : Entry :=
  { entry with seen := entry.seen.forRequest id }

theorem Entry.requests_map_forRequest (id : String) (trace : List Entry) :
    (trace.map (Entry.forRequest id)).filterMap Entry.request? = trace.filterMap Entry.request? := by
  rw [List.filterMap_map]
  refine congrArg (List.filterMap · trace) (funext fun entry => ?_)
  rcases entry with ⟨time, note | ⟨request, outcome⟩⟩ <;> rfl

/-- A run goes as another does, with the identifier of its own request in the log. -/
structure Run.Repeats {α : Type} (id : String) (run other : Run α) : Prop where
  value : other.value = run.value
  ended : other.ended = run.ended
  trace : other.trace = run.trace.map (Entry.forRequest id)

namespace Run.Repeats

variable {α : Type} {id : String} {run other : Run α}

/-- What is read from each entry is read from the other run, changed as the entries are. -/
theorem filterMap {β : Type} (repeats : run.Repeats id other) {f : Entry → Option β} {change : β → β}
    (follows : ∀ entry : Entry, f (entry.forRequest id) = (f entry).map change) :
    other.trace.filterMap f = (run.trace.filterMap f).map change := by
  rw [repeats.trace, List.filterMap_map, List.map_filterMap]
  exact congrArg (List.filterMap · run.trace) (funext follows)

theorem events (repeats : run.Repeats id other) :
    other.events = run.events.map (Event.forRequest id) := by
  refine repeats.filterMap fun entry => ?_
  rcases entry with ⟨time, (event | place | grant) | ⟨request, outcome⟩⟩ <;> rfl

theorem requests (repeats : run.Repeats id other) : other.requests = run.requests := by
  rw [Run.requests, repeats.trace]
  exact Entry.requests_map_forRequest id run.trace

theorem grants (repeats : run.Repeats id other) : other.grants = run.grants := by
  refine (repeats.filterMap fun entry => ?_).trans (List.map_id _)
  rcases entry with ⟨time, (event | place | grant) | ⟨request, outcome⟩⟩ <;> rfl

theorem metadata (repeats : run.Repeats id other) (before : Metadata) :
    other.metadata before = run.metadata before :=
  congrArg (List.foldl Metadata.enter before) repeats.grants

end Run.Repeats

/-! ## The relation -/

namespace Procedure

variable {α β : Type}

/-- A procedure does what another does, and notes the same for the request with the identifier `id`. The
two hold a pair of clients, if any: whenever they get hold of clients for the address `own` they go on
alike with any two on one base address, and requests they send over the clients that they hold. -/
inductive Repeats (id : String) (own : List Char) :
    Option (Client × Client) → Procedure α → Procedure α → Prop where
  | done {held : Option (Client × Client)} (value : α) :
    Repeats id own held (.done value) (.done value)
  | cancelled {held : Option (Client × Client)} : Repeats id own held .cancelled .cancelled
  | record {held : Option (Client × Client)} (note : Note) {next other : Procedure α}
    (rest : Repeats id own held next other) :
    Repeats id own held (.record note next) (.record (note.forRequest id) other)
  | clock {held : Option (Client × Client)} {next other : Rat → Procedure α}
    (rest : ∀ now, Repeats id own held (next now) (other now)) :
    Repeats id own held (.clock next) (.clock other)
  | pause {held : Option (Client × Client)} (seconds : Rat)
    {next other stopped otherStopped : Procedure α} (rest : Repeats id own held next other)
    (last : Repeats id own held stopped otherStopped) :
    Repeats id own held (.pause seconds next stopped) (.pause seconds other otherStopped)
  | connect {held : Option (Client × Client)} (readTimeout : Seconds)
    {next other : Except Fault Client → Procedure α}
    (failed : ∀ fault, Repeats id own held (next (.error fault)) (other (.error fault)))
    (rest : ∀ client otherClient : Client, client.base = otherClient.base →
      Repeats id own (some (client, otherClient)) (next (.ok client)) (other (.ok otherClient))) :
    Repeats id own held (.connect own readTimeout next) (.connect own readTimeout other)
  | exchange {client otherClient : Client} (request : Request) (limit : Limit)
    {next other : Except Fault Answer → Procedure α} {stopped otherStopped : Procedure α}
    (rest : ∀ answer, Repeats id own (some (client, otherClient)) (next answer) (other answer))
    (last : Repeats id own (some (client, otherClient)) stopped otherStopped) :
    Repeats id own (some (client, otherClient)) (.exchange client request limit next stopped)
      (.exchange otherClient request limit other otherStopped)

variable {id : String} {own : List Char} {held : Option (Client × Client)}
  {procedure other : Procedure α}

theorem Repeats.bind {f g : α → Procedure β} (first : Repeats id own held procedure other)
    (second : ∀ later value, Repeats id own later (f value) (g value)) :
    Repeats id own held (procedure >>= f) (other >>= g) := by
  show Repeats id own held (procedure.bind f) (other.bind g)
  induction first with
  | done value => exact second _ value
  | cancelled => exact .cancelled
  | record note _ ih => exact .record note ih
  | clock _ ih => exact .clock ih
  | pause seconds _ _ ih ihLast => exact .pause seconds ih ihLast
  | connect readTimeout _ _ failed rest => exact .connect readTimeout failed rest
  | exchange request limit _ _ ih ihLast => exact .exchange request limit ih ihLast

theorem Repeats.connectsTo (repeats : Repeats id own held procedure other) :
    procedure.ConnectsTo own := by
  induction repeats with
  | done value => trivial
  | cancelled => trivial
  | record note _ ih => exact ih
  | clock _ ih => exact ih
  | pause seconds _ _ ih ihLast => exact ⟨ih, ihLast⟩
  | connect readTimeout _ _ failed rest =>
    refine ⟨rfl, fun ended => ?_⟩
    cases ended with
    | error fault => exact failed fault
    | ok client => exact rest client client rfl
  | exchange request limit _ _ ih ihLast => exact ⟨ih, ihLast⟩

end Procedure

/-! ## Side by side -/

namespace Task

variable {α : Type} {id : String} {own address : List Char} {held : Option (Client × Client)}
  {api : Api} {task other : Task α} {slot otherSlot : ClientSlot}

/-- A task and one that repeats it have come equally far, each on a slot for one address. -/
structure Beside (id : String) (own address : List Char) (held : Option (Client × Client))
    (task other : Task α) (slot otherSlot : ClientSlot) : Prop where
  repeats : Procedure.Repeats id own held task.rest other.rest
  deadline : other.deadline = task.deadline
  time : other.time = task.time
  trace : other.trace = task.trace.map (Entry.forRequest id)
  sound : slot.Sound own address
  soundOther : otherSlot.Sound own address

/-- The client that a task is about to send a request over. -/
def sends? (task : Task α) : Option Client :=
  match task.rest with
  | .exchange client _ _ _ _ => some client
  | _ => none

/-- Both slots hold their client of a pair. -/
def BothHold (held : Option (Client × Client)) (slot otherSlot : ClientSlot) : Prop :=
  ∀ client otherClient, held = some (client, otherClient) →
    slot.held = some client ∧ otherSlot.held = some otherClient

/-- What a step makes of two tasks side by side: they hold their clients as before, or they have just got
hold of new ones. -/
inductive Advanced (id : String) (own address : List Char) (held : Option (Client × Client))
    (slot otherSlot : ClientSlot) : Task α × ClientSlot → Task α × ClientSlot → Prop where
  | kept {task other : Task α} (beside : Beside id own address held task other slot otherSlot) :
    Advanced id own address held slot otherSlot (task, slot) (other, otherSlot)
  | connected {task other : Task α} {client otherClient : Client} {after otherAfter : ClientSlot}
    (beside : Beside id own address (some (client, otherClient)) task other after otherAfter)
    (holds : after.held = some client) (holdsOther : otherAfter.held = some otherClient) :
    Advanced id own address held slot otherSlot (task, after) (other, otherAfter)

/-- A step of both keeps them side by side, unless it is a request and just one of the clients has been
closed. -/
theorem Beside.advance (beside : Beside id own address held task other slot otherSlot) (api : Api)
    (same : ∀ client otherClient, task.sends? = some client → held = some (client, otherClient) →
      slot.isClosed client = otherSlot.isClosed otherClient) :
    Advanced id own address held slot otherSlot (task.advance api slot)
      (other.advance api otherSlot) := by
  obtain ⟨rest, deadline, time, trace⟩ := task
  obtain ⟨otherRest, otherDeadline, otherTime, otherTrace⟩ := other
  obtain ⟨repeats, sameDeadline, sameTime, sameTrace, sound, soundOther⟩ := beside
  dsimp only at repeats sameDeadline sameTime sameTrace
  subst sameDeadline sameTime sameTrace
  have goOn {next otherNext : Procedure α} (repeats : Procedure.Repeats id own held next otherNext)
      (deadline : Option Rat) (time : Rat) (entries : List Entry) :
      Advanced id own address held slot otherSlot (⟨next, deadline, time, trace ++ entries⟩, slot)
        (⟨otherNext, deadline, time, trace.map (Entry.forRequest id) ++
          entries.map (Entry.forRequest id)⟩, otherSlot) :=
    .kept ⟨repeats, rfl, rfl, List.map_append.symm, sound, soundOther⟩
  cases repeats with
  | done value => exact .kept ⟨.done value, rfl, rfl, rfl, sound, soundOther⟩
  | cancelled => exact .kept ⟨.cancelled, rfl, rfl, rfl, sound, soundOther⟩
  | record note rest => exact goOn rest _ _ _
  | clock rest => exact goOn (rest _) _ _ []
  | pause seconds rest last =>
    simp only [Task.advance, Procedure.step]
    cases cutOff? _ _ seconds with
    | some instant => exact goOn last none instant []
    | none => exact goOn rest _ _ []
  | connect readTimeout failed rest =>
    rcases sound.ensure_eq readTimeout with ⟨client, after, got, soundAfter, holds⟩ | ⟨got, invalid⟩
    · rcases soundOther.ensure_eq readTimeout with
        ⟨otherClient, otherAfter, otherGot, otherSoundAfter, holdsOther⟩ | ⟨-, invalid⟩
      · have base : client.base = otherClient.base :=
          Option.some.inj ((soundAfter.held client holds).1.symm.trans
            (otherSoundAfter.held otherClient holdsOther).1)
        simp only [Task.advance, Procedure.step, got, otherGot]
        refine .connected ⟨rest client otherClient base, rfl, rfl, ?_, soundAfter, otherSoundAfter⟩
          holds holdsOther
        rw [List.append_nil, List.append_nil]
      · cases invalid.symm.trans (soundAfter.held client holds).1
    · rcases soundOther.ensure_eq readTimeout with
        ⟨otherClient, otherAfter, -, otherSoundAfter, holdsOther⟩ | ⟨otherGot, -⟩
      · cases invalid.symm.trans (otherSoundAfter.held otherClient holdsOther).1
      · simp only [Task.advance, Procedure.step, got, otherGot]
        exact goOn (failed .invalidUrl) _ _ []
  | @exchange client otherClient request limit next otherNext stopped otherStopped rest last =>
    simp only [Task.advance, Procedure.step, ← same client otherClient rfl rfl]
    cases slot.isClosed client with
    | true => exact goOn (rest _) _ _ []
    | false =>
      cases cutOff? _ _ ((api request).duration limit) with
      | some instant => exact goOn last none instant [⟨_, .requested request .cancelled⟩]
      | none => exact goOn (rest _) _ _ [⟨_, .requested request _⟩]

/-- Two tasks side by side hold their clients both, or they have both been closed. -/
inductive Abreast (id : String) (own address : List Char) (task other : Task α)
    (slot otherSlot : ClientSlot) : Prop where
  | holding {held : Option (Client × Client)}
    (beside : Beside id own address held task other slot otherSlot)
    (both : BothHold held slot otherSlot)
  | closed {client otherClient : Client}
    (beside : Beside id own address (some (client, otherClient)) task other slot otherSlot)
    (isClosed : slot.isClosed client = true) (isClosedOther : otherSlot.isClosed otherClient = true)

theorem Abreast.advance (abreast : Abreast id own address task other slot otherSlot) (api : Api) :
    Abreast id own address (task.advance api slot).1 (other.advance api otherSlot).1
      (task.advance api slot).2 (other.advance api otherSlot).2 := by
  cases abreast with
  | @holding held beside both =>
    have advanced := beside.advance api fun client otherClient _ pair => by
      rw [beside.sound.isClosed (both client otherClient pair).1,
        beside.soundOther.isClosed (both client otherClient pair).2]
    revert advanced
    generalize task.advance api slot = state
    generalize other.advance api otherSlot = otherState
    rintro (⟨later⟩ | ⟨later, holds, holdsOther⟩)
    · exact .holding later both
    · refine .holding later ?_
      rintro client otherClient ⟨⟩
      exact ⟨holds, holdsOther⟩
  | @closed client otherClient beside isClosed isClosedOther =>
    have advanced := beside.advance api fun _ _ _ pair => by
      cases pair
      rw [isClosed, isClosedOther]
    revert advanced
    generalize task.advance api slot = state
    generalize other.advance api otherSlot = otherState
    rintro (⟨later⟩ | ⟨later, holds, holdsOther⟩)
    · exact .closed later isClosed isClosedOther
    · refine .holding later ?_
      rintro client otherClient ⟨⟩
      exact ⟨holds, holdsOther⟩

/-- Two tasks abreast stay so when their clients are closed, if both are closed or none. -/
theorem Abreast.close (abreast : Abreast id own address task other slot otherSlot)
    (same : slot.owned = otherSlot.owned) :
    Abreast id own address task other slot.close otherSlot.close := by
  cases owner : slot.owned with
  | false =>
    rwa [ClientSlot.close_of_handed owner, ClientSlot.close_of_handed (same.symm.trans owner)]
  | true =>
    cases abreast with
    | @holding held beside both =>
      obtain ⟨repeats, deadline, time, trace, sound, soundOther⟩ := beside
      have later : Beside id own address held task other slot.close otherSlot.close :=
        ⟨repeats, deadline, time, trace, sound.close, soundOther.close⟩
      rcases held with _ | ⟨client, otherClient⟩
      · exact .holding later (by rintro _ _ ⟨⟩)
      · obtain ⟨holds, holdsOther⟩ := both client otherClient rfl
        exact .closed later (ClientSlot.isClosed_close_of_owned owner holds)
          (ClientSlot.isClosed_close_of_owned (same.symm.trans owner) holdsOther)
    | closed beside isClosed isClosedOther =>
      obtain ⟨repeats, deadline, time, trace, sound, soundOther⟩ := beside
      exact .closed ⟨repeats, deadline, time, trace, sound.close, soundOther.close⟩
        (ClientSlot.isClosed_close isClosed) (ClientSlot.isClosed_close isClosedOther)

/-- Two tasks abreast stay so when others ask for the client of one. -/
theorem Abreast.ensured {after : ClientSlot}
    (abreast : Abreast id own address task other slot otherSlot) (ensured : slot.Ensured own after) :
    Abreast id own address task other after otherSlot := by
  cases abreast with
  | holding beside both =>
    obtain ⟨repeats, deadline, time, trace, sound, soundOther⟩ := beside
    refine .holding ⟨repeats, deadline, time, trace, ensured.sound sound, soundOther⟩ ?_
    exact fun client otherClient pair => (both client otherClient pair).imp_left ensured.held
  | closed beside isClosed isClosedOther =>
    obtain ⟨repeats, deadline, time, trace, sound, soundOther⟩ := beside
    exact .closed ⟨repeats, deadline, time, trace, ensured.sound sound, soundOther⟩
      ((ensured.isClosed _).trans isClosed) isClosedOther

/-- When a task has ended, so has the one beside it, with the same result. -/
theorem Beside.finish (beside : Beside id own address held task other slot otherSlot)
    (ended : task.Ended) : (task.finish api slot).Repeats id (other.finish api otherSlot) := by
  obtain ⟨rest, deadline, time, trace⟩ := task
  obtain ⟨otherRest, otherDeadline, otherTime, otherTrace⟩ := other
  obtain ⟨repeats, sameDeadline, sameTime, sameTrace, -, -⟩ := beside
  dsimp only at repeats sameDeadline sameTime sameTrace
  subst sameDeadline sameTime sameTrace
  rcases ended with ⟨value, same⟩ | same
  · dsimp only at same
    subst same
    cases repeats
    refine ⟨rfl, rfl, ?_⟩
    simp only [Task.finish, Procedure.run, List.append_nil]
  · dsimp only at same
    subst same
    cases repeats
    refine ⟨rfl, rfl, ?_⟩
    simp only [Task.finish, Procedure.run, List.append_nil]

theorem Abreast.finish (abreast : Abreast id own address task other slot otherSlot) (api : Api) :
    (task.finish api slot).Repeats id (other.finish api otherSlot) := by
  obtain ⟨count, ended⟩ := exists_ended api task slot
  rw [← finish_after api count (task, slot), ← finish_after api count (other, otherSlot)]
  induction count generalizing task other slot otherSlot with
  | zero =>
    cases abreast with
    | holding beside _ => exact beside.finish ended
    | closed beside _ _ => exact beside.finish ended
  | succ count ih => exact ih (abreast.advance api) ended

end Task

namespace Procedure

variable {α : Type} {id : String} {own address : List Char} {procedure other : Procedure α}
  {slot otherSlot : ClientSlot} {api : Api} {deadline : Option Rat}

/-- On slots for one address a repetition runs as the procedure that it repeats. -/
theorem Repeats.run (repeats : Repeats id own none procedure other) (now : Rat)
    (sound : slot.Sound own address) (soundOther : otherSlot.Sound own address) :
    (procedure.run api deadline now slot).Repeats id (other.run api deadline now otherSlot) := by
  have abreast : Task.Abreast id own address ⟨procedure, deadline, now, []⟩ ⟨other, deadline, now, []⟩
      slot otherSlot :=
    .holding ⟨repeats, rfl, rfl, rfl, sound, soundOther⟩ (by rintro _ _ ⟨⟩)
  exact abreast.finish api

end Procedure

/-! ## Lookups -/

namespace Identity

variable {id : String} {own : List Char} {held : Option (Client × Client)} {policy : AccessPolicy}
  {token : List Char} {client otherClient : Client} {depth : Nat}

open Procedure (Repeats)

/-- A lookup keeps the clients that it is made with. -/
theorem repeats_get_bind {α : Type} (base : client.base = otherClient.base) (path : List Char)
    {f g : Except Fault Answer → Procedure α}
    (second : ∀ ended, Repeats id own (some (client, otherClient)) (f ended) (g ended)) :
    Repeats id own (some (client, otherClient)) (get policy client path token >>= f)
      (get policy otherClient path token >>= g) := by
  have made : Request.make client path token = Request.make otherClient path token := by
    rw [Request.make, Request.make, base]
  show Repeats id own _ ((get policy client path token).bind f)
    ((get policy otherClient path token).bind g)
  unfold get
  rw [made]
  split
  · exact second _
  · split
    · exact second _
    · exact .exchange _ _ (fun ended => second _) .cancelled

theorem repeats_client_bind {α : Type} {next other : Except Fault Client → Procedure α}
    (failed : ∀ fault, Repeats id policy.apiBase.toList held (next (.error fault))
      (other (.error fault)))
    (rest : ∀ client otherClient : Client, client.base = otherClient.base →
      Repeats id policy.apiBase.toList (some (client, otherClient)) (next (.ok client))
        (other (.ok otherClient))) :
    Repeats id policy.apiBase.toList held (Identity.client policy >>= next)
      (Identity.client policy >>= other) :=
  .connect policy.timeout failed rest

theorem repeats_conclude (request id : String) (ended : Except Fault Answer) :
    Repeats id own held (conclude request depth ended) (conclude id depth ended) := by
  cases ended with
  | error fault =>
    simp only [conclude]
    split
    · exact .record (.logged _) (.done _)
    · exact .done _
  | ok answer =>
    simp only [conclude]
    split
    · split
      · exact .done _
      · split
        · exact .record (.logged _) (.done _)
        · exact .done _
    · exact .record (.logged _) (.done _)

theorem repeats_fetch (request id : String) :
    Repeats id policy.apiBase.toList held (fetch policy request token depth)
      (fetch policy id token depth) := by
  rw [fetch_eq, fetch_eq]
  refine repeats_client_bind (fun fault => .done _) fun client otherClient base => ?_
  exact repeats_get_bind base profilePath (repeats_conclude request id)

theorem repeats_weigh (request id : String) (login : WideText) (organization : String)
    {rest other : Procedure (Except Fault Bool)} (later : Repeats id own held rest other)
    (ended : Except Fault Answer) :
    Repeats id own held (weigh request login organization rest ended)
      (weigh id login organization other ended) := by
  cases ended with
  | error fault =>
    simp only [weigh]
    split
    · exact .record (.logged _) later
    · exact .done _
  | ok answer =>
    simp only [weigh]
    split
    · exact .record (.logged _) (.done _)
    · exact .record (.logged _) later

theorem repeats_scanOrganizations (base : client.base = otherClient.base) (request id : String)
    (login : WideText) (organizations : List String) :
    Repeats id own (some (client, otherClient))
      (scanOrganizations policy client request token login organizations)
      (scanOrganizations policy otherClient id token login organizations) := by
  induction organizations with
  | nil => exact .done _
  | cons organization rest ih =>
    rw [scanOrganizations_cons, scanOrganizations_cons]
    split
    · exact .done _
    · exact repeats_get_bind base _ (repeats_weigh request id login organization ih)

theorem repeats_admits (request id : String) (login : WideText) :
    Repeats id policy.apiBase.toList held (admits policy request token login)
      (admits policy id token login) := by
  unfold admits
  split
  · exact .done _
  · exact repeats_client_bind (fun fault => .done _) fun client otherClient base =>
      repeats_scanOrganizations base request id login policy.organizations

theorem repeats_verify (request id : String) :
    Repeats id policy.apiBase.toList held (verify policy request token depth)
      (verify policy id token depth) := by
  refine (repeats_fetch request id).bind fun _ fetched => ?_
  cases fetched with
  | error failure => exact .done _
  | ok identity =>
    refine (repeats_admits request id identity.principal).bind fun _ admitted => ?_
    rcases admitted with fault | (_ | _)
    · exact .done _
    · exact .record (.logged _) (.done _)
    · exact .record (.logged _) (.done _)

end Identity

/-! ## The standard engine -/

namespace Engine

variable {own : List Char} {held : Option (Client × Client)} {policy : AccessPolicy} {reading : Rat}
  {depth : Nat} {credential otherCredential : Credential}

open Procedure (Repeats)

/-- No verifier of the standard chain looks at the scheme. -/
theorem repeats_verifier {verifier : Verifier}
    (member : verifier ∈ (ofPolicy policy reading depth).verifiers) (context : RequestContext)
    (id : String) (same : credential.value = otherCredential.value) :
    Repeats id policy.apiBase.toList held (verifier.verify context credential)
      (verifier.verify { context with id } otherCredential) := by
  rcases mem_verifiers_ofPolicy member with rfl | rfl
  · simp only [Verifier.claims, same]
    split
    · exact .done _
    · split
      · exact .done _
      · exact .record (.logged _) (.done _)
  · simp only [Verifier.remote, same]
    exact Identity.repeats_verify context.id id

theorem repeats_ask {context : RequestContext} {id : String} {verifiers : List Verifier}
    (repeats : ∀ held, ∀ verifier ∈ verifiers, Repeats id own held
      (verifier.verify context credential) (verifier.verify { context with id } otherCredential))
    (held : Option (Client × Client)) (place : Nat) (failures : List AuthError) :
    Repeats id own held (ask context credential place failures verifiers)
      (ask { context with id } otherCredential place failures verifiers) := by
  induction verifiers generalizing held place failures with
  | nil => exact .done _
  | cons verifier rest ih =>
    have later := ih fun held verifier member => repeats held verifier (List.mem_cons_of_mem _ member)
    rw [ask_cons, ask_cons]
    refine .record (.consulted place) ?_
    refine (repeats held verifier List.mem_cons_self).bind fun held result => ?_
    rcases result with (error | fault) | grant
    · exact .record (.logged _) (later _ _ _)
    · exact .record (.logged _) (later _ _ _)
    · exact .record (.granted grant) (.done _)

theorem repeats_challenge (engine : Engine) (context : RequestContext) (id : String)
    (cause : AuthError) (failures : List AuthError) :
    Repeats id own held (engine.challenge context cause failures)
      (engine.challenge { context with id } cause failures) := .record (.logged _) (.done _)

theorem repeats_authorize (context : RequestContext) (id : String)
    (same : credential.value = otherCredential.value) :
    Repeats id policy.apiBase.toList held
      ((ofPolicy policy reading depth).authorize context (some credential))
      ((ofPolicy policy reading depth).authorize { context with id } (some otherCredential)) := by
  refine (repeats_ask (fun _ verifier member =>
    repeats_verifier member context id same) held 0 []).bind fun _ asked => ?_
  cases asked with
  | error failures => exact repeats_challenge _ context id _ _
  | ok grant => exact .done _

/-- The engine repeats itself for another request. -/
theorem repeats_authorizeHeader (context : RequestContext) (id : String)
    (header : Option (List Char)) :
    Repeats id policy.apiBase.toList held
      ((ofPolicy policy reading depth).authorizeHeader context header)
      ((ofPolicy policy reading depth).authorizeHeader { context with id } header) := by
  rcases header with _ | _ | ⟨c, rest⟩
  · exact repeats_challenge _ context id _ _
  · exact repeats_challenge _ context id _ _
  · simp only [authorizeHeader]
    split
    · exact repeats_challenge _ context id _ _
    · exact repeats_authorize context id rfl

end Engine

end RegistryGate
