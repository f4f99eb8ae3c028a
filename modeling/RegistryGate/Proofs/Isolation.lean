import RegistryGate.Proofs.Cancellation
import RegistryGate.Proofs.Closings
import RegistryGate.Proofs.Requests
import RegistryGate.Session

/-!
# Isolation of calls

Calls that share an engine do not interfere. Whatever has happened to the engine before, and whatever
other calls a call is interleaved with, it comes to what it comes to alone on a new engine whose client is
closed at the same points of the call. Only such a closing can make a difference: if the client is the
engine's own and is closed after a step of the call, the call may break off at its next request. What is
sent for a call is sent for its own token (`together_isolated`).
-/

namespace RegistryGate

variable {α : Type} {own address : List Char} {api : Api}

/-! ## Tasks -/

/-- A task is abreast of the same task alone, moved by the moves that concern it. -/
def Task.Apart (id : String) (own address : List Char) (api : Api) (alone : Task α)
    (fresh : ClientSlot) (mine : List Move) (task : Task α) (slot : ClientSlot) : Prop :=
  ∃ other otherSlot, mine.foldl (Concurrent.move api) ([alone], fresh) = ([other], otherSlot) ∧
    Abreast id own address task other slot otherSlot ∧ slot.owned = otherSlot.owned

theorem Task.apart_steady (id : String) (own address : List Char) (api : Api) (alone : Task α)
    (fresh : ClientSlot) : Concurrent.Steady own api (Task.Apart id own address api alone fresh) where
  step {mine task slot} apart := by
    obtain ⟨other, otherSlot, moved, abreast, same⟩ := apart
    refine ⟨_, _, ?_, abreast.advance api, ?_⟩
    · rw [List.foldl_append, moved]
      rfl
    · rw [task.owned_advance, other.owned_advance, same]
  others apart ensured := by
    obtain ⟨other, otherSlot, moved, abreast, same⟩ := apart
    exact ⟨other, otherSlot, moved, abreast.ensured ensured, ensured.owned.trans same⟩
  close {mine task slot} apart := by
    obtain ⟨other, otherSlot, moved, abreast, same⟩ := apart
    refine ⟨other, otherSlot.close, ?_, abreast.close same, ?_⟩
    · rw [List.foldl_append, moved]
      rfl
    · rw [slot.owned_close, otherSlot.owned_close, same]

namespace Concurrent

theorem exists_foldl_single (api : Api) (schedule : List Move) (task : Task α) (slot : ClientSlot) :
    ∃ other otherSlot, schedule.foldl (move api) ([task], slot) = ([other], otherSlot) := by
  induction schedule generalizing task slot with
  | nil => exact ⟨task, slot, rfl⟩
  | cons first rest ih =>
    rcases first with (_ | place) | _
    · exact ih _ _
    · exact ih task slot
    · exact ih task slot.close

theorem foldl_steps (count : Nat) (task : Task α) (slot : ClientSlot) :
    (List.replicate count (Move.step 0)).foldl (move api) ([task], slot) =
      ([(Task.after api count (task, slot)).1], (Task.after api count (task, slot)).2) := by
  induction count generalizing task slot with
  | zero => rfl
  | succ count ih => exact ih _ _

/-- Steps at the end of a schedule change nothing about the run of a task that is alone. -/
theorem run_append_steps (count : Nat) (schedule : List Move) (task : Task α) (slot : ClientSlot) :
    (Concurrent.run api (schedule ++ List.replicate count (.step 0)) [task] slot).1 =
      (Concurrent.run api schedule [task] slot).1 := by
  obtain ⟨other, otherSlot, moved⟩ := exists_foldl_single api schedule task slot
  simp only [Concurrent.run, List.foldl_append, moved, foldl_steps, finishAll, Task.finish_after]

end Concurrent

variable {id : String} {tasks : List (Task α)} {place : Nat} {task alone : Task α}
  {slot fresh : ClientSlot} {schedule : List Move}

/-- Among others a task goes as alone, if the client is closed at the same points of it. -/
theorem Concurrent.run_apart (api : Api) (schedule : List Move)
    (connects : ∀ task ∈ tasks, task.rest.ConnectsTo own) (found : tasks[place]? = some task)
    (abreast : Task.Abreast id own address task alone slot fresh) (same : slot.owned = fresh.owned) :
    ∃ run other, (Concurrent.run api schedule tasks slot).1[place]? = some run ∧
      (Concurrent.run api (ownMoves place schedule) [alone] fresh).1 = [other] ∧
      run.Repeats id other := by
  obtain ⟨count, ended, later, located, -, other, otherSlot, moved, abreast, -⟩ :=
    (Task.apart_steady id own address api alone fresh).run schedule connects found
      ⟨alone, fresh, rfl, abreast, same⟩
  refine ⟨_, other.finish api otherSlot, located, ?_, abreast.finish api⟩
  rw [← Concurrent.run_append_steps count]
  simp only [Concurrent.run, moved, Concurrent.finishAll]

/-- Among others a task goes as it does alone while the client stays open, or it breaks off because the
client has been closed. -/
theorem Concurrent.run_follows {P : α → Prop} {whole : Run α} (schedule : List Move)
    (connects : ∀ task ∈ tasks, task.rest.ConnectsTo own) (found : tasks[place]? = some task)
    (follows : Task.Follows id own address api P whole [] task slot) :
    ∃ run, (Concurrent.run api schedule tasks slot).1[place]? = some run ∧
      (run.Repeats id whole ∨
        slot.owned = true ∧ ClosedAmid place schedule ∧ run.BreaksOff P whole) := by
  obtain ⟨count, ended, later, located, atEnd, follows, kept⟩ :=
    ((Task.follows_steady id own address api P whole).and (Concurrent.owned_steady own api _)).run
      schedule connects found ⟨follows, rfl⟩
  refine ⟨_, located, (follows.finish atEnd).imp_right fun ⟨owned, amid, breaksOff⟩ => ?_⟩
  exact ⟨kept.symm.trans owned, amid.of_append_replicate.of_ownMoves, breaksOff⟩

/-! ## Sessions -/

/-- A call presents a token. -/
def Call.Presents (call : Call) (token : List Char) : Prop :=
  match call.presented with
  | .header value => Bears value token
  | .credential value => ∃ scheme, value = some ⟨scheme, token⟩

/-- Two runs of a call come to the same: the same result, metadata, requests and duration, and the same
log but for the identifier of the request. -/
structure Run.Agrees (id : String) (run other : Run α) : Prop where
  value : run.value = other.value
  metadata : ∀ before, run.metadata before = other.metadata before
  requests : run.requests = other.requests
  ended : run.ended = other.ended
  events : other.events = run.events.map (Event.forRequest id)

theorem Run.Repeats.agrees {run other : Run α} (repeats : run.Repeats id other) : run.Agrees id other :=
  ⟨repeats.value.symm, fun before => (repeats.metadata before).symm, repeats.requests.symm,
    repeats.ended.symm, repeats.events⟩

namespace Session

variable {policy : AccessPolicy} {reading : Rat} {depth : Nat} {session : Session} {call : Call}
  {now : Rat} {request : Request} {outcome : Outcome}

theorem repeats_procedure (call : Call) (id otherId : String) :
    Procedure.Repeats otherId policy.apiBase.toList none
      (procedure (Engine.ofPolicy policy reading depth) call id)
      (procedure (Engine.ofPolicy policy reading depth) call otherId) := by
  unfold procedure
  cases call.presented with
  | header value => exact Engine.repeats_authorizeHeader ⟨call.method, call.path, id⟩ otherId value
  | credential value =>
    cases value with
    | none => exact Engine.repeats_challenge _ ⟨call.method, call.path, id⟩ otherId _ _
    | some credential => exact Engine.repeats_authorize ⟨call.method, call.path, id⟩ otherId rfl

theorem breaksOff_procedure (call : Call) (id : String) :
    (procedure (Engine.ofPolicy policy reading depth) call id).BreaksOff (Engine.Unverified policy) := by
  unfold procedure
  cases call.presented with
  | header value => exact Engine.authorizeHeader_breaksOff value
  | credential value => exact Engine.authorize_breaksOff value

/-- What is sent for a call is sent for the token that it presents. -/
theorem sent_of_mem_procedure (sound : slot.Sound policy.apiBase.toList address)
    (member : (request, outcome) ∈ ((procedure (Engine.ofPolicy policy reading depth) call id).run api
      none now slot).requests) :
    ∃ token, call.Presents token ∧ Identity.Sent policy depth api address token request := by
  unfold procedure at member
  unfold Call.Presents
  cases presented : call.presented with
  | header value =>
    rw [presented] at member
    exact Engine.sent_of_mem_authorizeHeader sound member
  | credential value =>
    rw [presented] at member
    cases value with
    | none => exact absurd member List.not_mem_nil
    | some credential =>
      exact ⟨credential.value, ⟨credential.scheme, rfl⟩, Engine.sent_of_mem_authorize sound member⟩

theorem exists_call_of_mem_tasks {engine : Engine} {calls : List Call}
    {task : Task (Except Challenge Grant)} (member : task ∈ session.tasks engine calls) :
    ∃ call id, task = .start (procedure engine call id) call.deadline := by
  obtain ⟨place, located⟩ := List.mem_iff_getElem?.mp member
  simp only [tasks, List.getElem?_mapIdx] at located
  obtain ⟨call, -, rfl⟩ := Option.map_eq_some_iff.mp located
  exact ⟨call, _, rfl⟩

theorem connects_of_mem_tasks {calls : List Call} {task : Task (Except Challenge Grant)}
    (member : task ∈ session.tasks (Engine.ofPolicy policy reading depth) calls) :
    task.rest.ConnectsTo policy.apiBase.toList := by
  obtain ⟨call, id, rfl⟩ := exists_call_of_mem_tasks member
  exact (repeats_procedure call id "").connectsTo

/-- What may happen to an engine: calls at some reading of the clock, under some schedule in which the
client may be closed too, or the closing of the client between calls. -/
inductive Stage where
  | calls (reading : Rat) (schedule : List Move) (calls : List Call)
  | close

def pass (policy : AccessPolicy) (depth : Nat) (session : Session) : Stage → Session
  | .calls reading schedule calls =>
    (session.together (Engine.ofPolicy policy reading depth) schedule calls).2
  | .close => session.close

/-- The session after all stages of a history. -/
def past (policy : AccessPolicy) (depth : Nat) (session : Session) (history : List Stage) : Session :=
  history.foldl (pass policy depth) session

/-- No history does away with what getting hold of the client and closing it keep. -/
theorem slot_past {P : ClientSlot → Prop}
    (ensured : ∀ slot after : ClientSlot, slot.Ensured policy.apiBase.toList after → P slot → P after)
    (closed : ∀ slot : ClientSlot, P slot → P slot.close) (holds : P session.slot)
    (history : List Stage) :
    P (session.past policy depth history).slot ∧
      (session.past policy depth history).api = session.api := by
  induction history generalizing session with
  | nil => exact ⟨holds, rfl⟩
  | cons stage rest ih =>
    cases stage with
    | calls reading schedule calls =>
      exact ih (Concurrent.slot_run ensured closed schedule (fun _ => connects_of_mem_tasks) holds)
    | close => exact ih (closed session.slot holds)

/-- A call among others, on a sound slot, beside the same call alone. -/
theorem together_beside {fresh : ClientSlot} {schedule : List Move} {calls : List Call} {place : Nat}
    {run : Run (Except Challenge Grant)} (sound : session.slot.Sound policy.apiBase.toList address)
    (soundFresh : fresh.Sound policy.apiBase.toList address) (owned : session.slot.owned = fresh.owned)
    (found : calls[place]? = some call)
    (located : (session.together (Engine.ofPolicy policy reading depth) schedule calls).1[place]? =
      some run) (id : String) :
    (∃ alone, (Concurrent.run session.api (ownMoves place schedule)
      [.start (procedure (Engine.ofPolicy policy reading depth) call id) call.deadline] fresh).1 =
        [alone] ∧ run.Repeats id alone) ∧
    let alone := (procedure (Engine.ofPolicy policy reading depth) call id).run session.api
      call.deadline 0 fresh
    run.Repeats id alone ∨ fresh.owned = true ∧ ClosedAmid place schedule ∧
      run.BreaksOff (Engine.Unverified policy) alone := by
  let engine := Engine.ofPolicy policy reading depth
  let task := Task.start (procedure engine call (session.nextId place)) call.deadline
  have connects (task : Task (Except Challenge Grant)) (member : task ∈ session.tasks engine calls) :
      task.rest.ConnectsTo policy.apiBase.toList := connects_of_mem_tasks member
  have among : (session.tasks engine calls)[place]? = some task := by
    simp only [tasks, List.getElem?_mapIdx, found, Option.map_some, task]
  have beside : task.Beside id policy.apiBase.toList address none
      (.start (procedure engine call id) call.deadline) session.slot fresh :=
    ⟨repeats_procedure call _ id, rfl, rfl, rfl, sound, soundFresh⟩
  constructor
  · obtain ⟨same, alone, sameLocated, apart, repeats⟩ := Concurrent.run_apart session.api schedule
      connects among (.holding beside (by rintro _ _ ⟨⟩)) owned
    obtain rfl := Option.some.inj (sameLocated.symm.trans located)
    exact ⟨alone, apart, repeats⟩
  · have keeps : Task.Keeps id policy.apiBase.toList address session.api (Engine.Unverified policy)
        ((procedure engine call id).run session.api call.deadline 0 fresh) [] none task
        (.start (procedure engine call id) call.deadline) session.slot fresh :=
      { beside
        whole := rfl
        breaksOff := breaksOff_procedure call _
        last := .inl fun _ member => absurd member List.not_mem_nil
        stepped := fun some => absurd rfl some
        isOpen := by rintro _ _ ⟨⟩ }
    obtain ⟨same, sameLocated, follows⟩ := Concurrent.run_follows schedule connects among (.keeps keeps)
    obtain rfl := Option.some.inj (sameLocated.symm.trans located)
    rwa [owned] at follows

/-- Whatever has happened to an engine before, and whatever other calls a call is interleaved with, it
comes to what it comes to alone on a new engine whose client is closed at the same points of the call. It
comes to what it comes to alone on a client that is never closed, except that it may break off at a request
and be refused if the verifier opens its clients itself and the client is closed after a step of the call.
What is sent for it is sent for its own token, about the owner of that token, and it carries the token
unless the address holds a user. -/
theorem together_isolated (policy : AccessPolicy) (reading : Rat) (depth : Nat) (api : Api)
    (address : List Char) (fresh : ClientSlot) (new : fresh.Fresh policy.apiBase.toList address)
    (history : List Stage) (schedule : List Move) (calls : List Call) :
    let engine := Engine.ofPolicy policy reading depth
    let runs := (((start api fresh).past policy depth history).together engine schedule calls).1
    runs.length = calls.length ∧
      ∀ (place : Nat) (call : Call) (run : Run (Except Challenge Grant)),
        calls[place]? = some call → runs[place]? = some run →
        (∀ id, ∃ alone, (Concurrent.run api (ownMoves place schedule)
          [.start (procedure engine call id) call.deadline] fresh).1 = [alone] ∧ run.Agrees id alone) ∧
        (∀ id, let alone := (procedure engine call id).run api call.deadline 0 fresh
          run.Agrees id alone ∨ fresh.owned = true ∧ ClosedAmid place schedule ∧
            run.BreaksOff (Engine.Unverified policy) alone) ∧
        ∀ request outcome, (request, outcome) ∈ run.requests →
          ∃ token, call.Presents token ∧ Identity.Sent policy depth api address token request ∧
            (request.authorization = "token ".toList ++ token ↔ request.url.NoUser) ∧
            ((∀ base, Url.base? address = some base → base.scheme ≠ [] ∧ base.NoUser) →
              request.authorization = "token ".toList ++ token) := by
  intro engine runs
  have sound : ((start api fresh).past policy depth history).slot.Sound policy.apiBase.toList address :=
    (slot_past (fun _ _ ensured sound => ensured.sound sound) (fun _ sound => sound.close)
      new.sound history).1
  obtain ⟨owned, sameApi⟩ : ((start api fresh).past policy depth history).slot.owned = fresh.owned ∧
      ((start api fresh).past policy depth history).api = api :=
    slot_past (fun _ _ ensured owned => ensured.owned.trans owned)
      (fun slot owned => slot.owned_close.trans owned) rfl history
  refine ⟨(Concurrent.length_run schedule _ _).trans List.length_mapIdx,
    fun place call run found located => ?_⟩
  have beside (id : String) := together_beside sound new.sound owned found located id
  rw [sameApi] at beside
  refine ⟨fun id => ?_, fun id => (beside id).2.imp_left Run.Repeats.agrees, ?_⟩
  · obtain ⟨alone, apart, repeats⟩ := (beside id).1
    exact ⟨alone, apart, repeats.agrees⟩
  · intro request outcome member
    have asked : (request, outcome) ∈
        ((procedure engine call "").run api call.deadline 0 fresh).requests := by
      rcases (beside "").2 with repeats | ⟨-, -, breaksOff⟩
      · rwa [← repeats.requests] at member
      · exact breaksOff.requests_subset member
    obtain ⟨full, sentWhole⟩ :=
      (interruptible_procedure engine call "").exists_outcome_of_deadline asked
    obtain ⟨token, presents, sent⟩ := sent_of_mem_procedure new.sound sentWhole
    obtain ⟨path, asks⟩ := sent.exists_requests
    exact ⟨token, presents, sent, asks.carries_iff, asks.carries⟩

/-- An API that knows two users by their tokens. -/
def pairApi : Api := fun request =>
  if request.authorization = "token a".toList then
    ⟨1, .ok ⟨200, Text.utf8 "\x7b\"login\":\"anna\",\"id\":1\x7d".toList⟩⟩
  else if request.authorization = "token b".toList then
    ⟨2, .ok ⟨200, Text.utf8 "\x7b\"login\":\"ben\",\"id\":2\x7d".toList⟩⟩
  else ⟨0, .ok ⟨404, []⟩⟩

def headerCall (token : String) : Call := ⟨.header (some ("token " ++ token).toList), "GET", "/v2/", none⟩

/-- Two users call at the same time, after the client of an earlier call has been closed. It is closed once
more before the second of them takes a step, who is told apart and asked about with their own token. -/
theorem pair_isolated :
    let policy := AccessPolicy.ofRealm "r" (by decide)
    let engine := Engine.ofPolicy policy 0
    let history := [Stage.calls 0 [] [headerCall "a"], .close]
    let schedule := [Move.step 0, .step 0, .close] ++ inTurn 16 2
    let runs := (((start pairApi .ofOwner).past policy Identity.maxDepth history).together engine schedule
      [headerCall "a", headerCall "b"]).1
    ∃ run, runs[1]? = some run ∧ run.value = some (.ok ⟨"ben", "remote"⟩) ∧ run.ended = 2 ∧
      ∃ request outcome, (request, outcome) ∈ run.requests ∧
        request.authorization = "token b".toList := by
  intro policy engine history schedule runs
  obtain ⟨length, isolated⟩ := together_isolated policy 0 Identity.maxDepth pairApi
    policy.apiBase.toList .ofOwner .owner history schedule [headerCall "a", headerCall "b"]
  obtain ⟨run, located⟩ : ∃ run, runs[1]? = some run := by
    cases located : runs[1]? with
    | none =>
      have short : runs.length ≤ 1 := List.getElem?_eq_none_iff.mp located
      rw [length] at short
      exact absurd short (by decide)
    | some run => exact ⟨run, rfl⟩
  obtain ⟨-, alone, -⟩ := isolated 1 (headerCall "b") run rfl located
  have early : ¬ ClosedAmid 1 schedule := by decide
  obtain ⟨value, -, requests, ended, -⟩ := (alone "1").resolve_right fun broken => early broken.2.1
  have granted : run.value = some (.ok ⟨"ben", "remote"⟩) := by
    rw [value]
    exact Engine.value_of_toOption (by decide +kernel)
  have carried : run.requests.map (·.1.authorization) = ["token b".toList] := by
    rw [requests]
    decide +kernel
  have took : run.ended = 2 := by
    rw [ended]
    decide +kernel
  have inside : "token b".toList ∈ run.requests.map (·.1.authorization) := by
    rw [carried]
    exact List.mem_singleton_self _
  obtain ⟨⟨request, outcome⟩, member, same⟩ := List.mem_map.mp inside
  exact ⟨run, located, granted, took, request, outcome, member, same⟩

/-- A call alone is let in after its two lookups. With the client closed between them, after its fourth
step, it is refused and its membership is not asked about. -/
theorem closing_between_lookups_refuses :
    let policy := { AccessPolicy.ofRealm "r" (by decide) with organizations := ["o"] }
    let runs (schedule : List Move) :=
      ((start slowApi .ofOwner).together (Engine.ofPolicy policy 0) schedule [headerCall "a"]).1
    (runs []).map (fun run => (run.value, run.requests.length)) =
        [(some (.ok ⟨"anna", "remote"⟩), 2)] ∧
      (runs (List.replicate 4 (.step 0) ++ [.close])).map
          (fun run => (run.value, run.requests.length)) =
        [(some (.error (.make "r" .unexpected [.unexpected] true)), 1)] := by
  decide +kernel

def sharedRuns : List (Run (Except Challenge Grant)) :=
  ((start Engine.sharedApi .ofOwner).together (Engine.ofPolicy Engine.sharedPolicy 0) []
    [headerCall "x"]).1

/-- With a user in the base address a request carries that user instead of the token of its call. -/
theorem shared_token_not_carried :
    ¬ ∀ run ∈ sharedRuns, ∀ request outcome, (request, outcome) ∈ run.requests →
      request.authorization = "token x".toList := by
  intro carried
  have sent : sharedRuns.flatMap (fun run => run.requests.map (·.1.authorization)) =
      ["Basic dTpw".toList] := by decide +kernel
  have inside : "Basic dTpw".toList ∈
      sharedRuns.flatMap fun run => run.requests.map (·.1.authorization) := by
    rw [sent]
    exact List.mem_singleton_self _
  obtain ⟨run, member, inside⟩ := List.mem_flatMap.mp inside
  obtain ⟨⟨request, outcome⟩, asked, same⟩ := List.mem_map.mp inside
  have basic := carried run member request outcome asked
  rw [same] at basic
  exact absurd basic (by decide)

end Session

end RegistryGate
