import RegistryGate.Concurrent
import RegistryGate.Proofs.Slots

/-!
# Tasks step by step

Every task ends after some steps, and none of them changes how it ends (`Task.exists_ended`,
`Task.finish_after`). So what holds of a task and the slot before the first move, and is kept by the steps
of the task, by what other tasks do to the slot and by the closing of the client, holds when the task has
ended, under every schedule (`Concurrent.Steady.run`).
-/

namespace RegistryGate

variable {α : Type} {own address : List Char} {api : Api}

/-! ## Steps to the end -/

namespace Task

/-- A task and the slot after some steps of the task. -/
def after (api : Api) : Nat → Task α × ClientSlot → Task α × ClientSlot
  | 0, state => state
  | count + 1, state => after api count (state.1.advance api state.2)

/-- Nothing is left to be done, but to come to a value or to leave a cancellation to the caller. -/
def Ended (task : Task α) : Prop := (∃ value, task.rest = .done value) ∨ task.rest = .cancelled

/-- A step changes nothing about how a task ends, if it goes on from the slot that the step leaves. -/
theorem finish_advance (api : Api) (slot : ClientSlot) (task : Task α) :
    (task.advance api slot).1.finish api (task.advance api slot).2 = task.finish api slot := by
  unfold advance
  have whole := Procedure.run_eq_run_step api task.deadline task.time slot task.rest
  cases stepped : task.rest.step api task.deadline task.time slot with
  | finished value => rfl
  | went rest deadline time after trace =>
    rw [stepped] at whole
    simp only [finish, whole, Procedure.Step.run, List.append_assoc]

theorem finish_after (api : Api) (count : Nat) (state : Task α × ClientSlot) :
    (after api count state).1.finish api (after api count state).2 = state.1.finish api state.2 := by
  induction count generalizing state with
  | zero => rfl
  | succ count ih => exact (ih _).trans (finish_advance api state.2 state.1)

theorem exists_ended (api : Api) (task : Task α) (slot : ClientSlot) :
    ∃ count, (after api count (task, slot)).1.Ended := by
  obtain ⟨rest, deadline, time, trace⟩ := task
  have later {task : Task α} {slot : ClientSlot}
      (ends : ∃ count, (after api count (task.advance api slot)).1.Ended) :
      ∃ count, (after api count (task, slot)).1.Ended := by
    obtain ⟨count, ended⟩ := ends
    exact ⟨count + 1, ended⟩
  induction rest generalizing deadline time trace slot with
  | done value => exact ⟨0, .inl ⟨value, rfl⟩⟩
  | cancelled => exact ⟨0, .inr rfl⟩
  | record note next ih => exact later (ih _ _ _ _)
  | clock next ih => exact later (ih _ _ _ _ _)
  | pause seconds next stopped ih ihStopped =>
    refine later ?_
    simp only [advance, Procedure.step]
    cases cutOff? deadline time seconds with
    | some instant => exact ihStopped _ _ _ _
    | none => exact ih _ _ _ _
  | connect base readTimeout next ih => exact later (ih _ _ _ _ _)
  | exchange client request limit next stopped ih ihStopped =>
    refine later ?_
    simp only [advance, Procedure.step]
    cases slot.isClosed client with
    | true => exact ih _ _ _ _ _
    | false =>
      cases cutOff? deadline time ((api request).duration limit) with
      | some instant => exact ihStopped _ _ _ _
      | none => exact ih _ _ _ _ _

/-- What each step keeps holds of a task when it has ended. -/
theorem exists_ended_of_kept {R : Task α → Prop} {task : Task α} (holds : R task)
    (kept : ∀ task slot, R task → R (task.advance api slot).1) (slot : ClientSlot) :
    ∃ ended later, ended.finish api later = task.finish api slot ∧ ended.Ended ∧ R ended := by
  obtain ⟨count, ended⟩ := exists_ended api task slot
  refine ⟨_, _, finish_after api count (task, slot), ended, ?_⟩
  clear ended
  induction count generalizing task slot with
  | zero => exact holds
  | succ count ih => exact ih (kept task slot holds) _

end Task

/-! ## What tasks do to the slot -/

/-- A procedure that asks for clients on one address only. -/
def Procedure.ConnectsTo (own : List Char) : Procedure α → Prop
  | .done _ => True
  | .cancelled => True
  | .record _ next => next.ConnectsTo own
  | .clock next => ∀ now, (next now).ConnectsTo own
  | .pause _ next stopped => next.ConnectsTo own ∧ stopped.ConnectsTo own
  | .connect base _ next => base = own ∧ ∀ client, (next client).ConnectsTo own
  | .exchange _ _ _ next stopped =>
    (∀ answer, (next answer).ConnectsTo own) ∧ stopped.ConnectsTo own

namespace Task

variable {task : Task α} {slot : ClientSlot}

/-- A step at most asks for the client. -/
theorem advance_connectsTo (connects : task.rest.ConnectsTo own) (api : Api) (slot : ClientSlot) :
    (task.advance api slot).1.rest.ConnectsTo own ∧
      slot.Ensured own (task.advance api slot).2 := by
  obtain ⟨rest, deadline, time, trace⟩ := task
  cases rest with
  | done value => exact ⟨trivial, .refl⟩
  | cancelled => exact ⟨trivial, .refl⟩
  | record note next => exact ⟨connects, .refl⟩
  | clock next => exact ⟨connects time, .refl⟩
  | pause seconds next stopped =>
    simp only [advance, Procedure.step]
    cases cutOff? deadline time seconds with
    | some instant => exact ⟨connects.2, .refl⟩
    | none => exact ⟨connects.1, .refl⟩
  | connect base readTimeout next =>
    obtain ⟨rfl, rest⟩ := connects
    exact ⟨rest _, .ensure .refl readTimeout⟩
  | exchange client request limit next stopped =>
    simp only [advance, Procedure.step]
    cases slot.isClosed client with
    | true => exact ⟨connects.1 _, .refl⟩
    | false =>
      cases cutOff? deadline time ((api request).duration limit) with
      | some instant => exact ⟨connects.2, .refl⟩
      | none => exact ⟨connects.1 _, .refl⟩

theorem owned_advance (task : Task α) (api : Api) (slot : ClientSlot) :
    (task.advance api slot).2.owned = slot.owned := by
  obtain ⟨rest, deadline, time, trace⟩ := task
  cases rest with
  | done value => rfl
  | cancelled => rfl
  | record note next => rfl
  | clock next => rfl
  | pause seconds next stopped =>
    simp only [advance, Procedure.step]
    cases cutOff? deadline time seconds <;> rfl
  | connect base readTimeout next => exact slot.owned_ensure base readTimeout
  | exchange client request limit next stopped =>
    simp only [advance, Procedure.step]
    cases slot.isClosed client with
    | true => rfl
    | false => cases cutOff? deadline time ((api request).duration limit) <;> rfl

/-- When a task has ended its run is what it has come to. -/
theorem Ended.exists_finish (ended : task.Ended) (api : Api) (slot : ClientSlot) :
    ∃ value, task.finish api slot = ⟨value, task.time, slot, task.trace⟩ := by
  obtain ⟨rest, deadline, time, trace⟩ := task
  rcases ended with ⟨value, rfl⟩ | rfl
  · refine ⟨some value, ?_⟩
    simp only [finish, Procedure.run, List.append_nil]
  · refine ⟨none, ?_⟩
    simp only [finish, Procedure.run, List.append_nil]

theorem finish_connectsTo (connects : task.rest.ConnectsTo own) (api : Api) (slot : ClientSlot) :
    slot.Ensured own (task.finish api slot).slot := by
  obtain ⟨count, ended⟩ := exists_ended api task slot
  obtain ⟨value, finished⟩ := ended.exists_finish api (after api count (task, slot)).2
  rw [← finish_after api count (task, slot), finished]
  clear ended finished
  induction count generalizing task slot with
  | zero => exact .refl
  | succ count ih =>
    obtain ⟨rest, ensured⟩ := advance_connectsTo connects api slot
    exact ensured.trans (ih rest _)

end Task

/-! ## What holds under every schedule -/

/-- A move as one task sees it, for which it is the only one. -/
def Move.own? (place : Nat) : Move → Option Move
  | .step other => if other = place then some (.step 0) else none
  | .close => some .close

/-- The moves of a schedule that concern the task at a place. -/
def ownMoves (place : Nat) (schedule : List Move) : List Move := schedule.filterMap (Move.own? place)

namespace Concurrent

variable {tasks : List (Task α)} {task : Task α} {slot : ClientSlot} {place : Nat} {mine : List Move}
  {R : List Move → Task α → ClientSlot → Prop}

/-- Something that stays true of a task, the moves that concern it and the slot. -/
structure Steady (own : List Char) (api : Api) (R : List Move → Task α → ClientSlot → Prop) : Prop where
  step {mine : List Move} {task : Task α} {slot : ClientSlot} (holds : R mine task slot) :
    R (mine ++ [.step 0]) (task.advance api slot).1 (task.advance api slot).2
  /-- Other tasks ask for the client. -/
  others {mine : List Move} {task : Task α} {slot after : ClientSlot} (holds : R mine task slot)
    (ensured : slot.Ensured own after) : R mine task after
  close {mine : List Move} {task : Task α} {slot : ClientSlot} (holds : R mine task slot) :
    R (mine ++ [.close]) task slot.close

theorem Steady.and {S : List Move → Task α → ClientSlot → Prop} (first : Steady own api R)
    (second : Steady own api S) :
    Steady own api fun mine task slot => R mine task slot ∧ S mine task slot where
  step holds := ⟨first.step holds.1, second.step holds.2⟩
  others holds ensured := ⟨first.others holds.1 ensured, second.others holds.2 ensured⟩
  close holds := ⟨first.close holds.1, second.close holds.2⟩

theorem kept_steady {R : Task α → Prop} (own : List Char)
    (kept : ∀ task slot, R task → R (task.advance api slot).1) :
    Steady own api fun _ task _ => R task :=
  ⟨fun holds => kept _ _ holds, fun holds _ => holds, id⟩

/-- Nothing changes whether the verifier opens its clients itself. -/
theorem owned_steady (own : List Char) (api : Api) (owned : Bool) :
    Steady own api fun _ (_ : Task α) slot => slot.owned = owned where
  step holds := (Task.owned_advance _ _ _).trans holds
  others holds ensured := ensured.owned.trans holds
  close holds := (ClientSlot.owned_close _).trans holds

theorem forall_mem_set {P : Task α → Prop} (all : ∀ task ∈ tasks, P task) (holds : P task)
    (place : Nat) : ∀ other ∈ tasks.set place task, P other := by
  intro other member
  rcases List.mem_or_eq_of_mem_set member with before | rfl
  · exact all other before
  · exact holds

theorem Steady.foldl (steady : Steady own api R) (schedule : List Move)
    (connects : ∀ task ∈ tasks, task.rest.ConnectsTo own) (found : tasks[place]? = some task)
    (holds : R mine task slot) :
    let state := schedule.foldl (move api) (tasks, slot)
    (∀ task ∈ state.1, task.rest.ConnectsTo own) ∧
      ∃ task, state.1[place]? = some task ∧ R (mine ++ ownMoves place schedule) task state.2 := by
  induction schedule generalizing tasks task slot mine with
  | nil => exact ⟨connects, task, found, by rwa [ownMoves, List.filterMap_nil, List.append_nil]⟩
  | cons first rest ih =>
    cases first with
    | close =>
      have later := ih connects found (steady.close holds)
      rwa [List.append_assoc] at later
    | step other =>
      simp only [List.foldl_cons, move, stepAt]
      cases located : tasks[other]? with
      | none =>
        have elsewhere : other ≠ place := by
          rintro rfl
          cases located.symm.trans found
        have unconcerned : ownMoves place (.step other :: rest) = ownMoves place rest :=
          List.filterMap_cons_none (if_neg elsewhere)
        rw [unconcerned]
        exact ih connects found holds
      | some stepping =>
        obtain ⟨onward, ensured⟩ :=
          Task.advance_connectsTo (connects stepping (List.mem_of_getElem? located)) api slot
        have connectsAfter := forall_mem_set connects onward other
        by_cases here : other = place
        · subst here
          cases located.symm.trans found
          have concerned : ownMoves other (.step other :: rest) = .step 0 :: ownMoves other rest :=
            List.filterMap_cons_some (if_pos rfl)
          have inside : other < tasks.length := (List.getElem?_eq_some_iff.mp found).1
          rw [concerned, List.append_cons]
          exact ih connectsAfter (List.getElem?_set_self inside) (steady.step holds)
        · have unconcerned : ownMoves place (.step other :: rest) = ownMoves place rest :=
            List.filterMap_cons_none (if_neg here)
          rw [unconcerned]
          exact ih connectsAfter ((List.getElem?_set_ne here).trans found)
            (steady.others holds ensured)

theorem Steady.after (steady : Steady own api R) (count : Nat) (holds : R mine task slot) :
    R (mine ++ List.replicate count (.step 0)) (Task.after api count (task, slot)).1
      (Task.after api count (task, slot)).2 := by
  induction count generalizing mine task slot with
  | zero => rwa [List.replicate_zero, List.append_nil]
  | succ count ih =>
    rw [List.replicate_succ, List.append_cons]
    exact ih (steady.step holds)

theorem Steady.finishAll (steady : Steady own api R)
    (connects : ∀ task ∈ tasks, task.rest.ConnectsTo own) (found : tasks[place]? = some task)
    (holds : R mine task slot) :
    ∃ count ended later, (finishAll api slot tasks).1[place]? = some (ended.finish api later) ∧
      ended.Ended ∧ R (mine ++ List.replicate count (.step 0)) ended later := by
  induction tasks generalizing place slot with
  | nil => cases found
  | cons first rest ih =>
    obtain ⟨connectsFirst, connectsRest⟩ := List.forall_mem_cons.mp connects
    cases place with
    | zero =>
      cases found
      obtain ⟨count, ended⟩ := Task.exists_ended api task slot
      refine ⟨count, _, _, ?_, ended, steady.after count holds⟩
      rw [Task.finish_after]
      rfl
    | succ place =>
      exact ih connectsRest found
        (steady.others holds (Task.finish_connectsTo connectsFirst api slot))

/-- What holds of a task at the beginning and stays true holds when the task has ended, whatever other
tasks there are and whenever the client is closed. -/
theorem Steady.run (steady : Steady own api R) (schedule : List Move)
    (connects : ∀ task ∈ tasks, task.rest.ConnectsTo own) (found : tasks[place]? = some task)
    (holds : R [] task slot) :
    ∃ count ended later,
      (Concurrent.run api schedule tasks slot).1[place]? = some (ended.finish api later) ∧
        ended.Ended ∧ R (ownMoves place schedule ++ List.replicate count (.step 0)) ended later := by
  obtain ⟨connectsAfter, task, foundAfter, holdsAfter⟩ :=
    steady.foldl schedule connects found holds
  exact steady.finishAll connectsAfter foundAfter holdsAfter

theorem length_move (state : List (Task α) × ClientSlot) (first : Move) :
    (move api state first).1.length = state.1.length := by
  cases first with
  | close => rfl
  | step place =>
    simp only [move, stepAt]
    split
    · rfl
    · exact List.length_set

theorem length_finishAll (tasks : List (Task α)) (slot : ClientSlot) :
    (finishAll api slot tasks).1.length = tasks.length := by
  induction tasks generalizing slot with
  | nil => rfl
  | cons task rest ih => exact congrArg (· + 1) (ih _)

/-- Every task has its run. -/
theorem length_run (schedule : List Move) (tasks : List (Task α)) (slot : ClientSlot) :
    (Concurrent.run api schedule tasks slot).1.length = tasks.length := by
  have played (state : List (Task α) × ClientSlot) :
      (schedule.foldl (move api) state).1.length = state.1.length := by
    induction schedule generalizing state with
    | nil => rfl
    | cons first rest ih => exact (ih _).trans (length_move state first)
  exact (length_finishAll _ _).trans (played (tasks, slot))

/-- What the steps of a task keep, and what holds of all tasks at the beginning, holds of what each of them
has come to at its end. -/
theorem exists_task_of_mem_run {R : Task α → Prop} {schedule : List Move} {run : Run α}
    (kept : ∀ task slot, R task → R (task.advance api slot).1)
    (connects : ∀ task ∈ tasks, task.rest.ConnectsTo own) (all : ∀ task ∈ tasks, R task)
    (member : run ∈ (Concurrent.run api schedule tasks slot).1) :
    ∃ ended later, run = ended.finish api later ∧ R ended := by
  obtain ⟨place, located⟩ := List.mem_iff_getElem?.mp member
  have inside : place < tasks.length := by
    rw [← length_run schedule tasks slot]
    exact (List.getElem?_eq_some_iff.mp located).1
  obtain ⟨count, ended, later, found, -, holds⟩ := (kept_steady own kept).run schedule connects
    (List.getElem?_eq_getElem inside) (all _ (List.getElem_mem inside))
  exact ⟨ended, later, Option.some.inj (located.symm.trans found), holds⟩

/-- Whatever getting hold of the client and closing it keep, tasks together keep. -/
theorem slot_run {P : ClientSlot → Prop}
    (ensured : ∀ slot after : ClientSlot, slot.Ensured own after → P slot → P after)
    (closed : ∀ slot : ClientSlot, P slot → P slot.close) (schedule : List Move)
    (connects : ∀ task ∈ tasks, task.rest.ConnectsTo own) (holds : P slot) :
    P (Concurrent.run api schedule tasks slot).2 := by
  have finished {tasks : List (Task α)} {slot : ClientSlot}
      (connects : ∀ task ∈ tasks, task.rest.ConnectsTo own) (holds : P slot) :
      P (Concurrent.finishAll api slot tasks).2 := by
    induction tasks generalizing slot with
    | nil => exact holds
    | cons first rest ih =>
      obtain ⟨connectsFirst, connectsRest⟩ := List.forall_mem_cons.mp connects
      exact ih connectsRest (ensured _ _ (Task.finish_connectsTo connectsFirst api slot) holds)
  induction schedule generalizing tasks slot with
  | nil => exact finished connects holds
  | cons first rest ih =>
    show P (Concurrent.run api rest (move api (tasks, slot) first).1 (move api (tasks, slot) first).2).2
    cases first with
    | close => exact ih connects (closed slot holds)
    | step place =>
      simp only [move, stepAt]
      cases located : tasks[place]? with
      | none => exact ih connects holds
      | some task =>
        obtain ⟨onward, asked⟩ :=
          Task.advance_connectsTo (connects task (List.mem_of_getElem? located)) api slot
        exact ih (forall_mem_set connects onward place) (ensured _ _ asked holds)

end Concurrent

end RegistryGate
