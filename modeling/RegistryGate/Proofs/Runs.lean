import RegistryGate.Procedure

/-!
# Runs of composed procedures

The run of one procedure after another is the run of the first and, if that came to a value, the run
of the second from where the first ended (`exists_run_bind`). Without a deadline a procedure that a
cancellation ends comes to a value (`Interruptible.exists_value`), and a procedure that only logs
leaves neither consultations nor grants in its trace (`OnlyLogs.consulted_run`, `OnlyLogs.grants_run`).
-/

namespace RegistryGate

variable {α β : Type}

namespace Run

/-- A run and what follows from where it ended. A run that came to no value is not followed. -/
def andThen (run : Run α) (next : α → Rat → ClientSlot → Run β) : Run β :=
  match run.value with
  | none => ⟨none, run.ended, run.slot, run.trace⟩
  | some value =>
    let rest := next value run.ended run.slot
    { rest with trace := run.trace ++ rest.trace }

theorem andThen_after (entry : Entry) (run : Run α) (next : α → Rat → ClientSlot → Run β) :
    (run.after entry).andThen next = (run.andThen next).after entry := by
  unfold andThen after
  cases run.value <;> rfl

theorem andThen_of_none {run : Run α} (h : run.value = none)
    (next : α → Rat → ClientSlot → Run β) :
    run.andThen next = ⟨none, run.ended, run.slot, run.trace⟩ := by
  simp only [andThen, h]

theorem andThen_of_some {run : Run α} {value : α} (h : run.value = some value)
    (next : α → Rat → ClientSlot → Run β) :
    run.andThen next =
      { next value run.ended run.slot with
        trace := run.trace ++ (next value run.ended run.slot).trace } := by
  simp only [andThen, h]

end Run

namespace Procedure

variable {api : Api} {deadline : Option Rat} {now : Rat} {slot : ClientSlot}

theorem run_pure (value : α) :
    (pure value : Procedure α).run api deadline now slot = ⟨some value, now, slot, []⟩ := rfl

theorem run_done (value : α) :
    (Procedure.done value).run api deadline now slot = ⟨some value, now, slot, []⟩ := rfl

/-- A sequence runs its first part, and then its second from where the first ended. The deadline of the
second part is the one of the whole, or it has passed in the first part. -/
theorem exists_run_bind (procedure : Procedure α) (f : α → Procedure β) (api : Api)
    (deadline : Option Rat) (now : Rat) (slot : ClientSlot) :
    ∃ left, (left = none ∨ left = deadline) ∧
      (procedure >>= f).run api deadline now slot =
        (procedure.run api deadline now slot).andThen fun value time slot =>
          (f value).run api left time slot := by
  show ∃ left, _ ∧ (procedure.bind f).run api deadline now slot = _
  induction procedure generalizing deadline now slot with
  | done value => exact ⟨deadline, .inr rfl, rfl⟩
  | cancelled => exact ⟨deadline, .inr rfl, rfl⟩
  | record note next ih =>
    obtain ⟨left, passed, whole⟩ := ih deadline now slot
    refine ⟨left, passed, ?_⟩
    simp only [Procedure.bind, run]
    rw [whole, Run.andThen_after]
  | clock next ih => exact ih now deadline now slot
  | pause seconds next stopped ih ihStopped =>
    simp only [Procedure.bind, run]
    split
    · obtain ⟨left, passed, whole⟩ := ihStopped none _ slot
      exact ⟨left, .inl (passed.elim id id), whole⟩
    · exact ih deadline _ slot
  | connect base readTimeout next ih => exact ih _ deadline now _
  | exchange client request limit next stopped ih ihStopped =>
    simp only [Procedure.bind, run]
    split
    · exact ih _ deadline now slot
    · split
      · obtain ⟨left, passed, whole⟩ := ihStopped none _ slot
        exact ⟨left, .inl (passed.elim id id), by rw [whole, Run.andThen_after]⟩
      · obtain ⟨left, passed, whole⟩ := ih _ deadline _ slot
        exact ⟨left, passed, by rw [whole, Run.andThen_after]⟩

theorem run_bind (procedure : Procedure α) (f : α → Procedure β) :
    (procedure >>= f).run api none now slot =
      (procedure.run api none now slot).andThen fun value time slot =>
        (f value).run api none time slot := by
  obtain ⟨left, passed, whole⟩ := exists_run_bind procedure f api none now slot
  cases passed.elim id id
  exact whole

/-- What a composed procedure comes to is what its second part comes to after some result of the
first. -/
theorem exists_of_value_bind {procedure : Procedure α} {f : α → Procedure β} {result : β}
    (ended : ((procedure >>= f).run api deadline now slot).value = some result) :
    ∃ value left time later, ((f value).run api left time later).value = some result := by
  obtain ⟨left, -, whole⟩ := exists_run_bind procedure f api deadline now slot
  rw [whole] at ended
  cases first : (procedure.run api deadline now slot).value with
  | none =>
    rw [Run.andThen_of_none first] at ended
    cases ended
  | some value =>
    rw [Run.andThen_of_some first] at ended
    exact ⟨value, left, _, _, ended⟩

theorem run_consult_bind (place : Nat) (next : Unit → Procedure α) :
    (consult place >>= next).run api deadline now slot =
      ((next ()).run api deadline now slot).after ⟨now, .noted (.consulted place)⟩ := rfl

theorem run_clock_bind (next : Rat → Procedure α) :
    (clock .done >>= next).run api deadline now slot = (next now).run api deadline now slot := rfl

/-! ## Without a deadline -/

theorem Interruptible.exists_value {procedure : Procedure α} (interruptible : procedure.Interruptible)
    (api : Api) (now : Rat) (slot : ClientSlot) :
    ∃ value, (procedure.run api none now slot).value = some value := by
  induction procedure generalizing now slot with
  | done value => exact ⟨value, rfl⟩
  | cancelled => exact interruptible.elim
  | record note next ih => exact ih interruptible now slot
  | clock next ih => exact ih now (interruptible now) now slot
  | pause seconds next stopped ih _ => exact ih interruptible.1 (now + seconds) slot
  | connect base readTimeout next ih => exact ih _ (interruptible _) now _
  | exchange client request limit next stopped ih _ =>
    simp only [run, cutOff?, Option.bind_none]
    split
    · exact ih _ (interruptible.1 _) now slot
    · exact ih _ (interruptible.1 _) _ slot

/-! ## Notes -/

/-- What a procedure that only logs leaves behind are log entries and requests. -/
theorem OnlyLogs.mem_trace {procedure : Procedure α} (quiet : procedure.OnlyLogs) {entry : Entry}
    (member : entry ∈ (procedure.run api deadline now slot).trace) :
    (∃ event, entry.seen = .noted (.logged event)) ∨
      ∃ request outcome, entry.seen = .requested request outcome := by
  induction procedure generalizing deadline now slot with
  | done value => exact absurd member List.not_mem_nil
  | cancelled => exact absurd member List.not_mem_nil
  | record note next ih =>
    cases note with
    | logged event =>
      rcases List.mem_cons.mp member with rfl | later
      · exact .inl ⟨event, rfl⟩
      · exact ih quiet later
    | consulted place => exact quiet.elim
    | granted given => exact quiet.elim
  | clock next ih => exact ih now (quiet now) member
  | pause seconds next stopped ih ihStopped =>
    simp only [run] at member
    split at member
    · exact ihStopped quiet.2 member
    · exact ih quiet.1 member
  | connect base readTimeout next ih => exact ih _ (quiet _) member
  | exchange client request limit next stopped ih ihStopped =>
    simp only [run] at member
    split at member
    · exact ih _ (quiet.1 _) member
    · split at member
      · rcases List.mem_cons.mp member with rfl | later
        · exact .inr ⟨request, .cancelled, rfl⟩
        · exact ihStopped quiet.2 later
      · rcases List.mem_cons.mp member with rfl | later
        · exact .inr ⟨request, _, rfl⟩
        · exact ih _ (quiet.1 _) later

theorem OnlyLogs.consulted_run {procedure : Procedure α} (quiet : procedure.OnlyLogs) :
    (procedure.run api deadline now slot).consulted = [] := by
  refine List.filterMap_eq_nil_iff.mpr fun entry member => ?_
  rcases quiet.mem_trace member with ⟨event, seen⟩ | ⟨request, outcome, seen⟩
  · simp only [seen]
  · simp only [seen]

theorem OnlyLogs.grants_run {procedure : Procedure α} (quiet : procedure.OnlyLogs) :
    (procedure.run api deadline now slot).grants = [] := by
  refine List.filterMap_eq_nil_iff.mpr fun entry member => ?_
  rcases quiet.mem_trace member with ⟨event, seen⟩ | ⟨request, outcome, seen⟩
  · simp only [seen]
  · simp only [seen]

end Procedure

end RegistryGate
