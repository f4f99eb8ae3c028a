import Mathlib.Tactic.Linarith
import RegistryGate.Proofs.Runs

/-!
# Timelines

The timeline of a procedure lists the steps of its run without a deadline: when each of them begins and
ends, and what is seen of it. The trace of that run is what is seen on the timeline
(`trace_run_timeline`), and no step begins before the one before it has ended (`timeline_ordered`). A
deadline cuts the run to the steps that begin before it, and interrupts the one that is under way
(`run_deadline`).
-/

namespace RegistryGate

/-- What is left to be seen of a step that is interrupted. -/
def Observation.interrupted : Observation → Observation
  | .noted note => .noted note
  | .requested request _ => .requested request .cancelled

/-- A step of a run. Nothing is seen of a pause. -/
structure Span where
  begins : Rat
  ends : Rat
  seen : Option Observation

namespace Span

/-- The entry that a step leaves in the trace. -/
def entry? (span : Span) : Option Entry := span.seen.map fun seen => ⟨span.begins, seen⟩

/-- The entry that a step leaves if the run is cut off at an instant. A step that ends at that very
instant counts as under way. -/
def entryAt? (instant : Rat) (span : Span) : Option Entry :=
  span.seen.map fun seen => ⟨span.begins, if span.ends < instant then seen else seen.interrupted⟩

theorem entryAt?_noted {instant now : Rat} (note : Note) :
    entryAt? instant ⟨now, now, some (.noted note)⟩ = some ⟨now, .noted note⟩ := by
  simp only [entryAt?, Observation.interrupted, Option.map_some, ite_self]

end Span

/-! ## Timelines that are cut off -/

/-- The trace of a run that is cut off at an instant, told by the whole timeline. -/
def cutTrace (instant : Rat) (timeline : List Span) : List Entry :=
  (timeline.filter fun span => span.begins < instant).filterMap (Span.entryAt? instant)

variable {instant : Rat}

theorem cutTrace_cons_of_lt (span : Span) (begun : span.begins < instant) (rest : List Span) :
    cutTrace instant (span :: rest) =
      (span.entryAt? instant).toList ++ cutTrace instant rest := by
  unfold cutTrace
  rw [List.filter_cons, if_pos (decide_eq_true begun), List.filterMap_cons]
  cases span.entryAt? instant <;> rfl

/-- Nothing is left of steps that begin later. -/
theorem cutTrace_of_le {timeline : List Span} (later : ∀ span ∈ timeline, instant ≤ span.begins) :
    cutTrace instant timeline = [] := by
  have none : timeline.filter (fun span => span.begins < instant) = [] := by
    refine List.filter_eq_nil_iff.mpr fun span member begun => ?_
    exact absurd (of_decide_eq_true begun) (not_lt.mpr (later span member))
  unfold cutTrace
  rw [none]
  rfl

/-- The entries of the steps that begin before an instant are the entries before it. -/
theorem filter_entries (instant : Rat) (timeline : List Span) :
    (timeline.filterMap Span.entry?).filter (fun entry => entry.time < instant) =
      (timeline.filter fun span => span.begins < instant).filterMap Span.entry? := by
  rw [List.filter_filterMap, List.filterMap_filter]
  have same (span : Span) : span.entry?.filter (fun entry => entry.time < instant) =
      if span.begins < instant then span.entry? else none := by
    unfold Span.entry?
    cases span.seen with
    | none => split <;> rfl
    | some seen => by_cases begun : span.begins < instant <;> simp [Option.filter, begun]
  simp only [same, decide_eq_true_eq]

/-- What does not depend on how exchanges end is seen of a cut run as of the whole one until then. -/
theorem filterMap_cutTrace {β : Type} {f : Entry → Option β}
    (blind : ∀ time (seen : Observation), f ⟨time, seen.interrupted⟩ = f ⟨time, seen⟩)
    (instant : Rat) (timeline : List Span) :
    (cutTrace instant timeline).filterMap f =
      ((timeline.filterMap Span.entry?).filter fun entry => entry.time < instant).filterMap f := by
  have same (span : Span) : (span.entryAt? instant).bind f = span.entry?.bind f := by
    unfold Span.entryAt? Span.entry?
    cases span.seen with
    | none => rfl
    | some seen =>
      simp only [Option.map_some, Option.bind_some]
      split
      · rfl
      · exact blind span.begins seen
  rw [filter_entries, cutTrace, List.filterMap_filterMap, List.filterMap_filterMap]
  simp only [same]

theorem mem_cutTrace {timeline : List Span} {entry : Entry}
    (member : entry ∈ cutTrace instant timeline) :
    ∃ seen, ⟨entry.time, seen⟩ ∈ timeline.filterMap Span.entry? ∧ entry.time < instant ∧
      (entry.seen = seen ∨ entry.seen = seen.interrupted) := by
  obtain ⟨span, inside, shown⟩ := List.mem_filterMap.mp member
  obtain ⟨listed, begun⟩ := List.mem_filter.mp inside
  obtain ⟨seen, observed, rfl⟩ := Option.map_eq_some_iff.mp shown
  refine ⟨seen, List.mem_filterMap.mpr ⟨span, listed, ?_⟩, of_decide_eq_true begun, ?_⟩
  · rw [Span.entry?, observed, Option.map_some]
  · dsimp only
    split
    · exact .inl rfl
    · exact .inr rfl

/-! ## Onward procedures -/

namespace Reply

/-- No exchange ends before it begins, if neither its reply nor its limit is in the past. -/
theorem duration_nonneg {reply : Reply} {limit : Limit} (delay : 0 ≤ reply.delay)
    (ahead : ∀ seconds, limit = .atMost seconds → 0 ≤ seconds) : 0 ≤ reply.duration limit := by
  cases limit with
  | forever => exact delay
  | atMost seconds =>
    simp only [duration, Limit.cut?]
    split
    · exact ahead seconds rfl
    · exact delay
  | unordered =>
    simp only [duration, Limit.cut?]
    split
    · exact le_refl 0
    · exact delay

end Reply

/-- An API whose replies come after the requests. -/
def Api.Onward (api : Api) : Prop := ∀ request, 0 ≤ (api request).delay

namespace Procedure

variable {α β : Type}

/-- A procedure that never waits for an instant in the past, if it is not cancelled. -/
def Onward : Procedure α → Prop
  | .done _ => True
  | .cancelled => True
  | .record _ next => next.Onward
  | .clock next => ∀ now, (next now).Onward
  | .pause seconds next _ => 0 ≤ seconds ∧ next.Onward
  | .connect _ _ next => ∀ client, (next client).Onward
  | .exchange _ _ limit next _ =>
    (∀ seconds, limit = .atMost seconds → 0 ≤ seconds) ∧ ∀ answer, (next answer).Onward

theorem Onward.bind {procedure : Procedure α} {f : α → Procedure β} (first : procedure.Onward)
    (second : ∀ value, (f value).Onward) : (procedure >>= f).Onward := by
  show (procedure.bind f).Onward
  induction procedure with
  | done value => exact second value
  | cancelled => trivial
  | record note next ih => exact ih first
  | clock next ih => exact fun now => ih now (first now)
  | pause seconds next stopped ih _ => exact ⟨first.1, ih first.2⟩
  | connect base readTimeout next ih => exact fun client => ih client (first client)
  | exchange client request limit next stopped ih _ =>
    exact ⟨first.1, fun answer => ih answer (first.2 answer)⟩

/-- The steps of the run without a deadline. A request on a closed client is no step, for nothing is
sent and no time passes. -/
def timeline (api : Api) (now : Rat) (slot : ClientSlot) : Procedure α → List Span
  | .done _ => []
  | .cancelled => []
  | .record note next => ⟨now, now, some (.noted note)⟩ :: next.timeline api now slot
  | .clock next => (next now).timeline api now slot
  | .pause seconds next _ =>
    ⟨now, now + seconds, none⟩ :: next.timeline api (now + seconds) slot
  | .connect base readTimeout next =>
    (next (slot.ensure base readTimeout).1).timeline api now (slot.ensure base readTimeout).2
  | .exchange client request limit next _ =>
    if slot.isClosed client then (next (.error .closedClient)).timeline api now slot
    else
      let reply := api request
      let later := now + reply.duration limit
      ⟨now, later, some (.requested request (reply.outcome limit))⟩ ::
        (next (reply.under limit)).timeline api later slot

variable {api : Api} {now instant : Rat} {slot : ClientSlot} {procedure : Procedure α} {span : Span}

/-- The trace of a run without a deadline is what is seen on its timeline. -/
theorem trace_run_timeline (procedure : Procedure α) (api : Api) (now : Rat) (slot : ClientSlot) :
    (procedure.run api none now slot).trace =
      (procedure.timeline api now slot).filterMap Span.entry? := by
  induction procedure generalizing now slot with
  | done value => rfl
  | cancelled => rfl
  | record note next ih =>
    show ⟨now, .noted note⟩ :: (next.run api none now slot).trace = _
    rw [ih]
    rfl
  | clock next ih => exact ih now now slot
  | pause seconds next stopped ih _ => exact ih (now + seconds) slot
  | connect base readTimeout next ih => exact ih _ now _
  | exchange client request limit next stopped ih _ =>
    simp only [run, timeline, cutOff?, Option.bind_none]
    split
    · exact ih _ now slot
    · show ⟨now, .requested request ((api request).outcome limit)⟩ :: (run api none _ slot _).trace = _
      rw [ih]
      rfl

/-- No step begins before the procedure does, and none ends before it begins. -/
theorem Onward.begins (onward : procedure.Onward) (replies : api.Onward)
    (member : span ∈ procedure.timeline api now slot) :
    now ≤ span.begins ∧ span.begins ≤ span.ends := by
  induction procedure generalizing now slot with
  | done value => exact absurd member List.not_mem_nil
  | cancelled => exact absurd member List.not_mem_nil
  | record note next ih =>
    rcases List.mem_cons.mp member with rfl | later
    · exact ⟨le_refl now, le_refl now⟩
    · exact ih onward later
  | clock next ih => exact ih now (onward now) member
  | pause seconds next stopped ih _ =>
    obtain ⟨ahead, rest⟩ := onward
    rcases List.mem_cons.mp member with rfl | later
    · exact ⟨le_refl now, by linarith⟩
    · obtain ⟨after, order⟩ := ih rest later
      exact ⟨by linarith, order⟩
  | connect base readTimeout next ih => exact ih _ (onward _) member
  | exchange client request limit next stopped ih _ =>
    obtain ⟨ahead, rest⟩ := onward
    have waits : 0 ≤ (api request).duration limit := Reply.duration_nonneg (replies request) ahead
    simp only [timeline] at member
    split at member
    · exact ih _ (rest _) member
    · rcases List.mem_cons.mp member with rfl | later
      · exact ⟨le_refl now, by linarith⟩
      · obtain ⟨after, order⟩ := ih _ (rest _) later
        exact ⟨by linarith, order⟩

/-- The steps come one after another. -/
theorem timeline_ordered (onward : procedure.Onward) (replies : api.Onward) (now : Rat)
    (slot : ClientSlot) :
    (procedure.timeline api now slot).Pairwise fun earlier later => earlier.ends ≤ later.begins := by
  induction procedure generalizing now slot with
  | done value => exact .nil
  | cancelled => exact .nil
  | record note next ih =>
    have rest : next.Onward := onward
    refine .cons (fun span member => ?_) (ih rest now slot)
    exact (rest.begins replies member).1
  | clock next ih => exact ih now (onward now) now slot
  | pause seconds next stopped ih _ =>
    refine .cons (fun span member => ?_) (ih onward.2 (now + seconds) slot)
    exact (onward.2.begins replies member).1
  | connect base readTimeout next ih => exact ih _ (onward _) now _
  | exchange client request limit next stopped ih _ =>
    simp only [timeline]
    split
    · exact ih _ (onward.2 _) now slot
    · refine .cons (fun span member => ?_) (ih _ (onward.2 _) _ slot)
      exact ((onward.2 _).begins replies member).1

/-! ## Deadlines -/

/-- A wait that reaches the deadline is cut off. -/
theorem cutOff?_of_le {wait : Rat} (later : now < instant) (reaches : instant ≤ now + wait) :
    cutOff? (some instant) now wait = some instant := by
  have waits : 0 < wait := by linarith
  exact if_pos ⟨waits, reaches⟩

theorem cutOff?_of_lt {wait : Rat} (early : now + wait < instant) :
    cutOff? (some instant) now wait = none :=
  if_neg fun cut => absurd cut.2 (not_le.mpr early)

/-- A deadline before the end cuts the run off there, if nothing catches the cancellation. What is left is
what began before the deadline, and a step that is under way is interrupted. -/
theorem run_deadline (onward : procedure.Onward) (interruptible : procedure.Interruptible)
    (replies : api.Onward) (later : now < instant)
    (early : instant < (procedure.run api none now slot).ended) :
    let cut := procedure.run api (some instant) now slot
    cut.value = none ∧ cut.ended = instant ∧
      cut.trace = cutTrace instant (procedure.timeline api now slot) := by
  induction procedure generalizing now slot with
  | done value => exact absurd early (not_lt.mpr later.le)
  | cancelled => exact interruptible.elim
  | record note next ih =>
    obtain ⟨value, ended, trace⟩ := ih onward interruptible later early
    refine ⟨value, ended, ?_⟩
    rw [timeline, cutTrace_cons_of_lt ⟨now, _, _⟩ later, Span.entryAt?_noted, ← trace]
    rfl
  | clock next ih => exact ih now (onward now) (interruptible now) later early
  | pause seconds next stopped ih _ =>
    obtain ⟨ahead, rest⟩ := onward
    obtain ⟨goesOn, rfl⟩ := interruptible
    simp only [run, timeline]
    rw [cutTrace_cons_of_lt ⟨now, _, _⟩ later]
    by_cases reaches : instant ≤ now + seconds
    · rw [cutOff?_of_le later reaches, cutTrace_of_le fun span member =>
        reaches.trans (rest.begins replies member).1]
      exact ⟨rfl, rfl, rfl⟩
    · have passed : now + seconds < instant := not_le.mp reaches
      rw [cutOff?_of_lt passed]
      exact ih rest goesOn passed early
  | connect base readTimeout next ih => exact ih _ (onward _) (interruptible _) later early
  | exchange client request limit next stopped ih _ =>
    obtain ⟨ahead, rest⟩ := onward
    obtain ⟨goesOn, rfl⟩ := interruptible
    simp only [run, cutOff?, Option.bind_none] at early
    simp only [run, timeline]
    split at early
    case isTrue closed =>
      rw [if_pos closed, if_pos closed]
      exact ih _ (rest _) (goesOn _) later early
    case isFalse isOpen =>
      rw [if_neg isOpen, if_neg isOpen, cutTrace_cons_of_lt ⟨now, _, _⟩ later]
      by_cases reaches : instant ≤ now + (api request).duration limit
      · -- The exchange is under way at the deadline, so that it ends there.
        rw [cutOff?_of_le later reaches, cutTrace_of_le fun span member =>
          reaches.trans ((rest _).begins replies member).1]
        refine ⟨rfl, rfl, ?_⟩
        simp only [Span.entryAt?, if_neg (not_lt.mpr reaches), Option.map_some,
          Observation.interrupted, Option.toList_some, List.append_nil]
        rfl
      · have passed : now + (api request).duration limit < instant := not_le.mp reaches
        rw [cutOff?_of_lt passed]
        obtain ⟨value, ended, trace⟩ := ih _ (rest _) (goesOn _) passed early
        refine ⟨value, ended, ?_⟩
        simp only [Span.entryAt?, if_pos passed, Option.map_some, Option.toList_some, ← trace]
        rfl

end Procedure

end RegistryGate
