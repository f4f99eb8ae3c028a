import Mathlib.Data.List.Basic
import RegistryGate.Log.Loggers

/-!
# Which handlers are on which loggers

After any set-ups, failed ones among them, and any entries in between, the loggers share their
handlers, and each of these has the redaction filter once (`Wired`). What a set-up makes of a logger
depends on its own arguments only, and one that fails changes nothing that can be told of a logger
(`setUp_replaces`).
-/

namespace RegistryGate.Log.Loggers

/-- What can be told of a logger: its level, whether its records go further up, and its handlers. -/
structure View where
  level : Option Level
  propagates : Bool
  handlers : List Handler

def view (loggers : Loggers) (name : LoggerName) : View :=
  ⟨(loggers.logger name).level, (loggers.logger name).propagates, loggers.handlersOf name⟩

/-- What a set-up makes of a logger. -/
def arranged (level : String) (file : Option String) (name : LoggerName) : View where
  level := some (levelOf ((levelNamed? level).getD defaultLevel) name)
  propagates := name = .root
  handlers := (sinks (filePlace? file)).map fun sink => ⟨sink, [.redaction]⟩

inductive Step where
  | setUp (level : String) (file : Option String)
  | emit (entry : Entry)

def Step.after (loggers : Loggers) : Step → Loggers
  | .setUp level file => (loggers.setUp level file).2
  | .emit entry => (loggers.emit entry).2

/-- The loggers after some steps, whether these succeeded or not. -/
def past (steps : List Step) : Loggers :=
  steps.foldl Step.after initial

variable {loggers made : Loggers} {level : String} {file : Option String} {name : LoggerName}

/-! ## Handlers in the table -/

section Table

variable {α : Type}

/-- Changing all entries behind the first ones changes just these. -/
theorem foldl_modify_append (f : α → α) (first last : List α) :
    (List.range' first.length last.length).foldl (fun table place => table.modify place f)
      (first ++ last) = first ++ last.map f := by
  induction last generalizing first with
  | nil => rfl
  | cons entry rest ih =>
    have changed : (first ++ entry :: rest).modify first.length f = (first ++ [f entry]) ++ rest := by
      rw [List.modify_eq_take_cons_drop (by simp)]
      simp
    have later := ih (first ++ [f entry])
    rw [List.length_append, List.length_singleton] at later
    rw [List.length_cons, List.range'_succ, List.foldl_cons, changed, later, List.map_cons,
      List.append_assoc, List.singleton_append]

/-- The entries behind the first ones, by their places. -/
theorem filterMap_append (first last : List α) :
    (List.range' first.length last.length).filterMap ((first ++ last)[·]?) = last := by
  induction last generalizing first with
  | nil => rfl
  | cons entry rest ih =>
    have later := ih (first ++ [entry])
    rw [List.length_append, List.length_singleton, List.append_assoc, List.singleton_append] at later
    have here : (first ++ entry :: rest)[first.length]? = some entry := by
      rw [List.getElem?_append_right (Nat.le_refl _), Nat.sub_self]
      rfl
    rw [List.length_cons, List.range'_succ, List.filterMap_cons_some here, later]

end Table

/-! ## A set-up -/

theorem openSink_eq_ok {sink : Sink} {opened : Loggers} (done : loggers.openSink sink = .ok opened) :
    opened.logger = loggers.logger ∧ opened.handlers = loggers.handlers := by
  unfold openSink at done
  split at done
  · cases done
    exact ⟨rfl, rfl⟩
  · split at done
    · cases done
      unfold openFile
      split
      · exact ⟨rfl, rfl⟩
      · exact ⟨rfl, rfl⟩
    · cases done

theorem openSink_succeeds (loggers : Loggers) (sink : Sink) :
    (∃ opened, loggers.openSink sink = .ok opened) ↔
      ∀ place, .file place = sink → place.canOpen := by
  cases sink with
  | console => exact ⟨fun _ place other => (by cases other), fun _ => ⟨loggers, rfl⟩⟩
  | file place =>
    simp only [openSink, Sink.file.injEq, forall_eq]
    cases place.canOpen <;> simp

theorem makeHandlers_cons_error {sink : Sink} {error : SetUpError}
    (failed : loggers.openSink sink = .error error) (rest : List Sink) :
    loggers.makeHandlers (sink :: rest) = (.error error, loggers) := by
  simp only [makeHandlers, failed]

theorem makeHandlers_cons_ok {sink : Sink} {opened : Loggers}
    (done : loggers.openSink sink = .ok opened) (rest : List Sink) :
    loggers.makeHandlers (sink :: rest) =
      (((opened.addHandler sink).makeHandlers rest).1.map (opened.handlers.length :: ·),
        ((opened.addHandler sink).makeHandlers rest).2) := by
  simp only [makeHandlers, done]

/-- Making handlers touches no logger, and keeps those in the table in their places. -/
structure Extends (loggers made : Loggers) : Prop where
  logger : made.logger = loggers.logger
  handlers : loggers.handlers <+: made.handlers

theorem makeHandlers_extends (loggers : Loggers) (sinks : List Sink) :
    loggers.Extends (loggers.makeHandlers sinks).2 := by
  induction sinks generalizing loggers with
  | nil => exact ⟨rfl, List.prefix_rfl⟩
  | cons sink rest ih =>
    cases isOpen : loggers.openSink sink with
    | error error =>
      rw [makeHandlers_cons_error isOpen]
      exact ⟨rfl, List.prefix_rfl⟩
    | ok opened =>
      obtain ⟨logger, handlers⟩ := openSink_eq_ok isOpen
      have later := ih (opened.addHandler sink)
      rw [makeHandlers_cons_ok isOpen]
      refine ⟨later.logger.trans logger, ?_⟩
      rw [← handlers]
      exact (List.prefix_append _ _).trans later.handlers

/-- The handlers made stand behind the others in the table. -/
theorem makeHandlers_eq_ok {sinks : List Sink} {places : List Nat}
    (done : (loggers.makeHandlers sinks).1 = .ok places) :
    places = List.range' loggers.handlers.length sinks.length ∧
      (loggers.makeHandlers sinks).2.handlers =
        loggers.handlers ++ sinks.map fun sink => ⟨sink, []⟩ := by
  induction sinks generalizing loggers places with
  | nil =>
    cases done
    exact ⟨rfl, (List.append_nil _).symm⟩
  | cons sink rest ih =>
    cases isOpen : loggers.openSink sink with
    | error error =>
      rw [makeHandlers_cons_error isOpen] at done
      cases done
    | ok opened =>
      obtain ⟨-, handlers⟩ := openSink_eq_ok isOpen
      rw [makeHandlers_cons_ok isOpen] at done ⊢
      cases ended : ((opened.addHandler sink).makeHandlers rest).1 with
      | error error =>
        rw [ended] at done
        cases done
      | ok more =>
        rw [ended] at done
        cases done
        obtain ⟨rfl, table⟩ := ih ended
        simp only [addHandler, handlers, List.length_append, List.length_singleton] at table ⊢
        refine ⟨by rw [List.length_cons, List.range'_succ], ?_⟩
        rw [table, List.append_assoc, List.singleton_append, List.map_cons]

/-- Handlers are made if the files among the sinks can be opened. -/
theorem makeHandlers_succeeds (loggers : Loggers) (sinks : List Sink) :
    (∃ places, (loggers.makeHandlers sinks).1 = .ok places) ↔
      ∀ place, .file place ∈ sinks → place.canOpen := by
  induction sinks generalizing loggers with
  | nil => exact ⟨fun _ place member => absurd member List.not_mem_nil, fun _ => ⟨[], rfl⟩⟩
  | cons sink rest ih =>
    have opens := loggers.openSink_succeeds sink
    simp only [List.mem_cons, or_imp, forall_and, ← opens]
    cases isOpen : loggers.openSink sink with
    | error error =>
      rw [makeHandlers_cons_error isOpen]
      simp only [reduceCtorEq, exists_false, false_and]
    | ok opened =>
      rw [makeHandlers_cons_ok isOpen, ← ih (opened.addHandler sink)]
      cases ((opened.addHandler sink).makeHandlers rest).1 <;> simp [Except.map]

/-- When all loggers are configured, each has its level and the same handlers, and only the root may
hand records on. -/
theorem foldl_configure (chosen : Level) (places : List Nat) (loggers : Loggers) :
    LoggerName.all.foldl (configure chosen places) loggers =
      { loggers with
        logger := fun name =>
          ⟨some (levelOf chosen name), name = .root && (loggers.logger .root).propagates, places⟩ } := by
  simp only [LoggerName.all, List.foldl_cons, List.foldl_nil, configure]
  congr 1
  funext name
  cases name <;> rfl

/-- A set-up that succeeds makes of the loggers what its arguments say. -/
theorem setUp_eq_ok {answer : Level × String} (done : (loggers.setUp level file).1 = .ok answer) :
    (loggers.setUp level file).2.logger = (fun name =>
        ⟨some (levelOf ((levelNamed? level).getD defaultLevel) name),
          name = .root && (loggers.logger .root).propagates,
          List.range' loggers.handlers.length (sinks (filePlace? file)).length⟩) ∧
      (loggers.setUp level file).2.handlers =
        loggers.handlers ++ (sinks (filePlace? file)).map fun sink => ⟨sink, [.redaction]⟩ := by
  have kept := (loggers.makeHandlers_extends (sinks (filePlace? file))).logger
  cases made : loggers.makeHandlers (sinks (filePlace? file)) with
  | mk ended after =>
    cases ended with
    | error error =>
      simp only [setUp, made] at done
      cases done
    | ok places =>
      obtain ⟨rfl, table⟩ := makeHandlers_eq_ok (congrArg Prod.fst made)
      rw [made] at kept table
      dsimp only at kept table
      simp only [setUp, made, foldl_configure, filterRoot, kept, table, true_and]
      have filtered := foldl_modify_append (Handler.addFilter · .redaction) loggers.handlers
        ((sinks (filePlace? file)).map fun sink => ⟨sink, []⟩)
      rw [List.length_map, List.map_map] at filtered
      exact filtered

theorem setUp_eq_error {error : SetUpError} (failed : (loggers.setUp level file).1 = .error error) :
    loggers.Extends (loggers.setUp level file).2 := by
  have extended := loggers.makeHandlers_extends (sinks (filePlace? file))
  cases made : loggers.makeHandlers (sinks (filePlace? file)) with
  | mk ended after =>
    rw [made] at extended
    cases ended with
    | error error =>
      simp only [setUp, made]
      exact extended
    | ok places =>
      simp only [setUp, made] at failed
      cases failed

/-- A set-up succeeds if its file can be opened, where it has one. -/
theorem setUp_succeeds (loggers : Loggers) (level : String) (file : Option String) :
    (∃ answer, (loggers.setUp level file).1 = .ok answer) ↔
      ∀ place, filePlace? file = some place → place.canOpen := by
  have handlers := loggers.makeHandlers_succeeds (sinks (filePlace? file))
  have files (place : Place) : .file place ∈ sinks (filePlace? file) ↔ filePlace? file = some place := by
    cases filePlace? file <;> simp [sinks, eq_comm]
  simp only [files] at handlers
  rw [← handlers]
  cases made : loggers.makeHandlers (sinks (filePlace? file)) with
  | mk ended after => cases ended <;> simp [setUp, made]

/-! ## Entries -/

theorem deliver_keeps (loggers : Loggers) (entry : Entry) (handlers : List Handler) :
    (loggers.deliver entry handlers).2.logger = loggers.logger ∧
      (loggers.deliver entry handlers).2.handlers = loggers.handlers := by
  induction handlers generalizing loggers entry with
  | nil => exact ⟨rfl, rfl⟩
  | cons handler rest ih =>
    unfold deliver
    split
    case h_1 => exact ih loggers entry
    case h_2 record _ =>
      dsimp only
      split
      case h_1 => exact ih loggers _
      case h_2 =>
        split
        case h_1 =>
          have kept := ih loggers { entry with record }
          generalize loggers.deliver { entry with record } rest = written at kept ⊢
          exact kept
        case h_2 place _ => exact ih (loggers.append place _) _

/-- Entries leave the loggers and the table as they are. -/
theorem emit_keeps (loggers : Loggers) (entry : Entry) :
    (loggers.emit entry).2.logger = loggers.logger ∧
      (loggers.emit entry).2.handlers = loggers.handlers := by
  unfold emit
  split
  · exact ⟨rfl, rfl⟩
  · cases loggers.reached entry.path with
    | nil => exact ⟨rfl, rfl⟩
    | cons first rest =>
      have kept := loggers.deliver_keeps entry (first :: rest)
      dsimp only
      generalize loggers.deliver entry (first :: rest) = written at kept ⊢
      exact kept

/-! ## Runs -/

/-- What holds of the loggers at any time. -/
structure Wired (loggers : Loggers) : Prop where
  shared : ∀ name other, (loggers.logger name).handlers = (loggers.logger other).handlers
  inTable : ∀ name, ∀ place ∈ (loggers.logger name).handlers, place < loggers.handlers.length
  /-- Each handler of a logger has the redaction filter, and has it once. -/
  redacts : ∀ name, ∀ handler ∈ loggers.handlersOf name, handler.filters.count .redaction = 1
  root : (loggers.logger .root).propagates = true

theorem wired_initial : Wired initial where
  shared _ _ := rfl
  inTable _ _ member := absurd member List.not_mem_nil
  redacts _ _ member := absurd member List.not_mem_nil
  root := rfl

/-- Loggers that share a table that only grows have the same handlers. -/
theorem Wired.handlersOf_extends (wired : loggers.Wired) (extended : loggers.Extends made)
    (name : LoggerName) : made.handlersOf name = loggers.handlersOf name := by
  obtain ⟨more, table⟩ := extended.handlers
  unfold handlersOf
  rw [extended.logger, ← table]
  refine List.filterMap_congr fun place member => ?_
  exact List.getElem?_append_left (wired.inTable name place member)

theorem Wired.view_extends (wired : loggers.Wired) (extended : loggers.Extends made)
    (name : LoggerName) : made.view name = loggers.view name := by
  unfold view
  rw [wired.handlersOf_extends extended, extended.logger]

theorem Wired.extended (wired : loggers.Wired) (extended : loggers.Extends made) : made.Wired where
  shared name other := by
    rw [extended.logger]
    exact wired.shared name other
  inTable name place member := by
    rw [extended.logger] at member
    exact Nat.lt_of_lt_of_le (wired.inTable name place member) extended.handlers.length_le
  redacts name handler member := by
    rw [wired.handlersOf_extends extended] at member
    exact wired.redacts name handler member
  root := by
    rw [extended.logger]
    exact wired.root

/-- After a set-up that succeeds, all that can be told of a logger follows from its arguments. -/
theorem Wired.view_setUp (wired : loggers.Wired) {answer : Level × String}
    (done : (loggers.setUp level file).1 = .ok answer) (name : LoggerName) :
    (loggers.setUp level file).2.view name = arranged level file name := by
  obtain ⟨logger, table⟩ := setUp_eq_ok done
  have handlers := filterMap_append loggers.handlers
    ((sinks (filePlace? file)).map fun sink => Handler.mk sink [.redaction])
  rw [List.length_map] at handlers
  simp only [view, handlersOf, logger, table, arranged, handlers, wired.root, Bool.and_true]

theorem Wired.setUp (wired : loggers.Wired) (level : String) (file : Option String) :
    (loggers.setUp level file).2.Wired := by
  cases ended : (loggers.setUp level file).1 with
  | error error => exact wired.extended (setUp_eq_error ended)
  | ok answer =>
    have views := wired.view_setUp ended
    obtain ⟨logger, table⟩ := setUp_eq_ok ended
    refine ⟨fun name other => ?_, fun name place member => ?_, fun name handler member => ?_, ?_⟩
    · rw [logger]
    · rw [logger] at member
      rw [table, List.length_append, List.length_map]
      exact (List.mem_range'_1.mp member).2
    · have handlers := congrArg View.handlers (views name)
      rw [show (loggers.setUp level file).2.handlersOf name = _ from handlers] at member
      obtain ⟨sink, -, rfl⟩ := List.mem_map.mp member
      rfl
    · have root := congrArg View.propagates (views .root)
      exact root

theorem wired_past (steps : List Step) : (past steps).Wired := by
  suffices run : ∀ loggers : Loggers, loggers.Wired → (steps.foldl Step.after loggers).Wired from
    run initial wired_initial
  induction steps with
  | nil => exact fun _ wired => wired
  | cons step rest ih =>
    intro loggers wired
    cases step with
    | setUp level file => exact ih _ (wired.setUp level file)
    | emit entry =>
      obtain ⟨logger, handlers⟩ := loggers.emit_keeps entry
      exact ih _ (wired.extended ⟨logger, handlers ▸ List.prefix_rfl⟩)

/-- What a set-up does: it succeeds if its file can be opened, and then what can be told of a logger
follows from the arguments. Otherwise all that can be told of a logger stays. -/
structure Replaces (loggers : Loggers) (level : String) (file : Option String) : Prop where
  succeeds : (∃ answer, (loggers.setUp level file).1 = .ok answer) ↔
    ∀ place, filePlace? file = some place → place.canOpen
  done : ∀ answer, (loggers.setUp level file).1 = .ok answer →
    ∀ name, (loggers.setUp level file).2.view name = arranged level file name
  failed : ∀ error, (loggers.setUp level file).1 = .error error →
    ∀ name, (loggers.setUp level file).2.view name = loggers.view name

theorem setUp_replaces (steps : List Step) :
    (past steps).Wired ∧ ∀ level file, (past steps).Replaces level file := by
  have wired := wired_past steps
  refine ⟨wired, fun level file => ⟨setUp_succeeds _ level file, fun answer done => ?_,
    fun error failed => ?_⟩⟩
  · exact wired.view_setUp done
  · exact wired.view_extends (setUp_eq_error failed)

end RegistryGate.Log.Loggers
