import RegistryGate.Proofs.PlainValues
import RegistryGate.Proofs.Scrubbing
import RegistryGate.Proofs.Wiring

/-!
# Filtering twice

A record that has passed the redaction filter passes it again unchanged (`Record.redact_redact`),
because a scrubbed text has no secret left to mask. So the handlers that a record comes to, each with the
filter, all write the same line (`redaction_settles`), whichever of them it comes to first.
-/

namespace RegistryGate.Log

/-! ## Records -/

theorem scrub_scrub (text : String) : scrub (scrub text) = scrub text :=
  scrub_eq_self_iff.mpr (masked_scrub text)

theorem redactText_redactText (value : Datum String) :
    redactText (redactText value) = redactText value := by
  cases value with
  | text value => rw [redactText, redactText, scrub_scrub]
  | _ => rfl

/-- An exception among the arguments becomes its scrubbed text, which is then kept. -/
theorem redactArgument_redactArgument (value : Datum String) :
    redactArgument (redactArgument value) = redactArgument value := by
  cases value with
  | text value => rw [redactArgument, redactArgument, scrub_scrub]
  | failure value => rw [redactArgument, redactArgument, scrub_scrub]
  | _ => rfl

theorem redactArguments_redactArguments (arguments : Datum String) :
    redactArguments (redactArguments arguments) = redactArguments arguments := by
  cases arguments with
  | mapping entries =>
    simp only [redactArguments, List.map_map, Function.comp_def, redactText_redactText]
  | tuple items =>
    simp only [redactArguments, List.map_map, Function.comp_def, redactArgument_redactArgument]
  | _ => rfl

theorem Record.redact_redact (record : Record) : record.redact.redact = record.redact := by
  simp only [Record.redact, redactText_redactText, redactArguments_redactArguments]

/-! ## Handlers -/

namespace Loggers

variable {loggers : Loggers} {entry : Entry} {handlers : List Handler}

/-- However often a list of filters holds the redaction, the record comes out redacted once. -/
theorem filtered_eq (filters : List Filter) (record : Record) :
    filtered filters record = some (if filters = [] then record else record.redact) := by
  induction filters generalizing record with
  | nil => rfl
  | cons filter rest ih =>
    cases filter
    rw [filtered, List.foldlM_cons, Filter.apply, Option.bind_eq_bind, Option.bind_some]
    rw [if_neg (List.cons_ne_nil _ rest)]
    refine (ih record.redact).trans (congrArg some ?_)
    split
    · rfl
    · exact record.redact_redact

theorem filtered_of_mem {filters : List Filter} (carried : Filter.redaction ∈ filters)
    (record : Record) : filtered filters record = some record.redact := by
  rw [filtered_eq, if_neg (List.ne_nil_of_mem carried)]

/-- What is on the console and in the files after each of some handlers has written one and the same
line. -/
def writeAll (loggers : Loggers) (line : String) : List Handler → String × Loggers
  | [] => ("", loggers)
  | handler :: rest =>
    match handler.sink with
    | .console => (line ++ (loggers.writeAll line rest).1, (loggers.writeAll line rest).2)
    | .file place => (loggers.append place line).writeAll line rest

/-- Handlers with the filter write the line of the redacted record. The first of them passes the record
on redacted, so the others redact it again. -/
theorem deliver_redacting (carry : ∀ handler ∈ handlers, Filter.redaction ∈ handler.filters)
    {text : String} (shown : entry.record.redact.text = .ok text) :
    loggers.deliver entry handlers =
      loggers.writeAll (line entry.created entry.name entry.number entry.level text) handlers := by
  induction handlers generalizing loggers entry with
  | nil => rfl
  | cons handler rest ih =>
    obtain ⟨carried, others⟩ := List.forall_mem_cons.mp carry
    have again : entry.record.redact.redact.text = .ok text := by rw [Record.redact_redact, shown]
    have later (loggers : Loggers) : loggers.deliver { entry with record := entry.record.redact } rest =
        loggers.writeAll (line entry.created entry.name entry.number entry.level text) rest :=
      ih others again
    unfold deliver writeAll
    simp only [filtered_of_mem carried, shown]
    cases handler.sink with
    | console =>
      simp only [later]
      rfl
    | file place => exact later _

/-- A record that has no text after redaction is written by none of them. -/
theorem deliver_redacting_error (carry : ∀ handler ∈ handlers, Filter.redaction ∈ handler.filters)
    {fault : TemplateFault} (broken : entry.record.redact.text = .error fault) :
    loggers.deliver entry handlers = ("", loggers) := by
  induction handlers generalizing loggers entry with
  | nil => rfl
  | cons handler rest ih =>
    obtain ⟨carried, others⟩ := List.forall_mem_cons.mp carry
    have again : entry.record.redact.redact.text = .error fault := by rw [Record.redact_redact, broken]
    unfold deliver
    simp only [filtered_of_mem carried, broken]
    exact ih others again

theorem mem_reached {path : List LoggerName} {handler : Handler}
    (member : handler ∈ loggers.reached path) : ∃ name, handler ∈ loggers.handlersOf name := by
  induction path with
  | nil => exact absurd member List.not_mem_nil
  | cons name above ih =>
    rw [reached] at member
    rcases List.mem_append.mp member with own | passed
    · exact ⟨name, own⟩
    · split at passed
      · exact ih passed
      · exact absurd passed List.not_mem_nil

/-- Whatever set-ups there have been, the handlers that an entry reaches have the filter. -/
theorem redaction_mem_of_reached (steps : List Step) {path : List LoggerName} {handler : Handler}
    (member : handler ∈ (past steps).reached path) : Filter.redaction ∈ handler.filters := by
  obtain ⟨name, own⟩ := mem_reached member
  have once := (wired_past steps).redacts name handler own
  exact List.count_pos_iff.mp (once ▸ Nat.zero_lt_one)

/-- Redaction comes to rest after once: a scrubbed text, and a record that has passed the filter, stay
as they are. So of a record all handlers with the filter write the same line, that of the redacted
record, or none of them writes anything; and after any set-ups the handlers of every logger have the
filter. -/
theorem redaction_settles :
    (∀ text, scrub (scrub text) = scrub text) ∧
    (∀ record : Record, record.redact.redact = record.redact) ∧
    (∀ (loggers : Loggers) (entry : Entry) (handlers : List Handler),
      (∀ handler ∈ handlers, Filter.redaction ∈ handler.filters) →
      (∀ text, entry.record.redact.text = .ok text → loggers.deliver entry handlers =
        loggers.writeAll (line entry.created entry.name entry.number entry.level text) handlers) ∧
      ∀ fault, entry.record.redact.text = .error fault →
        loggers.deliver entry handlers = ("", loggers)) ∧
    ∀ (steps : List Step) (entry : Entry), ∀ handler ∈ (past steps).reached entry.path,
      Filter.redaction ∈ handler.filters := by
  refine ⟨scrub_scrub, Record.redact_redact, fun loggers entry handlers carry => ⟨?_, ?_⟩, ?_⟩
  · exact fun text => deliver_redacting carry
  · exact fun fault => deliver_redacting_error carry
  · exact fun steps entry handler => redaction_mem_of_reached steps

/-- A token that an argument brings is masked on the console and in the file alike. -/
theorem redaction_settles_on_console_and_file :
    let place : Place := .inside ["logs", "gate.log"]
    let handlers : List Handler := [⟨.console, [.redaction]⟩, ⟨.file place, [.redaction]⟩]
    let record := Record.ofCall (.text "sending %s") [.text "Bearer s3cret"]
    let shown := line 0 "registry_auth" 7 .info "sending Bearer ***REDACTED***"
    (∀ handler ∈ handlers, Filter.redaction ∈ handler.filters) ∧
      record.redact.text = .ok "sending Bearer ***REDACTED***" ∧
      (initial.deliver ⟨"registry_auth", .info, record, 7, 0⟩ handlers).1 = shown ∧
      (initial.deliver ⟨"registry_auth", .info, record, 7, 0⟩ handlers).2.files = [(place, shown)] := by
  intro place handlers record shown
  have carry : ∀ handler ∈ handlers, Filter.redaction ∈ handler.filters := by
    simp [handlers]
  have text : record.redact.text = .ok "sending Bearer ***REDACTED***" :=
    eq_ok_of_toOption (by decide +kernel)
  have delivered := (redaction_settles.2.2.1 initial ⟨"registry_auth", .info, record, 7, 0⟩ handlers
    carry).1 _ text
  have name : Entry.name ⟨"registry_auth", .info, record, 7, 0⟩ = "registry_auth" := rfl
  rw [name] at delivered
  refine ⟨carry, text, ?_, ?_⟩
  · rw [delivered]
    exact String.append_empty
  · rw [delivered]
    exact congrArg (fun line => [(place, line)]) String.empty_append

end Loggers

end RegistryGate.Log
