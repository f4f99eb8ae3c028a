import RegistryGate.Log.Redaction
import RegistryGate.Log.Template

/-!
# Log records

A record is what a log call leaves: a message, which may be any value, and its arguments. Its text
is the message with the arguments filled in. Before a record is written it passes through filters;
the filter for credentials scrubs the message and the arguments, each on its own.
-/

namespace RegistryGate.Log

structure Record where
  message : Datum String
  arguments : Datum String
deriving Inhabited

namespace Record

/-- The record of a log call. One mapping that is not empty stands for named arguments. -/
def ofCall (message : Datum String) (arguments : List (Datum String)) : Record where
  message := message
  arguments := match arguments with
    | [.mapping (entry :: rest)] => .mapping (entry :: rest)
    | arguments => .tuple arguments

/-- The text of a record. Without arguments the message is no template. -/
def text (record : Record) : Except TemplateFault String :=
  if record.arguments.isEmptyValue then .ok record.message.display
  else format record.message.display record.arguments

end Record

/-! ## Redaction -/

/-- A value without credentials, if it is a text. -/
def redactText : Datum String → Datum String
  | .text value => .text (scrub value)
  | value => value

/-- A positional argument without credentials. An exception is replaced by its text. -/
def redactArgument : Datum String → Datum String
  | .text value => .text (scrub value)
  | .failure value => .text (scrub value)
  | value => value

/-- The arguments of a record without credentials. Only texts and exceptions in their first level
are looked at, and of named arguments only the texts. -/
def redactArguments : Datum String → Datum String
  | .mapping entries => .mapping (entries.map fun entry => (entry.1, redactText entry.2))
  | .tuple items => .tuple (items.map redactArgument)
  | value => value

def Record.redact (record : Record) : Record :=
  ⟨redactText record.message, redactArguments record.arguments⟩

/-! ## Filters -/

inductive Filter where
  | redaction
deriving DecidableEq

/-- The record that a filter lets through, if it lets it through at all. -/
def Filter.apply : Filter → Record → Option Record
  | .redaction, record => some record.redact

end RegistryGate.Log
