import RegistryGate.Log.File
import RegistryGate.Log.Line
import RegistryGate.Log.Record

/-!
# Loggers

The set-up of logging gives four loggers their levels and their handlers. All four share the same
handlers, one for the console and perhaps one for a file, and a handler that is on a logger is
reached through its place in a table, so a filter put on it there is a filter of every logger. Each
set-up makes new handlers, and one that fails leaves them unused. `emit` brings an entry to the
handlers of its logger and of the loggers above it.
-/

namespace RegistryGate.Log

/-- The loggers that the set-up configures. Any other logger lies below one of them. -/
inductive LoggerName where
  | gate
  | httpClient
  | httpTransport
  | root
deriving DecidableEq, Inhabited

namespace LoggerName

def text : LoggerName → String
  | .gate => "registry_auth"
  | .httpClient => "httpx"
  | .httpTransport => "httpcore"
  | .root => "root"

def all : List LoggerName := [.gate, .httpClient, .httpTransport, .root]

/-- Whether a logger is, or lies above, the logger of the given name: names lead downwards from dot
to dot, and everything is below the root. -/
def isAbove (name : LoggerName) (logger : String) : Bool :=
  name == .root || logger == name.text || (name.text ++ ".").toList.isPrefixOf logger.toList

end LoggerName

inductive Sink where
  | console
  | file (place : Place)
deriving DecidableEq

/-- Writes records to a sink after its filters have seen them. -/
structure Handler where
  sink : Sink
  filters : List Filter
deriving DecidableEq

/-- A handler with a filter, which it holds at most once. -/
def Handler.addFilter (handler : Handler) (filter : Filter) : Handler :=
  if filter ∈ handler.filters then handler
  else { handler with filters := handler.filters ++ [filter] }

/-- A logger: its own level if it has one, the places of its handlers in the table, and whether its
records also go to the handlers of the loggers above it. -/
structure Logger where
  level : Option Level
  propagates : Bool
  handlers : List Nat
deriving DecidableEq, Inhabited

/-- The loggers, the table of all handlers that were ever made, and the contents of the files. -/
structure Loggers where
  logger : LoggerName → Logger
  handlers : List Handler
  files : List (Place × String)

namespace Loggers

/-- The loggers before any set-up: only the root has a level, and there is no handler. -/
def initial : Loggers where
  logger name := ⟨if name = .root then some .warning else none, true, []⟩
  handlers := []
  files := []

def handlersOf (loggers : Loggers) (name : LoggerName) : List Handler :=
  (loggers.logger name).handlers.filterMap (loggers.handlers[·]?)

/-! ## Set-up -/

def defaultLevel : Level := .info

/-- The capital of a character if that is an ASCII letter, which it also is for the dotless i and
the long s; otherwise the character. -/
def capital (c : Char) : Char :=
  if c = 'ı' then 'I' else if c = 'ſ' then 'S' else c.toUpper

/-- The level that a text names, in letters of either case. -/
def levelNamed? (text : String) : Option Level :=
  Level.ofName? (.ofList (text.toList.map capital))

def levelWarning (text : String) : String :=
  "Warning: invalid log level '" ++ text ++ "'. Using '" ++ defaultLevel.name ++ "'.\n"

/-- The level that each logger has after a set-up. The root hears what the gate hears only if that
is everything. -/
def levelOf (level : Level) : LoggerName → Level
  | .gate => level
  | .root => if level = .debug then .debug else .warning
  | _ => .warning

def sinks (file : Option Place) : List Sink := .console :: (file.map Sink.file).toList

def openFile (loggers : Loggers) (place : Place) : Loggers :=
  match Entries.get? loggers.files place with
  | some _ => loggers
  | none => { loggers with files := Entries.insert loggers.files place "" }

inductive SetUpError where
  | unusableFile (place : Place)
deriving DecidableEq

def openSink (loggers : Loggers) : Sink → Except SetUpError Loggers
  | .console => .ok loggers
  | .file place =>
    if place.canOpen then .ok (loggers.openFile place) else .error (.unusableFile place)

/-- Puts a new handler for a sink into the table, without filters. -/
def addHandler (loggers : Loggers) (sink : Sink) : Loggers :=
  { loggers with handlers := loggers.handlers ++ [⟨sink, []⟩] }

/-- Makes a new handler for each sink in turn: their places in the table, or why one cannot be made.
Those made before it stay in the table. -/
def makeHandlers (loggers : Loggers) : List Sink → Except SetUpError (List Nat) × Loggers
  | [] => (.ok [], loggers)
  | sink :: rest =>
    match loggers.openSink sink with
    | .error error => (.error error, loggers)
    | .ok opened =>
      let (places, made) := (opened.addHandler sink).makeHandlers rest
      (places.map (opened.handlers.length :: ·), made)

/-- Gives a logger its level, and the handlers at some places for those that it had. The records of a
logger below the root then go to its own handlers only. -/
def configure (level : Level) (places : List Nat) (loggers : Loggers) (name : LoggerName) : Loggers :=
  { loggers with
    logger := fun other =>
      if other = name then
        ⟨some (levelOf level name), name = .root && (loggers.logger name).propagates, places⟩
      else loggers.logger other }

def filterRoot (loggers : Loggers) (filter : Filter) : Loggers :=
  { loggers with
    handlers := (loggers.logger .root).handlers.foldl
      (fun table place => table.modify place (·.addFilter filter)) loggers.handlers }

def filePlace? : Option String → Option Place
  | none => none
  | some name => if name = "" then none else some (.ofName name)

/-- Sets up logging for the named level, and a log file if there is a name for it. No logger is touched
before all handlers are made. The answer is the level and the warning on the console, which is empty
if the text names a level. -/
def setUp (loggers : Loggers) (level : String) (file : Option String) :
    Except SetUpError (Level × String) × Loggers :=
  let chosen := (levelNamed? level).getD defaultLevel
  let warning := if (levelNamed? level).isSome then "" else levelWarning level
  match loggers.makeHandlers (sinks (filePlace? file)) with
  | (.error error, made) => (.error error, made)
  | (.ok places, made) =>
    (.ok (chosen, warning),
      (LoggerName.all.foldl (configure chosen places) made).filterRoot .redaction)

/-! ## Entries -/

structure Entry where
  logger : String
  level : Level
  record : Record
  number : Int
  created : Rat

/-- The name that an entry is written under. The logger without a name is the root. -/
def Entry.name (entry : Entry) : String :=
  if entry.logger = "" then LoggerName.root.text else entry.logger

/-- The configured loggers at or above an entry's logger, the nearest one first. -/
def Entry.path (entry : Entry) : List LoggerName :=
  LoggerName.all.filter (·.isAbove entry.logger)

/-- The level that counts for an entry: the nearest one that is set. -/
def levelFor (loggers : Loggers) (entry : Entry) : Level :=
  (entry.path.findSome? fun name => (loggers.logger name).level).getD .debug

/-- The handlers that the records of the first logger on a path reach. -/
def reached (loggers : Loggers) : List LoggerName → List Handler
  | [] => []
  | name :: above =>
    loggers.handlersOf name ++
      if (loggers.logger name).propagates then loggers.reached above else []

def append (loggers : Loggers) (place : Place) (text : String) : Loggers :=
  let written := (Entries.get? loggers.files place).getD ""
  { loggers with files := Entries.insert loggers.files place (written ++ text) }

def filtered (filters : List Filter) (record : Record) : Option Record :=
  filters.foldlM (fun record filter => filter.apply record) record

/-- Brings an entry to handlers in turn: what they write to the console, and the loggers after. A
filter changes the record for the handlers that follow. A record without a text is not written. -/
def deliver (loggers : Loggers) (entry : Entry) : List Handler → String × Loggers
  | [] => ("", loggers)
  | handler :: rest =>
    match filtered handler.filters entry.record with
    | none => loggers.deliver entry rest
    | some record =>
      let entry := { entry with record }
      match record.text with
      | .error _ => loggers.deliver entry rest
      | .ok text =>
        let line := line entry.created entry.name entry.number entry.level text
        match handler.sink with
        | .console =>
          let (console, loggers) := loggers.deliver entry rest
          (line ++ console, loggers)
        | .file place => (loggers.append place line).deliver entry rest

/-- What is written for an entry that no handler is there for: from a warning on, its text alone. -/
def lastResort (entry : Entry) : String :=
  if entry.level.rank < Level.warning.rank then ""
  else match entry.record.text with
    | .ok text => text ++ "\n"
    | .error _ => ""

/-- Logs an entry: what it writes to the console, or nothing at all if its level does not count. -/
def emit (loggers : Loggers) (entry : Entry) : Option String × Loggers :=
  if entry.level.rank < (loggers.levelFor entry).rank then (none, loggers)
  else
    match loggers.reached entry.path with
    | [] => (some (lastResort entry), loggers)
    | handlers =>
      let (console, loggers) := loggers.deliver entry handlers
      (some console, loggers)

end Loggers

end RegistryGate.Log
