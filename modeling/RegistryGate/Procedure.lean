import RegistryGate.Client
import RegistryGate.Event
import RegistryGate.Exchange
import RegistryGate.RequestContext

/-!
# Procedures

What a request does, step by step: it takes notes, waits, gets hold of the client and exchanges
messages with the API. A procedure is a value; `Procedure.run` carries it out against an API and a
client slot, on a clock that moves only while the procedure waits. At its deadline a procedure is
cancelled: the wait that is under way ends there, and the procedure goes on with what it does about
that. It may take note of the cancellation, pass it on to its caller (`Procedure.cancelled`) or catch
it and come to a value all the same.
-/

namespace RegistryGate

/-- A note that a procedure takes. -/
inductive Note where
  | logged (event : Event)
  /-- The verifier at a place in the chain is asked. -/
  | consulted (place : Nat)
  /-- The grant is entered in the context of the request. -/
  | granted (grant : Grant)
deriving Inhabited

/-- What a request does. A wait goes on with `next` when it is over, and with `stopped` when a
cancellation ends it. -/
inductive Procedure (α : Type) where
  | done (value : α)
  /-- Ends without a value, and leaves a cancellation to the caller. -/
  | cancelled
  | record (note : Note) (next : Procedure α)
  /-- Reads the clock. -/
  | clock (next : Rat → Procedure α)
  | pause (seconds : Rat) (next stopped : Procedure α)
  /-- Gets hold of the client for a base address, with the read timeout of a new one. -/
  | connect (base : List Char) (readTimeout : Seconds)
      (next : Except Fault Client → Procedure α)
  /-- Sends a request and waits for the reply, for a limited time or for ever. -/
  | exchange (client : Client) (request : Request) (limit : Limit)
      (next : Except Fault Answer → Procedure α) (stopped : Procedure α)

namespace Procedure

variable {α β : Type}

/-- One procedure after another. -/
def bind : Procedure α → (α → Procedure β) → Procedure β
  | .done value, f => f value
  | .cancelled, _ => .cancelled
  | .record note next, f => .record note (next.bind f)
  | .clock next, f => .clock fun now => (next now).bind f
  | .pause seconds next stopped, f => .pause seconds (next.bind f) (stopped.bind f)
  | .connect base readTimeout next, f =>
    .connect base readTimeout fun client => (next client).bind f
  | .exchange client request limit next stopped, f =>
    .exchange client request limit (fun answer => (next answer).bind f) (stopped.bind f)

instance : Monad Procedure where
  pure := .done
  bind := Procedure.bind

/-- A procedure under handlers: whoever goes on with it is told of a cancellation that it leaves, as
`none`, and may do about it what they like. -/
def attempt : Procedure α → Procedure (Option α)
  | .done value => .done (some value)
  | .cancelled => .done none
  | .record note next => .record note next.attempt
  | .clock next => .clock fun now => (next now).attempt
  | .pause seconds next stopped => .pause seconds next.attempt stopped.attempt
  | .connect base readTimeout next => .connect base readTimeout fun client => (next client).attempt
  | .exchange client request limit next stopped =>
    .exchange client request limit (fun answer => (next answer).attempt) stopped.attempt

/-- Handlers that leave a cancellation alone make no difference to it. -/
theorem attempt_bind (procedure : Procedure α) {f : Option α → Procedure β}
    (uncaught : f none = .cancelled) :
    procedure.attempt >>= f = procedure >>= fun value => f (some value) := by
  show procedure.attempt.bind f = procedure.bind fun value => f (some value)
  induction procedure with
  | done value => rfl
  | cancelled => exact uncaught
  | record note next ih => exact congrArg (record note) ih
  | clock next ih => exact congrArg clock (funext ih)
  | pause seconds next stopped ih ihStopped => exact congr (congrArg (pause seconds) ih) ihStopped
  | connect base readTimeout next ih => exact congrArg (connect base readTimeout) (funext ih)
  | exchange client request limit next stopped ih ihStopped =>
    exact congr (congrArg (exchange client request limit) (funext ih)) ihStopped

def log (event : Event) : Procedure Unit := .record (.logged event) (.done ())

def grant (grant : Grant) : Procedure Unit := .record (.granted grant) (.done ())

def consult (place : Nat) : Procedure Unit := .record (.consulted place) (.done ())

/-! ## Properties of procedures -/

/-- A property of procedures that the log does not affect and that a sequence has from its parts. -/
structure Composes (P : ∀ α : Type, Procedure α → Prop) : Prop where
  done {α : Type} (value : α) : P α (.done value)
  log (event : Event) : P Unit (log event)
  bind {α β : Type} {procedure : Procedure α} {f : α → Procedure β} (first : P α procedure)
    (second : ∀ value, P β (f value)) : P β (procedure >>= f)

/-- A procedure takes no notes but for the log: it asks no verifier and enters no grant. -/
def OnlyLogs : Procedure α → Prop
  | .done _ => True
  | .cancelled => True
  | .record (.logged _) next => next.OnlyLogs
  | .record _ _ => False
  | .clock next => ∀ now, (next now).OnlyLogs
  | .pause _ next stopped => next.OnlyLogs ∧ stopped.OnlyLogs
  | .connect _ _ next => ∀ client, (next client).OnlyLogs
  | .exchange _ _ _ next stopped => (∀ answer, (next answer).OnlyLogs) ∧ stopped.OnlyLogs

theorem OnlyLogs.bind {procedure : Procedure α} {f : α → Procedure β} (first : procedure.OnlyLogs)
    (second : ∀ value, (f value).OnlyLogs) : (procedure >>= f).OnlyLogs := by
  show (procedure.bind f).OnlyLogs
  induction procedure with
  | done value => exact second value
  | cancelled => trivial
  | record note next ih =>
    cases note with
    | logged event => exact ih first
    | consulted place => exact first.elim
    | granted grant => exact first.elim
  | clock next ih => exact fun now => ih now (first now)
  | pause seconds next stopped ih ihStopped => exact ⟨ih first.1, ihStopped first.2⟩
  | connect base readTimeout next ih => exact fun client => ih client (first client)
  | exchange client request limit next stopped ih ihStopped =>
    exact ⟨fun answer => ih answer (first.1 answer), ihStopped first.2⟩

theorem onlyLogs_composes : Composes fun _ procedure => procedure.OnlyLogs :=
  ⟨fun _ => trivial, fun _ => trivial, OnlyLogs.bind⟩

/-- A procedure that ends as soon as it is cancelled: wherever it waits it leaves a cancellation to its
caller, and it comes to a value if there is none. -/
def Interruptible : Procedure α → Prop
  | .done _ => True
  | .cancelled => False
  | .record _ next => next.Interruptible
  | .clock next => ∀ now, (next now).Interruptible
  | .pause _ next stopped => next.Interruptible ∧ stopped = .cancelled
  | .connect _ _ next => ∀ client, (next client).Interruptible
  | .exchange _ _ _ next stopped => (∀ answer, (next answer).Interruptible) ∧ stopped = .cancelled

theorem Interruptible.bind {procedure : Procedure α} {f : α → Procedure β}
    (first : procedure.Interruptible) (second : ∀ value, (f value).Interruptible) :
    (procedure >>= f).Interruptible := by
  show (procedure.bind f).Interruptible
  induction procedure with
  | done value => exact second value
  | cancelled => exact first.elim
  | record note next ih => exact ih first
  | clock next ih => exact fun now => ih now (first now)
  | pause seconds next stopped ih _ => exact ⟨ih first.1, congrArg (·.bind f) first.2⟩
  | connect base readTimeout next ih => exact fun client => ih client (first client)
  | exchange client request limit next stopped ih _ =>
    exact ⟨fun answer => ih answer (first.1 answer), congrArg (·.bind f) first.2⟩

theorem interruptible_composes : Composes fun _ procedure => procedure.Interruptible :=
  ⟨fun _ => trivial, fun _ => trivial, Interruptible.bind⟩

end Procedure

/-! ## Traces -/

/-- What is seen of a procedure from outside. -/
inductive Observation where
  | noted (note : Note)
  | requested (request : Request) (outcome : Outcome)
deriving Inhabited

structure Entry where
  time : Rat
  seen : Observation
deriving Inhabited

namespace Entry

def request? (entry : Entry) : Option (Request × Outcome) :=
  match entry.seen with
  | .requested request outcome => some (request, outcome)
  | .noted _ => none

@[simp]
theorem request?_noted (time : Rat) (note : Note) : request? ⟨time, .noted note⟩ = none := rfl

@[simp]
theorem request?_requested (time : Rat) (request : Request) (outcome : Outcome) :
    request? ⟨time, .requested request outcome⟩ = some (request, outcome) := rfl

end Entry

/-- The course of a procedure. -/
structure Run (α : Type) where
  /-- The value it came to, unless it was cancelled. -/
  value : Option α
  /-- The time it ended at. -/
  ended : Rat
  slot : ClientSlot
  trace : List Entry

namespace Run

variable {α : Type}

/-- A run with an entry before its trace. -/
def after (entry : Entry) (run : Run α) : Run α := { run with trace := entry :: run.trace }

def events (run : Run α) : List Event :=
  run.trace.filterMap fun entry =>
    match entry.seen with
    | .noted (.logged event) => some event
    | _ => none

def requests (run : Run α) : List (Request × Outcome) := run.trace.filterMap Entry.request?

def consulted (run : Run α) : List Nat :=
  run.trace.filterMap fun entry =>
    match entry.seen with
    | .noted (.consulted place) => some place
    | _ => none

def grants (run : Run α) : List Grant :=
  run.trace.filterMap fun entry =>
    match entry.seen with
    | .noted (.granted grant) => some grant
    | _ => none

/-- What a run makes of the metadata of its request. -/
def metadata (run : Run α) (before : Metadata) : Metadata := run.grants.foldl Metadata.enter before

end Run

/-! ## Carrying out -/

/-- The time to stop at, if a wait that begins at a given time is cut off by the deadline. A wait
that takes no time is not, and one that ends with the deadline is. -/
def cutOff? (deadline : Option Rat) (now wait : Rat) : Option Rat :=
  deadline.bind fun deadline => if 0 < wait ∧ deadline ≤ now + wait then some deadline else none

namespace Procedure

variable {α : Type}

/-- What becomes of a procedure in one step. A procedure is cancelled once: after that it goes on
without a deadline. -/
inductive Step (α : Type) where
  | finished (value : Option α)
  | went (rest : Procedure α) (deadline : Option Rat) (time : Rat) (slot : ClientSlot)
    (trace : List Entry)

def step (api : Api) (deadline : Option Rat) (now : Rat) (slot : ClientSlot) :
    Procedure α → Step α
  | .done value => .finished (some value)
  | .cancelled => .finished none
  | .record note next => .went next deadline now slot [⟨now, .noted note⟩]
  | .clock next => .went (next now) deadline now slot []
  | .pause seconds next stopped =>
    match cutOff? deadline now seconds with
    | some time => .went stopped none time slot []
    | none => .went next deadline (now + seconds) slot []
  | .connect base readTimeout next =>
    let (client, slot) := slot.ensure base readTimeout
    .went (next client) deadline now slot []
  | .exchange client request limit next stopped =>
    if slot.isClosed client then .went (next (.error .closedClient)) deadline now slot []
    else
      let reply := api request
      let wait := reply.duration limit
      match cutOff? deadline now wait with
      | some time => .went stopped none time slot [⟨now, .requested request .cancelled⟩]
      | none =>
        .went (next (reply.under limit)) deadline (now + wait) slot
          [⟨now, .requested request (reply.outcome limit)⟩]

def run (api : Api) (deadline : Option Rat) (now : Rat) (slot : ClientSlot) :
    Procedure α → Run α
  | .done value => ⟨some value, now, slot, []⟩
  | .cancelled => ⟨none, now, slot, []⟩
  | .record note next => (next.run api deadline now slot).after ⟨now, .noted note⟩
  | .clock next => (next now).run api deadline now slot
  | .pause seconds next stopped =>
    match cutOff? deadline now seconds with
    | some time => stopped.run api none time slot
    | none => next.run api deadline (now + seconds) slot
  | .connect base readTimeout next =>
    (next (slot.ensure base readTimeout).1).run api deadline now (slot.ensure base readTimeout).2
  | .exchange client request limit next stopped =>
    if slot.isClosed client then (next (.error .closedClient)).run api deadline now slot
    else
      let reply := api request
      let wait := reply.duration limit
      match cutOff? deadline now wait with
      | some time => (stopped.run api none time slot).after ⟨now, .requested request .cancelled⟩
      | none =>
        ((next (reply.under limit)).run api deadline (now + wait) slot).after
          ⟨now, .requested request (reply.outcome limit)⟩

/-- The run that a step begins. -/
def Step.run (api : Api) (now : Rat) (slot : ClientSlot) : Step α → Run α
  | .finished value => ⟨value, now, slot, []⟩
  | .went rest deadline time slot trace =>
    let run := rest.run api deadline time slot
    { run with trace := trace ++ run.trace }

/-- A run is its first step and the run of the rest. -/
theorem run_eq_run_step (api : Api) (deadline : Option Rat) (now : Rat) (slot : ClientSlot)
    (procedure : Procedure α) :
    procedure.run api deadline now slot =
      (procedure.step api deadline now slot).run api now slot := by
  cases procedure with
  | done => rfl
  | cancelled => rfl
  | record => rfl
  | clock => rfl
  | pause seconds next stopped => simp only [run, step]; split <;> rfl
  | connect => rfl
  | exchange client request limit next stopped =>
    simp only [run, step]
    split
    · rfl
    · split <;> rfl

end Procedure

end RegistryGate
