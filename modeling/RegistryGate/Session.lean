import RegistryGate.Concurrent
import RegistryGate.Gate

/-!
# Sessions

An API, the client slot that requests share, and the count of the requests so far, from which each
request takes its identifier. Requests come one after another or several at a time.
-/

namespace RegistryGate

/-- What requests share. -/
structure Session where
  api : Api
  slot : ClientSlot
  /-- How many requests have been given an identifier. -/
  requests : Nat
  /-- The places of the verifiers that were asked. -/
  asked : List Nat

/-- What is presented for authorization. -/
inductive Presented where
  | header (value : Option (List Char))
  | credential (value : Option Credential)

structure Call where
  presented : Presented
  method : String
  path : String
  /-- How long the caller waits. -/
  deadline : Option Rat

namespace Session

/-- The session before the first request. -/
def start (api : Api) (slot : ClientSlot) : Session := ⟨api, slot, 0, []⟩

def timesAsked (session : Session) (place : Nat) : Nat := session.asked.count place

/-- The identifier of the request that comes after a given number of others. -/
def nextId (session : Session) (others : Nat) : String := requestId (session.requests + others + 1)

/-- Carries out a procedure that has an identifier of its own. -/
def run {α : Type} (session : Session) (procedure : String → Procedure α) : Run α × Session :=
  let run := (procedure (session.nextId 0)).run session.api none 0 session.slot
  (run, { session with
    slot := run.slot
    requests := session.requests + 1
    asked := session.asked ++ run.consulted })

/-- What an engine does for a call. -/
def procedure (engine : Engine) (call : Call) (id : String) :
    Procedure (Except Challenge Grant) :=
  let context : RequestContext := ⟨call.method, call.path, id⟩
  match call.presented with
  | .header value => engine.authorizeHeader context value
  | .credential value => engine.authorize context value

def tasks (session : Session) (engine : Engine) (calls : List Call) :
    List (Task (Except Challenge Grant)) :=
  calls.mapIdx fun index call =>
    .start (procedure engine call (session.nextId index)) call.deadline

/-- Carries out calls together, interleaved by a schedule. -/
def together (session : Session) (engine : Engine) (schedule : List Move) (calls : List Call) :
    List (Run (Except Challenge Grant)) × Session :=
  let (runs, slot) :=
    Concurrent.run session.api schedule (session.tasks engine calls) session.slot
  (runs, { session with
    slot
    requests := session.requests + calls.length
    asked := session.asked ++ runs.flatMap Run.consulted })

/-- A step of each of some tasks in turn, and that over and over. -/
def inTurn (rounds count : Nat) : List Move :=
  (List.replicate rounds ((List.range count).map .step)).flatten

def authorize (session : Session) (engine : Engine) (calls : List Call) :
    List (Run (Except Challenge Grant)) × Session :=
  session.together engine (inTurn 16 calls.length) calls

/-- Deals with a scope. Only a request that has to be authorized takes an identifier. -/
def serve (session : Session) (engine : Engine) (paths : List String) (scope : Scope) :
    Run Handling × Session :=
  let (run, after) := session.run (Gate.handle engine.authorizer paths scope)
  (run, if Gate.isGuarded paths scope then after else { after with requests := session.requests })

def close (session : Session) : Session := { session with slot := session.slot.close }

end Session

end RegistryGate
