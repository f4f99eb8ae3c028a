import RegistryGate.Procedure

/-!
# Concurrent procedures

Several procedures that share one client slot, each on its own clock. A schedule says which of them
takes the next step, and when the client is closed; whatever it leaves undone is finished in order, so
every schedule is one interleaving of complete runs.
-/

namespace RegistryGate

/-- A procedure under way. -/
structure Task (α : Type) where
  rest : Procedure α
  deadline : Option Rat
  time : Rat
  trace : List Entry

namespace Task

variable {α : Type}

def start (procedure : Procedure α) (deadline : Option Rat) : Task α :=
  ⟨procedure, deadline, 0, []⟩

/-- The task and the slot after one step. A task that has ended stays as it is. -/
def advance (api : Api) (slot : ClientSlot) (task : Task α) : Task α × ClientSlot :=
  match task.rest.step api task.deadline task.time slot with
  | .finished _ => (task, slot)
  | .went rest deadline time slot trace => (⟨rest, deadline, time, task.trace ++ trace⟩, slot)

/-- The whole run of a task, from where it stands to its end. -/
def finish (api : Api) (slot : ClientSlot) (task : Task α) : Run α :=
  let run := task.rest.run api task.deadline task.time slot
  { run with trace := task.trace ++ run.trace }

end Task

/-- A move of a schedule. -/
inductive Move where
  /-- The task at a place takes a step. -/
  | step (place : Nat)
  /-- The client is closed. -/
  | close
deriving DecidableEq

namespace Concurrent

variable {α : Type}

/-- One step of the task at a place; a place without a task does nothing. -/
def stepAt (api : Api) (state : List (Task α) × ClientSlot) (place : Nat) :
    List (Task α) × ClientSlot :=
  match state.1[place]? with
  | none => state
  | some task =>
    let (task, slot) := task.advance api state.2
    (state.1.set place task, slot)

def move (api : Api) (state : List (Task α) × ClientSlot) : Move → List (Task α) × ClientSlot
  | .step place => stepAt api state place
  | .close => (state.1, state.2.close)

def finishAll (api : Api) (slot : ClientSlot) : List (Task α) → List (Run α) × ClientSlot
  | [] => ([], slot)
  | task :: rest =>
    let run := task.finish api slot
    let (runs, slot) := finishAll api run.slot rest
    (run :: runs, slot)

/-- Runs tasks together: first by the schedule, then to their ends. -/
def run (api : Api) (schedule : List Move) (tasks : List (Task α)) (slot : ClientSlot) :
    List (Run α) × ClientSlot :=
  let (tasks, slot) := schedule.foldl (move api) (tasks, slot)
  finishAll api slot tasks

end Concurrent

end RegistryGate
