import RegistryGate.Fault
import RegistryGate.Number.Seconds
import RegistryGate.Url

/-!
# HTTP clients

A verifier holds one client. Either the client is handed to it, and then it stays; or the verifier
opens one when it first needs it, closes it when it is told to, and opens another afterwards.
-/

namespace RegistryGate

/-- An HTTP client. Its number tells it from every other client of the same verifier. -/
structure Client where
  number : Nat
  base : Url
  readTimeout : Seconds
deriving DecidableEq, Inhabited

/-- The client that a verifier holds, and the clients that it has held. -/
structure ClientSlot where
  held : Option Client
  /-- Whether the verifier opens and closes its clients itself. -/
  owned : Bool
  /-- How many clients there have been. -/
  opened : Nat
  closed : List Nat
deriving DecidableEq, Inhabited

namespace ClientSlot

/-- The slot of a verifier that opens its own client. -/
def ofOwner : ClientSlot := ⟨none, true, 0, []⟩

def newClient (number : Nat) (base : List Char) (readTimeout : Seconds) : Except Fault Client :=
  match Url.base? base with
  | some url => .ok ⟨number, url, readTimeout⟩
  | none => .error .invalidUrl

/-- The read timeout of a client that was not given one, in seconds. -/
def standardTimeout : Seconds := .real (.finite false (5 * Nat.pow 2 50) (-50))

/-- The slot of a verifier that is handed a client. -/
def handed (client : Client) : ClientSlot := ⟨some client, false, 1, []⟩

/-- The slot of a verifier that is handed a client on a base address. -/
def injected (base : List Char) : Except Fault ClientSlot :=
  (newClient 0 base standardTimeout).map handed

/-- The client to use: the one held, or else a new one that is held from now on. -/
def ensure (slot : ClientSlot) (base : List Char) (readTimeout : Seconds) :
    Except Fault Client × ClientSlot :=
  match slot.held with
  | some client => (.ok client, slot)
  | none =>
    match newClient slot.opened base readTimeout with
    | .ok client => (.ok client, { slot with held := some client, opened := slot.opened + 1 })
    | .error fault => (.error fault, slot)

/-- Closes and forgets the client held, if the verifier opened it itself. -/
def close (slot : ClientSlot) : ClientSlot :=
  match slot.held with
  | some client =>
    if slot.owned then { slot with held := none, closed := client.number :: slot.closed } else slot
  | none => slot

def isClosed (slot : ClientSlot) (client : Client) : Bool := slot.closed.contains client.number

def hasOpenClient (slot : ClientSlot) : Bool :=
  match slot.held with
  | some client => !slot.isClosed client
  | none => false

end ClientSlot

end RegistryGate
