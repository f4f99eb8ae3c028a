import RegistryGate.Fault
import RegistryGate.Number.Seconds
import RegistryGate.Url

/-!
# HTTP exchanges

A request to the identity API, the reply that the API gives to it after a while, and what is left of
the reply when the time for it is limited.
-/

namespace RegistryGate

/-- A request. Every request is a GET. -/
structure Request where
  url : Url
  authorization : List Char
  accept : String
deriving DecidableEq, Inhabited

/-- An answer of the API. Of its headers none are kept: the API answers in plain bytes and sets no
cookies. -/
structure Answer where
  status : Int
  body : List UInt8
deriving DecidableEq, Inhabited

/-- What the API does with a request: after a delay it answers, or the exchange fails. -/
structure Reply where
  delay : Rat
  result : Except Fault Answer

/-- An identity API, as seen from here. -/
abbrev Api := Request → Reply

inductive Outcome where
  | answered (status : Int)
  | failed
  /-- The exchange was cut off, by its time limit or with its caller. -/
  | cancelled
deriving DecidableEq, Inhabited

/-- How long a reply is waited for. -/
inductive Limit where
  | forever
  | atMost (seconds : Rat)
  /-- The time to stop at is no number. The first wait of any length is cut off at once. -/
  | unordered
deriving DecidableEq, Inhabited

/-- When the wait for a reply with a given delay is cut off, if it is: a reply that is not there
before the limit is too late. -/
def Limit.cut? : Limit → Rat → Option Rat
  | .forever, _ => none
  | .atMost seconds, delay => if seconds ≤ delay then some seconds else none
  | .unordered, delay => if 0 < delay then some 0 else none

/-- The limit that a configured time sets. If it leaves no time nothing is tried, and with an integer
beyond double precision the time to stop at cannot be computed. -/
def Seconds.limit (seconds : Seconds) : Except Fault Limit :=
  if seconds.isNonpositive then .error .timeout
  else
    match seconds with
    | .whole value =>
      if (Binary64.ofInt? value).isSome then .ok (.atMost value) else .error .overflow
    | .real .nan => .ok .unordered
    | .real value => .ok (value.toRat?.elim .forever .atMost)

namespace Reply

/-- The time that an exchange takes under a limit. -/
def duration (reply : Reply) (limit : Limit) : Rat := (limit.cut? reply.delay).getD reply.delay

/-- What an exchange gives under a limit. -/
def under (reply : Reply) (limit : Limit) : Except Fault Answer :=
  if (limit.cut? reply.delay).isSome then .error .timeout else reply.result

def outcome (reply : Reply) (limit : Limit) : Outcome :=
  if (limit.cut? reply.delay).isSome then .cancelled
  else
    match reply.result with
    | .ok answer => .answered answer.status
    | .error _ => .failed

end Reply

end RegistryGate
