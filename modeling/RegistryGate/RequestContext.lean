import RegistryGate.Datum
import RegistryGate.Grant

/-!
# Request contexts

What is known of a request while it is being authorized, and what is kept about it for those who
handle it afterwards. The method and the path are for the logs only.
-/

namespace RegistryGate

structure RequestContext where
  method : String
  path : String
  id : String
deriving DecidableEq, Inhabited

/-- What is kept about a request: a value under each name. -/
abbrev Metadata := List (String × Datum WideText)

/-- The metadata with a grant entered in them. -/
def Metadata.enter (metadata : Metadata) (grant : Grant) : Metadata :=
  Entries.insert (Entries.insert metadata "principal" (.text grant.principal)) "auth_strategy"
    (.text (.ofString grant.strategy))

/-- Metadata that name a grant and are otherwise as they were. -/
structure Metadata.Names (before after : Metadata) (grant : Grant) : Prop where
  principal : Entries.get? after "principal" = some (.text grant.principal)
  strategy : Entries.get? after "auth_strategy" = some (.text (.ofString grant.strategy))
  others : ∀ name, name ≠ "principal" → name ≠ "auth_strategy" →
    Entries.get? after name = Entries.get? before name

theorem Metadata.enter_names (metadata : Metadata) (grant : Grant) :
    metadata.Names (metadata.enter grant) grant := by
  unfold Metadata.enter
  refine ⟨?_, ?_, fun name notPrincipal notStrategy => ?_⟩
  · rw [Entries.get?_insert, if_neg (by decide), Entries.get?_insert, if_pos rfl]
  · rw [Entries.get?_insert, if_pos rfl]
  · rw [Entries.get?_insert, if_neg notStrategy.symm, Entries.get?_insert,
      if_neg notPrincipal.symm]

/-- A number with zeros before it, twelve digits long. -/
def requestId (number : Nat) : String :=
  let digits := Nat.toDigits 10 number
  String.ofList (List.replicate (12 - digits.length) '0' ++ digits)

/-- The milliseconds between two readings of the clock. -/
def elapsedMs (started now : Rat) : Rat := (now - started) * 1000

end RegistryGate
