import RegistryGate.Fault
import RegistryGate.Json.Encoding
import RegistryGate.Json.Reader

/-!
# User profiles

The profile that the API gives for a token. Only the login, the number and the type of the account
are read; the body is not trusted to be a document of any particular shape.
-/

namespace RegistryGate

structure Identity where
  principal : WideText
  externalId : Int
  accountType : WideText
deriving DecidableEq, Inhabited

namespace Identity

/-- How deeply the arrays and objects of a body may be nested. The bound is the reader's own: it is
what is left of its stack, which the environment decides. This is a bound that is always there. -/
def maxDepth : Nat := 960

def readBody (body : List UInt8) (depth : Nat := maxDepth) : Except ProfileFault Json.Document :=
  match Json.decode body with
  | none => .error .undecodable
  | some points =>
    match Json.read depth points with
    | .ok document => .ok document
    | .error .malformed => .error .notJson
    | .error .tooManyDigits => .error .badValue
    | .error .tooDeep => .error .tooDeep

/-- The number that a value stands for: a fraction is dropped, a truth value counts as zero or one,
and a text is read as a numeral. -/
def readNumber : Json.Document → Except ProfileFault Int
  | .int value => .ok value
  | .bool value => .ok (if value then 1 else 0)
  | .real (.infinite _) => .error .infinite
  | .real value =>
    match value.truncate? with
    | some value => .ok value
    | none => .error .badValue
  | .text value =>
    match Numeral.int? value with
    | some value => .ok value
    | none => .error .badValue
  | _ => .error .wrongType

/-- The text of a value: a text is itself, all else is shown. -/
def readText : Json.Document → WideText
  | .text value => value
  | value => value.describe Text.quoted

def ofDocument : Json.Document → Except ProfileFault Identity
  | .mapping entries =>
    match Entries.get? entries (.ofString "login") with
    | none => .error .missingField
    | some (.text login) =>
      if login.isEmpty then .error .badValue
      else
        match Entries.get? entries (.ofString "id") with
        | none => .error .missingField
        | some id =>
          (readNumber id).map fun number =>
            ⟨login, number,
              ((Entries.get? entries (.ofString "type")).map readText).getD (.ofString "")⟩
    | some _ => .error .badValue
  | _ => .error .wrongType

/-- An identity has a name. -/
theorem principal_of_ofDocument {document : Json.Document} {identity : Identity}
    (read : ofDocument document = .ok identity) : identity.principal.isEmpty = false := by
  unfold ofDocument at read
  split at read
  case h_1 entries =>
    split at read
    · cases read
    · split at read
      · cases read
      · rename_i named
        split at read
        · cases read
        · rename_i id _
          cases number : readNumber id with
          | error fault =>
            rw [number] at read
            cases read
          | ok value =>
            rw [number] at read
            cases read
            exact Bool.eq_false_iff.mpr named
    · cases read
  case h_2 => cases read

def ofBody (body : List UInt8) (depth : Nat := maxDepth) : Except ProfileFault Identity := do
  ofDocument (← readBody body depth)

theorem principal_of_ofBody {body : List UInt8} {depth : Nat} {identity : Identity}
    (read : ofBody body depth = .ok identity) : identity.principal.isEmpty = false := by
  unfold ofBody at read
  cases document : readBody body depth with
  | error fault =>
    rw [document] at read
    cases read
  | ok document =>
    rw [document] at read
    exact principal_of_ofDocument read

/-- Whether a fault makes the profile unusable, or else breaks the lookup. -/
def isHandled : ProfileFault → Bool
  | .infinite => false
  | .tooDeep => false
  | _ => true

end Identity

end RegistryGate
