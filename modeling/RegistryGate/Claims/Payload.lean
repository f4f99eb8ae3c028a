import RegistryGate.Datum
import RegistryGate.Json.Reader
import RegistryGate.Json.Writer
import RegistryGate.Text.Utf8
import RegistryGate.Validation

/-!
# The claims of a token

The claims that a workflow token carries, how they are read from a mapping or a document, and the
document that they are written as. Each claim is looked up under its short name first and under its
long name otherwise; other entries are ignored.
-/

namespace RegistryGate.Claims

/-- The claims of a token. -/
structure Payload where
  subject : String
  audience : String
  repository : String
  actor : String
  workflow : String
  ref : String
  expiresAt : Int
  issuedAt : Int
deriving DecidableEq, Inhabited

/-! ## Reading -/

abbrev Entries := List (String × Datum String)

/-- The value of a claim and the name that it was found under. -/
def lookup? (entries : Entries) (short long : String) : Option (String × Datum String) :=
  match RegistryGate.Entries.get? entries short with
  | some value => some (short, value)
  | none => (RegistryGate.Entries.get? entries long).map (long, ·)

/-- The text of a value: a text, or bytes in UTF-8. -/
def asText : Datum String → Except IssueKind String
  | .text value => .ok value
  | .bytes value =>
    match Text.readUtf8String? value with
    | some text => .ok text
    | none => .error .notUnicode
  | _ => .error .notText

/-- The integer of a value. Truth values and numbers in double precision are none. -/
def asInt : Datum String → Except IssueKind Int
  | .int value => .ok value
  | _ => .error .notInteger

/-- A list of audiences stands for its first entry, and an empty one for the empty text. -/
def firstAudience : Datum String → Datum String
  | .list [] => .text ""
  | .list (first :: _) => first
  | value => value

/-- A claim that has to be present. -/
def required {α : Type} (entries : Entries) (short long : String)
    (read : Datum String → Except IssueKind α) : Checked α :=
  match lookup? entries short long with
  | none => .error [⟨some short, .missing⟩]
  | some (name, value) => (read value).mapError fun kind => [⟨some name, kind⟩]

/-- A claim that may be absent. -/
def optional {α : Type} (entries : Entries) (short long : String) (absent : α)
    (read : Datum String → Except IssueKind α) : Checked α :=
  match lookup? entries short long with
  | none => .ok absent
  | some (name, value) => (read value).mapError fun kind => [⟨some name, kind⟩]

def Payload.ofEntries (entries : Entries) : Checked Payload :=
  Checked.field (Checked.field (Checked.field (Checked.field (Checked.field (Checked.field
    (Checked.field (Checked.field (.ok Payload.mk)
      (required entries "sub" "subject" asText))
      (required entries "aud" "audience" (asText ∘ firstAudience)))
      (required entries "repository" "repository" asText))
      (required entries "actor" "actor" asText))
      (optional entries "workflow" "workflow_name" "" asText))
      (optional entries "ref" "ref" "" asText))
      (required entries "exp" "expires_at" asInt))
      (required entries "iat" "issued_at" asInt)

def Payload.ofDatum : Datum String → Checked Payload
  | .mapping entries => Payload.ofEntries entries
  | _ => .error [⟨none, .notMapping⟩]

/-- How deep the containers of a document may nest. -/
def maxDepth : Nat := 200

/-- The value that a document in UTF-8 writes. The reader is the strict one, so every text in the
document is a `String`. -/
def readDocument? (bytes : List UInt8) : Option (Datum String) := do
  let text ← Text.readUtf8String? bytes
  let document ← (Json.read maxDepth (WideText.ofString text).points .strict).toOption
  document.mapText? WideText.toString?

def Payload.ofDocument (bytes : List UInt8) : Checked Payload :=
  match readDocument? bytes with
  | some value => Payload.ofDatum value
  | none => .error [⟨none, .notJson⟩]

/-! ## Writing -/

def textMember (name value : String) : List Char :=
  Json.string name.toList ++ ':' :: Json.string value.toList

def intMember (name : String) (value : Int) : List Char :=
  Json.string name.toList ++ ':' :: (toString value).toList

/-- The members of the document of the claims, under their short names. -/
def Payload.members (payload : Payload) : List (List Char) :=
  [textMember "sub" payload.subject, textMember "aud" payload.audience,
   textMember "repository" payload.repository, textMember "actor" payload.actor,
   textMember "workflow" payload.workflow, textMember "ref" payload.ref,
   intMember "exp" payload.expiresAt, intMember "iat" payload.issuedAt]

/-- The document of the claims, without blanks. -/
def Payload.document (payload : Payload) : List Char :=
  '\x7b' :: (List.intercalate [','] payload.members ++ ['\x7d'])

end RegistryGate.Claims
