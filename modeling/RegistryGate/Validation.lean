/-!
# Validation of fields

A record is made from a mapping field by field. Every field is looked at, so that a refusal lists
the issues of all of them in the order of the fields.
-/

namespace RegistryGate

/-- What is wrong with a value. -/
inductive IssueKind where
  | missing
  | notText
  | emptyText
  | notUnicode
  | notInteger
  | notPositive
  | notMapping
  | notJson
deriving DecidableEq, Inhabited

/-- An issue with a field, or with the whole value. -/
structure Issue where
  field : Option String
  kind : IssueKind
deriving DecidableEq, Inhabited

/-- A value, or all that is wrong with it. -/
abbrev Checked (α : Type) := Except (List Issue) α

namespace Checked

variable {α β : Type}

/-- Gives a field to a record in the making, and joins the issues of both. -/
def field (record : Checked (α → β)) (value : Checked α) : Checked β :=
  match record, value with
  | .ok f, .ok x => .ok (f x)
  | .ok _, .error issues => .error issues
  | .error issues, .ok _ => .error issues
  | .error first, .error second => .error (first ++ second)

theorem field_eq_ok {record : Checked (α → β)} {value : Checked α} {result : β} :
    field record value = .ok result ↔ ∃ f x, record = .ok f ∧ value = .ok x ∧ f x = result := by
  cases record <;> cases value <;> simp [field]

end Checked

end RegistryGate
