/-!
# Tables of code points

A property of code points is kept as the list of its maximal ranges. Membership is a scan, so a
statement about a range is a statement about two bounds.
-/

namespace RegistryGate.Text

/-- Whether some range of the table, ends included, holds the code point. -/
def covers (table : List (Nat × Nat)) (code : Nat) : Bool :=
  table.any fun range => range.1 ≤ code && code ≤ range.2

theorem covers_iff {table : List (Nat × Nat)} {code : Nat} :
    covers table code = true ↔ ∃ range ∈ table, range.1 ≤ code ∧ code ≤ range.2 := by
  simp [covers]

end RegistryGate.Text
