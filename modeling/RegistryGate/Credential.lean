import RegistryGate.Text.Split

/-!
# Credentials

The credential in the value of an `Authorization` header. The two schemes are recognised by their
exact spelling with one space behind it, and everything behind that space is the credential
(`extract?_eq_some_iff`).
-/

namespace RegistryGate

/-- The scheme that a credential was presented under. -/
inductive Scheme where
  | bearer
  | token
deriving DecidableEq, Inhabited

namespace Scheme

/-- What stands before the credential in the header. -/
def lead : Scheme → List Char
  | .bearer => "Bearer ".toList
  | .token => "token ".toList

def initial : Scheme → Char
  | .bearer => 'B'
  | .token => 't'

theorem lead_eq_cons (scheme : Scheme) : scheme.lead = scheme.initial :: scheme.lead.tail := by
  cases scheme <;> rfl

theorem initial_injective {a b : Scheme} (h : a.initial = b.initial) : a = b := by
  cases a <;> cases b <;> revert h <;> decide

def name : Scheme → String
  | .bearer => "bearer"
  | .token => "token"

end Scheme

structure Credential where
  scheme : Scheme
  value : List Char
deriving DecidableEq, Inhabited

namespace Credential

/-- The credential of a given scheme, unless nothing stands behind the scheme. -/
def ofScheme? (scheme : Scheme) (header : List Char) : Option Credential :=
  match Text.after? scheme.lead header with
  | some (c :: rest) => some ⟨scheme, c :: rest⟩
  | _ => none

def extract? (header : List Char) : Option Credential :=
  (ofScheme? .bearer header).or (ofScheme? .token header)

/-- A header carries a credential: the lead of its scheme and behind it the credential, which is not
empty. -/
def CarriedBy (credential : Credential) (header : List Char) : Prop :=
  credential.value ≠ [] ∧ header = credential.scheme.lead ++ credential.value

theorem ofScheme?_eq_some_iff {scheme : Scheme} {header : List Char} {credential : Credential} :
    ofScheme? scheme header = some credential ↔
      credential.scheme = scheme ∧ credential.CarriedBy header := by
  unfold ofScheme?
  constructor
  · intro found
    split at found
    case h_1 c rest behind =>
      cases found
      exact ⟨rfl, List.cons_ne_nil c rest, Text.after?_eq_some_iff.mp behind⟩
    case h_2 => cases found
  · rintro ⟨rfl, nonempty, rfl⟩
    obtain ⟨scheme, value⟩ := credential
    obtain ⟨c, rest, rfl⟩ := List.exists_cons_of_ne_nil nonempty
    have behind : Text.after? scheme.lead (scheme.lead ++ c :: rest) = some (c :: rest) :=
      Text.after?_eq_some_iff.mpr rfl
    simp only [behind]

/-- No header is of both schemes, because their leads begin differently. -/
theorem scheme_unique {a b : Credential} {header : List Char} (first : a.CarriedBy header)
    (second : b.CarriedBy header) : a.scheme = b.scheme := by
  have head {c : Credential} (carried : c.CarriedBy header) :
      header.head? = some c.scheme.initial := by
    rw [carried.2, Scheme.lead_eq_cons]
    rfl
  have same : a.scheme.initial = b.scheme.initial :=
    Option.some.inj ((head first).symm.trans (head second))
  exact Scheme.initial_injective same

/-- The credential that is read from a header is the one that it carries. -/
theorem extract?_eq_some_iff {header : List Char} {credential : Credential} :
    extract? header = some credential ↔ credential.CarriedBy header := by
  unfold extract?
  rw [Option.or_eq_some_iff, ofScheme?_eq_some_iff, ofScheme?_eq_some_iff]
  constructor
  · rintro (⟨-, carried⟩ | ⟨-, -, carried⟩)
    · exact carried
    · exact carried
  · intro carried
    cases scheme : credential.scheme with
    | bearer => exact .inl ⟨rfl, carried⟩
    | token =>
      refine .inr ⟨?_, rfl, carried⟩
      rw [Option.eq_none_iff_forall_ne_some]
      intro other found
      obtain ⟨bearer, alsoCarried⟩ := ofScheme?_eq_some_iff.mp found
      have := scheme_unique carried alsoCarried
      rw [scheme, bearer] at this
      cases this

/-- What may be shown of a credential: its scheme and its length. -/
def summary (credential : Credential) : String :=
  "Credential(scheme='" ++ credential.scheme.name ++ "', value=<" ++
    toString credential.value.length ++ " chars>)"

end Credential

end RegistryGate
