import RegistryGate.AuthError
import RegistryGate.Json.Writer
import RegistryGate.Text.Latin1
import RegistryGate.Text.Utf8

/-!
# Challenges

The failed outcome of an authorization, and the response that it is answered with. The response
depends on the realm alone: neither the cause nor the other failures reach it.
-/

namespace RegistryGate

/-- The refusal of a request. -/
structure Challenge where
  realm : String
  /-- The error of the last strategy tried, or what kept all of them from being tried. -/
  cause : AuthError
  /-- The errors of the strategies tried, in order. -/
  failures : List AuthError
  /-- Whether the challenge was raised from its cause. -/
  chained : Bool
deriving DecidableEq, Inhabited

namespace Challenge

/-- A challenge from a cause. Without any other failures the cause is the only one. -/
def make (realm : String) (cause : AuthError) (failures : List AuthError) (chained : Bool) :
    Challenge :=
  ⟨realm, cause, if failures.isEmpty then [cause] else failures, chained⟩

def message (challenge : Challenge) : String :=
  "authentication required (realm=" ++ challenge.realm ++ ")"

end Challenge

/-! ## Rendering -/

/-- One character of a quoted string: the quote and the backslash have a backslash before them. -/
def quotedStringChar (c : Char) : List Char :=
  if c = '\\' ∨ c = '"' then ['\\', c] else [c]

def challengeService : String := "registry"

def challengeHeader : String := "WWW-Authenticate"

/-- The parameters of a bearer challenge for a realm. -/
def bearerChallenge (realm : String) : List Char :=
  "Bearer realm=\"".toList ++ realm.toList.flatMap quotedStringChar ++
    "\",service=\"".toList ++ challengeService.toList ++ ['"']

/-- Quoting adds only backslashes. -/
theorem mem_quotedStringChar {c d : Char} (h : c ∈ quotedStringChar d) : c = '\\' ∨ c = d := by
  unfold quotedStringChar at h
  split at h
  · simpa using h
  · exact .inr (List.mem_singleton.mp h)

theorem self_mem_quotedStringChar (c : Char) : c ∈ quotedStringChar c := by
  unfold quotedStringChar
  split <;> simp

/-- What holds of the fixed text, and of the backslash, holds of a whole bearer challenge just when it
holds of the realm. -/
theorem forall_mem_bearerChallenge_iff (realm : String) {p : Char → Bool}
    (fixed : (bearerChallenge "\\").all p = true) :
    (∀ c ∈ bearerChallenge realm, p c = true) ↔ ∀ c ∈ realm.toList, p c = true := by
  have lone : "\\".toList.flatMap quotedStringChar = ['\\', '\\'] := by decide
  have parts := List.all_eq_true.mp fixed
  unfold bearerChallenge at parts ⊢
  rw [lone] at parts
  simp only [List.mem_append] at parts ⊢
  constructor
  · intro whole c member
    refine whole c (.inl (.inl (.inl (.inr ?_))))
    exact List.mem_flatMap.mpr ⟨c, member, self_mem_quotedStringChar c⟩
  · intro inside c member
    rcases member with (((lead | quoted) | middle) | service) | last
    · exact parts c (.inl (.inl (.inl (.inl lead))))
    · obtain ⟨d, original, shown⟩ := List.mem_flatMap.mp quoted
      rcases mem_quotedStringChar shown with rfl | rfl
      · exact parts _ (.inl (.inl (.inl (.inr List.mem_cons_self))))
      · exact inside c original
    · exact parts c (.inl (.inl (.inr middle)))
    · exact parts c (.inl (.inr service))
    · exact parts c (.inr last)

/-- A bearer challenge can be put into a header just when its realm can. -/
theorem bearerChallenge_latin1 {realm : String} :
    (∀ c ∈ bearerChallenge realm, c.toNat < 0x100) ↔ ∀ c ∈ realm.toList, c.toNat < 0x100 := by
  have all : (bearerChallenge "\\").all (fun c => decide (c.toNat < 0x100)) = true := by decide
  simpa only [decide_eq_true_eq] using forall_mem_bearerChallenge_iff realm all

/-- A response to a request. The names of the headers are in lower case. -/
structure Response where
  status : Nat
  headers : List (String × List UInt8)
  body : List UInt8
deriving DecidableEq, Inhabited

namespace Challenge

def header (challenge : Challenge) : List Char := bearerChallenge challenge.realm

def body (challenge : Challenge) : List UInt8 :=
  Text.utf8 ("\x7b\"error\":\"unauthorized\",\"message\":".toList ++
    Json.string challenge.message.toList ++ ['\x7d'])

/-- The response to a refused request: none if the realm cannot be put into a header. -/
def response? (challenge : Challenge) : Option Response := do
  let header ← Text.latin1? challenge.header
  let body := challenge.body
  return {
    status := 401
    headers :=
      [(challengeHeader.toLower, header),
       ("content-length", Text.utf8 (toString body.length).toList),
       ("content-type", Text.utf8 "application/json".toList)]
    body }

/-- Challenges for the same realm are answered in the same way. -/
theorem response?_congr {first second : Challenge} (same : first.realm = second.realm) :
    first.response? = second.response? := by
  have sameMessage : first.message = second.message := by
    unfold message
    rw [same]
  have sameHeader : first.header = second.header := by
    unfold header
    rw [same]
  have sameBody : first.body = second.body := by
    unfold body
    rw [sameMessage]
  unfold response?
  rw [sameHeader, sameBody]

theorem response?_of_latin1 {challenge : Challenge}
    (small : ∀ c ∈ challenge.realm.toList, c.toNat < 0x100) :
    challenge.response? = some {
      status := 401
      headers :=
        [(challengeHeader.toLower, challenge.header.map fun c => .ofNat c.toNat),
         ("content-length", Text.utf8 (toString challenge.body.length).toList),
         ("content-type", Text.utf8 "application/json".toList)]
      body := challenge.body } := by
  have fits := Text.latin1?_eq_some (bearerChallenge_latin1.mpr small)
  simp only [response?, header, fits, Option.bind_eq_bind, Option.bind_some, Option.pure_def]

/-- A refused request is answered if the realm can be put into a header, and answered by a 401. -/
theorem exists_response {challenge : Challenge}
    (small : ∀ c ∈ challenge.realm.toList, c.toNat < 0x100) :
    ∃ response, challenge.response? = some response ∧ response.status = 401 :=
  ⟨_, response?_of_latin1 small, rfl⟩

theorem response?_eq_none {challenge : Challenge}
    (large : ¬ ∀ c ∈ challenge.realm.toList, c.toNat < 0x100) : challenge.response? = none := by
  have unfit : Text.latin1? challenge.header = none := by
    refine Option.not_isSome_iff_eq_none.mp fun fits => large ?_
    exact bearerChallenge_latin1.mp (Text.latin1?_isSome_iff.mp fits)
  simp only [response?, unfit, Option.bind_eq_bind, Option.bind_none]

end Challenge

end RegistryGate
