import RegistryGate.Challenge
import RegistryGate.Text.Split

/-!
# Parameters of a challenge

A client takes a challenge apart into the scheme and its parameters, each with a quoted value. Whatever
realm a challenge names, it is read in one way only: as that realm, character by character, and the
service (`header_read`). No realm closes its quotes early or leaves them open, because what is quoted
is read back whatever stands behind the closing quote (`readQuoted?_escaped`).
-/

namespace RegistryGate.Challenge

/-! ## Quoted strings -/

/-- Reads a quoted string from behind its opening quote: the text, and what stands behind the closing
quote. A backslash makes the character behind it part of the text; the first quote without one
closes. -/
def readQuoted? : List Char → Option (List Char × List Char)
  | [] => none
  | '"' :: rest => some ([], rest)
  | ['\\'] => none
  | '\\' :: c :: rest => (readQuoted? rest).map fun read => (c :: read.1, read.2)
  | c :: rest => (readQuoted? rest).map fun read => (c :: read.1, read.2)

theorem readQuoted?_plain {c : Char} (noQuote : c ≠ '"') (noBackslash : c ≠ '\\') (rest : List Char) :
    readQuoted? (c :: rest) = (readQuoted? rest).map fun read => (c :: read.1, read.2) := by
  rw [readQuoted?]
  · exact noQuote
  · exact fun same => absurd same noBackslash
  · exact fun _ _ same => absurd same noBackslash

/-- What is quoted is read back, whatever stands behind it. -/
theorem readQuoted?_escaped (text rest : List Char) :
    readQuoted? (text.flatMap quotedStringChar ++ '"' :: rest) = some (text, rest) := by
  induction text with
  | nil => rfl
  | cons c text ih =>
    rw [List.flatMap_cons, List.append_assoc, quotedStringChar]
    split
    case isTrue =>
      rw [List.cons_append, List.singleton_append, readQuoted?, ih]
      rfl
    case isFalse plain =>
      obtain ⟨noBackslash, noQuote⟩ := not_or.mp plain
      rw [List.singleton_append, readQuoted?_plain noQuote noBackslash, ih]
      rfl

/-- A text with a backslash before each occurrence of a character. -/
def escape (mark : Char) (text : List Char) : List Char :=
  text.flatMap fun c => if c = mark then ['\\', c] else [c]

/-- Escaping the backslashes and then the quotes escapes each of them once, because the first pass puts
in no quotes. -/
theorem escape_escape (text : List Char) :
    escape '"' (escape '\\' text) = text.flatMap quotedStringChar := by
  unfold escape
  rw [List.flatMap_assoc]
  refine congrArg (List.flatMap · text) (funext fun c => ?_)
  by_cases backslash : c = '\\'
  · subst backslash
    rfl
  · rw [if_neg backslash, List.flatMap_singleton]
    by_cases quote : c = '"'
    · subst quote
      rfl
    · rw [if_neg quote, quotedStringChar, if_neg (not_or.mpr ⟨backslash, quote⟩)]

-- The other way round the backslash of a quote is escaped itself, and the quote closes.
example : readQuoted? (escape '\\' (escape '"' ['"']) ++ ['"']) = some (['\\'], ['"']) := by decide

/-! ## Lists of parameters -/

/-- A name and the text that it is set to. -/
abbrev Parameter := List Char × List Char

/-- A text begins with a parameter, a name set to a quoted string, and `rest` stands behind that. -/
def BeginsWith (text : List Char) (parameter : Parameter) (rest : List Char) : Prop :=
  '=' ∉ parameter.1 ∧ ∃ behind, text = parameter.1 ++ '=' :: '"' :: behind ∧
    readQuoted? behind = some (parameter.2, rest)

/-- A text is a list of parameters with commas between them. -/
inductive ReadsAs : List Char → List Parameter → Prop where
  | last {text : List Char} {parameter : Parameter} (first : BeginsWith text parameter []) :
    ReadsAs text [parameter]
  | more {text rest : List Char} {parameter : Parameter} {parameters : List Parameter}
    (first : BeginsWith text parameter (',' :: rest)) (others : ReadsAs rest parameters) :
    ReadsAs text (parameter :: parameters)

variable {text : List Char}

/-- The name of the first parameter ends at the first equals sign, and its value at the quote that
closes it. -/
theorem BeginsWith.unique {parameter other : Parameter} {rest more : List Char}
    (one : BeginsWith text parameter rest) (another : BeginsWith text other more) :
    parameter = other ∧ rest = more := by
  obtain ⟨name, value⟩ := parameter
  obtain ⟨otherName, otherValue⟩ := other
  obtain ⟨plain, behind, rfl, quoted⟩ := one
  obtain ⟨otherPlain, otherBehind, same, otherQuoted⟩ := another
  have pieces := congrArg (Text.splitOn '=') same
  rw [Text.splitOn_append plain, Text.splitOn_append otherPlain] at pieces
  obtain ⟨rfl, -⟩ := List.cons.inj pieces
  obtain rfl : behind = otherBehind := by simpa using List.append_cancel_left same
  rw [quoted] at otherQuoted
  cases otherQuoted
  exact ⟨rfl, rfl⟩

theorem ReadsAs.unique {parameters others : List Parameter} (one : ReadsAs text parameters)
    (another : ReadsAs text others) : parameters = others := by
  induction one generalizing others with
  | last first =>
    cases another with
    | last otherFirst => rw [(first.unique otherFirst).1]
    | more otherFirst _ => cases (first.unique otherFirst).2
  | more first _ ih =>
    cases another with
    | last otherFirst => cases (first.unique otherFirst).2
    | more otherFirst otherRest =>
      obtain ⟨rfl, rest⟩ := first.unique otherFirst
      cases rest
      rw [ih otherRest]

/-- A text is a challenge to present a bearer token, with the given parameters. -/
def IsBearerChallenge (text : List Char) (parameters : List Parameter) : Prop :=
  ∃ list, text = "Bearer ".toList ++ list ∧ ReadsAs list parameters

/-! ## The header -/

/-- What stands behind the realm in every challenge. -/
def serviceParameter : List Char := ",service=\"registry\"".toList

/-- The header is the realm in quotes, its backslashes escaped and then its quotes, and the service. -/
theorem header_eq (challenge : Challenge) :
    challenge.header = "Bearer realm=".toList ++ '"' ::
      (escape '"' (escape '\\' challenge.realm.toList) ++ '"' :: serviceParameter) := by
  have lead : "Bearer realm=\"".toList = "Bearer realm=".toList ++ ['"'] := by decide
  have tail : "\",service=\"".toList ++ (challengeService.toList ++ ['"']) = '"' :: serviceParameter := by
    decide
  rw [escape_escape]
  unfold header bearerChallenge
  rw [List.append_assoc, List.append_assoc, List.append_assoc]
  rw [tail, lead, List.append_assoc, List.singleton_append]

theorem readQuoted?_realm (realm : List Char) :
    readQuoted? (escape '"' (escape '\\' realm) ++ '"' :: serviceParameter) =
      some (realm, serviceParameter) := by
  rw [escape_escape, readQuoted?_escaped]

theorem service_readsAs : ReadsAs serviceParameter.tail [("service".toList, "registry".toList)] :=
  .last ⟨by decide, "registry\"".toList, by decide, by decide⟩

/-- Every challenge can be read as its realm and the service. -/
theorem header_isBearerChallenge (challenge : Challenge) :
    IsBearerChallenge challenge.header
      [("realm".toList, challenge.realm.toList), ("service".toList, "registry".toList)] := by
  have lead : "Bearer realm=".toList = "Bearer ".toList ++ ("realm".toList ++ ['=']) := by decide
  have plain : '=' ∉ "realm".toList := by decide
  have service : serviceParameter = ',' :: serviceParameter.tail := by decide
  have read := readQuoted?_realm challenge.realm.toList
  rw [service] at read
  refine ⟨_, ?_, .more ⟨plain, _, rfl, read⟩ service_readsAs⟩
  rw [← service, header_eq, lead, List.append_assoc, List.append_assoc, List.singleton_append]

/-- A challenge names its realm, character by character, and the service, and can be read in no other
way. So challenges for different realms differ, and a realm neither adds a parameter nor changes or
hides one. -/
theorem header_read (challenge : Challenge) :
    (∃ behind, challenge.header = "Bearer realm=".toList ++ '"' :: behind ∧
      readQuoted? behind = some (challenge.realm.toList, ",service=\"registry\"".toList)) ∧
    (∀ parameters, IsBearerChallenge challenge.header parameters ↔
      parameters = [("realm".toList, challenge.realm.toList), ("service".toList, "registry".toList)]) ∧
    ∀ other : Challenge, challenge.header = other.header ↔ challenge.realm = other.realm := by
  refine ⟨⟨_, header_eq challenge, readQuoted?_realm _⟩, fun parameters => ⟨?_, ?_⟩,
    fun other => ⟨?_, ?_⟩⟩
  · rintro ⟨list, same, reads⟩
    obtain ⟨list', same', reads'⟩ := header_isBearerChallenge challenge
    obtain rfl := List.append_cancel_left (same.symm.trans same')
    exact reads.unique reads'
  · rintro rfl
    exact header_isBearerChallenge challenge
  · intro same
    rw [header_eq, header_eq] at same
    have behind := congrArg readQuoted? (List.cons.inj (List.append_cancel_left same)).2
    rw [readQuoted?_realm, readQuoted?_realm] at behind
    exact String.toList_inj.mp (Prod.mk.inj (Option.some.inj behind)).1
  · intro same
    rw [header, header, same]

end RegistryGate.Challenge
