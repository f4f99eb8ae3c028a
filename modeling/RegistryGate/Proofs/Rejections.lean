import RegistryGate.BackendRegistry
import RegistryGate.Proofs.Encodings
import RegistryGate.Proofs.Options
import RegistryGate.Proofs.Passage

/-!
# Rejections

What is sent for a refused request depends on the realm of the engine alone
(`rejections_alike`). For an engine made from options it is a complete answer just when every
character of the realm may stand in a header (`rejection_answered`).
-/

namespace RegistryGate

/-! ## The realm of a challenge -/

namespace Engine

variable {engine : Engine} {context : RequestContext} {api : Api} {deadline : Option Rat} {now : Rat}
  {slot : ClientSlot} {challenge : Challenge}

theorem realm_of_authorize {credential : Option Credential}
    (ended : ((engine.authorize context credential).run api deadline now slot).value =
      some (.error challenge)) : challenge.realm = engine.realm := by
  cases credential with
  | none =>
    cases ended
    rfl
  | some credential =>
    simp only [authorize] at ended
    obtain ⟨asked, left, time, later, settled⟩ := Procedure.exists_of_value_bind ended
    cases asked with
    | ok grant => cases settled
    | error failures =>
      cases settled
      rfl

/-- Whatever a request is refused for, the challenge names the realm of the engine. -/
theorem realm_of_authorizeHeader {header : Option (List Char)}
    (ended : ((engine.authorizeHeader context header).run api deadline now slot).value =
      some (.error challenge)) : challenge.realm = engine.realm := by
  rcases header with _ | _ | ⟨c, rest⟩
  · cases ended
    rfl
  · cases ended
    rfl
  · simp only [authorizeHeader] at ended
    cases extracted : Credential.extract? (c :: rest) with
    | none =>
      rw [extracted] at ended
      cases ended
      rfl
    | some credential =>
      rw [extracted] at ended
      exact realm_of_authorize ended

end Engine

namespace Gate

/-- A request before an engine, and all that it meets there. -/
structure Visit where
  engine : Engine
  paths : List String
  scope : Scope
  id : String
  api : Api
  deadline : Option Rat
  now : Rat
  slot : ClientSlot

namespace Visit

def run (visit : Visit) : Run Handling :=
  (handle visit.engine.authorizer visit.paths visit.scope visit.id).run visit.api visit.deadline
    visit.now visit.slot

/-- The request has to be authorized, and the engine refuses it with a challenge. -/
structure Refused (visit : Visit) (path : String) (headers : List (List UInt8 × List UInt8))
    (value : Option (List UInt8)) (challenge : Challenge) : Prop where
  http : visit.scope.kind = .given "http"
  atPath : visit.scope.HasPath path
  guarded : ¬ Public visit.paths path
  given : visit.scope.headers = .given headers
  first : FirstValue headers headerName value
  ended : authorization visit.engine.authorizer visit.scope visit.id visit.api visit.deadline visit.now
    visit.slot path value = some (.error (.challenged challenge))

def Rejected (visit : Visit) : Prop :=
  ∃ path headers value challenge, visit.Refused path headers value challenge

variable {visit : Visit}

/-- A rejected request comes to a challenge for the realm of the engine. -/
theorem Rejected.exists_challenge (rejected : visit.Rejected) :
    ∃ challenge, challenge.realm = visit.engine.realm ∧
      visit.run.value = some (settle visit.scope (.error (.challenged challenge))) := by
  obtain ⟨path, headers, value, challenge, refused⟩ := rejected
  refine ⟨challenge, ?_, ?_⟩
  · have ended := refused.ended
    rw [authorization, Engine.value_authorizer] at ended
    obtain ⟨result, run, mapped⟩ := Option.map_eq_some_iff.mp ended
    cases result with
    | ok grant => cases mapped
    | error challenge =>
      cases mapped
      exact Engine.realm_of_authorizeHeader run
  · rw [run, value_handle_of_guarded refused.http refused.atPath refused.guarded refused.given
      refused.first, refused.ended]
    rfl

/-- A request without credentials is rejected by every engine. -/
theorem rejected_of_missing {path : String} {headers : List (List UInt8 × List UInt8)}
    (http : visit.scope.kind = .given "http") (atPath : visit.scope.HasPath path)
    (guarded : ¬ Public visit.paths path) (given : visit.scope.headers = .given headers)
    (missing : FirstValue headers headerName none) : visit.Rejected := by
  refine ⟨path, headers, none, .make visit.engine.realm .noCredential [] true, http, atPath, guarded,
    given, missing, ?_⟩
  rw [authorization, Engine.value_authorizer]
  rfl

/-- A request with some `Authorization` headers, before an engine whose API knows nobody. -/
def get (engine : Engine) (path : String) (values : List String) : Visit where
  engine
  paths := publicPaths
  scope :=
    { kind := .given "http"
      path := .given path
      method := some "GET"
      headers := .given (values.map fun value => (headerName, Text.utf8 value.toList))
      client := none
      state := .absent }
  id := "1"
  api _ := ⟨0, .ok ⟨404, []⟩⟩
  deadline := none
  now := 0
  slot := .ofOwner

theorem rejected_get (engine : Engine) {path : String} (guarded : isPublic publicPaths path = false) :
    (get engine path []).Rejected := by
  refine rejected_of_missing rfl (.inl rfl) (fun free => ?_) rfl fun header member => ?_
  · have named : isPublic publicPaths path = true := isPublic_iff.mpr free
    rw [named] at guarded
    cases guarded
  · exact absurd member List.not_mem_nil

end Visit

/-! ## What is sent -/

variable {scope : Scope} {challenge : Challenge}

theorem acts_settle_of_latin1 (small : ∀ c ∈ challenge.realm.toList, c.toNat < 0x100) :
    (settle scope (.error (.challenged challenge))).acts =
      [.sent (.start 401
        [(challengeHeader.toLower, challenge.header.map fun c => .ofNat c.toNat),
         ("content-length", Text.utf8 (toString challenge.body.length).toList),
         ("content-type", Text.utf8 "application/json".toList)]),
       .sent (.body challenge.body)] := by
  simp only [settle, Challenge.response?_of_latin1 small, Handling.acts]

theorem settle_of_large (large : ¬ ∀ c ∈ challenge.realm.toList, c.toNat < 0x100) :
    settle scope (.error (.challenged challenge)) = .broke .unencodable := by
  simp only [settle, Challenge.response?_eq_none large]

theorem acts_settle_congr {other : Scope} {first second : Challenge}
    (same : first.realm = second.realm) :
    (settle scope (.error (.challenged first))).acts =
      (settle other (.error (.challenged second))).acts := by
  simp only [settle, Challenge.response?_congr same]

/-- Two rejected requests before engines with the same realm are answered alike, whatever engines,
requests and API they are; if the realm is in Latin-1 both are answered with a 401 and a body of the
stated length. -/
theorem rejections_alike {first second : Visit} (same : first.engine.realm = second.engine.realm)
    (one : first.Rejected) (other : second.Rejected) :
    first.run.acts = second.run.acts ∧
      ((∀ c ∈ first.engine.realm.toList, c.toNat < 0x100) →
        ∃ headers body, first.run.acts = [.sent (.start 401 headers), .sent (.body body)] ∧
          ("content-length", Text.utf8 (toString body.length).toList) ∈ headers) := by
  obtain ⟨challenge, realm, value⟩ := one.exists_challenge
  obtain ⟨challenge', realm', value'⟩ := other.exists_challenge
  have alike : challenge.realm = challenge'.realm := by rw [realm, realm', same]
  simp only [Run.acts, value, value']
  refine ⟨acts_settle_congr alike, fun small => ?_⟩
  rw [acts_settle_of_latin1 (realm ▸ small)]
  exact ⟨_, _, rfl, List.mem_cons_of_mem _ List.mem_cons_self⟩

/-- A request without credentials before a standard engine, and one whose only strategy breaks before
another engine. -/
theorem missing_and_broken_alike :
    let standard := Engine.ofPolicy (.ofRealm "caf\u00e9" (by decide)) 0
    let broken : Engine := ⟨"caf\u00e9", [.scripted "stub" 2 (.error (.broke .wrongType))]⟩
    let first := Visit.get standard "/v2/" []
    let second := Visit.get broken "/v2/a/b" ["token x"]
    first.Rejected ∧ second.Rejected ∧ (∀ c ∈ standard.realm.toList, c.toNat < 0x100) ∧
      first.run.acts = second.run.acts := by
  intro standard broken first second
  have one : first.Rejected := Visit.rejected_get standard (by decide)
  have other : second.Rejected := by
    refine ⟨"/v2/a/b", _, some (Text.utf8 "token x".toList),
      ⟨"caf\u00e9", .unexpected, [.unexpected], true⟩, rfl, .inl rfl, ?_, rfl, ⟨[], [], rfl, ?_⟩, ?_⟩
    · exact mt isPublic_iff.mpr (by decide)
    · exact fun header member => absurd member List.not_mem_nil
    · decide +kernel
  have inLatin1 : standard.realm.toList.all (fun c => c.toNat < 0x100) = true := by decide
  have small : ∀ c ∈ standard.realm.toList, c.toNat < 0x100 := by
    simpa using List.all_eq_true.mp inLatin1
  have same : first.engine.realm = second.engine.realm := rfl
  exact ⟨one, other, small, (rejections_alike same one other).1⟩

/-! ## Legal answers -/

/-- A header value without line breaks or NUL. -/
def LegalValue (value : List UInt8) : Prop := ∀ byte ∈ value, byte ≠ 0x0d ∧ byte ≠ 0x0a ∧ byte ≠ 0x00

/-- A complete answer: a 401 that states the length of its body, with legal header values, and the
body. -/
def Answered (acts : List Act) : Prop :=
  ∃ headers body, acts = [.sent (.start 401 headers), .sent (.body body)] ∧
    ("content-length", Text.utf8 (toString body.length).toList) ∈ headers ∧
    ∀ header ∈ headers, LegalValue header.2

/-- A character that may stand in a header value. -/
def isFieldChar (c : Char) : Bool :=
  c.toNat < 0x100 && c != '\r' && c != '\n' && c != '\x00'

theorem byte_eq_iff {c d : Char} (small : c.toNat < 0x100) (fits : d.toNat < 0x100) :
    UInt8.ofNat c.toNat = UInt8.ofNat d.toNat ↔ c = d := by
  constructor
  · intro same
    have codes := congrArg UInt8.toNat same
    rw [toNat_byte small, toNat_byte fits] at codes
    exact Char.toNat_inj.mp codes
  · rintro rfl
    rfl

/-- A text in Latin-1 is a legal value just when all its characters may stand in one. -/
theorem legalValue_latin1 {text : List Char} (small : ∀ c ∈ text, c.toNat < 0x100) :
    LegalValue (text.map fun c => .ofNat c.toNat) ↔ ∀ c ∈ text, isFieldChar c = true := by
  unfold LegalValue
  rw [List.forall_mem_map]
  refine forall₂_congr fun c member => ?_
  have byte (d : Char) (fits : d.toNat < 0x100) :=
    not_congr (byte_eq_iff (small c member) fits)
  have carriageReturn := byte '\r' (by decide)
  have newline := byte '\n' (by decide)
  have nul := byte '\x00' (by decide)
  simp only [isFieldChar, small c member, decide_true, Bool.true_and, Bool.and_eq_true, bne_iff_ne,
    and_assoc]
  exact and_congr carriageReturn (and_congr newline nul)

theorem utf8_of_ascii {text : List Char} (ascii : ∀ c ∈ text, c.toNat < 0x80) :
    Text.utf8 text = text.map fun c => .ofNat c.toNat := by
  induction text with
  | nil => rfl
  | cons c rest ih =>
    have one : Text.utf8Point (.ofChar c) = [.ofNat c.toNat] := if_pos (ascii c List.mem_cons_self)
    have others := ih fun d member => ascii d (List.mem_cons_of_mem c member)
    rw [Text.utf8, List.flatMap_cons, one, List.map_cons]
    exact congrArg (List.cons _) others

theorem legalValue_ascii {text : List Char} (plain : ∀ c ∈ text, 0x20 ≤ c.toNat ∧ c.toNat < 0x80) :
    LegalValue (Text.utf8 text) := by
  have small (c : Char) (member : c ∈ text) : c.toNat < 0x100 :=
    Nat.lt_trans (plain c member).2 (by decide)
  rw [utf8_of_ascii fun c member => (plain c member).2, legalValue_latin1 small]
  intro c member
  have bounds := plain c member
  simp only [isFieldChar, Bool.and_eq_true, bne_iff_ne, decide_eq_true_eq]
  refine ⟨⟨⟨small c member, ?_⟩, ?_⟩, ?_⟩
  all_goals
    rintro rfl
    exact absurd bounds.1 (by decide)

theorem legalValue_numeral (number : Nat) : LegalValue (Text.utf8 (toString number).toList) := by
  refine legalValue_ascii fun c member => ?_
  have digit := Nat.isDigit_of_mem_toDigits (b := 10) (n := number) (by decide) (by decide)
    (String.toList_ofList ▸ member)
  have bounds : 48 ≤ c.toNat ∧ c.toNat ≤ 57 := by
    simpa [Char.isDigit, UInt32.le_iff_toNat_le] using digit
  omega

theorem legalValue_json : LegalValue (Text.utf8 "application/json".toList) := by
  have plain : "application/json".toList.all (fun c => 0x20 ≤ c.toNat && c.toNat < 0x80) = true := by
    decide
  refine legalValue_ascii fun c member => ?_
  simpa using List.all_eq_true.mp plain c member

/-- The answer to a challenge is complete just when all characters of the realm may stand in a header
value. -/
theorem answered_settle_iff :
    Answered (settle scope (.error (.challenged challenge))).acts ↔
      ∀ c ∈ challenge.realm.toList, isFieldChar c = true := by
  have fixed : (bearerChallenge "\\").all isFieldChar = true := by decide
  by_cases small : ∀ c ∈ challenge.realm.toList, c.toNat < 0x100
  · rw [acts_settle_of_latin1 small, ← forall_mem_bearerChallenge_iff challenge.realm fixed,
      ← legalValue_latin1 (bearerChallenge_latin1.mpr small)]
    constructor
    · rintro ⟨headers, body, same, -, legal⟩
      cases same
      exact legal _ List.mem_cons_self
    · intro legal
      refine ⟨_, _, rfl, List.mem_cons_of_mem _ List.mem_cons_self, ?_⟩
      simp only [List.forall_mem_cons, List.not_mem_nil, false_imp_iff, implies_true, and_true]
      exact ⟨legal, legalValue_numeral _, legalValue_json⟩
  · rw [settle_of_large small]
    constructor
    · rintro ⟨headers, body, same, -⟩
      cases same
    · intro all
      refine absurd (fun c member => ?_) small
      have field := all c member
      simp only [isFieldChar, Bool.and_eq_true, decide_eq_true_eq] at field
      exact field.1.1.1

theorem Visit.Rejected.answered_iff {visit : Visit} (rejected : visit.Rejected) :
    Answered visit.run.acts ↔ ∀ c ∈ visit.engine.realm.toList, isFieldChar c = true := by
  obtain ⟨challenge, realm, value⟩ := rejected.exists_challenge
  simp only [Run.acts, value]
  rw [← realm]
  exact answered_settle_iff

/-! ## Engines made from options -/

theorem githubEngine_eq_ok_iff {reading : Rat} {options : Datum String} {engine : Engine} :
    (githubEngine reading options).2 = .ok engine ↔
      ∃ policy, (AccessPolicy.ofOptions options).2 = .ok policy ∧ .ofPolicy policy reading = engine := by
  unfold githubEngine
  dsimp only
  cases (AccessPolicy.ofOptions options).2 with
  | error error => simp
  | ok policy => simp

/-- A rejected request before an engine made from options is answered completely just when all
characters of the realm may stand in a header value. A realm beyond Latin-1 leaves it without any
answer; with any other a 401 is sent. -/
theorem rejection_answered {options : Settings.Options} {reading : Rat} {visit : Visit}
    (made : (githubEngine reading (.mapping options)).2 = .ok visit.engine)
    (rejected : visit.Rejected) :
    Settings.GivesRealm options visit.engine.realm ∧
      (Answered visit.run.acts ↔ ∀ c ∈ visit.engine.realm.toList, isFieldChar c = true) ∧
      ((∀ c ∈ visit.engine.realm.toList, c.toNat < 0x100) →
        ∃ headers body, visit.run.acts = [.sent (.start 401 headers), .sent (.body body)]) ∧
      ((∃ c ∈ visit.engine.realm.toList, 0x100 ≤ c.toNat) →
        visit.run.acts = [] ∧ visit.run.value = some (.broke .unencodable)) := by
  obtain ⟨policy, accepted, built⟩ := githubEngine_eq_ok_iff.mp made
  have gives : Settings.GivesRealm options visit.engine.realm := by
    rw [← built]
    exact AccessPolicy.givesRealm_of_ok accepted
  refine ⟨gives, rejected.answered_iff, ?_⟩
  obtain ⟨challenge, realm, value⟩ := rejected.exists_challenge
  simp only [Run.acts, value]
  rw [← realm]
  refine ⟨fun small => ?_, ?_⟩
  · rw [acts_settle_of_latin1 small]
    exact ⟨_, _, rfl⟩
  · rintro ⟨c, member, large⟩
    rw [settle_of_large fun small => absurd (small c member) (Nat.not_lt.mpr large)]
    exact ⟨rfl, rfl⟩

/-- Quotes in the realm do no harm. -/
theorem quoted_realm_answered :
    let options : Settings.Options := [("realm", .text " my \"registry\" ")]
    let engine := Engine.ofPolicy (.ofRealm "my \"registry\"" (by decide)) 0
    let visit := Visit.get engine "/v2/" []
    (githubEngine 0 (.mapping options)).2 = .ok visit.engine ∧ visit.Rejected ∧
      Answered visit.run.acts := by
  intro options engine visit
  have accepted : (AccessPolicy.ofOptions (.mapping options)).2 =
      .ok (.ofRealm "my \"registry\"" (by decide)) := by decide +kernel
  have made : (githubEngine 0 (.mapping options)).2 = .ok visit.engine :=
    githubEngine_eq_ok_iff.mpr ⟨_, accepted, rfl⟩
  have rejected : visit.Rejected := Visit.rejected_get engine (by decide)
  exact ⟨made, rejected, (rejection_answered made rejected).2.1.mpr (List.all_eq_true.mp (by decide))⟩

/-- A realm beyond Latin-1 is accepted, and then no rejected request is answered; with a line break
inside the realm the answer holds an illegal header. -/
theorem accepted_realms_unanswered :
    let wide := Visit.get (Engine.ofPolicy (.ofRealm "\u6570" (by decide)) 0) "/v2/" []
    let broken := Visit.get (Engine.ofPolicy (.ofRealm "a\nb" (by decide)) 0) "/v2/" []
    ((githubEngine 0 (.mapping [("realm", .text "\u6570")])).2 = .ok wide.engine ∧ wide.Rejected ∧
      ¬ Answered wide.run.acts) ∧
    (githubEngine 0 (.mapping [("realm", .text "a\nb")])).2 = .ok broken.engine ∧ broken.Rejected ∧
      ¬ Answered broken.run.acts := by
  intro wide broken
  have wideRejected : wide.Rejected := Visit.rejected_get _ (by decide)
  have brokenRejected : broken.Rejected := Visit.rejected_get _ (by decide)
  have wideAccepted : (AccessPolicy.ofOptions (.mapping [("realm", .text "\u6570")])).2 =
      .ok (.ofRealm "\u6570" (by decide)) := by decide +kernel
  have brokenAccepted : (AccessPolicy.ofOptions (.mapping [("realm", .text "a\nb")])).2 =
      .ok (.ofRealm "a\nb" (by decide)) := by decide +kernel
  refine ⟨⟨githubEngine_eq_ok_iff.mpr ⟨_, wideAccepted, rfl⟩, wideRejected, ?_⟩,
    githubEngine_eq_ok_iff.mpr ⟨_, brokenAccepted, rfl⟩, brokenRejected, ?_⟩
  · intro answered
    have legal := wideRejected.answered_iff.mp answered '\u6570' (by decide)
    exact absurd legal (by decide)
  · intro answered
    have legal := brokenRejected.answered_iff.mp answered '\n' (by decide)
    exact absurd legal (by decide)

end Gate

end RegistryGate
