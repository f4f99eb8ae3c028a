import RegistryGate.Proofs.Lookups

/-!
# Unusable profiles

What the lookup of a profile comes to when the body of the answer is arbitrary bytes. Either the body
names a login, or the lookup is refused with the status of the answer; nothing else comes of it but for
two kinds of bodies, those that nest too deep and those that give a login an infinite number
(`fetch_settles_iff`).
-/

namespace RegistryGate.Identity

/-! ## Bodies -/

/-- A body is an object that names a login, which is a text and not empty. -/
def Names (depth : Nat) (body : List UInt8) (login : WideText) : Prop :=
  ∃ entries, readBody body depth = .ok (.mapping entries) ∧
    Entries.get? entries (.ofString "login") = some (.text login) ∧ login.isEmpty = false

/-- The bodies that break the lookup of a profile, and the faults that they break it with. -/
inductive Breaks (depth : Nat) (body : List UInt8) : ProfileFault → Prop where
  | deep (unread : readBody body depth = .error .tooDeep) : Breaks depth body .tooDeep
  | infinite {entries : List (WideText × Json.Document)} {login : WideText} {negative : Bool}
    (read : readBody body depth = .ok (.mapping entries))
    (named : Entries.get? entries (.ofString "login") = some (.text login))
    (nonempty : login.isEmpty = false)
    (number : Entries.get? entries (.ofString "id") = some (.real (.infinite negative))) :
    Breaks depth body .infinite

variable {depth : Nat} {body : List UInt8} {fault : ProfileFault} {identity : Identity}
  {document : Json.Document} {entries : List (WideText × Json.Document)} {login : WideText}

/-- The only number that is not handled is an infinite one. -/
theorem exists_infinite_of_readNumber (unread : readNumber document = .error fault)
    (unhandled : isHandled fault = false) :
    fault = .infinite ∧ ∃ negative, document = .real (.infinite negative) := by
  unfold readNumber at unread
  split at unread
  case h_1 value => cases unread
  case h_2 value => cases unread
  case h_3 negative =>
    cases unread
    exact ⟨rfl, negative, rfl⟩
  case h_4 value finite =>
    split at unread
    · cases unread
    · cases unread
      cases unhandled
  case h_5 value =>
    split at unread
    · cases unread
    · cases unread
      cases unhandled
  case h_6 =>
    cases unread
    cases unhandled

/-- An object that names a login is a profile if it has a number. -/
theorem ofDocument_of_named (named : Entries.get? entries (.ofString "login") = some (.text login))
    (nonempty : login.isEmpty = false) :
    ofDocument (.mapping entries) =
      (Entries.get? entries (.ofString "id")).elim (.error .missingField) fun id =>
        (readNumber id).map fun number =>
          ⟨login, number,
            ((Entries.get? entries (.ofString "type")).map readText).getD (.ofString "")⟩ := by
  simp only [ofDocument, named, nonempty, Bool.false_eq_true, if_false]
  cases Entries.get? entries (.ofString "id") with
  | none => rfl
  | some id => rfl

/-- A document that is a profile, or that is unusable for an unexpected reason, names a login. -/
theorem exists_login {result : Except ProfileFault Identity} (read : ofDocument document = result)
    (told : ∀ fault, result = .error fault → isHandled fault = false) :
    ∃ entries login, document = .mapping entries ∧
      Entries.get? entries (.ofString "login") = some (.text login) ∧ login.isEmpty = false := by
  have handled {fault : ProfileFault} (expected : isHandled fault = true)
      (failed : .error fault = result) : False := by
    rw [told fault failed.symm] at expected
    cases expected
  unfold ofDocument at read
  split at read
  case h_1 entries =>
    split at read
    case h_1 => exact (handled rfl read).elim
    case h_2 login named =>
      split at read
      case isTrue empty => exact (handled rfl read).elim
      case isFalse nonempty => exact ⟨entries, login, rfl, named, Bool.eq_false_iff.mpr nonempty⟩
    case h_3 => exact (handled rfl read).elim
  case h_2 => exact (handled rfl read).elim

/-- The only document that is not read for an unexpected reason is one that nests too deep. -/
theorem tooDeep_of_readBody (unread : readBody body depth = .error fault)
    (unhandled : isHandled fault = false) : fault = .tooDeep := by
  unfold readBody at unread
  split at unread
  case h_1 =>
    cases unread
    cases unhandled
  case h_2 =>
    split at unread
    case h_1 => cases unread
    case h_4 =>
      cases unread
      rfl
    all_goals
      cases unread
      cases unhandled

theorem ofBody_of_unread (unread : readBody body depth = .error fault) : ofBody body depth = .error fault := by
  rw [ofBody, unread]
  rfl

theorem ofBody_of_readBody (read : readBody body depth = .ok document) :
    ofBody body depth = ofDocument document := by
  rw [ofBody, read]
  rfl

theorem names_of_ofBody (read : ofBody body depth = .ok identity) : Names depth body identity.principal := by
  cases whole : readBody body depth with
  | error fault =>
    rw [ofBody_of_unread whole] at read
    cases read
  | ok document =>
    rw [ofBody_of_readBody whole] at read
    obtain ⟨entries, login, rfl, named, nonempty⟩ := exists_login read (by rintro _ ⟨⟩)
    rw [ofDocument_of_named named nonempty] at read
    cases number : Entries.get? entries (.ofString "id") with
    | none =>
      rw [number] at read
      cases read
    | some id =>
      cases value : readNumber id with
      | error fault =>
        rw [number, Option.elim_some, value] at read
        cases read
      | ok value =>
        rw [number, Option.elim_some, value] at read
        cases read
        exact ⟨entries, whole, named, nonempty⟩

/-- What a body breaks the reading of a profile with. -/
theorem breaks_iff : Breaks depth body fault ↔ ofBody body depth = .error fault ∧ isHandled fault = false := by
  constructor
  · intro breaks
    cases breaks with
    | deep unread => exact ⟨ofBody_of_unread unread, rfl⟩
    | infinite read named nonempty number =>
      refine ⟨?_, rfl⟩
      rw [ofBody_of_readBody read, ofDocument_of_named named nonempty, number]
      rfl
  · rintro ⟨unread, unhandled⟩
    cases whole : readBody body depth with
    | error other =>
      rw [ofBody_of_unread whole] at unread
      cases unread
      obtain rfl := tooDeep_of_readBody whole unhandled
      exact .deep whole
    | ok document =>
      rw [ofBody_of_readBody whole] at unread
      obtain ⟨entries, login, rfl, named, nonempty⟩ := exists_login unread (by
        rintro _ ⟨⟩
        exact unhandled)
      rw [ofDocument_of_named named nonempty] at unread
      cases number : Entries.get? entries (.ofString "id") with
      | none =>
        rw [number] at unread
        cases unread
        cases unhandled
      | some id =>
        cases value : readNumber id with
        | ok value =>
          rw [number, Option.elim_some, value] at unread
          cases unread
        | error other =>
          rw [number, Option.elim_some, value] at unread
          cases unread
          obtain ⟨rfl, negative, rfl⟩ := exists_infinite_of_readNumber value unhandled
          exact .infinite whole named nonempty number

/-! ## Lookups -/

variable {policy : AccessPolicy} {api : Api} {address : List Char} {now : Rat} {slot : ClientSlot}
  {request : String} {token : List Char} {answer : Answer}

theorem verdict_of_failure (failure : isSuccess answer.status = false) :
    verdict depth (.ok answer) = .error (.refused (.remoteVerification (some answer.status) none)) := by
  simp only [verdict, failure, Bool.false_eq_true, if_false]

theorem verdict_of_handled (success : isSuccess answer.status = true)
    (unread : ofBody answer.body depth = .error fault) (handled : isHandled fault = true) :
    verdict depth (.ok answer) =
      .error (.refused (.remoteVerification (some answer.status) (some (.profile fault)))) := by
  simp only [verdict, success, unread, handled, if_true]

theorem verdict_of_breaks (success : isSuccess answer.status = true)
    (breaks : Breaks depth answer.body fault) :
    verdict depth (.ok answer) = .error (.broke (.profile fault)) := by
  obtain ⟨unread, unhandled⟩ := breaks_iff.mp breaks
  simp only [verdict, success, unread, unhandled, if_true, Bool.false_eq_true, if_false]

/-- An answer is settled by an identity whose name is the login in its body, or by a refusal that
gives its status. -/
def Settles (depth : Nat) (answer : Answer) (result : Except VerifierFailure Identity) : Prop :=
  (∃ identity, result = .ok identity ∧ isSuccess answer.status = true ∧
    Names depth answer.body identity.principal) ∨
  ∃ cause, result = .error (.refused (.remoteVerification (some answer.status) cause))

theorem not_settles_broke {fault : Fault} : ¬ Settles depth answer (.error (.broke fault)) := by
  rintro (⟨_, ⟨⟩, -⟩ | ⟨_, ⟨⟩⟩)

theorem settles_verdict_iff :
    Settles depth answer (verdict depth (.ok answer)) ↔
      (isSuccess answer.status = true → ∀ fault, ¬ Breaks depth answer.body fault) := by
  constructor
  · intro settles success fault breaks
    rw [verdict_of_breaks success breaks] at settles
    exact not_settles_broke settles
  · intro sane
    cases success : isSuccess answer.status with
    | false => exact .inr ⟨none, verdict_of_failure success⟩
    | true =>
      cases read : ofBody answer.body depth with
      | ok identity =>
        exact .inl ⟨identity, verdict_of_profile success read, success, names_of_ofBody read⟩
      | error fault =>
        cases handled : isHandled fault with
        | true => exact .inr ⟨_, verdict_of_handled success read handled⟩
        | false => exact absurd (breaks_iff.mpr ⟨read, handled⟩) (sane success fault)

theorem verdict_ok_eq_ok_iff :
    verdict depth (.ok answer) = .ok identity ↔
      isSuccess answer.status = true ∧ ofBody answer.body depth = .ok identity := by
  rw [verdict_eq_ok_iff]
  constructor
  · rintro ⟨_, ⟨⟩, settled⟩
    exact settled
  · exact fun settled => ⟨answer, rfl, settled⟩

/-- How the exchange for a URL ends. Without a limit to wait for nothing is sent. -/
def exchanged (policy : AccessPolicy) (api : Api) (url : Url) (token : List Char) :
    Except Fault Answer :=
  match policy.timeout.limit with
  | .error fault => .error fault
  | .ok limit => (api ⟨url, Request.carried url token, Request.mediaType⟩).under limit

theorem ending_eq_settle {url : Url} (api : Api)
    (read : (Url.base? address).bind (Url.join? · profilePath) = some url)
    (ascii : token.all (·.toNat < 0x80) = true) :
    ending policy api address profilePath token =
      settle ⟨url, Request.carried url token, Request.mediaType⟩ (exchanged policy api url token) := by
  unfold exchanged
  cases limited : policy.timeout.limit with
  | error fault =>
    simp only [ending, endingWith, limited]
    rfl
  | ok limit =>
    rw [ending, endingWith_of_url limited read ascii]

/-- The lookup of a profile is settled by every answer that comes in time, unless the answer is a
success with a body that breaks the lookup, or comes from an address without a scheme. When the exchange
fails the lookup is refused without a status; any other fault breaks it, as does a time limit that
cannot be set. -/
theorem fetch_settles_iff (policy : AccessPolicy) (api : Api) (address : List Char)
    (slot : ClientSlot) (sound : slot.Sound policy.apiBase.toList address) (request : String)
    (token : List Char) (ascii : token.all (·.toNat < 0x80) = true) (depth : Nat) (now : Rat)
    (url : Url) (read : (Url.base? address).bind (Url.join? · profilePath) = some url) :
    ∃ result, ((fetch policy request token depth).run api none now slot).value = some result ∧
      (∀ answer, exchanged policy api url token = .ok answer →
        (Settles depth answer result ↔ url.namesScheme = true ∧
          (isSuccess answer.status = true → ∀ fault, ¬ Breaks depth answer.body fault)) ∧
        (∀ identity, result = .ok identity ↔ url.namesScheme = true ∧
          isSuccess answer.status = true ∧ ofBody answer.body depth = .ok identity) ∧
        (∀ fault, url.namesScheme = true → isSuccess answer.status = true →
          Breaks depth answer.body fault → result = .error (.broke (.profile fault)))) ∧
      ∀ fault, exchanged policy api url token = .error fault →
        (isExchangeFailure fault = true →
          result = .error (.refused (.remoteVerification none (some fault)))) ∧
        (isExchangeFailure fault = false → result = .error (.broke fault)) := by
  obtain ⟨base, based, -⟩ := Option.bind_eq_some_iff.mp read
  have valid : Url.base? address ≠ none := by
    rw [based]
    exact Option.some_ne_none base
  have value := (run_fetch policy api request token depth now sound).2.1 valid
  rw [ending_eq_settle api read ascii] at value
  refine ⟨_, value, fun answer answered => ?_, fun fault failed => ⟨fun expected => ?_, fun other => ?_⟩⟩
  · rw [answered, settle]
    cases named : url.namesScheme with
    | true =>
      simp only [if_true, true_and]
      exact ⟨settles_verdict_iff, fun identity => verdict_ok_eq_ok_iff,
        fun fault _ success breaks => verdict_of_breaks success breaks⟩
    | false =>
      refine ⟨iff_of_false not_settles_broke (by rintro ⟨⟨⟩, -⟩), fun identity => iff_of_false ?_ ?_, ?_⟩
      · rintro ⟨⟩
      · rintro ⟨⟨⟩, -⟩
      · rintro fault ⟨⟩
  · rw [failed, settle]
    simp only [verdict, expected, if_true]
  · rw [failed, settle]
    simp only [verdict, other, Bool.false_eq_true, if_false]

/-! ### A body that breaks the lookup -/

def fault? {ε α : Type} : Except ε α → Option ε
  | .error fault => some fault
  | .ok _ => none

theorem eq_error_of_fault? {ε α : Type} {result : Except ε α} {fault : ε}
    (given : fault? result = some fault) : result = .error fault := by
  cases result with
  | error other =>
    cases given
    rfl
  | ok value => cases given

/-- A body that names a login and gives it an infinite number. -/
def infiniteBody : List UInt8 := Text.utf8 "\x7b\"login\":\"a\",\"id\":1e400\x7d".toList

def plainPolicy : AccessPolicy := AccessPolicy.ofRealm "registry" (by decide)

def infiniteApi : Api := fun _ => ⟨0, .ok ⟨200, infiniteBody⟩⟩

/-- An infinite number escapes as a fault of its own, where a refusal with the status would be due. -/
theorem infiniteBody_not_settled :
    ∃ result, ((fetch plainPolicy "1" ['t']).run infiniteApi none 0 .ofOwner).value = some result ∧
      ¬ Settles maxDepth ⟨200, infiniteBody⟩ result := by
  have broke : ((fetch plainPolicy "1" ['t']).run infiniteApi none 0 .ofOwner).value.bind fault? =
      some (.broke (.profile .infinite)) := by decide +kernel
  obtain ⟨result, value, escaped⟩ := Option.bind_eq_some_iff.mp broke
  rw [eq_error_of_fault? escaped] at value
  exact ⟨_, value, not_settles_broke⟩

theorem infiniteBody_breaks_lookup :
    ∃ url, (Url.base? plainPolicy.apiBase.toList).bind (Url.join? · profilePath) = some url ∧
      exchanged plainPolicy infiniteApi url ['t'] = .ok ⟨200, infiniteBody⟩ ∧
      Breaks maxDepth infiniteBody .infinite ∧
      ((fetch plainPolicy "1" ['t']).run infiniteApi none 0 .ofOwner).value =
        some (.error (.broke (.profile .infinite))) := by
  have named : ((Url.base? plainPolicy.apiBase.toList).bind (Url.join? · profilePath)).map
      (·.namesScheme) = some true := by decide +kernel
  obtain ⟨url, read, scheme⟩ := Option.map_eq_some_iff.mp named
  have answered : exchanged plainPolicy infiniteApi url ['t'] = .ok ⟨200, infiniteBody⟩ := rfl
  have breaks : Breaks maxDepth infiniteBody .infinite :=
    breaks_iff.mpr ⟨eq_error_of_fault? (by decide +kernel), rfl⟩
  obtain ⟨result, value, answer, -⟩ := fetch_settles_iff plainPolicy infiniteApi
    plainPolicy.apiBase.toList .ofOwner ClientSlot.sound_ofOwner "1" ['t'] (by decide) maxDepth 0 url read
  rw [(answer _ answered).2.2 .infinite scheme (by decide) breaks] at value
  exact ⟨url, read, answered, breaks, value⟩

end RegistryGate.Identity
