import RegistryGate.Gate
import RegistryGate.Proofs.Runs

/-!
# Passage through the gate

The application is called for a request of another kind than HTTP, for a public path and for a grant,
and for nothing else (`handle_passage`). What is asked is arbitrary here: the gate is safe whatever
grants, refuses or breaks behind it, and also when it is cut off.
-/

namespace RegistryGate

/-- An engine as a gate asks it ends as the engine ends. -/
theorem Engine.value_authorizer (engine : Engine) (context : RequestContext)
    (header : Option (List Char)) (api : Api) (deadline : Option Rat) (now : Rat)
    (slot : ClientSlot) :
    ((engine.authorizer context header).run api deadline now slot).value =
      ((engine.authorizeHeader context header).run api deadline now slot).value.map
        (Except.mapError .challenged) := by
  simp only [authorizer]
  obtain ⟨left, -, whole⟩ := Procedure.exists_run_bind (engine.authorizeHeader context header)
    (fun ended => pure (ended.mapError Refusal.challenged)) api deadline now slot
  rw [whole]
  cases ended : ((engine.authorizeHeader context header).run api deadline now slot).value with
  | none => rw [Run.andThen_of_none ended]; rfl
  | some result => rw [Run.andThen_of_some ended]; rfl

/-! ## What a scope says -/

/-- The path of a scope: "/" unless one is given. -/
def Scope.HasPath (scope : Scope) (path : String) : Prop :=
  scope.path = .given path ∨ scope.path = .absent ∧ path = "/"

/-- The entries of the state of a scope: none unless there is one. -/
def Scope.HasState (scope : Scope) (entries : List (String × StateValue)) : Prop :=
  scope.state = .given entries ∨ scope.state = .absent ∧ entries = []

namespace Gate

/-- A path is public if it is named, or if what is left of it without the slashes at its end is. -/
def Public (paths : List String) (path : String) : Prop :=
  path ∈ paths ∨ ∃ left ∈ paths, left.toList.getLast? ≠ some '/' ∧
    ∃ count, path.toList = left.toList ++ List.replicate count '/'

theorem isPublic_iff {paths : List String} {path : String} :
    isPublic paths path = true ↔ Public paths path := by
  unfold isPublic Public
  rw [Bool.or_eq_true, List.contains_iff_mem, List.contains_iff_mem]
  refine or_congr Iff.rfl ?_
  constructor
  · intro member
    refine ⟨_, member, ?_⟩
    rw [String.toList_ofList]
    exact Text.dropTrailing_eq_iff.mp rfl
  · rintro ⟨left, member, split⟩
    rwa [Text.dropTrailing_eq_iff.mpr split, String.ofList_toList]

/-- The value of the first header with a name, if there is one. -/
def FirstValue (headers : List (List UInt8 × List UInt8)) (name : List UInt8) :
    Option (List UInt8) → Prop
  | none => ∀ header ∈ headers, header.1 ≠ name
  | some value => ∃ before after, headers = before ++ (name, value) :: after ∧
      ∀ header ∈ before, header.1 ≠ name

theorem exists_firstValue (headers : List (List UInt8 × List UInt8)) (name : List UInt8) :
    ∃ value, FirstValue headers name value := by
  cases found : headers.find? (·.1 = name) with
  | none =>
    refine ⟨none, fun header member => ?_⟩
    simpa using List.find?_eq_none.mp found header member
  | some header =>
    obtain ⟨named, before, after, split, different⟩ := List.find?_eq_some_iff_append.mp found
    have same : header.1 = name := of_decide_eq_true named
    refine ⟨some header.2, before, after, ?_, fun earlier member => ?_⟩
    · rw [split, ← same]
    · simpa using different earlier member

theorem authorization?_of_firstValue {headers : List (List UInt8 × List UInt8)}
    {value : Option (List UInt8)} (first : FirstValue headers headerName value) :
    authorization? headers = value.map Text.readLatin1 := by
  unfold authorization?
  cases value with
  | none =>
    have found : headers.find? (·.1 = headerName) = none :=
      List.find?_eq_none.mpr fun header member => by simpa using first header member
    rw [found]
    rfl
  | some value =>
    obtain ⟨before, after, split, different⟩ := first
    have found : headers.find? (·.1 = headerName) = some (headerName, value) := by
      refine List.find?_eq_some_iff_append.mpr ⟨by simp, before, after, split, ?_⟩
      exact fun earlier member => by simpa using different earlier member
    rw [found]
    rfl

/-! ## What is made of it -/

variable {authorize : Authorizer} {paths : List String} {scope : Scope} {path id : String}
  {api : Api} {deadline : Option Rat} {now : Rat} {slot : ClientSlot}

theorem handle_of_other_kind (present : scope.kind ≠ .absent) (other : scope.kind ≠ .given "http") :
    handle authorize paths scope id = .done (.forwarded scope) := by
  have forward : dealing paths scope = .forward := by
    unfold dealing
    cases kind : scope.kind with
    | absent => exact absurd kind present
    | unusable => rfl
    | given name =>
      have different : name ≠ "http" := fun same => other (by rw [kind, same])
      exact if_pos different
  rw [handle, forward]

theorem dealing_of_path (http : scope.kind = .given "http") (atPath : scope.HasPath path) :
    dealing paths scope =
      if isPublic paths path then .forward else .guard (scope.method.getD "") path := by
  rcases atPath with given | ⟨absent, rfl⟩
  · simp only [dealing, http, given, ne_eq, not_true, if_false]
  · simp only [dealing, http, absent, ne_eq, not_true, if_false]

theorem handle_of_public (http : scope.kind = .given "http") (atPath : scope.HasPath path)
    (free : Public paths path) :
    handle authorize paths scope id = .done (.forwarded scope) := by
  rw [handle, dealing_of_path http atPath, if_pos (isPublic_iff.mpr free)]

theorem handle_of_guarded (http : scope.kind = .given "http") (atPath : scope.HasPath path)
    (guarded : ¬ Public paths path) :
    handle authorize paths scope id = guard authorize scope ⟨scope.method.getD "", path, id⟩ := by
  rw [handle, dealing_of_path http atPath, if_neg (mt isPublic_iff.mp guarded)]

/-- What an authorization comes to for a scope. -/
def settle (scope : Scope) : Except Refusal Grant → Handling
  | .ok grant => withGrant scope grant
  | .error (.broke fault) => .broke fault
  | .error (.challenged challenge) =>
    match challenge.response? with
    | some response => .answered response
    | none => .broke .unencodable

theorem value_guard {headers : List (List UInt8 × List UInt8)} {context : RequestContext}
    (given : scope.headers = .given headers) :
    ((guard authorize scope context).run api deadline now slot).value =
      (((authorize context (authorization? headers)).run api deadline now slot).value).map
        (settle scope) := by
  rw [guard, Procedure.run_clock_bind]
  simp only [given]
  rw [Procedure.attempt_bind _ rfl]
  obtain ⟨left, -, whole⟩ := Procedure.exists_run_bind (authorize context (authorization? headers))
    _ api deadline now slot
  rw [whole]
  cases ended : ((authorize context (authorization? headers)).run api deadline now slot).value with
  | none => rw [Run.andThen_of_none ended]; rfl
  | some authorized =>
    rw [Run.andThen_of_some ended]
    rcases authorized with (challenge | fault) | grant
    · simp only [settle, Option.map_some]
      cases challenge.response? <;> rfl
    · rfl
    · rfl

/-- What a gate does about a guarded request, told by how its authorization ended: the application is
called with the grant in the state, or with nothing. A challenge whose realm fits into a header is
answered by one 401, and whatever else happens nothing is sent. -/
structure Guarded (scope : Scope) (ended : Option (Except Refusal Grant)) (run : Run Handling) :
    Prop where
  granted : ∀ grant entries, ended = some (.ok grant) → scope.HasState entries →
    ∃ state, run.acts = [.called { scope with state := .given state }] ∧
      run.stateOf scope = .given state ∧
      Entries.get? state "grant" = some (.granted grant) ∧
      ∀ name, name ≠ "grant" → Entries.get? state name = Entries.get? entries name
  challenged : ∀ challenge, ended = some (.error (.challenged challenge)) →
    (∀ c ∈ challenge.realm.toList, c.toNat < 0x100) →
    ∃ headers body, run.acts = [.sent (.start 401 headers), .sent (.body body)]
  otherwise : (∀ grant entries, ended = some (.ok grant) → ¬ scope.HasState entries) →
    (∀ challenge, ended = some (.error (.challenged challenge)) →
      ¬ ∀ c ∈ challenge.realm.toList, c.toNat < 0x100) →
    run.acts = []
  untouched : (∀ grant, ended ≠ some (.ok grant)) →
    (∀ act ∈ run.acts, act.isCall = false) ∧ run.stateOf scope = scope.state

theorem withGrant_hasState {entries : List (String × StateValue)} (state : scope.HasState entries)
    (grant : Grant) :
    withGrant scope grant =
      .forwarded { scope with state := .given (Entries.insert entries "grant" (.granted grant)) } := by
  rcases state with given | ⟨absent, rfl⟩
  · simp only [withGrant, given]
  · simp only [withGrant, absent, Entries.insert]

theorem acts_withGrant {grant : Grant} (stateless : ∀ entries, ¬ scope.HasState entries) :
    (withGrant scope grant).acts = [] := by
  cases state : scope.state with
  | absent => exact absurd (.inr ⟨state, rfl⟩) (stateless [])
  | unusable => simp only [withGrant, state, Handling.acts]
  | given entries => exact absurd (.inl state) (stateless entries)

theorem settle_refusal (refusal : Refusal) :
    (∀ act ∈ (settle scope (.error refusal)).acts, act.isCall = false) ∧
      (settle scope (.error refusal)).stateOf scope = scope.state := by
  cases refusal with
  | broke fault => exact ⟨fun _ member => absurd member List.not_mem_nil, rfl⟩
  | challenged challenge =>
    simp only [settle]
    cases challenge.response? with
    | none => exact ⟨fun _ member => absurd member List.not_mem_nil, rfl⟩
    | some response => exact ⟨by simp [Handling.acts, Act.isCall], rfl⟩

theorem guarded_of_value {ended : Option (Except Refusal Grant)} {run : Run Handling}
    (value : run.value = ended.map (settle scope)) : Guarded scope ended run where
  granted grant entries ok state := by
    rw [ok, Option.map_some, settle, withGrant_hasState state] at value
    refine ⟨Entries.insert entries "grant" (.granted grant), ?_, ?_, ?_, fun name different => ?_⟩
    · simp only [Run.acts, value, Handling.acts]
    · simp only [Run.stateOf, value, Handling.stateOf]
    · rw [Entries.get?_insert, if_pos rfl]
    · rw [Entries.get?_insert, if_neg different.symm]
  challenged challenge refused small := by
    obtain ⟨response, answer, status⟩ := Challenge.exists_response small
    rw [refused] at value
    simp only [Option.map_some, settle, answer] at value
    refine ⟨response.headers, response.body, ?_⟩
    simp only [Run.acts, value, Handling.acts, status]
  otherwise stateless unanswerable := by
    rcases ended with _ | (challenge | fault) | grant
    · simp only [Run.acts, value, Option.map_none]
    · have silent := Challenge.response?_eq_none (unanswerable challenge rfl)
      simp only [Run.acts, value, Option.map_some, settle, silent, Handling.acts]
    · simp only [Run.acts, value, Option.map_some, settle, Handling.acts]
    · simp only [Run.acts, value, Option.map_some, settle]
      exact acts_withGrant fun entries => stateless grant entries rfl
  untouched denied := by
    rcases ended with _ | refusal | grant
    · simp [Run.acts, Run.stateOf, value]
    · rw [Option.map_some] at value
      simpa only [Run.acts, Run.stateOf, value] using settle_refusal refusal
    · exact absurd rfl (denied grant)

/-- How the authorization of a request ends, for the path of the request and the value of its header. -/
def authorization (authorize : Authorizer) (scope : Scope) (id : String) (api : Api)
    (deadline : Option Rat) (now : Rat) (slot : ClientSlot) (path : String)
    (value : Option (List UInt8)) : Option (Except Refusal Grant) :=
  ((authorize ⟨scope.method.getD "", path, id⟩ (value.map Text.readLatin1)).run api deadline now
    slot).value

/-- What a gate does about a scope: it calls the application at most once, passes on what is of
another kind than HTTP or has a public path, without asking anybody, and guards the rest with the
first `authorization` header. -/
structure Passage (authorize : Authorizer) (paths : List String) (scope : Scope) (id : String)
    (api : Api) (deadline : Option Rat) (now : Rat) (slot : ClientSlot) (run : Run Handling) :
    Prop where
  once : (run.acts.filter Act.isCall).length ≤ 1
  otherKind : scope.kind ≠ .absent → scope.kind ≠ .given "http" →
    handle authorize paths scope id = .done (.forwarded scope) ∧ run.acts = [.called scope]
  free : ∀ path, scope.kind = .given "http" → scope.HasPath path → Public paths path →
    handle authorize paths scope id = .done (.forwarded scope) ∧ run.acts = [.called scope] ∧
      run.stateOf scope = scope.state
  guarded : ∀ path headers value, scope.kind = .given "http" → scope.HasPath path →
    ¬ Public paths path → scope.headers = .given headers → FirstValue headers headerName value →
    Guarded scope (authorization authorize scope id api deadline now slot path value) run
  reached : scope.kind = .given "http" → (∃ act ∈ run.acts, act.isCall = true) →
    ∃ path, scope.HasPath path ∧
      (Public paths path ∨ ∃ headers value grant, scope.headers = .given headers ∧
        FirstValue headers headerName value ∧
        authorization authorize scope id api deadline now slot path value = some (.ok grant))

/-! ## The gate -/

theorem calls_le_one (handling : Handling) : (handling.acts.filter Act.isCall).length ≤ 1 := by
  cases handling <;> exact Nat.le_of_ble_eq_true rfl

theorem acts_guard_of_no_headers {context : RequestContext}
    (missing : ∀ headers, scope.headers ≠ .given headers) :
    ((guard authorize scope context).run api deadline now slot).acts = [] := by
  rw [guard, Procedure.run_clock_bind]
  cases entry : scope.headers with
  | absent => rfl
  | unusable => rfl
  | given headers => exact absurd entry (missing headers)

/-- A request whose path is not a text is neither forwarded nor answered. -/
theorem acts_handle_of_unusable_path (http : scope.kind = .given "http")
    (unusable : scope.path = .unusable) :
    ((handle authorize paths scope id).run api deadline now slot).acts = [] := by
  have fail : dealing paths scope = .fail .unusablePath := by
    simp only [dealing, http, unusable, ne_eq, not_true, if_false]
  rw [handle, fail]
  rfl

theorem value_handle_of_guarded {headers : List (List UInt8 × List UInt8)}
    {value : Option (List UInt8)} (http : scope.kind = .given "http") (atPath : scope.HasPath path)
    (guarded : ¬ Public paths path) (given : scope.headers = .given headers)
    (first : FirstValue headers headerName value) :
    ((handle authorize paths scope id).run api deadline now slot).value =
      (authorization authorize scope id api deadline now slot path value).map (settle scope) := by
  rw [handle_of_guarded http atPath guarded, value_guard given, authorization?_of_firstValue first]
  rfl

theorem guarded_handle {headers : List (List UInt8 × List UInt8)} {value : Option (List UInt8)}
    (http : scope.kind = .given "http") (atPath : scope.HasPath path) (guarded : ¬ Public paths path)
    (given : scope.headers = .given headers) (first : FirstValue headers headerName value) :
    Guarded scope (authorization authorize scope id api deadline now slot path value)
      ((handle authorize paths scope id).run api deadline now slot) :=
  guarded_of_value (value_handle_of_guarded http atPath guarded given first)

theorem exists_grant_of_call (http : scope.kind = .given "http") (atPath : scope.HasPath path)
    (guarded : ¬ Public paths path)
    (called : ∃ act ∈ ((handle authorize paths scope id).run api deadline now slot).acts,
      act.isCall = true) :
    ∃ headers value grant, scope.headers = .given headers ∧ FirstValue headers headerName value ∧
      authorization authorize scope id api deadline now slot path value = some (.ok grant) := by
  obtain ⟨act, member, isCall⟩ := called
  by_cases present : ∃ headers, scope.headers = .given headers
  · obtain ⟨headers, given⟩ := present
    obtain ⟨value, first⟩ := exists_firstValue headers headerName
    have dealt : Guarded scope (authorization authorize scope id api deadline now slot path value)
        ((handle authorize paths scope id).run api deadline now slot) :=
      guarded_handle http atPath guarded given first
    by_cases granted : ∃ grant,
        authorization authorize scope id api deadline now slot path value = some (.ok grant)
    · obtain ⟨grant, ended⟩ := granted
      exact ⟨headers, value, grant, given, first, ended⟩
    · have denied := (dealt.untouched fun grant ended => granted ⟨grant, ended⟩).1 act member
      rw [denied] at isCall
      cases isCall
  · rw [handle_of_guarded http atPath guarded,
      acts_guard_of_no_headers fun headers given => present ⟨headers, given⟩] at member
    exact absurd member List.not_mem_nil

theorem handle_passage (authorize : Authorizer) (paths : List String) (scope : Scope) (id : String)
    (api : Api) (deadline : Option Rat) (now : Rat) (slot : ClientSlot) :
    Passage authorize paths scope id api deadline now slot
      ((handle authorize paths scope id).run api deadline now slot) where
  once := by
    unfold Run.acts
    split
    · exact calls_le_one _
    · exact Nat.zero_le 1
  otherKind present other := by
    have forwarded : handle authorize paths scope id = .done (.forwarded scope) :=
      handle_of_other_kind present other
    exact ⟨forwarded, by rw [forwarded]; rfl⟩
  free path http atPath free := by
    have forwarded : handle authorize paths scope id = .done (.forwarded scope) :=
      handle_of_public http atPath free
    refine ⟨forwarded, ?_, ?_⟩
    · rw [forwarded]
      rfl
    · rw [forwarded]
      rfl
  guarded path headers value http atPath guarded given first :=
    guarded_handle http atPath guarded given first
  reached http called := by
    cases entry : scope.path with
    | unusable =>
      rw [acts_handle_of_unusable_path http entry] at called
      obtain ⟨act, member, -⟩ := called
      exact absurd member List.not_mem_nil
    | absent =>
      refine ⟨"/", .inr ⟨entry, rfl⟩, ?_⟩
      by_cases free : Public paths "/"
      · exact .inl free
      · exact .inr (exists_grant_of_call http (.inr ⟨entry, rfl⟩) free called)
    | given path =>
      refine ⟨path, .inl entry, ?_⟩
      by_cases free : Public paths path
      · exact .inl free
      · exact .inr (exists_grant_of_call http (.inl entry) free called)

end Gate

end RegistryGate
