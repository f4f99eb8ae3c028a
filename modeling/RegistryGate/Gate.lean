import RegistryGate.Engine

/-!
# The gate

What stands before an application: a request with a public path, or of another kind than HTTP, is
let through; any other is authorized first. A refused request is answered here, always in the same
way.
-/

namespace RegistryGate

/-- How an authorization ends without a grant. -/
inductive Refusal where
  | challenged (challenge : Challenge)
  | broke (fault : Fault)
deriving DecidableEq, Inhabited

/-- What a gate asks: it authorizes the value of an `Authorization` header. -/
abbrev Authorizer := RequestContext → Option (List Char) → Procedure (Except Refusal Grant)

/-- An engine as a gate asks it. It refuses with challenges only. -/
def Engine.authorizer (engine : Engine) : Authorizer := fun context header => do
  return (← engine.authorizeHeader context header).mapError .challenged

/-- An entry of a scope, which may be missing or not what it should be. -/
inductive ScopeEntry (α : Type) where
  | absent
  | unusable
  | given (value : α)
deriving Inhabited

/-- An entry of the state that the application is handed. -/
inductive StateValue where
  | given (value : Datum String)
  | granted (grant : Grant)
deriving Inhabited

/-- A request as the server hands it over. -/
structure Scope where
  kind : ScopeEntry String
  path : ScopeEntry String
  method : Option String
  headers : ScopeEntry (List (List UInt8 × List UInt8))
  client : Option String
  state : ScopeEntry (List (String × StateValue))
deriving Inhabited

/-- What becomes of a request. -/
inductive Handling where
  /-- The application is called. -/
  | forwarded (scope : Scope)
  | answered (response : Response)
  | broke (fault : Fault)

inductive Message where
  | start (status : Nat) (headers : List (String × List UInt8))
  | body (bytes : List UInt8)
deriving DecidableEq, Inhabited

/-- What a gate does about a request. -/
inductive Act where
  | called (scope : Scope)
  | sent (message : Message)

def Act.isCall : Act → Bool
  | .called _ => true
  | .sent _ => false

namespace Handling

def acts : Handling → List Act
  | .forwarded scope => [.called scope]
  | .answered response =>
    [.sent (.start response.status response.headers), .sent (.body response.body)]
  | .broke _ => []

/-- The state that the scope of a request is left with. -/
def stateOf (before : Scope) : Handling → ScopeEntry (List (String × StateValue))
  | .forwarded scope => scope.state
  | _ => before.state

end Handling

/-- What a run does about a request. One that is cancelled does nothing. -/
def Run.acts (run : Run Handling) : List Act :=
  match run.value with
  | some handling => handling.acts
  | none => []

/-- The state that a run leaves the scope of its request with. -/
def Run.stateOf (run : Run Handling) (before : Scope) : ScopeEntry (List (String × StateValue)) :=
  match run.value with
  | some handling => handling.stateOf before
  | none => before.state

namespace Gate

/-- The paths that are public unless others are named. -/
def publicPaths : List String := ["/health"]

/-- Whether a path, or the path without slashes at its end, is public. -/
def isPublic (paths : List String) (path : String) : Bool :=
  paths.contains path || paths.contains (String.ofList (Text.dropTrailing '/' path.toList))

/-- How a scope has to be dealt with. -/
inductive Dealing where
  | forward
  | fail (fault : Fault)
  | guard (method path : String)

/-- The dealing for a scope. -/
def dealing (paths : List String) (scope : Scope) : Dealing :=
  match scope.kind with
  | .absent => .fail .missingEntry
  | .unusable => .forward
  | .given kind =>
    if kind ≠ "http" then .forward
    else
      let byPath (path : String) : Dealing :=
        if isPublic paths path then .forward else .guard (scope.method.getD "") path
      match scope.path with
      | .absent => byPath "/"
      | .unusable => .fail .unusablePath
      | .given path => byPath path

def headerName : List UInt8 := Text.utf8 "authorization".toList

/-- The value of the first header with that exact name. -/
def authorization? (headers : List (List UInt8 × List UInt8)) : Option (List Char) :=
  (headers.find? (·.1 = headerName)).map fun header => Text.readLatin1 header.2

/-- The state with a grant in it; state that is no mapping takes none. -/
def withGrant (scope : Scope) (grant : Grant) : Handling :=
  match scope.state with
  | .unusable => .broke .wrongType
  | .absent => .forwarded { scope with state := .given [("grant", .granted grant)] }
  | .given entries =>
    .forwarded { scope with state := .given (Entries.insert entries "grant" (.granted grant)) }

/-- Authorizes a request and forwards or answers it. The handler of a challenge catches no
cancellation. -/
def guard (authorize : Authorizer) (scope : Scope) (context : RequestContext) :
    Procedure Handling := do
  let started ← Procedure.clock .done
  match scope.headers with
  | .absent => return .broke .missingEntry
  | .unusable => return .broke .wrongType
  | .given headers =>
    match ← (authorize context (authorization? headers)).attempt with
    | none => .cancelled
    | some ended =>
      match ended with
      | .ok grant => return withGrant scope grant
      | .error (.broke fault) => return .broke fault
      | .error (.challenged challenge) => do
        let now ← Procedure.clock .done
        Procedure.log (.rejected context.method context.path (scope.client.getD "unknown")
          (elapsedMs started now))
        match challenge.response? with
        | some response => return .answered response
        | none => return .broke .unencodable

/-- Deals with a scope. `id` identifies the request if it has to be authorized. -/
def handle (authorize : Authorizer) (paths : List String) (scope : Scope) (id : String) :
    Procedure Handling :=
  match dealing paths scope with
  | .forward => .done (.forwarded scope)
  | .fail fault => .done (.broke fault)
  | .guard method path => guard authorize scope ⟨method, path, id⟩

def isGuarded (paths : List String) (scope : Scope) : Bool :=
  match dealing paths scope with
  | .guard _ _ => true
  | _ => false

end Gate

end RegistryGate
