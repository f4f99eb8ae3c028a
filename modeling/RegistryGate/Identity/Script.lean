import RegistryGate.Exchange

/-!
# Scripted APIs

An identity API given by a list of routes. The first route whose path ends the target of a request,
and whose token, if it names one, is the one sent, says what the API replies.
-/

namespace RegistryGate

structure Route where
  path : List Char
  token : Option (List Char)
  reply : Reply

namespace Route

/-- What is left of an authorization when its scheme is taken off. -/
def sentToken (request : Request) : List Char := request.authorization.drop 6

def serves (route : Route) (request : Request) : Bool :=
  route.path.reverse.isPrefixOf request.url.target.reverse &&
    (match route.token with
      | some token => token == sentToken request
      | none => true)

def notFound : Reply := ⟨0, .ok ⟨404, []⟩⟩

/-- The API that routes describe. -/
def api (routes : List Route) : Api := fun request =>
  match routes.find? (·.serves request) with
  | some route => route.reply
  | none => notFound

end Route

end RegistryGate
