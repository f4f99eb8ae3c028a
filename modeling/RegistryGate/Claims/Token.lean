import RegistryGate.Base64Url
import RegistryGate.Claims.Payload
import RegistryGate.Text.Split

/-!
# Claims tokens

A token has three segments with dots between them: a header, the claims and a signature. Only the
claims are read; they are a document in base64url.
-/

namespace RegistryGate.Claims

inductive TokenError where
  /-- The token does not have three segments. -/
  | segments
  | encoding (error : Base64Url.DecodeError)
  /-- The middle segment holds no claims. -/
  | payload (issues : List Issue)
deriving DecidableEq, Inhabited

def TokenError.message : TokenError → String
  | .segments => "invalid JWT token format"
  | .encoding error => "failed to decode token payload: " ++ error.message
  | .payload issues =>
    "failed to parse token payload (" ++ toString issues.length ++ " errors)"

def decode (token : List Char) : Except TokenError Payload :=
  match Text.splitOn '.' token with
  | [_, middle, _] =>
    match Base64Url.decode middle with
    | .error error => .error (.encoding error)
    | .ok bytes => (Payload.ofDocument bytes).mapError .payload
  | _ => .error .segments

/-- The header of a token: what it names, in order, each name once. -/
abbrev Header := List (WideText × Datum WideText)

/-- The header that stands in for an empty one. -/
def defaultHeader : Header :=
  [(.ofString "alg", .text (.ofString "RS256")), (.ofString "typ", .text (.ofString "JWT"))]

/-- A text in UTF-8 and base64url. -/
def segment (text : List Char) : List Char :=
  Base64Url.encode (Text.utf8 text)

/-- The token of claims behind the text of a header. The signature stands as it is. -/
def assemble (payload : Payload) (signature head : List Char) : List Char :=
  segment head ++ '.' :: (segment payload.document ++ '.' :: signature)

/-- The header that is written: the one that is given, unless it is empty. -/
def headerOf (header : Header) : Header := if header.isEmpty then defaultHeader else header

/-- The token of given claims and a header that a document can write. -/
def encode (payload : Payload) (header : Header) (signature : List Char) : List Char :=
  assemble payload signature (Json.document (.mapping (headerOf header)))

/-- The token of given claims, unless the header is none that a document with containers nested at
most `depth` levels deep can write. -/
def mint (depth : Nat) (payload : Payload) (header : Header) (signature : List Char) :
    Except Json.WriteError (List Char) :=
  (Json.write depth (.mapping (headerOf header))).map (assemble payload signature)

end RegistryGate.Claims
