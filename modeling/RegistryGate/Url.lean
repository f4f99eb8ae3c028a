import RegistryGate.Number.Numeral
import RegistryGate.Url.Host

/-!
# URLs

A URL is taken apart, each part is brought into its normal form, and requests are addressed by
joining a path to a base. Of a URL with a scheme or a host the dot segments are resolved after
joining; escapes that are there already are kept.
-/

namespace RegistryGate

/-- A URL in normal form. -/
structure Url where
  scheme : List Char
  userinfo : List Char
  host : List Char
  port : Option Int
  path : List Char
  query : Option (List Char)
  fragment : Option (List Char)
deriving DecidableEq, Inhabited

namespace Url

/-- The greatest length of a URL or of a part of it. -/
def maxLength : Nat := 65536

/-! ## Taking apart -/

def isSchemeChar (c : Char) : Bool := c.isAlphanum || c == '+' || c == '.' || c == '-'

/-- The scheme at the start of a text, and what stands behind its colon. -/
def splitScheme (text : List Char) : List Char × List Char :=
  match text with
  | [] => ([], text)
  | first :: _ =>
    if first = ':' then ([], text.drop 1)
    else if first.isAlpha then
      match text.dropWhile isSchemeChar with
      | ':' :: rest => (text.takeWhile isSchemeChar, rest)
      | _ => ([], text)
    else ([], text)

def endsAuthority (c : Char) : Bool := c == '/' || c == '?' || c == '#'

/-- The authority behind two slashes, and the rest. -/
def splitAuthority : List Char → List Char × List Char
  | '/' :: '/' :: rest =>
    (rest.takeWhile fun c => !endsAuthority c, rest.dropWhile fun c => !endsAuthority c)
  | text => ([], text)

/-- The part before the first occurrence of a character and the part behind it. -/
def splitAt (mark : Char) (text : List Char) : List Char × Option (List Char) :=
  match text.dropWhile (· != mark) with
  | [] => (text, none)
  | _ :: rest => (text.takeWhile (· != mark), some rest)

/-- The user information before the last at sign of an authority, and the rest. -/
def splitUserinfo (authority : List Char) : List Char × List Char :=
  match splitAt '@' authority.reverse with
  | (_, none) => ([], authority)
  | (rest, some userinfo) => (userinfo.reverse, rest.reverse)

/-- The host at the start of a text, in brackets or up to a colon, and what stands behind it. -/
def splitHost (text : List Char) : List Char × List Char :=
  let bracketed := text.head? = some '[' ∧ text.contains ']'
  if bracketed then
    let (behind, host) := splitAt ']' text.reverse
    (((host.getD []).reverse ++ [']']), behind.reverse)
  else (text.takeWhile (· != ':'), text.dropWhile (· != ':'))

/-! ## Normal forms -/

/-- Whether a character is printable ASCII and none of the given ones. -/
def printableExcept (excluded : List Char) (c : Char) : Bool :=
  0x20 < c.toNat && c.toNat < 0x7f && !excluded.contains c

/-- The characters that stand for themselves in user information. -/
def isUserinfoChar : Char → Bool :=
  printableExcept "\"#<>?`\x7b\x7d/;=@[\\]^|".toList

def isPathChar : Char → Bool := printableExcept "\"#<>?`\x7b\x7d".toList

def isQueryChar : Char → Bool := printableExcept "\"#<>".toList

def isFragmentChar : Char → Bool := printableExcept "\"<>`".toList

/-- The port that a scheme stands for. -/
def defaultPort? (scheme : List Char) : Option Int :=
  match String.ofList scheme with
  | "ftp" => some 21
  | "http" | "ws" => some 80
  | "https" | "wss" => some 443
  | _ => none

/-- The port that a text names; no port is named by the empty text, and that of the scheme is left
out. -/
def readPort? (scheme text : List Char) : Option (Option Int) :=
  if text.isEmpty then some none
  else
    (Numeral.int? (.ofChars text)).map fun port =>
      if defaultPort? scheme = some port then none else some port

/-- Resolves one segment against the segments before it, which are in reverse order. -/
def resolveSegment (before : List (List Char)) (segment : List Char) : List (List Char) :=
  if segment = ['.'] then before
  else if segment = ['.', '.'] then
    if before = [] ∨ before = [[]] then before else before.tail
  else segment :: before

def resolveDots (path : List Char) : List Char :=
  Text.join '/' ((Text.splitOn '/' path).foldl resolveSegment []).reverse

/-- Whether a path can follow an authority, or stand without scheme and authority. -/
def isPathAllowed (path : List Char) (hasScheme hasAuthority : Bool) : Bool :=
  if hasAuthority then path.isEmpty || path.head? == some '/'
  else hasScheme || !(path.take 2 == ['/', '/'] || path.head? == some ':')

/-- The URL of given parts in normal form, unless one of them has none. -/
def ofParts? (scheme authority path : List Char) (query fragment : Option (List Char)) :
    Option Url := do
  let (userinfo, rest) := splitUserinfo authority
  let (host, behind) := splitHost rest
  let userinfo := Percent.encodeKeeping isUserinfoChar userinfo
  let host ← Host.normalize? host
  let port ← readPort? scheme (if behind.head? = some ':' then behind.drop 1 else behind)
  let hasScheme := !scheme.isEmpty
  let hasAuthority := !userinfo.isEmpty || !host.isEmpty || port.isSome
  if !isPathAllowed path hasScheme hasAuthority then none
  let path := if hasScheme || hasAuthority then resolveDots path else path
  return {
    scheme := scheme.map Char.toLower
    userinfo
    host
    port
    path := Percent.encodeKeeping isPathChar path
    query := query.map (Percent.encodeKeeping isQueryChar)
    fragment := fragment.map (Percent.encodeKeeping isFragmentChar) }

/-- Whether a text is short enough and holds no ASCII control. -/
def isAcceptable (text : List Char) : Bool :=
  text.length ≤ maxLength && text.all fun c => 0x20 ≤ c.toNat && c.toNat != 0x7f

def parse? (text : List Char) : Option Url :=
  if isAcceptable text then
    let (scheme, rest) := splitScheme text
    let (authority, rest) := splitAuthority rest
    let (rest, fragment) := splitAt '#' rest
    let (path, query) := splitAt '?' rest
    ofParts? scheme authority path query fragment
  else none

/-! ## Writing -/

def authority (url : Url) : List Char :=
  (if url.userinfo.isEmpty then [] else url.userinfo ++ ['@']) ++
    (if url.host.contains ':' then '[' :: url.host ++ [']'] else url.host) ++
    (match url.port with
      | some port => ':' :: (toString port).toList
      | none => [])

/-- The path, `/` if it is empty, and the query. -/
def target (url : Url) : List Char :=
  (if url.path.isEmpty then ['/'] else url.path) ++
    (match url.query with
      | some query => '?' :: query
      | none => [])

def toChars (url : Url) : List Char :=
  let authority := url.authority
  (if url.scheme.isEmpty then [] else url.scheme ++ [':']) ++
    (if authority.isEmpty then [] else '/' :: '/' :: authority) ++ url.path ++
    (match url.query with
      | some query => '?' :: query
      | none => []) ++
    (match url.fragment with
      | some fragment => '#' :: fragment
      | none => [])

/-- Whether the text of a URL begins with the name of a scheme. -/
def namesScheme (url : Url) : Bool :=
  match url.toChars.span fun c => c != ':' && c != '/' with
  | (name, ':' :: _) => !name.isEmpty
  | _ => false

/-! ## Joining -/

def withTarget? (url : Url) (target : List Char) : Option Url :=
  let (path, query) := splitAt '?' target
  let parts := [url.scheme, url.authority, path] ++ query.toList ++ url.fragment.toList
  if parts.all isAcceptable then ofParts? url.scheme url.authority path query url.fragment else none

/-- The URL that paths are joined to: its target ends in a slash. -/
def base? (text : List Char) : Option Url := do
  let url ← parse? text
  if url.target.getLast? = some '/' then return url else withTarget? url (url.target ++ ['/'])

/-- The URL of a path under a base. -/
def join? (base : Url) (path : List Char) : Option Url := do
  let relative ← parse? path
  withTarget? base (base.target ++ relative.target.dropWhile (· == '/'))

end Url

end RegistryGate
