import RegistryGate.Datum
import RegistryGate.Number.Seconds
import RegistryGate.Text.Blank
import RegistryGate.Text.Utf8
import RegistryGate.Validation

/-!
# Backend settings

The options of the backend, read from the mapping of a configuration file. Only the realm is
mandatory. Every other option falls back to its default when it is absent, null or of the wrong
type, and the last leaves a warning.
-/

namespace RegistryGate

/-- The API that identities are looked up in unless the options name another. -/
def defaultApiUrl : String := "https://api.github.com"

/-- The time limit of one lookup, in seconds, unless the options name another. -/
def defaultTimeout : Binary64 := .finite false (5 * Nat.pow 2 50) (-49)

/-- A warning about the value of an option. The options with a list of names are told apart by
theirs. -/
inductive OptionWarning where
  | urlIgnored (value : Datum String)
  | flagIgnored (value : Datum String)
  | audienceIgnored (value : Datum String)
  | listIgnored (option : String) (value : Datum String)
  | entriesDropped (option : String) (count : Nat)
  | timeoutIgnored (value : Datum String)
deriving Inhabited

def OptionWarning.text : OptionWarning → String
  | .urlIgnored value => "Ignoring non-string api_url " ++ value.shown
  | .flagIgnored value => "Ignoring non-boolean enable_oidc value " ++ value.shown
  | .audienceIgnored value => "Ignoring non-string oidc_audience value " ++ value.shown
  | .listIgnored _ value => "Ignoring non-list allow-list value " ++ value.shown
  | .entriesDropped _ count =>
    "Dropped " ++ toString count ++ " non-string allow-list entries"
  | .timeoutIgnored value => "Ignoring invalid timeout " ++ value.shown

structure Settings where
  realm : String
  apiUrl : String
  claimsEnabled : Bool
  expectedAudience : String
  organizations : List String
  repositories : List String
  timeout : Binary64
deriving DecidableEq, Inhabited

namespace Settings

abbrev Options := List (String × Datum String)

abbrev Warned (α : Type) := List OptionWarning × α

inductive Refusal where
  | invalid (issues : List Issue)
  /-- The time limit is too large for double precision. -/
  | timeoutOverflow
deriving DecidableEq, Inhabited

/-- The value of an option under the first of its names that is present. -/
def lookup? (options : Options) : List String → Option (Datum String)
  | [] => none
  | name :: names =>
    match Entries.get? options name with
    | some value => some value
    | none => lookup? options names

/-- The realm: a text without the white space around it, or bytes in UTF-8 as they are. It must not
be empty. -/
def readRealm (value : Option (Datum String)) : Checked String :=
  let nonEmpty (text : String) : Checked String :=
    if text = "" then .error [⟨some "realm", .emptyText⟩] else .ok text
  match value with
  | none => .error [⟨some "realm", .missing⟩]
  | some (.text text) => nonEmpty (String.ofList (Text.trim text.toList))
  | some (.bytes bytes) =>
    match Text.readUtf8String? bytes with
    | some text => nonEmpty text
    | none => .error [⟨some "realm", .notUnicode⟩]
  | some _ => .error [⟨some "realm", .notText⟩]

/-- The base URL of the API without slashes at its end; the default for the empty text. -/
def readApiUrl : Option (Datum String) → Warned String
  | none | some .null => ([], defaultApiUrl)
  | some (.text text) =>
    ([], if text = "" then defaultApiUrl else String.ofList (Text.dropTrailing '/' text.toList))
  | some value => ([.urlIgnored value], defaultApiUrl)

def readFlag : Option (Datum String) → Warned Bool
  | none | some .null => ([], false)
  | some (.bool value) => ([], value)
  | some value => ([.flagIgnored value], false)

/-- The audience that claims tokens must name, empty for any. -/
def readAudience : Option (Datum String) → Warned String
  | none | some .null => ([], "")
  | some (.text value) => ([], value)
  | some value => ([.audienceIgnored value], "")

/-- The text of an entry of an allow-list; an entry that is no text, or empty, is dropped. -/
def name? : Datum String → Option String
  | .text "" => none
  | .text value => some value
  | _ => none

/-- The names among the entries of an allow-list. -/
def keepNames (option : String) (entries : List (Datum String)) : Warned (List String) :=
  let names := entries.filterMap name?
  if names.length = entries.length then ([], names)
  else ([.entriesDropped option (entries.length - names.length)], names)

def readNames (option : String) : Option (Datum String) → Warned (List String)
  | none | some .null => ([], [])
  | some (.list entries) | some (.tuple entries) => keepNames option entries
  | some value => ([.listIgnored option value], [])

/-- The time limit of one lookup: a number greater than zero. -/
def readTimeout : Option (Datum String) → Warned (Except Refusal Binary64)
  | none | some .null => ([], .ok defaultTimeout)
  | some (.int value) =>
    if value ≤ 0 then ([.timeoutIgnored (.int value)], .ok defaultTimeout)
    else match Binary64.ofInt? value with
      | some seconds => ([], .ok seconds)
      | none => ([], .error .timeoutOverflow)
  | some (.real value) =>
    if value.isNonpositive then ([.timeoutIgnored (.real value)], .ok defaultTimeout)
    else if value.isPositive then ([], .ok value)
    else ([], .error (.invalid [⟨some "timeout", .notPositive⟩]))
  | some value => ([.timeoutIgnored value], .ok defaultTimeout)

/-- The settings that the entries of an options mapping give. Of an option with two names the first
that is present counts. -/
def ofOptions (options : Options) : Warned (Except Refusal Settings) :=
  let option (names : List String) := lookup? options names
  let realm := readRealm (option ["realm"])
  let (urlWarnings, apiUrl) := readApiUrl (option ["api_url"])
  let (flagWarnings, claimsEnabled) := readFlag (option ["claims_enabled", "enable_oidc"])
  let (audienceWarnings, audience) :=
    readAudience (option ["expected_audience", "oidc_audience"])
  let (orgWarnings, organizations) := readNames "allowed_orgs" (option ["allowed_orgs"])
  let (repoWarnings, repositories) := readNames "allowed_repos" (option ["allowed_repos"])
  let (timeoutWarnings, timeout) := readTimeout (option ["timeout"])
  let warnings := urlWarnings ++ flagWarnings ++ audienceWarnings ++ orgWarnings ++ repoWarnings ++
    timeoutWarnings
  (warnings,
    match realm, timeout with
    | .ok realm, .ok timeout =>
      .ok ⟨realm, apiUrl, claimsEnabled, audience, organizations, repositories, timeout⟩
    | _, .error .timeoutOverflow => .error .timeoutOverflow
    | .error issues, .error (.invalid more) => .error (.invalid (issues ++ more))
    | .error issues, .ok _ => .error (.invalid issues)
    | .ok _, .error (.invalid issues) => .error (.invalid issues))

/-- The settings that a value gives, which has to be a mapping. -/
def ofDatum : Datum String → Warned (Except Refusal Settings)
  | .mapping options => ofOptions options
  | _ => ([], .error (.invalid [⟨none, .notMapping⟩]))

end Settings

end RegistryGate
