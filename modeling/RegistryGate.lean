import RegistryGate.About
import RegistryGate.AccessPolicy
import RegistryGate.AuthError
import RegistryGate.BackendRegistry
import RegistryGate.Base64Url
import RegistryGate.Challenge
import RegistryGate.Claims.Check
import RegistryGate.Claims.Payload
import RegistryGate.Claims.Token
import RegistryGate.Client
import RegistryGate.Concurrent
import RegistryGate.ConfigError
import RegistryGate.Credential
import RegistryGate.Datum
import RegistryGate.Engine
import RegistryGate.Event
import RegistryGate.Exchange
import RegistryGate.Fault
import RegistryGate.Gate
import RegistryGate.Grant
import RegistryGate.Identity.Lookup
import RegistryGate.Identity.Profile
import RegistryGate.Identity.Script
import RegistryGate.Json.Encoding
import RegistryGate.Json.Reader
import RegistryGate.Json.Writer
import RegistryGate.Log.Conversion
import RegistryGate.Log.Directive
import RegistryGate.Log.File
import RegistryGate.Log.Line
import RegistryGate.Log.Loggers
import RegistryGate.Log.Record
import RegistryGate.Log.Redaction
import RegistryGate.Log.Template
import RegistryGate.Number.Binary64
import RegistryGate.Number.Decimal
import RegistryGate.Number.Numeral
import RegistryGate.Number.Seconds
import RegistryGate.Number.Shortest
import RegistryGate.Procedure
import RegistryGate.RequestContext
import RegistryGate.Session
import RegistryGate.Settings
import RegistryGate.Text.Blank
import RegistryGate.Text.Digit
import RegistryGate.Text.Hex
import RegistryGate.Text.Latin1
import RegistryGate.Text.NameSet
import RegistryGate.Text.Printable
import RegistryGate.Text.Quoted
import RegistryGate.Text.Ranges
import RegistryGate.Text.Split
import RegistryGate.Text.Utf8
import RegistryGate.Text.Wide
import RegistryGate.Text.Word
import RegistryGate.Url
import RegistryGate.Url.Host
import RegistryGate.Url.Percent
import RegistryGate.Validation
import RegistryGate.Proofs.Runs
import RegistryGate.Proofs.Chain
import RegistryGate.Proofs.Passage
import RegistryGate.Proofs.Lookups
import RegistryGate.Proofs.Addresses
import RegistryGate.Proofs.Decision
import RegistryGate.Proofs.Tokens
import RegistryGate.Proofs.Profiles
import RegistryGate.Proofs.Isolation
import RegistryGate.Proofs.Waiting
import RegistryGate.Proofs.Cancellation
import RegistryGate.Proofs.Options
import RegistryGate.Proofs.Rejections
import RegistryGate.Proofs.Budget
import RegistryGate.Proofs.Sightings
import RegistryGate.Proofs.Scrubbing
import RegistryGate.Proofs.Traces
import RegistryGate.Proofs.Fields
import RegistryGate.Proofs.Rendering
import RegistryGate.Proofs.Bindings
import RegistryGate.Proofs.Custody
import RegistryGate.Proofs.Wiring
import RegistryGate.Proofs.Templates
import RegistryGate.Proofs.Memberships
import RegistryGate.Proofs.ClaimRules
import RegistryGate.Proofs.AllowLists
import RegistryGate.Proofs.Targets
import RegistryGate.Proofs.MemberPaths
import RegistryGate.Proofs.Filtering
import RegistryGate.Proofs.Parameters
import RegistryGate.Proofs.WrittenOptions
import RegistryGate.Proofs.Schemes
import RegistryGate.Proofs.Canonical
import RegistryGate.Proofs.Tasks
import RegistryGate.Proofs.Repetition
import RegistryGate.Proofs.Closings
