/-!
# Faults

What goes wrong outside the rules of authentication: on the network, in an address, or in an answer
that cannot be used. Which faults a lookup answers for and which it lets through is decided where
they are met.
-/

namespace RegistryGate

/-- A failure of the HTTP exchange itself. -/
inductive TransportFault where
  | connect
  | connectTimeout
  | readTimeout
  | read
  | write
  | poolTimeout
  | remoteProtocol
  | localProtocol
  | tooManyRedirects
  | decoding
  | unsupportedProtocol
  | proxy
  | close
deriving DecidableEq, Inhabited

/-- What makes a profile unusable. -/
inductive ProfileFault where
  /-- The body is not in the encoding that its first bytes announce. -/
  | undecodable
  | notJson
  | wrongType
  | missingField
  | badValue
  | infinite
  | tooDeep
deriving DecidableEq, Inhabited

/-- Something that went wrong outside the rules of authentication. -/
inductive Fault where
  | transport (kind : TransportFault)
  | timeout
  | invalidUrl
  /-- A text has no encoding where it has to be sent. -/
  | unencodable
  | profile (kind : ProfileFault)
  | closedClient
  | missingEntry
  /-- A number is too large for double precision. -/
  | overflow
  | wrongType
  /-- A value is of the right type and of no use. -/
  | wrongValue
  | unusablePath
  /-- Any other fault, by its name. -/
  | other (name : String)
deriving DecidableEq, Inhabited

end RegistryGate
