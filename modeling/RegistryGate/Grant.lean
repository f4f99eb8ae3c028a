import RegistryGate.Text.Wide

/-!
# Grants

The successful outcome of an authorization.
-/

namespace RegistryGate

/-- Who is acting, and which strategy found that out. -/
structure Grant where
  principal : WideText
  strategy : String
deriving DecidableEq, Inhabited

end RegistryGate
