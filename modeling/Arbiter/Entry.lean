import Arbiter.Literal
import Arbiter.Version

/-! Provider entries: what a provider registers with the discovery service. -/

namespace Arbiter

inductive ProviderScope where
  | local
  | global
  deriving DecidableEq, Inhabited, Repr

instance : Literal ProviderScope where
  values := [.local, .global]
  word
    | .local => "LOCAL"
    | .global => "GLOBAL"

structure CustomParameter where
  name : String
  value : String
  deriving DecidableEq, Inhabited, Repr

structure ProviderQos where
  customParameters : List CustomParameter := []
  priority : Int64 := 0
  scope : ProviderScope := .global
  supportsOnChange : Bool := false
  deriving DecidableEq, Inhabited, Repr

/-- The value of the first custom parameter with the given name. -/
def ProviderQos.parameter? (qos : ProviderQos) (name : String) : Option String :=
  (qos.customParameters.find? (·.name == name)).map (·.value)

/-- A registered provider. Dates are milliseconds since the epoch. -/
structure Entry where
  version : Version
  domain : String
  interface : String
  participant : String
  qos : ProviderQos := {}
  lastSeen : Int64 := 0
  expiry : Int64 := Int64.maxValue
  publicKey : String := ""
  isLocal : Bool := false
  deriving DecidableEq, Inhabited, Repr

namespace Entry

/-- An entry expires after its expiry date, not on it. -/
def expiredAt (e : Entry) (now : Int64) : Bool :=
  e.expiry < now

def withPriority (e : Entry) (priority : Int64) : Entry :=
  { e with qos := { e.qos with priority } }

def withOnChange (e : Entry) (supportsOnChange : Bool) : Entry :=
  { e with qos := { e.qos with supportsOnChange } }

def withParameter (e : Entry) (name value : String) : Entry :=
  { e with qos := { e.qos with customParameters := e.qos.customParameters ++ [{ name, value }] } }

end Entry

end Arbiter
