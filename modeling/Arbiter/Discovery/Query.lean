import Arbiter.Discovery.Error
import Arbiter.Entry
import Arbiter.Request
import Arbiter.Target

/-! What is asked of the discovery service, and what it may reply. -/

namespace Arbiter.Discovery

structure Query where
  target : Target
  qos : DiscoveryQos
  gbids : List String
  deriving DecidableEq, Repr

/-- The entries that were found, or why none could be. -/
abbrev Reply := Except LookupError (List Entry)

end Arbiter.Discovery
