import Arbiter.Target
import Arbiter.Version

/-! How an arbitration can end without a provider. -/

namespace Arbiter

inductive Failure where
  | noEntries (target : Target)
  /-- Providers were found, but only of these versions, none of which will do. -/
  | noCompatibleProvider (target : Target) (versions : VersionSet)
  | lookupFailed (text : String)
  | timedOut
  | cancelled (interface : String)
  | invalidConfiguration (text : String)
  | alreadyStarted
  | noRuntime
  deriving DecidableEq, Repr

namespace Failure

def message : Failure → String
  | noEntries target => "No entries found for " ++ target.toString
  | noCompatibleProvider target versions =>
    "Unable to find a provider with a compatible version for " ++ target.toString ++ ". " ++
      Text.ofNat versions.length ++ " incompatible versions found: " ++
      Text.join ", " (versions.map Version.toString)
  | lookupFailed text => text
  | timedOut => "Arbitration could not be finished in time."
  | cancelled interface => "Shutting Down Arbitration for interface: " ++ interface
  | invalidConfiguration text => "invalid arbitration configuration: " ++ text
  | alreadyStarted => "arbitration has already been started"
  | noRuntime => "no async runtime available to drive the arbitration"

def incompatibleVersions? : Failure → Option VersionSet
  | noCompatibleProvider _ versions => some versions
  | _ => none

/-- Whether the discovery is to blame, and not the way in which the arbitration was used. -/
def isDiscoveryFailure : Failure → Bool
  | invalidConfiguration _ | alreadyStarted | noRuntime => false
  | _ => true

def isCancelled : Failure → Bool
  | cancelled _ => true
  | _ => false

def label : Failure → String
  | noEntries _ => "no_entries"
  | noCompatibleProvider .. => "no_compatible_provider"
  | lookupFailed _ => "lookup_failed"
  | timedOut => "timed_out"
  | cancelled _ => "cancelled"
  | invalidConfiguration _ | alreadyStarted | noRuntime => "rejected"

end Failure

end Arbiter
