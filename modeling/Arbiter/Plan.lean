import Arbiter.Failure
import Arbiter.Discovery.Query
import Arbiter.Policy

/-!
An arbitration that is ready to run: a request that was checked, with the target to look up and the
policy to choose by. Nothing here asks the discovery service.
-/

namespace Arbiter

structure Plan where
  target : Target
  required : Version
  policy : Policy
  request : Request
  gbids : List String := []
  deriving DecidableEq, Repr

namespace Plan

/-- A parameter that the strategy cannot do without. An empty one is as good as none. -/
def requiredParameter (request : Request) (name : String) : Except Failure String :=
  match request.parameter? name with
  | some value =>
    if value.isEmpty then .error (missing name) else .ok value
  | none => .error (missing name)
where
  missing (name : String) : Failure :=
    .invalidConfiguration ("strategy " ++ Literal.word request.strategy ++
      " requires the custom parameter " ++ name)

def providerTarget (domains : List String) (interface : String) : Except Failure Target :=
  if domains.isEmpty then
    .error (.invalidConfiguration ("no domains given for interface " ++ interface))
  else .ok (.provider domains interface)

/-- The target and the policy that the request's strategy asks for. A fixed participant is looked up
by itself; every other strategy looks through the domains. -/
def aim (domains : List String) (interface : String) (request : Request) :
    Except Failure (Target × Policy) :=
  match request.strategy with
  | .fixedParticipant => do
    let id ← requiredParameter request participantParameter
    return (.participant id interface, .fixedParticipant id)
  | .keyword => do
    let text ← requiredParameter request keywordParameter
    return (← providerTarget domains interface, .keyword text)
  | .highestPriority => do
    return (← providerTarget domains interface, .highestPriority request.mustSupportOnChange)
  | .lastSeen => do
    return (← providerTarget domains interface, .lastSeen)

def make (domains : List String) (interface : String) (required : Version) (request : Request)
    (gbids : List String) : Except Failure Plan := do
  let (target, policy) ← aim domains interface request
  return { target, required, policy, request, gbids }

end Plan

end Arbiter
