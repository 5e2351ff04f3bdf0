import Arbiter.Text.Pieces

/-! What a lookup is for: any provider of an interface, or one known participant. -/

namespace Arbiter

inductive Target where
  /-- Any provider of the interface in one of the domains. -/
  | provider (domains : List String) (interface : String)
  /-- The one participant, which provides the interface. -/
  | participant (id interface : String)
  deriving DecidableEq, Repr

namespace Target

def interface : Target → String
  | .provider _ interface => interface
  | .participant _ interface => interface

protected def toString : Target → String
  | .provider domains interface =>
    "domain: [" ++ Text.join ", " domains ++ "], interface: " ++ interface
  | .participant id _ => "participantId: " ++ id

instance : ToString Target := ⟨Target.toString⟩

end Target

end Arbiter
