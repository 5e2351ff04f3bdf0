import Arbiter.Discovery.Query
import Arbiter.Text.Blank

/-!
A discovery service that holds its entries itself. Entries are found in the order in which they
were registered, and the scope of a lookup is applied to what matches and has not expired.
-/

namespace Arbiter.Discovery

structure Registry where
  entries : List Entry := []
  /-- The backends that the registry answers for; without a list, every one that is not blank. -/
  knownGbids : Option (List String) := none
  deriving DecidableEq, Inhabited, Repr

namespace Registry

/-- Puts the entry last, in place of any with the same participant. -/
def register (r : Registry) (e : Entry) : Registry :=
  { r with entries := r.entries.filter (·.participant != e.participant) ++ [e] }

def unregister (r : Registry) (participant : String) : Registry :=
  { r with entries := r.entries.filter (·.participant != participant) }

def size (r : Registry) : Nat :=
  r.entries.length

/-- Whether there is something for `unregister` to remove: its size tells. -/
def holds (r : Registry) (participant : String) : Bool :=
  r.size != (r.unregister participant).size

def isEmpty (r : Registry) : Bool :=
  r.entries.isEmpty

/-- The fault of a single backend name. A blank one is invalid even where it is listed. -/
def gbidFault (known : Option (List String)) (gbid : String) : Option ErrorCode :=
  if Text.isBlankText gbid then some .invalidGbid
  else match known with
    | none => none
    | some names => if names.contains gbid then none else some .unknownGbid

def gbidsFault (known : Option (List String)) (gbids : List String) : Option ErrorCode :=
  gbids.findSome? (gbidFault known)

/-- What a scope leaves of the entries that match. -/
def inScope : DiscoveryScope → List Entry → List Entry
  | .localOnly, es => es.filter (·.isLocal)
  | .globalOnly, es => es.filter (!·.isLocal)
  | .localThenGlobal, es => if es.any (·.isLocal) then es.filter (·.isLocal) else es
  | .localAndGlobal, es => es

/-- The entries of the interface in the domains that are still valid. -/
def providers (r : Registry) (domains : List String) (interface : String) (now : Int64) :
    List Entry :=
  r.entries.filter fun e =>
    e.interface == interface && domains.contains e.domain && !e.expiredAt now

/-- The first valid entry of the participant and interface. -/
def participant? (r : Registry) (id interface : String) (now : Int64) : Option Entry :=
  r.entries.find? fun e =>
    e.participant == id && e.interface == interface && !e.expiredAt now

def lookup (r : Registry) (domains : List String) (interface : String) (scope : DiscoveryScope)
    (gbids : List String) (now : Int64) : Except LookupError (List Entry) :=
  match gbidsFault r.knownGbids gbids with
  | some code => .error (.application code)
  | none => .ok (inScope scope (r.providers domains interface now))

def lookupParticipant (r : Registry) (id interface : String) (scope : DiscoveryScope)
    (gbids : List String) (now : Int64) : Except LookupError Entry :=
  match gbidsFault r.knownGbids gbids with
  | some code => .error (.application code)
  | none =>
    match inScope scope (r.participant? id interface now).toList with
    | e :: _ => .ok e
    | [] => .error (.application .noEntryForParticipant)

def answer (r : Registry) (now : Int64) (q : Query) : Reply :=
  match q.target with
  | .provider domains interface => r.lookup domains interface q.qos.scope q.gbids now
  | .participant id interface =>
    (r.lookupParticipant id interface q.qos.scope q.gbids now).map fun e => [e]

end Registry

end Arbiter.Discovery
