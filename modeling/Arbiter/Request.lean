import Arbiter.Duration
import Arbiter.Literal

/-! What a consumer asks for: how to choose, how long to try and what to tell the discovery. -/

namespace Arbiter

inductive DiscoveryScope where
  | localOnly
  | localThenGlobal
  | localAndGlobal
  | globalOnly
  deriving DecidableEq, Repr

instance : Inhabited DiscoveryScope := ⟨.localThenGlobal⟩

instance : Literal DiscoveryScope where
  values := [.localOnly, .localThenGlobal, .localAndGlobal, .globalOnly]
  word
    | .localOnly => "LOCAL_ONLY"
    | .localThenGlobal => "LOCAL_THEN_GLOBAL"
    | .localAndGlobal => "LOCAL_AND_GLOBAL"
    | .globalOnly => "GLOBAL_ONLY"

structure DiscoveryQos where
  cacheMaxAge : Int64 := 0
  timeout : Int64 := 0
  scope : DiscoveryScope := .localThenGlobal
  mustSupportOnChange : Bool := false
  deriving DecidableEq, Inhabited, Repr

/-- How one provider is chosen among those that would do. -/
inductive Strategy where
  | fixedParticipant
  | keyword
  | highestPriority
  | lastSeen
  deriving DecidableEq, Repr

instance : Inhabited Strategy := ⟨.highestPriority⟩

instance : Literal Strategy where
  values := [.fixedParticipant, .keyword, .highestPriority, .lastSeen]
  word
    | .fixedParticipant => "FIXED_PARTICIPANT"
    | .keyword => "KEYWORD"
    | .highestPriority => "HIGHEST_PRIORITY"
    | .lastSeen => "LAST_SEEN"

/-- The custom parameter with the keyword to look for. -/
def keywordParameter : String := "keyword"

/-- The custom parameter with the participant to look for. -/
def participantParameter : String := "fixedParticipantId"

/-- Texts by name; a name occurs once. -/
abbrev Parameters := List (String × String)

namespace Parameters

/-- Sets the text of a name, in place of one that it had. -/
def insert (ps : Parameters) (name value : String) : Parameters :=
  ps.filter (fun p => p.1 != name) ++ [(name, value)]

def get? (ps : Parameters) (name : String) : Option String :=
  (ps.find? fun p => p.1 == name).map (·.2)

end Parameters

structure Request where
  strategy : Strategy := .highestPriority
  timeout : Duration := .ofMillis 600000
  retryInterval : Duration := .ofMillis 10000
  cacheMaxAge : Duration := .zero
  scope : DiscoveryScope := .localThenGlobal
  mustSupportOnChange : Bool := false
  parameters : Parameters := []
  deriving DecidableEq, Inhabited, Repr

namespace Request

def withParameter (r : Request) (name value : String) : Request :=
  { r with parameters := r.parameters.insert name value }

def withKeyword (r : Request) (keyword : String) : Request :=
  r.withParameter keywordParameter keyword

def withParticipant (r : Request) (participant : String) : Request :=
  r.withParameter participantParameter participant

def parameter? (r : Request) (name : String) : Option String :=
  r.parameters.get? name

/-- What goes along with a lookup that is issued with `remaining` left of the time to try. -/
def lookupQos (r : Request) (remaining : Duration) : DiscoveryQos where
  cacheMaxAge := r.cacheMaxAge.clampedMillis
  timeout := remaining.clampedMillis
  scope := r.scope
  mustSupportOnChange := r.mustSupportOnChange

end Request

end Arbiter
