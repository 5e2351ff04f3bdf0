import Arbiter.Entry
import Arbiter.Request

/-! The rules by which one entry is chosen among those of a compatible version. -/

namespace Arbiter

inductive Policy where
  | highestPriority (mustSupportOnChange : Bool)
  | lastSeen
  | keyword (text : String)
  | fixedParticipant (id : String)
  deriving DecidableEq, Repr

/-- The first of the entries with the largest key. -/
def firstLargest (key : Entry → Int64) : List Entry → Option Entry
  | [] => none
  | e :: es =>
    match firstLargest key es with
    | none => some e
    | some best => if key e < key best then some best else some e

namespace Policy

def strategy : Policy → Strategy
  | highestPriority _ => .highestPriority
  | lastSeen => .lastSeen
  | keyword _ => .keyword
  | fixedParticipant _ => .fixedParticipant

/-- Whether an entry has the keyword among its custom parameters, at whatever place. -/
def hasKeyword (text : String) (e : Entry) : Bool :=
  e.qos.customParameters.any fun p => p.name == keywordParameter && p.value == text

/-- The entry that the policy chooses. The earlier of two that are equally good wins. -/
def select : Policy → List Entry → Option Entry
  | highestPriority mustSupportOnChange, es =>
    firstLargest (·.qos.priority) (es.filter fun e => !mustSupportOnChange || e.qos.supportsOnChange)
  | lastSeen, es => firstLargest (·.lastSeen) es
  | keyword text, es => es.find? (hasKeyword text)
  | fixedParticipant id, es => es.find? (·.participant == id)

end Policy

/-- The entries whose version serves the required one, in their order. -/
def compatibleEntries (required : Version) (es : List Entry) : List Entry :=
  es.filter (·.version.serves required)

def incompatibleVersions (required : Version) (es : List Entry) : VersionSet :=
  VersionSet.ofList ((es.filter fun e => !e.version.serves required).map (·.version))

end Arbiter
