import Arbiter.Discovery.Registry
import Arbiter.Document.Records

/-! Fixtures: the contents of a discovery service, as they are kept in a file. -/

namespace Arbiter

open Document Discovery

structure Fixture where
  /-- The backends that the service answers for; without a list, all of them. -/
  knownGbids : Option (List String) := none
  entries : List Entry := []
  deriving DecidableEq, Inhabited, Repr

namespace Fixture

structure Draft where
  knownGbids : Option (Option (List String)) := none
  entries : Option (List Entry) := none

def layout : Layout Draft Fixture where
  name := "Fixture"
  slots :=
    [.of "knownGbids" Draft.knownGbids fun a draft => { draft with knownGbids := some a },
     .of "entries" Draft.entries fun a draft => { draft with entries := some a }]
  blank := {}
  finish draft :=
    .ok { knownGbids := draft.knownGbids.getD none, entries := draft.entries.getD [] }

instance : Readable Fixture := ⟨layout.read⟩

instance : Writable Fixture where
  write f := .record
    ((f.knownGbids.toList.map fun gbids => ("knownGbids", write gbids)) ++
     [("entries", write f.entries)])

/-- A discovery service with these contents. Entries are taken as they are. -/
def registry (f : Fixture) : Registry :=
  { entries := f.entries, knownGbids := f.knownGbids }

/-- Two radios to try things out with, seen at the given date and a minute before it. -/
def sample (now : Int64) : Fixture where
  knownGbids := some ["joynrdefaultgbid"]
  entries :=
    [{ version := { major := 1, minor := 2 }
       domain := "vehicle"
       interface := "radio"
       participant := "radio-fm"
       qos := { customParameters := [{ name := keywordParameter, value := "fm" }], priority := 5 }
       lastSeen := now
       isLocal := true },
     { version := { major := 1, minor := 4 }
       domain := "vehicle"
       interface := "radio"
       participant := "radio-dab"
       qos := {
         customParameters := [{ name := keywordParameter, value := "dab" }]
         priority := 9
         supportsOnChange := true }
       lastSeen := now - 60000 }]

end Fixture

end Arbiter
