import Arbiter.Discovery.Registry

/-!
Clients that share a registry. All of them see the same entries, and each answers for backends of its
own.
-/

namespace Arbiter.Discovery

structure Clients where
  entries : List Entry := []
  /-- The known backends of each client. -/
  known : List (Option (List String)) := [none]
  deriving DecidableEq, Inhabited, Repr

namespace Clients

def ofRegistry (r : Registry) : Clients :=
  { entries := r.entries, known := [r.knownGbids] }

/-- The registry as the client sees it. -/
def view? (c : Clients) (client : Nat) : Option Registry :=
  c.known[client]?.map fun knownGbids => { entries := c.entries, knownGbids }

/-- Adds a client, which answers for what another one does if nothing else is said. -/
def clone (c : Clients) (client : Nat) (knownGbids : Option (List String)) : Clients :=
  { c with known := c.known ++ [knownGbids.or (c.known[client]?.getD none)] }

def register (c : Clients) (e : Entry) : Clients :=
  { c with entries := ({ entries := c.entries : Registry }.register e).entries }

def unregister (c : Clients) (participant : String) : Clients :=
  { c with entries := ({ entries := c.entries : Registry }.unregister participant).entries }

end Clients

end Arbiter.Discovery
