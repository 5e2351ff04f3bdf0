import Arbiter.Arbitration.Session
import Arbiter.Config
import Arbiter.Fixture

/-!
Resolving one provider from a fixture: an arbitration of its own, with a discovery service that holds
the entries of the fixture. What was not asked for in particular is taken from the configuration.
-/

namespace Arbiter.Resolve

open Arbitration

structure Options where
  fixture : String
  domains : List String
  interface : String
  version : Version
  strategy : Strategy := .highestPriority
  keyword : Option String := none
  participant : Option String := none
  gbids : List String := []
  timeoutMillis : Option Nat := none
  retryMillis : Option Nat := none
  scope : Option DiscoveryScope := none
  requireOnChange : Bool := false
  showMetrics : Bool := false
  deriving DecidableEq, Repr

namespace Options

/-- The settings of a request as far as they are not parameters of its strategy. -/
def settings (o : Options) (c : Config) : Request :=
  let standard := c.request o.strategy
  { standard with
    timeout := (o.timeoutMillis.map Duration.ofMillis).getD standard.timeout
    retryInterval := (o.retryMillis.map Duration.ofMillis).getD standard.retryInterval
    scope := o.scope.getD standard.scope
    mustSupportOnChange := o.requireOnChange }

/-- The request, with each parameter that was given, whether the strategy needs it or not. -/
def request (o : Options) (c : Config) : Request :=
  let r := o.settings c
  let r := match o.keyword with
    | some keyword => r.withKeyword keyword
    | none => r
  match o.participant with
  | some participant => r.withParticipant participant
  | none => r

/-- The backends to ask. A list that was given stands in place of the configured one. -/
def backends (o : Options) (c : Config) : List String :=
  if o.gbids.isEmpty then c.gbids else o.gbids

def plan (o : Options) (c : Config) : Except Failure Plan :=
  Plan.make o.domains o.interface o.version (o.request c) (o.backends c)

end Options

structure Report where
  /-- None if the arbitration would go on for ever. -/
  outcome : Option Outcome
  elapsed : Duration := .zero
  happenings : List Happening := []
  deriving Repr

/-- Resolves a provider, with the date of each lookup given. The user may interrupt the resolution
after some time. -/
def runThrough (o : Options) (f : Fixture) (c : Config) (dates : Nat → Int64)
    (interrupt : Option Duration) : Report :=
  match o.plan c with
  | .error failure => { outcome := some (.error failure) }
  | .ok plan =>
    let session : Session := { plan, service := .ofDatedRegistry f.registry dates }
    let (ended, outcome) := session.arbitrate interrupt
    { outcome, elapsed := ended.world.now, happenings := ended.world.trace.reverse }

/-- Resolves a provider within one and the same date. -/
def run (o : Options) (f : Fixture) (c : Config) (date : Int64) (interrupt : Option Duration) :
    Report :=
  runThrough o f c (fun _ => date) interrupt

end Arbiter.Resolve
