import Arbiter.Arbitration.World
import Arbiter.Discovery.Registry

/-!
An arbitration with the discovery service that it asks, on a clock of its own. The clock shows whole
milliseconds and stands still while anyone has something to do.
-/

namespace Arbiter.Arbitration

open Discovery

/-- How a discovery service answers one lookup. -/
structure Answer where
  reply : Reply
  /-- How long the reply takes; without it there is none. -/
  delay : Option Duration := some .zero
  /-- The service stops the arbitration while it is being asked. -/
  stops : Bool := false
  /-- The arbitration is stopped when the text of the error is asked for. -/
  stopsWhenShown : Bool := false
  deriving Repr

/-- A discovery service: its answer to each lookup, which are numbered from zero. -/
abbrev Service := Nat → Query → Answer

/-- A service that replies at once from a registry, to each lookup at a date of its own. -/
def Service.ofDatedRegistry (r : Registry) (dates : Nat → Int64) : Service :=
  fun k q => { reply := r.answer (dates k) q }

/-- A service that replies at once from a registry, always at the same date. -/
def Service.ofRegistry (r : Registry) (date : Int64) : Service :=
  .ofDatedRegistry r fun _ => date

structure Clocked where
  plan : Plan
  service : Service
  world : World := {}
  lookups : Nat := 0
  /-- When the latest lookup will be replied to, and how, if it still is to be. -/
  arrival : Option (Instant × Reply) := none

namespace Clocked

/-- The lookup that the task made in a step. -/
def asked? (before after : World) : Option Query :=
  match before.task, after.task with
  | .polling _ (.due _), .asking _ query => some query
  | _, _ => none

/-- Goes on in the world that a step of the task left. If the task made a lookup, the service
settles how it will answer. -/
def goOn (s : Clocked) (world : World) : Clocked :=
  match asked? s.world world with
  | none => { s with world }
  | some query =>
    let answer := s.service s.lookups query
    { s with
      world
      lookups := s.lookups + 1
      arrival := answer.delay.map fun d => (world.now + d, answer.reply) }

def step (s : Clocked) : Action → Clocked
  | .task => s.goOn (s.world.step s.plan .task)
  | .reply r => { s with world := s.world.step s.plan (.reply r), arrival := none }
  | a => { s with world := s.world.step s.plan a }

def run (s : Clocked) (actions : List Action) : Clocked :=
  actions.foldl step s

/-- The moments for which the task or a reply waits. -/
def dues (s : Clocked) : List Instant :=
  (s.world.taskDue s.plan).toList ++ (s.arrival.map (·.1)).toList

/-- Callers and the task may act at any time, and a reply comes no sooner than it is due. The clock
goes on when nobody has anything to do, up to the first whole millisecond at which somebody has. -/
def Allows (s : Clocked) : Action → Prop
  | .reply r => ∃ arrival ∈ s.arrival, arrival.2 = r ∧ arrival.1 ≤ s.world.now
  | .advance d =>
    s.world.calls = [] ∧ (s.world.now + d).ceilMillis = s.world.now + d ∧
      ∀ due ∈ s.dues, s.world.now < due ∧ s.world.now + d ≤ due.ceilMillis
  | _ => True

/-- Steps each of which is allowed when it is taken. -/
def Timely (s : Clocked) : List Action → Prop
  | [] => True
  | a :: rest => s.Allows a ∧ (s.step a).Timely rest

end Clocked

end Arbiter.Arbitration
