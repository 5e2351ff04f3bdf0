import Arbiter.Arbitration.Clocked

/-!
Arbitrations played through from a script. Callers do what the script says, and everything else
happens by itself. At one moment a scheduled stop comes before the deadline, and the deadline before
a reply.

A session only chooses the order of steps: whatever it does to its world is a list of actions.
-/

namespace Arbiter.Arbitration

open Discovery

/-- What a caller does when it has been told the outcome. -/
inductive FollowUp where
  | stop
  | start
  deriving DecidableEq, Repr

/-- A start, by the name under which its outcome is reported. -/
structure Starter where
  /-- Without a name the caller waits for the outcome itself. -/
  name : Option String := none
  runtime : Bool := true
  next : List FollowUp := []
  deriving Repr

inductive Errand where
  | start (s : Starter)
  | stop (runtime : Bool)
  deriving Repr

structure Session extends Clocked where
  /-- The callers of all starts, in order. -/
  starters : List Starter := []
  /-- Whether the error in the latest reply stops the arbitration when its text is asked for. -/
  stopsWhenShown : Bool := false
  stops : List Instant := []

namespace Session

def act (s : Session) (a : Action) : Session :=
  { s with toClocked := s.toClocked.step a }

/-- What the caller that was told last does next, if one was told since `before`. -/
def followUps (s : Session) (before : World) : List Errand :=
  if s.world.trace.length = before.trace.length then []
  else match s.world.trace with
    | .answered id _ _ time :: _ =>
      match s.starters[id]? with
      | none => []
      | some starter => starter.next.mapIdx fun i next =>
        match next with
        | .stop => .stop time.isSome
        | .start => .start
          { name := starter.name.map fun n => n ++ "." ++ Text.ofNat i, runtime := time.isSome }
    | _ => []

def call (s : Session) : Errand → Session
  | .start starter => { s with starters := s.starters ++ [starter] }.act (.start starter.runtime)
  | .stop runtime => s.act (.stop runtime)

/-- Takes a step that may tell a caller an outcome. What the caller does then comes at once. -/
def tell (follow : Session → Errand → Session) (s : Session) (a : Action) : Session :=
  let after := s.act a
  (after.followUps s.world).foldl follow after

/-- Does an errand to its end, for which no call takes more than three steps. What follows from
telling outcomes is done as long as it does not nest deeper than the given depth. -/
def perform : Nat → Session → Errand → Session
  | 0, s, _ => s
  | depth + 1, s, errand =>
    let goOn (s : Session) : Session := s.tell (perform depth) (.call 0)
    goOn (goOn (goOn (s.call errand)))

/-- Nothing nests deeper than this, because each starter is told an outcome only once. -/
def depth (s : Session) : Nat :=
  s.starters.length + 2

def start (s : Session) (starter : Starter) : Session :=
  perform s.depth s (.start starter)

def stop (s : Session) (runtime : Bool) : Session :=
  perform s.depth s (.stop runtime)

def receive? (s : Session) : Option Session :=
  (s.arrival.filter (·.1 ≤ s.world.now)).map fun (_, reply) => s.act (.reply reply)

def attend (s : Session) (answer : Answer) : Session :=
  let s := { s with stopsWhenShown := answer.stopsWhenShown }
  let s := if answer.stops then s.stop true else s
  s.receive?.getD s

def taskTurn (s : Session) : Session :=
  match s.world.task with
  | .judging .. =>
    let s := if s.stopsWhenShown then { s with stopsWhenShown := false }.stop true else s
    s.act .task
  | .polling _ (.due _) =>
    let after := s.act .task
    match Clocked.asked? s.world after.world with
    | some query => after.attend (s.service s.lookups query)
    | none => after
  | .delivering .. => s.tell (perform s.depth) .task
  | _ => s.act .task

/-- The next thing that happens at this moment, if anything does. -/
def turn? (s : Session) : Option Session :=
  if s.stops.any (· ≤ s.world.now) then
    some ({ s with stops := s.stops.eraseP (· ≤ s.world.now) }.stop true)
  else if (s.world.taskDue s.plan).any (· ≤ s.world.now) then some s.taskTurn
  else s.receive?

/-- The moments at which something can happen, rounded up to those at which timers fire. -/
def moments (s : Session) : List Instant :=
  (s.stops ++ s.dues).map Duration.ceilMillis

/-- The earliest of the moments, if it is not beyond the limit. -/
def nextMoment (s : Session) (limit : Option Instant) : Option Instant :=
  s.moments.min?.filter fun moment => limit.all fun l => moment ≤ l

def advanceTo (s : Session) (moment : Instant) : Session :=
  s.act (.advance (moment - s.world.now))

/-- How far the task is from its end: each attempt that can still be counted adds to it, and within
an attempt it gets less from step to step. -/
def distance (w : World) : Nat :=
  12 * (attemptLimit - w.shared.attempts) + match w.task with
    | .polling _ (.due _) => 11
    | .asking .. => 9
    | .polling _ .outstanding => 8
    | .polling _ (.replied _) => 7
    | .checking .. => 6
    | .judging .. => 5
    | .pausing _ => 4
    | .beginning => 3
    | .closing _ => 2
    | .delivering .. => 1
    | .absent | .finished | .overflowed => 0

/-- More than what can still happen. -/
def workload (s : Session) : Nat :=
  distance s.world + s.arrival.toList.length + s.stops.length

/-- Enough turns for everything that can still happen, with the clock going on before each. -/
def turns (s : Session) : Nat :=
  2 * (s.workload + 1)

/-- Lets things happen at this moment until nothing more does. -/
def settleFor : Nat → Session → Session
  | 0, s => s
  | n + 1, s =>
    match s.turn? with
    | some next => settleFor n next
    | none => s

def settle (s : Session) : Session :=
  settleFor s.turns s

/-- Lets things happen, and time pass up to the limit, until `done`. -/
def runFor (done : Session → Bool) (limit : Option Instant) : Nat → Session → Session
  | 0, s => s
  | n + 1, s =>
    if done s then s
    else match s.turn? with
      | some next => runFor done limit n next
      | none =>
        match s.nextMoment limit with
        | some moment => runFor done limit n (s.advanceTo moment)
        | none => s

/-- Lets the time pass, and then what is to happen at the end of it. -/
def sleep (s : Session) (d : Duration) : Session :=
  let wake := s.world.now + d
  ((runFor (fun _ => false) (some wake) s.turns s).advanceTo wake).settle

def outcomeOf (s : Session) (call : CallId) : Option Outcome :=
  (s.world.answersTo call).head?

/-- Starts the arbitration, waits for the outcome and lets everything else settle. A stop may be
scheduled for a time after the start. -/
def arbitrate (s : Session) (stopAfter : Option Duration) : Session × Option Outcome :=
  let schedule (s : Session) : Session :=
    { s with stops := s.stops ++ (stopAfter.map (s.world.now + ·)).toList }
  let call := s.world.starts
  -- The stop is in line before a task that the start sets to work, and after one at work already.
  let begun := match s.world.task with
    | .absent => (schedule s).start {}
    | _ => schedule (s.start {}).settle
  let told (s : Session) : Bool := s.world.shared.answerTo != some call
  let ended := (runFor told none begun.turns begun).settle
  (ended, ended.outcomeOf call)

end Session

end Arbiter.Arbitration
