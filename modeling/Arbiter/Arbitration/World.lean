import Arbiter.Arbitration.Judgement
import Arbiter.Log.Event
import Arbiter.Metrics

/-!
An arbitration among everyone who takes part in it: callers that start and stop it from any thread,
the task that works on it in the background, the discovery service and the clock.

A `World` holds the shared state, each call that has not returned, and where the task is. An
`Action` lets one of them take one step, so every interleaving is a list of actions. A step that
holds the lock is a step of its own, and so is the signal that a stop gives before it takes the
lock. What can be observed from outside is kept in `trace`.
-/

namespace Arbiter.Arbitration

open Discovery

/-- What can be observed of an arbitration. -/
inductive Happening where
  | lookup (query : Query) (time : Instant)
  | event (e : Log.Event)
  | counted (s : Metrics.Series)
  /-- A caller was told the outcome. It saw the phase, and the time if its thread has a clock. -/
  | answered (call : CallId) (outcome : Outcome) (seen : Phase) (time : Option Instant)
  deriving Repr

namespace Happening

def event? : Happening → Option Log.Event
  | event e => some e
  | _ => none

def counted? : Happening → Option Metrics.Series
  | counted s => some s
  | _ => none

def lookup? : Happening → Option (Query × Instant)
  | lookup query time => some (query, time)
  | _ => none

def answered? : Happening → Option (CallId × Outcome)
  | answered call outcome _ _ => some (call, outcome)
  | _ => none

end Happening

/-- A call that has not returned. Calls are made from threads with or without a runtime. -/
inductive Call where
  | starting (id : CallId) (runtime : Bool)
  /-- The start was refused, and its caller is still to be told. -/
  | refused (id : CallId) (reason : Failure) (runtime : Bool)
  /-- The start was accepted, and the task is still to be set to work. -/
  | accepted (id : CallId)
  | stopping (runtime : Bool)
  /-- The stop was signalled, and the lock is still to be taken. -/
  | signalled (runtime : Bool)
  /-- The arbitration was cancelled, from the state given, and this is still to be told. -/
  | stopped (before : Shared) (runtime : Bool)
  deriving Repr

inductive Lookup where
  /-- Not asked yet; this much of the time to try is left. -/
  | due (remaining : Duration)
  | outstanding
  | replied (reply : Reply)
  deriving Repr

inductive Task where
  | absent
  | beginning
  /-- Waits for a stop, the deadline or the lookup, whichever is first. -/
  | polling (attempt : Nat) (lookup : Lookup)
  /-- Is in its call to the discovery service, which may come back with the reply or without. -/
  | asking (attempt : Nat) (query : Query)
  /-- The lookup was first; a stop may have been signalled since. -/
  | checking (attempt : Nat) (reply : Reply)
  | judging (attempt : Nat) (reply : Reply)
  | pausing (wake : Instant)
  /-- Knows the outcome and is about to take the lock. -/
  | closing (outcome : Outcome)
  /-- Ended the arbitration, from the state given, and is about to tell. -/
  | delivering (before : Shared) (outcome : Outcome)
  | finished
  /-- The attempts can no longer be counted. -/
  | overflowed
  deriving Repr

structure World where
  now : Instant := .zero
  shared : Shared := {}
  calls : List Call := []
  task : Task := .absent
  /-- How many starts have been called for. -/
  starts : Nat := 0
  /-- What happened, the latest first. -/
  trace : List Happening := []
  deriving Repr

inductive Action where
  | start (runtime : Bool)
  | stop (runtime : Bool)
  /-- The call at this place among those that have not returned goes on. -/
  | call (i : Nat)
  | task
  /-- The discovery service replies, while it is being called or later. -/
  | reply (r : Reply)
  | advance (d : Duration)
  deriving Repr

/-- Attempts are counted in 32 bits. -/
def attemptLimit : Nat := Nat.pow 2 32

/-- Thirty years, the time to try where the clock cannot hold the one that was asked for. -/
def farFuture : Duration := .ofSecs (86400 * 365 * 30) 0

/-- The clock holds instants before this one. -/
def clockLimit : Instant := .ofSecs (Nat.pow 2 63 - 1) 0

/-- How long an arbitration that started then may try. -/
def budget (plan : Plan) (startedAt : Instant) : Duration :=
  if startedAt + plan.request.timeout < clockLimit then plan.request.timeout else farFuture

/-- When an arbitration that started then has to give up. -/
def deadline (plan : Plan) (startedAt : Instant) : Instant :=
  startedAt + budget plan startedAt

def strategyWord (plan : Plan) : String :=
  Literal.word plan.policy.strategy

namespace World

/-- The lookups that were made, in order, each with its time. -/
def lookups (w : World) : List (Query × Instant) :=
  w.trace.reverse.filterMap Happening.lookup?

/-- Who was told which outcome, the latest first. -/
def told (w : World) : List (CallId × Outcome) :=
  w.trace.filterMap Happening.answered?

def answersTo (w : World) (call : CallId) : List Outcome :=
  (w.told.filter (·.1 == call)).map (·.2)

/-- Adds to the trace what happened in one step, in order. -/
def emit (w : World) (hs : List Happening) : World :=
  { w with trace := hs.reverse ++ w.trace }

def answer (w : World) (call : Option CallId) (outcome : Outcome) (runtime : Bool) :
    List Happening :=
  call.toList.map fun id =>
    .answered id outcome w.shared.phase (if runtime then some w.now else none)

def countOutcome (label : String) : List Happening :=
  (Metrics.outcome label).map .counted

def callStep (plan : Plan) (w : World) : Call → World × Option Call
  | .starting id runtime =>
    if runtime then
      match w.shared.start plan.target.interface id w.now with
      | .ok shared => ({ w with shared }, some (.accepted id))
      | .error reason => (w, some (.refused id reason runtime))
    else (w, some (.refused id .noRuntime runtime))
  | .refused id reason runtime =>
    (w.emit (w.answer (some id) (.error reason) runtime), none)
  | .accepted _ =>
    ({ w with task := .beginning }.emit
      [.event (.started plan.target.toString (strategyWord plan) plan.required.toString
          plan.request.timeout.millis),
       .counted (.started (strategyWord plan))], none)
  | .stopping runtime =>
    ({ w with shared := { w.shared with stopSignalled := true } }, some (.signalled runtime))
  | .signalled runtime =>
    match w.shared.stop with
    | none => (w, none)
    | some shared => ({ w with shared }, some (.stopped w.shared runtime))
  | .stopped before runtime =>
    (w.emit
      ([.event (.cancelled plan.target.interface before.attempts)] ++
       (if before.startedAt.isSome then countOutcome "cancelled" else []) ++
       w.answer before.answerTo (.error (.cancelled plan.target.interface)) runtime), none)

def deadline (plan : Plan) (w : World) : Instant :=
  Arbitration.deadline plan (w.shared.startedAt.getD w.now)

def remaining (plan : Plan) (w : World) : Duration :=
  w.deadline plan - w.now

def beginAttempt (plan : Plan) (w : World) : World :=
  let attempt := w.shared.attempts + 1
  if attempt < attemptLimit then
    { w with
      shared := { w.shared with attempts := attempt }
      task := .polling attempt (.due (w.remaining plan)) }.emit
      [.counted (.attempts (strategyWord plan))]
  else { w with task := .overflowed }

/-- A stop comes before the deadline, and the deadline before the lookup. -/
def poll (plan : Plan) (w : World) (attempt : Nat) (lookup : Lookup) : World :=
  if w.shared.stopSignalled then { w with task := .finished }
  else if w.deadline plan ≤ w.now then
    { w with task := .closing (.error (giveUp plan w.shared)) }
  else match lookup with
    | .due remaining =>
      let query : Query :=
        { target := plan.target, qos := plan.request.lookupQos remaining, gbids := plan.gbids }
      { w with task := .asking attempt query }.emit [.lookup query w.now]
    | .outstanding => w
    | .replied reply => { w with task := .checking attempt reply }

def pauseOrGiveUp (plan : Plan) (w : World) : World :=
  if w.remaining plan ≤ plan.request.retryInterval then
    { w with task := .closing (.error (giveUp plan w.shared)) }
  else { w with task := .pausing (w.now + plan.request.retryInterval) }

def judge (plan : Plan) (w : World) (attempt : Nat) (reply : Reply) : World :=
  let w := { w with
    shared := { w.shared with incompatible := remember plan reply w.shared.incompatible } }
  match Arbitration.judge plan reply with
  | .selected e => { w with task := .closing (.ok e) }
  | .fatal text =>
    { w with task := .closing (.error (.lookupFailed text)) }.emit
      [.event (.attemptFailed attempt text false)]
  | .retry cause =>
    let w := w.emit [.event (.attemptFailed attempt (causeText plan cause) true)]
    pauseOrGiveUp plan { w with shared := { w.shared with lastCause := some cause } }

def deliver (w : World) (before : Shared) (outcome : Outcome) : World :=
  let elapsed := (before.elapsed w.now).millis
  let event : Log.Event := match outcome with
    | .ok e => .succeeded e.participant e.version.toString before.attempts elapsed
    | .error failure => .failed failure.message before.attempts elapsed
  { w with task := .finished }.emit
    (Happening.event event :: countOutcome (label outcome) ++ w.answer before.answerTo outcome true)

/-- The next step of the task. Where it has to wait, nothing changes. -/
def taskStep (plan : Plan) (w : World) : World :=
  match w.task with
  | .absent | .finished | .overflowed => w
  | .beginning => w.beginAttempt plan
  | .polling attempt lookup => w.poll plan attempt lookup
  | .asking attempt _ => { w with task := .polling attempt .outstanding }
  | .checking attempt reply =>
    if w.shared.stopSignalled then { w with task := .finished }
    else { w with task := .judging attempt reply }
  | .judging attempt reply => w.judge plan attempt reply
  | .pausing wake =>
    if w.shared.stopSignalled then { w with task := .finished }
    else if wake ≤ w.now then { w with task := .beginning }
    else w
  | .closing outcome =>
    match w.shared.finish outcome with
    | none => { w with task := .finished }
    | some shared => { w with shared, task := .delivering w.shared outcome }
  | .delivering before outcome => w.deliver before outcome

/-- Takes one step. An action that nothing answers to changes nothing. -/
def step (plan : Plan) (w : World) : Action → World
  | .start runtime =>
    { w with calls := w.calls ++ [.starting w.starts runtime], starts := w.starts + 1 }
  | .stop runtime => { w with calls := w.calls ++ [.stopping runtime] }
  | .call i =>
    match w.calls[i]? with
    | none => w
    | some call =>
      let (after, left) := w.callStep plan call
      match left with
      | none => { after with calls := w.calls.eraseIdx i }
      | some call => { after with calls := w.calls.set i call }
  | .task => w.taskStep plan
  | .reply reply =>
    match w.task with
    | .asking attempt _ => { w with task := .checking attempt reply }
    | .polling attempt .outstanding => { w with task := .polling attempt (.replied reply) }
    | _ => w
  | .advance d => { w with now := w.now + d }

def run (plan : Plan) (w : World) (actions : List Action) : World :=
  actions.foldl (step plan) w

/-- When the task has something to do that needs no one else, the moment from which it has. -/
def taskDue (plan : Plan) (w : World) : Option Instant :=
  match w.task with
  | .absent | .finished | .overflowed => none
  | .polling _ .outstanding =>
    if w.shared.stopSignalled then some w.now else some (w.deadline plan)
  | .pausing wake => if w.shared.stopSignalled then some w.now else some wake
  | _ => some w.now

end World

end Arbiter.Arbitration
