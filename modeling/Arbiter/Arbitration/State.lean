import Arbiter.Failure
import Arbiter.Duration
import Arbiter.Entry

/-!
The state that all parties to an arbitration share, and the three sections of code that change its
phase. Each of them runs while holding the lock, so it takes effect as a whole.
-/

namespace Arbiter.Arbitration

inductive Phase where
  | idle
  | attempting
  | succeeded
  | failed
  | cancelled
  deriving DecidableEq, Inhabited, Repr

namespace Phase

def isTerminal : Phase → Bool
  | succeeded | failed | cancelled => true
  | _ => false

protected def toString : Phase → String
  | idle => "Idle"
  | attempting => "Attempting"
  | succeeded => "Succeeded"
  | failed => "Failed"
  | cancelled => "Cancelled"

instance : ToString Phase := ⟨Phase.toString⟩

/-- All phases, in the order in which they can be reached. -/
def all : List Phase :=
  [idle, attempting, succeeded, failed, cancelled]

end Phase

abbrev Outcome := Except Failure Entry

def label : Outcome → String
  | .ok _ => "succeeded"
  | .error failure => failure.label

/-- The phase in which an arbitration is left by an outcome that the task reached. -/
def endPhase : Outcome → Phase
  | .ok _ => .succeeded
  | .error _ => .failed

/-- Why the latest attempt that was completed came to nothing. -/
inductive Cause where
  | noEntries
  | incompatible
  | lookupFailed (text : String)
  deriving DecidableEq, Repr

/-- Names a call that wants to be told the outcome. -/
abbrev CallId := Nat

structure Shared where
  phase : Phase := .idle
  /-- The call that is still to be told the outcome. -/
  answerTo : Option CallId := none
  /-- The versions in the latest list of entries, if none of them would do. -/
  incompatible : VersionSet := []
  lastCause : Option Cause := none
  attempts : Nat := 0
  startedAt : Option Instant := none
  /-- Whether someone has asked to stop. -/
  stopSignalled : Bool := false
  deriving DecidableEq, Inhabited, Repr

namespace Shared

/-- Only the first start is accepted, and none after a stop. -/
def start (s : Shared) (interface : String) (call : CallId) (now : Instant) :
    Except Failure Shared :=
  match s.phase with
  | .idle =>
    .ok { s with phase := .attempting, answerTo := some call, startedAt := some now }
  | .cancelled => .error (.cancelled interface)
  | _ => .error .alreadyStarted

/-- A stop changes nothing once the arbitration has ended. -/
def stop (s : Shared) : Option Shared :=
  if s.phase.isTerminal then none
  else some { s with phase := .cancelled, answerTo := none }

/-- The end of an arbitration that was not stopped. -/
def finish (s : Shared) (outcome : Outcome) : Option Shared :=
  if s.phase.isTerminal then none
  else some { s with phase := endPhase outcome, answerTo := none }

def elapsed (s : Shared) (now : Instant) : Duration :=
  now - s.startedAt.getD now

end Shared

end Arbiter.Arbitration
