import Arbiter.Log.Record

/-!
The records of an arbitration's life: that it started, each attempt that came to nothing, and how
it ended. Spans of time are given in milliseconds of any size and recorded in 64 bits.
-/

namespace Arbiter.Log

inductive Event where
  | started (target strategy required : String) (timeoutMillis : Nat)
  | attemptFailed (attempt : Nat) (cause : String) (willRetry : Bool)
  | succeeded (participant version : String) (attempts elapsedMillis : Nat)
  | failed (error : String) (attempts elapsedMillis : Nat)
  | cancelled (interface : String) (attempts : Nat)
  deriving DecidableEq, Repr

namespace Event

/-- Where the records of arbitrations come from. -/
def source : String := "parley::arbitration"

def level : Event → Level
  | failed .. => .warn
  | _ => .info

def message : Event → String
  | started .. => "Arbitration started"
  | attemptFailed .. => "Arbitration attempt failed"
  | succeeded .. => "Arbitration succeeded"
  | failed .. => "Arbitration failed"
  | cancelled .. => "Arbitration cancelled"

def kind : Event → String
  | started .. => "arbitration_started"
  | attemptFailed .. => "attempt_failed"
  | succeeded .. => "arbitration_succeeded"
  | failed .. => "arbitration_failed"
  | cancelled .. => "arbitration_cancelled"

/-- The low 64 bits of a number of milliseconds. -/
def word (millis : Nat) : Value :=
  .number (millis % Nat.pow 2 64)

/-- The fields that only this kind of event has. -/
def details : Event → List (String × Value)
  | started target strategy required timeoutMillis =>
    [("lookup_target", .shown target), ("strategy", .shown strategy),
     ("required_version", .shown required), ("timeout_ms", word timeoutMillis)]
  | attemptFailed attempt cause willRetry =>
    [("attempt", .number attempt), ("cause", .shown cause), ("will_retry", .flag willRetry)]
  | succeeded participant version attempts elapsedMillis =>
    [("participant_id", .shown participant), ("provider_version", .shown version),
     ("attempts", .number attempts), ("elapsed_ms", word elapsedMillis)]
  | failed error attempts elapsedMillis =>
    [("error", .shown error), ("attempts", .number attempts), ("elapsed_ms", word elapsedMillis)]
  | cancelled interface attempts =>
    [("interface", .shown interface), ("attempts", .number attempts)]

/-- The record of an event of the arbitration with the given name, if it is known. -/
def record (e : Event) (arbitration : Option String) : Record where
  level := e.level
  target := source
  message := e.message
  fields := ("event_type", .quoted e.kind) ::
    (arbitration.toList.map fun id => ("arbitration_id", .shown id)) ++ e.details

/-- Whether the event ends the life of an arbitration. -/
def isClosing : Event → Bool
  | succeeded .. | failed .. | cancelled .. => true
  | _ => false

end Event

end Arbiter.Log
