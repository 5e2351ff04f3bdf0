/-! Log records: a level, where they come from, a message and named fields. -/

namespace Arbiter.Log

inductive Level where
  | error
  | warn
  | info
  | debug
  | trace
  deriving DecidableEq, Repr

namespace Level

protected def toString : Level → String
  | error => "ERROR"
  | warn => "WARN"
  | info => "INFO"
  | debug => "DEBUG"
  | trace => "TRACE"

instance : ToString Level := ⟨Level.toString⟩

/-- Larger for records of less importance. -/
def verbosity : Level → Nat
  | error => 1
  | warn => 2
  | info => 3
  | debug => 4
  | trace => 5

end Level

inductive Value where
  /-- A text that is shown as it is. -/
  | shown (text : String)
  /-- A text that lines of plain text put in quotes. -/
  | quoted (text : String)
  | number (n : Nat)
  | flag (b : Bool)
  deriving DecidableEq, Repr

structure Record where
  level : Level
  target : String
  message : String
  fields : List (String × Value)
  deriving DecidableEq, Repr

end Arbiter.Log
