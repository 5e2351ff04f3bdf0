import Arbiter.Document.Datum
import Arbiter.Environment
import Arbiter.Log.Filter
import Arbiter.Text.Quoted

/-! Where log records go and what they look like there: lines of plain text, or JSON. -/

namespace Arbiter.Log

open Document

def Value.toText : Value → String
  | shown text => text
  | quoted text => Text.quoted text
  | number n => Text.ofNat n
  | flag b => if b then "true" else "false"

def Value.toDatum : Value → Datum
  | shown text | quoted text => .text text
  | number n => .integer n
  | flag b => .flag b

def Record.toText (r : Record) : String :=
  r.level.toString ++ " " ++ r.target ++ ": " ++
    Text.join " " (r.message :: r.fields.map fun (name, value) => name ++ "=" ++ value.toText)

/-- The fields of a record, among which the message is. -/
def Record.fieldData (r : Record) : List (String × Datum) :=
  ("message", .text r.message) :: r.fields.map fun (name, value) => (name, value.toDatum)

/-- The object of a record without the time. -/
def Record.toDatum (r : Record) : Datum :=
  .record
    [("level", .text r.level.toString), ("fields", .record r.fieldData),
     ("target", .text r.target)]

structure Output where
  format : String := "text"
  /-- What is written where the environment does not say. -/
  threshold : Threshold := .upTo .info
  /-- Whether the log goes to the error output and leaves the other one alone. -/
  toErrors : Bool := true
  deriving DecidableEq, Repr

namespace Output

def formatVariable : String := "LOG_FORMAT"
def filterVariable : String := "RUST_LOG"

def ofEnvironment (env : Environment) : Output :=
  { format := (env formatVariable).getD "text" }

/-- Whether lines are JSON. The case of the letters does not matter. -/
def isJson (o : Output) : Bool :=
  o.format.map Char.toLower = "json"

/-- The log is set up once. Later attempts fail and change nothing. -/
def install (current : Option Output) (o : Output) : Option Output :=
  match current with
  | none => some o
  | some _ => none

def opening (o : Output) : Record where
  level := .debug
  target := "parley_arbitration::observability::tracing"
  message := "Tracing initialized"
  fields := [("format", .shown o.format)]

/-- The records that are written, and the parts of the filter that make no sense. -/
def written (o : Output) (env : Environment) (records : List Record) :
    List Record × List String :=
  let (filter, ignored) := Filter.ofText o.threshold ((env filterVariable).getD "")
  ((o.opening :: records).filter filter.admits, ignored)

/-- What is said of a part of the filter that makes no sense. -/
def complaint (directive : String) : String :=
  "ignoring " ++ ticked directive ++ ": invalid filter directive"
where
  ticked (s : String) : String := "`" ++ s ++ "`"

end Output

end Arbiter.Log
