import Arbiter.Text.Integer
import Arbiter.Text.Quoted

/-! What can be wrong with a document that should hold a value of some type, and where. -/

namespace Arbiter.Document

/-- One step on the way from the whole document to a part of it. -/
inductive Step where
  | field (name : String)
  | item (index : Nat)
  /-- A field whose name is given elsewhere. -/
  | unnamed
  deriving DecidableEq, Repr

/-- What stands in a document where something else was expected. -/
inductive Found where
  | null
  /-- A place that was left empty, or says so. -/
  | nothing
  | flag (b : Bool)
  | integer (n : Int)
  /-- A whole number of more than 64 bits. -/
  | wideInteger (n : Int)
  /-- A number that is not a whole one, as it is shown. -/
  | decimal (shown : String)
  | text (s : String)
  | list
  | record
  deriving DecidableEq, Repr

/-- Something between two backticks. -/
def ticked (s : String) : String := "`" ++ s ++ "`"

namespace Found

protected def toString : Found → String
  | null => "null"
  | nothing => "unit value"
  | flag b => "boolean " ++ ticked (if b then "true" else "false")
  | integer n => "integer " ++ ticked (Text.ofInt n)
  | wideInteger n =>
    "integer " ++ ticked (Text.ofInt n) ++ (if n < 0 then " as i128" else " as u128")
  | decimal shown => "floating point " ++ ticked shown
  | text s => "string " ++ Text.quoted s
  | list => "sequence"
  | record => "map"

instance : ToString Found := ⟨Found.toString⟩

end Found

inductive Cause where
  /-- The document ends here, or goes on with something that no document can hold. -/
  | malformed
  | wrongKind (found : Found) (expected : String)
  /-- The kind is right, but not the value. -/
  | wrongValue (found : Found) (expected : String)
  | wrongLength (length : Nat) (expected : String)
  | missingField (name : String)
  | duplicateField (name : String)
  | unknownWord (word : String) (allowed : List String)
  deriving DecidableEq, Repr

namespace Cause

/-- The words from which one has to be taken. -/
def choice : List String → String
  | [a] => ticked a
  | [a, b] => ticked a ++ " or " ++ ticked b
  | words => "one of " ++ Text.join ", " (words.map ticked)

def message : Cause → String
  | malformed => "malformed document"
  | wrongKind found expected => "invalid type: " ++ found.toString ++ ", expected " ++ expected
  | wrongValue found expected => "invalid value: " ++ found.toString ++ ", expected " ++ expected
  | wrongLength length expected =>
    "invalid length " ++ Text.ofNat length ++ ", expected " ++ expected
  | missingField name => "missing field " ++ ticked name
  | duplicateField name => "duplicate field " ++ ticked name
  | unknownWord word allowed =>
    "unknown variant " ++ ticked word ++ ", expected " ++ choice allowed

end Cause

structure Fault where
  cause : Cause
  /-- The way to the faulty part. It is absent while the fault is only known to lie in the part that
  was looked at, and is then laid at the door of what holds that part. -/
  path : Option (List Step) := some []
  deriving DecidableEq, Repr

namespace Fault

/-- The fault as seen from one step further out. -/
def under (step : Step) (f : Fault) : Fault :=
  { f with path := some (match f.path with
    | none => []
    | some steps => step :: steps) }

def isMalformed (f : Fault) : Bool :=
  f.cause = .malformed

/-- A path as it is written: names with points between them and indices in brackets. -/
def pathText : List Step → String
  | [] => ""
  | step :: steps => stepText step ++ go steps
where
  stepText : Step → String
    | .field name => name
    | .item index => "[" ++ Text.ofNat index ++ "]"
    | .unnamed => "?"
  go : List Step → String
    | [] => ""
    | .item index :: steps => stepText (.item index) ++ go steps
    | step :: steps => "." ++ stepText step ++ go steps

/-- The message with the path in front, unless the whole document is at fault. -/
def locatedMessage (f : Fault) : String :=
  match f.path.getD [] with
  | [] => f.cause.message
  | steps => pathText steps ++ ": " ++ f.cause.message

end Fault

/-- A value, or why there is none. -/
abbrev Read (α : Type) := Except Fault α

def Read.fail {α : Type} (cause : Cause) : Read α :=
  .error { cause }

end Arbiter.Document
