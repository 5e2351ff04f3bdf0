import Arbiter.Literal

/-! How a lookup can fail. -/

namespace Arbiter.Discovery

inductive ErrorCode where
  | noEntryForParticipant
  | noEntryForSelectedBackends
  | unknownGbid
  | invalidGbid
  | internalError
  /-- A code that has no meaning here. -/
  | unknown (text : String)
  deriving DecidableEq, Repr

namespace ErrorCode

protected def toString : ErrorCode → String
  | noEntryForParticipant => "NO_ENTRY_FOR_PARTICIPANT"
  | noEntryForSelectedBackends => "NO_ENTRY_FOR_SELECTED_BACKENDS"
  | unknownGbid => "UNKNOWN_GBID"
  | invalidGbid => "INVALID_GBID"
  | internalError => "INTERNAL_ERROR"
  | unknown text => text

instance : ToString ErrorCode := ⟨ErrorCode.toString⟩

/-- Every text is a code; one that is not known stands for itself. -/
def ofText : String → ErrorCode
  | "NO_ENTRY_FOR_PARTICIPANT" => noEntryForParticipant
  | "NO_ENTRY_FOR_SELECTED_BACKENDS" => noEntryForSelectedBackends
  | "UNKNOWN_GBID" => unknownGbid
  | "INVALID_GBID" => invalidGbid
  | "INTERNAL_ERROR" => internalError
  | text => unknown text

/-- Whether a later lookup may fare better. -/
def isRetryable : ErrorCode → Bool
  | noEntryForParticipant | noEntryForSelectedBackends => true
  | _ => false

end ErrorCode

inductive LookupError where
  | application (code : ErrorCode)
  /-- The call did not come through, with the text that says why. -/
  | runtime (text : String)
  deriving DecidableEq, Repr

namespace LookupError

/-- A failed call whose cause was put into further contexts, the outermost last. Only the outermost
is told. -/
def ofContexts (cause : String) (contexts : List String) : LookupError :=
  .runtime (contexts.getLastD cause)

def message : LookupError → String
  | .application code => "discovery error " ++ code.toString
  | .runtime text => text

end LookupError

end Arbiter.Discovery
