import Arbiter.Arbitration.State
import Arbiter.Plan

/-!
What a reply means for an arbitration: a winner, a fatal error, or a reason to try again. When the
time is up, the failure to report follows from the replies so far.
-/

namespace Arbiter.Arbitration

open Discovery

inductive Judgement where
  | selected (e : Entry)
  | fatal (text : String)
  | retry (cause : Cause)
  deriving DecidableEq, Repr

def lookupFailure (plan : Plan) (error : String) : String :=
  "Unable to lookup provider (" ++ plan.target.toString ++ ", gbids: [" ++
    Text.join ", " plan.gbids ++ "]) from discovery. Error: " ++ error

def codeFailure (plan : Plan) (code : ErrorCode) : String :=
  lookupFailure plan ("DiscoveryError: " ++ code.toString)

/-- An error that is final ends with this. -/
def givingUp (text : String) : String := text ++ ", giving up."

/-- An error that leaves hope ends with this. -/
def continuing (text : String) : String := text ++ ", continuing."

/-- Entries are judged by their versions first; the policy sees those that are compatible. -/
def judgeEntries (plan : Plan) (es : List Entry) : Judgement :=
  if es.isEmpty then .retry .noEntries
  else
    let compatible := compatibleEntries plan.required es
    if compatible.isEmpty then .retry .incompatible
    else match plan.policy.select compatible with
      | some e => .selected e
      | none => .retry .noEntries

def judge (plan : Plan) : Reply → Judgement
  | .error (.application code) =>
    if code.isRetryable then .retry (.lookupFailed (codeFailure plan code))
    else .fatal (givingUp (codeFailure plan code))
  | .error (.runtime text) => .retry (.lookupFailed (lookupFailure plan text))
  | .ok es => judgeEntries plan es

/-- The versions to remember after a reply. A lookup that failed leaves those from before. -/
def remember (plan : Plan) (reply : Reply) (before : VersionSet) : VersionSet :=
  match reply with
  | .error _ => before
  | .ok es =>
    if (compatibleEntries plan.required es).isEmpty then incompatibleVersions plan.required es
    else []

def causeText (plan : Plan) : Cause → String
  | .noEntries => "No entries found for " ++ plan.target.toString
  | .incompatible => "No compatible provider version"
  | .lookupFailed text => continuing text

/-- The failure to report when the time is up. -/
def giveUp (plan : Plan) (s : Shared) : Failure :=
  match s.lastCause with
  | none => .timedOut
  | some cause =>
    if s.incompatible ≠ [] then .noCompatibleProvider plan.target s.incompatible
    else match cause with
      | .lookupFailed text => .lookupFailed (continuing text)
      | _ => .noEntries plan.target

end Arbiter.Arbitration
