import Arbiter.Arbitration.State
import Arbiter.Plan
import Arbiter.Text.Quoted

/-!
Descriptions of arbitrations for those who look for faults: the name of each part and, between
braces, what it is made of.
-/

namespace Arbiter

namespace Text

/-- A name with fields in braces, or alone if there are none. -/
def described (name : String) (fields : List (String × String)) : String :=
  if fields.isEmpty then name
  else
    name ++ " \x7b " ++ join ", " (fields.map fun (field, text) => field ++ ": " ++ text) ++ " \x7d"

end Text

def Version.description (v : Version) : String :=
  Text.described "Version"
    [("major", Text.ofInt v.major.toInt), ("minor", Text.ofInt v.minor.toInt)]

def Target.description : Target → String
  | provider domains interface =>
    Text.described "Interface"
      [("domains", Text.quotedList domains), ("interface_name", Text.quoted interface)]
  | participant id interface =>
    Text.described "Participant"
      [("participant_id", Text.quoted id), ("interface_name", Text.quoted interface)]

def Policy.description : Policy → String
  | highestPriority mustSupportOnChange =>
    Text.described "HighestPriority"
      [("must_support_on_change", if mustSupportOnChange then "true" else "false")]
  | lastSeen => Text.described "LastSeen" []
  | keyword text => Text.described "Keyword" [("keyword", Text.quoted text)]
  | fixedParticipant id => Text.described "FixedParticipant" [("participant_id", Text.quoted id)]

def Plan.description (plan : Plan) (id : String) (phase : Arbitration.Phase) : String :=
  Text.described "Arbitrator"
    [("id", id), ("target", plan.target.description),
     ("required_version", plan.required.description), ("strategy", plan.policy.description),
     ("phase", phase.toString)]

end Arbiter
