import Arbiter.Text.Integer
import Arbiter.Text.Pieces

/-! What is counted about arbitrations, and the names under which it is published. -/

namespace Arbiter.Metrics

/-- A count that can go up. -/
inductive Series where
  /-- Arbitrations that started, by strategy. -/
  | started (strategy : String)
  /-- Attempts at a lookup, by strategy. -/
  | attempts (strategy : String)
  /-- Arbitrations that ended, by outcome. -/
  | outcomes (outcome : String)
  /-- Observed durations from start to outcome, by outcome. -/
  | durations (outcome : String)
  deriving DecidableEq, Repr

def startedName : String := "parley_arbitrations_started_total"
def attemptsName : String := "parley_arbitration_attempts_total"
def outcomesName : String := "parley_arbitration_outcomes_total"
def durationName : String := "parley_arbitration_duration_seconds"

/-- A character of the value of a label. -/
def labelChar (c : Char) : List Char :=
  if c = '"' then ['\\', '"']
  else if c = '\\' then ['\\', '\\']
  else if c = '\n' then ['\\', 'n']
  else [c]

/-- A name with one label. -/
def labelled (name label value : String) : String :=
  name ++ "\x7b" ++ label ++ "=\"" ++ String.ofList (value.toList.flatMap labelChar) ++ "\"\x7d"

def Series.name : Series → String
  | .started strategy => labelled startedName "strategy" strategy
  | .attempts strategy => labelled attemptsName "strategy" strategy
  | .outcomes outcome => labelled outcomesName "outcome" outcome
  | .durations outcome => labelled (durationName ++ "_count") "outcome" outcome

/-- What goes up when an arbitration ends. -/
def outcome (label : String) : List Series :=
  [.outcomes label, .durations label]

/-- How often each series went up, in the order in which they first did. -/
def tally (ups : List Series) : List (Series × Nat) :=
  ups.eraseDups.map fun s => (s, ups.count s)

/-- The help and type lines of all metrics, sorted. -/
def description : List String :=
  ["# HELP " ++ attemptsName ++ " Total number of discovery lookups issued by arbitrations",
   "# HELP " ++ durationName ++ " Time from start to outcome of an arbitration in seconds",
   "# HELP " ++ outcomesName ++ " Total number of finished arbitrations by outcome",
   "# HELP " ++ startedName ++ " Total number of arbitrations started",
   "# TYPE " ++ attemptsName ++ " counter",
   "# TYPE " ++ durationName ++ " summary",
   "# TYPE " ++ outcomesName ++ " counter",
   "# TYPE " ++ startedName ++ " counter"]

def Series.metric : Series → String
  | .started _ => startedName
  | .attempts _ => attemptsName
  | .outcomes _ => outcomesName
  | .durations _ => durationName

/-- The lines in which counts are published, the metrics one after the other. -/
def published (counts : List (Series × Nat)) : List String :=
  [attemptsName, outcomesName, startedName, durationName].flatMap fun metric =>
    match counts.filter (·.1.metric == metric) with
    | [] => []
    | own =>
      description.filter (fun line => (line.splitOn " ").contains metric) ++
        own.map (fun (s, n) => s.name ++ " " ++ Text.ofNat n) ++ [""]

end Arbiter.Metrics
