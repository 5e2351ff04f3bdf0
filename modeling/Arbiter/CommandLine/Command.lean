import Arbiter.CommandLine.Arguments
import Arbiter.Json.Printer
import Arbiter.Log.Output
import Arbiter.Yaml.Printer
import Arbiter.Yaml.Source

/-!
The commands and what they do: resolving a provider from a fixture, printing a fixture to start with,
and telling what was built. A command is a function of what it finds around it.
-/

namespace Arbiter.CommandLine

open Document

inductive Command where
  | resolve (options : Resolve.Options)
  | fixture
  | version
  deriving Repr

def commandNames : List String :=
  ["resolve", "fixture", "version", "help"]

def readNone : List String → Except UsageError Unit
  | [] => .ok ()
  | arg :: args =>
    match Word.ofText arg with
    | .divider => if args.isEmpty then .ok () else .error .unknown
    | .long "help" none | .short 'h' _ => .error .help
    | .long "help" (some _) => .error .unwantedValue
    | _ => .error .unknown

/-- Help may be asked for in general or for one command. -/
def readHelp : List String → UsageError
  | [] => .help
  | [topic] => if commandNames.contains topic then .help else .unknown
  | _ => .unknown

def Command.ofArguments (env : Environment) (args : List String) : Except UsageError Command :=
  match args with
  | "resolve" :: args => (readResolve env args).map .resolve
  | "fixture" :: args => do
    readNone args
    return .fixture
  | "version" :: args => do
    readNone args
    return .version
  | "help" :: args => .error (readHelp args)
  | args => do
    readNone args
    .error .missing

structure Build where
  version : String := "0.2.0"
  commit : String := "unknown"
  changed : Bool := false
  branch : String := "unknown"
  time : String := "unknown"
  compiler : String := "unknown"
  platform : String := "unknown"

namespace Build

/-- The version with the commit that it was built from. -/
def fullVersion (b : Build) : String :=
  b.version ++ " (" ++ b.commit ++ (if b.changed then " dirty" else "") ++ ")"

def lines (b : Build) : List String :=
  ["parley " ++ b.fullVersion, "branch: " ++ b.branch, "built:  " ++ b.time,
   "rustc:  " ++ b.compiler, "target: " ++ b.platform]

end Build

structure Surroundings where
  environment : Environment
  /-- The text of a file, if there is a file and it holds a text. -/
  file : String → Option String
  /-- Milliseconds since the epoch. -/
  date : Int64
  build : Build := {}
  /-- The name under which the log speaks of the arbitration. -/
  arbitration : String
  /-- When the user interrupts the command. -/
  interrupt : Option Duration := none

structure Exit where
  code : Nat := 0
  output : String := ""
  errors : String := ""
  records : List Log.Record := []
  /-- The metrics, if they were asked for. -/
  counts : List (Metrics.Series × Nat) := []
  elapsed : Duration := .zero

/-- Each line with a line feed at its end. -/
def unlines (lines : List String) : String :=
  String.join (lines.map (· ++ "\n"))

inductive FixtureError where
  | unreadable
  | faulty (fault : Fault)

def FixtureError.lines (path : String) : FixtureError → List String
  | unreadable => ["Error: reading fixture " ++ path]
  | faulty fault =>
    ["Error: parsing fixture " ++ path, "", "Caused by:", "    " ++ fault.locatedMessage]

def loadFixture (s : Surroundings) (path : String) : Except FixtureError Fixture :=
  match s.file path with
  | none => .error .unreadable
  | some text => (Yaml.decode text : Read Fixture).mapError .faulty

def startRecord (s : Surroundings) : Log.Record where
  level := .info
  target := "parley"
  message := "Starting parley"
  fields := [("version", .shown s.build.fullVersion)]

def resolvingRecord (s : Surroundings) (target : Target) : Log.Record where
  level := .info
  target := "parley_cli::resolve"
  message := "Resolving provider"
  fields := [("arbitration_id", .shown s.arbitration), ("lookup_target", .shown target.toString)]

def failureRecord (failure : Failure) : Log.Record where
  level := .warn
  target := "parley"
  message := "Arbitration failed"
  fields := [("error", .shown failure.message)]

/-- The records of a resolution with a fixture, in order. -/
def resolveRecords (s : Surroundings) (o : Resolve.Options) (report : Resolve.Report) :
    List Log.Record :=
  let (config, warnings) := Config.ofEnvironment s.environment
  let resolving := match o.plan config with
    | .ok plan => [resolvingRecord s plan.target]
    | .error _ => []
  let failed := match report.outcome with
    | some (.error failure) => [failureRecord failure]
    | _ => []
  startRecord s :: warnings.map Config.Warning.record ++ resolving ++
    (report.happenings.filterMap Arbitration.Happening.event?).map (·.record (some s.arbitration)) ++
    failed

def runResolve (s : Surroundings) (o : Resolve.Options) : Exit :=
  match loadFixture s o.fixture with
  | .error e =>
    { code := 1, errors := unlines (e.lines o.fixture), records := [startRecord s] }
  | .ok fixture =>
    let report := Resolve.run o fixture (Config.ofEnvironment s.environment).1 s.date s.interrupt
    let counts := if o.showMetrics then
        Metrics.tally (report.happenings.filterMap Arbitration.Happening.counted?)
      else []
    let published := unlines (Metrics.published counts)
    let exit : Exit :=
      { errors := published, records := resolveRecords s o report, counts, elapsed := report.elapsed }
    match report.outcome with
    | some (.ok e) => { exit with output := Json.renderLines (write e) ++ "\n" }
    | some (.error failure) =>
      { exit with code := 1, errors := published ++ unlines ["error: " ++ failure.message] }
    | none => { exit with code := 1 }

def UsageError.message : UsageError → String
  | missing => "error: the required arguments were not provided"
  | unknown => "error: unexpected argument found"
  | withoutValue => "error: a value is required but none was supplied"
  | badValue => "error: invalid value"
  | repeated => "error: an argument cannot be used multiple times"
  | unwantedValue => "error: unexpected value found"
  | help => ""

def usage : String :=
  "Provider arbitration over a discovery fixture\n\nUsage: parley <resolve|fixture|version|help>\n"

def run (s : Surroundings) (args : List String) : Exit :=
  match Command.ofArguments s.environment args with
  | .error .help => { output := usage }
  | .error e => { code := 2, errors := unlines [e.message, "", usage] }
  | .ok .fixture => { output := Yaml.render (write (Fixture.sample s.date)) }
  | .ok .version => { output := unlines s.build.lines }
  | .ok (.resolve options) => runResolve s options

end Arbiter.CommandLine
