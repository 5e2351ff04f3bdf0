import Arbiter.CommandLine.Command
import Std.Time.DateTime.Timestamp

/-! The program: it takes its arguments and its environment, waits as long as it takes, and prints. -/

namespace Arbiter

open CommandLine

/-- The variables that the program knows. -/
def knownVariables : List String :=
  [fixtureVariable, Config.timeoutVariable, Config.retryVariable, Config.cacheVariable,
   Config.scopeVariable, Config.gbidsVariable, Log.Output.formatVariable, Log.Output.filterVariable]

def environment : IO Environment := do
  let texts ← knownVariables.mapM fun name => return (name, ← IO.getEnv name)
  return Environment.ofList (texts.filterMap fun (name, text) => text.map fun t => (name, t))

/-- The text of the file that the arguments or the environment name as the fixture. -/
def fixtureText (env : Environment) (args : List String) : IO (Option String) :=
  match Command.ofArguments env args with
  | .ok (.resolve options) => do
    try
      return some (← IO.FS.readFile options.fixture)
    catch _ => return none
  | _ => return none

/-- A name that no other arbitration has. -/
def freshName : IO String := do
  let bytes ← IO.getRandomBytes 16
  let digit (n : UInt8) : Char := (Text.hexDigits n.toNat).headD '0'
  return String.ofList (bytes.toList.flatMap fun b => [digit (b / 16), digit (b % 16)])

/-- Writes the records that pass to the output that they are meant for. -/
def writeLog (env : Environment) (records : List Log.Record) : IO Unit := do
  let output := Log.Output.ofEnvironment env
  let (written, ignored) := output.written env records
  for directive in ignored do
    IO.eprintln (Log.Output.complaint directive)
  for r in written do
    let line := if output.isJson then Json.render r.toDatum else r.toText
    if output.toErrors then IO.eprintln line else IO.println line

end Arbiter

open Arbiter CommandLine in
def main (args : List String) : IO UInt32 := do
  let env ← environment
  let text ← fixtureText env args
  let date ← Std.Time.Timestamp.now
  let exit := run {
    environment := env
    file := fun _ => text
    date := Int64.ofInt date.toMillisecondsSinceUnixEpoch.val
    arbitration := ← freshName } args
  IO.sleep exit.elapsed.millis.toUInt32
  writeLog env exit.records
  IO.print exit.output
  IO.eprint exit.errors
  return exit.code.toUInt32
