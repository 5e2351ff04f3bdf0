import Arbiter.Environment
import Arbiter.Log.Record
import Arbiter.Request
import Arbiter.Text.Blank
import Arbiter.Text.Integer
import Arbiter.Text.Pieces

/-!
The configuration that a process takes from its environment. Each setting has a variable of its own
and keeps its default when the variable is missing or makes no sense; the latter is warned of.
-/

namespace Arbiter

structure Config where
  timeout : Duration := .ofMillis 600000
  retryInterval : Duration := .ofMillis 10000
  cacheMaxAge : Duration := .zero
  scope : DiscoveryScope := .localThenGlobal
  gbids : List String := []
  deriving DecidableEq, Inhabited, Repr

namespace Config

def timeoutVariable : String := "PARLEY_DISCOVERY_TIMEOUT_MS"
def retryVariable : String := "PARLEY_RETRY_INTERVAL_MS"
def cacheVariable : String := "PARLEY_CACHE_MAX_AGE_MS"
def scopeVariable : String := "PARLEY_DISCOVERY_SCOPE"
def gbidsVariable : String := "PARLEY_GBIDS"

inductive Warning where
  | malformed (variableName text : String)
  | zeroInterval (variableName : String)
  deriving DecidableEq, Repr

/-- Where the warnings come from. -/
def source : String := "parley_arbitration::config"

def Warning.record : Warning → Log.Record
  | malformed name text =>
    { level := .warn, target := source, message := "Ignoring malformed configuration value",
      fields := [("variable", .quoted name), ("value", .shown text)] }
  | zeroInterval name =>
    { level := .warn, target := source, message := "Ignoring zero retry interval",
      fields := [("variable", .quoted name)] }

/-- The value of a variable, read from its trimmed text. It is malformed if there is none. -/
def value? {α : Type} (env : Environment) (name : String) (read : String → Option α) :
    Option α × List Warning :=
  match env name with
  | none => (none, [])
  | some text =>
    match read (Text.trim text) with
    | some a => (some a, [])
    | none => (none, [.malformed name text])

def millis? (s : String) : Option Duration :=
  (Text.word? s.toList).map .ofMillis

/-- The interval between attempts. One that is zero is set aside, with a warning. -/
def retryInterval? (env : Environment) : Option Duration × List Warning :=
  match value? env retryVariable millis? with
  | (some interval, warnings) =>
    if interval = .zero then (none, warnings ++ [.zeroInterval retryVariable])
    else (some interval, warnings)
  | (none, warnings) => (none, warnings)

/-- The backend names in a list with commas. Blank characters around a name do not count, and a
blank name is left out. -/
def gbidsOf (s : String) : List String :=
  ((Text.cut ',' s.toList).map Text.trimChars |>.filter (· ≠ [])).map String.ofList

/-- The configuration and the warnings, in the order of the settings. -/
def ofEnvironment (env : Environment) : Config × List Warning :=
  let standard : Config := {}
  let (timeout, timeoutWarnings) := value? env timeoutVariable millis?
  let (retry, retryWarnings) := retryInterval? env
  let (cache, cacheWarnings) := value? env cacheVariable millis?
  let (scope, scopeWarnings) := value? env scopeVariable Literal.ofWord?
  ({ timeout := timeout.getD standard.timeout
     retryInterval := retry.getD standard.retryInterval
     cacheMaxAge := cache.getD standard.cacheMaxAge
     scope := scope.getD standard.scope
     gbids := ((env gbidsVariable).map gbidsOf).getD standard.gbids },
   timeoutWarnings ++ retryWarnings ++ cacheWarnings ++ scopeWarnings)

def request (c : Config) (strategy : Strategy) : Request where
  strategy := strategy
  timeout := c.timeout
  retryInterval := c.retryInterval
  cacheMaxAge := c.cacheMaxAge
  scope := c.scope

end Config

end Arbiter
