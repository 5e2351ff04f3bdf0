import Arbiter.Environment
import Arbiter.Resolve
import Arbiter.Text.Integer
import Arbiter.Text.Pieces

/-!
The arguments of the command that resolves a provider. An option takes the argument behind it, or
what stands behind an equals sign, as its value. The value that was given last is looked at when the
next option begins, so an option that is not known is found before a value that makes no sense.
-/

namespace Arbiter.CommandLine

/-- Why a command line is not carried out. -/
inductive UsageError where
  | missing
  /-- Nothing has this name, or nothing was expected here. -/
  | unknown
  | withoutValue
  | badValue
  /-- An option was given twice that may be given once. -/
  | repeated
  | unwantedValue
  | help
  deriving DecidableEq, Repr

/-- One argument, by its form. -/
inductive Word where
  /-- Two hyphens alone: no options come behind them. -/
  | divider
  | long (name : String) (value : Option String)
  /-- One hyphen with letters behind it. -/
  | short (first : Char) (others : List Char)
  | plain (text : String)
  deriving DecidableEq, Repr

def Word.ofText (s : String) : Word :=
  match s.toList with
  | ['-', '-'] => .divider
  | '-' :: '-' :: cs =>
    match Text.cutOnce '=' cs with
    | some (name, value) => .long (String.ofList name) (some (String.ofList value))
    | none => .long (String.ofList cs) none
  | '-' :: c :: cs => .short c cs
  | _ => .plain s

inductive Setting where
  | fixture
  | domain
  | interface
  | version
  | strategy
  | keyword
  | participant
  | gbid
  | timeout
  | retry
  | scope
  deriving DecidableEq, Repr

instance : Literal Setting where
  values :=
    [.fixture, .domain, .interface, .version, .strategy, .keyword, .participant, .gbid, .timeout,
     .retry, .scope]
  word
    | .fixture => "fixture"
    | .domain => "domain"
    | .interface => "interface"
    | .version => "version"
    | .strategy => "strategy"
    | .keyword => "keyword"
    | .participant => "participant-id"
    | .gbid => "gbid"
    | .timeout => "timeout-ms"
    | .retry => "retry-ms"
    | .scope => "scope"

inductive Switch where
  | requireOnChange
  | metrics
  | help
  deriving DecidableEq, Repr

instance : Literal Switch where
  values := [.requireOnChange, .metrics, .help]
  word
    | .requireOnChange => "require-on-change"
    | .metrics => "metrics"
    | .help => "help"

/-- The variable that names the fixture where no argument does. -/
def fixtureVariable : String := "PARLEY_FIXTURE"

structure Draft where
  fixture : Option String := none
  domains : List String := []
  interface : Option String := none
  version : Option Version := none
  strategy : Option Strategy := none
  keyword : Option String := none
  participant : Option String := none
  gbids : List String := []
  timeoutMillis : Option Nat := none
  retryMillis : Option Nat := none
  scope : Option DiscoveryScope := none
  requireOnChange : Bool := false
  metrics : Bool := false
  /-- An option whose value is still to be looked at, with the value if it was given. -/
  pending : Option (Setting × Option String) := none
  deriving Repr

namespace Draft

/-- Sets what may be set once, from a value that has to make sense. -/
def once {α : Type} (current : Option α) (value? : Option α) (set : α → Draft) :
    Except UsageError Draft :=
  match current, value? with
  | some _, _ => .error .repeated
  | none, none => .error .badValue
  | none, some a => .ok (set a)

def millis? (s : String) : Option Nat :=
  Text.word? s.toList

def set (d : Draft) (setting : Setting) (value : String) : Except UsageError Draft :=
  match setting with
  | .fixture =>
    if value.isEmpty && d.fixture.isNone then .error .withoutValue
    else once d.fixture (some value) fun a => { d with fixture := some a }
  | .domain => .ok { d with domains := d.domains ++ [value] }
  | .interface => once d.interface (some value) fun a => { d with interface := some a }
  | .version =>
    once d.version (Version.ofText value).toOption fun a => { d with version := some a }
  | .strategy => once d.strategy (Literal.ofWord? value) fun a => { d with strategy := some a }
  | .keyword => once d.keyword (some value) fun a => { d with keyword := some a }
  | .participant => once d.participant (some value) fun a => { d with participant := some a }
  | .gbid => .ok { d with gbids := d.gbids ++ [value] }
  | .timeout => once d.timeoutMillis (millis? value) fun a => { d with timeoutMillis := some a }
  | .retry =>
    once d.retryMillis ((millis? value).filter (1 ≤ ·)) fun a => { d with retryMillis := some a }
  | .scope => once d.scope (Literal.ofWord? value) fun a => { d with scope := some a }

def settle (d : Draft) : Except UsageError Draft :=
  match d.pending with
  | none => .ok d
  | some (_, none) => .error .withoutValue
  | some (setting, some value) => { d with pending := none }.set setting value

def turnOn (d : Draft) : Switch → Except UsageError Draft
  | .requireOnChange =>
    if d.requireOnChange then .error .repeated else .ok { d with requireOnChange := true }
  | .metrics => if d.metrics then .error .repeated else .ok { d with metrics := true }
  | .help => .error .help

def readLong (d : Draft) (name : String) (value : Option String) : Except UsageError Draft :=
  match (Literal.ofWord? name : Option Setting) with
  | some setting => do
    let d ← d.settle
    match value with
    | some value => d.set setting value
    | none => return { d with pending := some (setting, none) }
  | none =>
    match (Literal.ofWord? name : Option Switch), value with
    | some switch, none => do (← d.settle).turnOn switch
    | some _, some _ => .error .unwantedValue
    | none, _ => .error .unknown

/-- The only letter with a meaning asks for help. -/
def readShort (d : Draft) (letter : Char) : Except UsageError Draft :=
  if letter = 'h' then do (← d.settle).turnOn .help else .error .unknown

def readPlain (d : Draft) (text : String) : Except UsageError Draft :=
  match d.pending with
  | some (setting, none) => .ok { d with pending := some (setting, some text) }
  | _ => .error .unknown

def readAll (d : Draft) : List String → Except UsageError Draft
  | [] => d.settle
  | arg :: args => do
    match Word.ofText arg with
    | .divider => if args.isEmpty then d.settle else .error .unknown
    | .long name value => (← d.readLong name value).readAll args
    | .short letter _ => (← d.readShort letter).readAll args
    | .plain text => (← d.readPlain text).readAll args

/-- What was not given as an argument may come from the environment. -/
def fillFrom (d : Draft) (env : Environment) : Except UsageError Draft :=
  match d.fixture, env fixtureVariable with
  | none, some value => d.set .fixture value
  | _, _ => .ok d

def finish (d : Draft) : Except UsageError Resolve.Options :=
  match d.fixture, d.domains, d.interface, d.version with
  | some fixture, domain :: domains, some interface, some version => .ok {
      fixture, interface, version
      domains := domain :: domains
      strategy := d.strategy.getD .highestPriority
      keyword := d.keyword
      participant := d.participant
      gbids := d.gbids
      timeoutMillis := d.timeoutMillis
      retryMillis := d.retryMillis
      scope := d.scope
      requireOnChange := d.requireOnChange
      showMetrics := d.metrics }
  | _, _, _, _ => .error .missing

end Draft

def readResolve (env : Environment) (args : List String) : Except UsageError Resolve.Options := do
  let d ← ({} : Draft).readAll args
  (← d.fillFrom env).finish

end Arbiter.CommandLine
