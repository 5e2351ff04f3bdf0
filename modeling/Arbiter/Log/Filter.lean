import Arbiter.Literal
import Arbiter.Log.Record
import Arbiter.Text.Integer
import Arbiter.Text.Pieces

/-!
Which records are written. A filter is a list of directives with commas between them; of those that
concern a record, the one that says most about it decides.
-/

namespace Arbiter.Log

/-- Records up to a level are written, or none at all. -/
inductive Threshold where
  | off
  | upTo (level : Level)
  deriving DecidableEq, Repr

instance : Inhabited Threshold := ⟨.upTo .info⟩

instance : Literal Threshold where
  values := [.off, .upTo .error, .upTo .warn, .upTo .info, .upTo .debug, .upTo .trace]
  word
    | .off => "off"
    | .upTo .error => "error"
    | .upTo .warn => "warn"
    | .upTo .info => "info"
    | .upTo .debug => "debug"
    | .upTo .trace => "trace"

namespace Threshold

def admits : Threshold → Level → Bool
  | off, _ => false
  | upTo most, level => level.verbosity ≤ most.verbosity

/-- A threshold by its name in any case or by its number. Without a text, only errors pass. -/
def ofText? (s : String) : Option Threshold :=
  if s.isEmpty then some (.upTo .error)
  else match (Text.word? s.toList).bind fun n => (Literal.values : List Threshold)[n]? with
    | some t => some t
    | none => Literal.ofWord? (s.map Char.toLower)

end Threshold

/-- Which records a directive is for, beyond where they come from. -/
inductive Concern where
  | all
  /-- Those that have the field. -/
  | withField (name : String)
  /-- Those inside of something that nothing here opens. -/
  | nothing
  deriving DecidableEq, Repr

structure Directive where
  /-- The beginning of the targets of the records. -/
  target : Option String := none
  concern : Concern := .all
  threshold : Threshold
  deriving DecidableEq, Repr

namespace Directive

def concerns (d : Directive) (r : Record) : Bool :=
  d.target.all (fun t => t.toList.isPrefixOf r.target.toList) &&
    match d.concern with
    | .all => true
    | .withField name => name = "message" || r.fields.any (·.1 == name)
    | .nothing => false

/-- How much a directive says: about the target first, and then about fields. -/
def weight (d : Directive) : Nat × Nat :=
  (match d.target with
    | none => 0
    | some t => t.utf8ByteSize + 1,
   if d.concern = .all then 0 else 1)

def outweighs (d e : Directive) : Bool :=
  e.weight.1 < d.weight.1 || e.weight.1 = d.weight.1 && e.weight.2 < d.weight.2

def isTargetChar (c : Char) : Bool :=
  c.isAlphanum || c = '_' || c = ':' || c = '-'

/-- The threshold of a directive. Without one, everything passes. -/
def threshold? : List Char → Option Threshold
  | [] | ['='] => some (.upTo .trace)
  | '=' :: cs => Threshold.ofText? (String.ofList cs)
  | _ => none

/-- What stands between brackets: the name of a span, and a field in braces. -/
def concernOf (cs : List Char) : Concern :=
  match Text.cutOnce '\x7b' cs with
  | some ([], rest) =>
    match Text.cutOnce '\x7d' rest with
    | some (name, []) =>
      if name.isEmpty || name.contains '=' then .nothing else .withField (String.ofList name)
    | _ => .nothing
  | _ => if cs.isEmpty then .all else .nothing

/-- A level alone, or a target with or without one. -/
def ofText? (s : String) : Option Directive :=
  match Threshold.ofText? s with
  | some threshold => some { threshold }
  | none =>
    let (name, rest) := s.toList.span isTargetChar
    let target := if name.isEmpty then none else some (String.ofList name)
    match rest with
    | '[' :: rest => do
      let (inside, rest) ← Text.cutOnce ']' rest
      return { target, concern := concernOf inside, threshold := ← threshold? rest }
    | _ => if name.isEmpty then none else (threshold? rest).map fun t => { target, threshold := t }

end Directive

abbrev Filter := List Directive

namespace Filter

/-- The directives in a text, and the pieces that are none. Empty pieces do not count; where nothing
is left, the given threshold is for all records. -/
def ofText (standard : Threshold) (s : String) : Filter × List String :=
  let pieces := ((Text.cut ',' s.toList).filter (· ≠ [])).map String.ofList
  let directives := pieces.filterMap Directive.ofText?
  let ignored := pieces.filter fun piece => (Directive.ofText? piece).isNone
  (if directives.isEmpty then [{ threshold := standard }] else directives, ignored)

/-- The directive that decides about a record. Of two that say as much, the later one does. -/
def decisive (f : Filter) (r : Record) : Option Directive :=
  (f.filter (·.concerns r)).foldl
    (fun best d => match best with
      | none => some d
      | some b => if b.outweighs d then some b else some d)
    none

def admits (f : Filter) (r : Record) : Bool :=
  (f.decisive r).any (·.threshold.admits r.level)

end Filter

end Arbiter.Log
