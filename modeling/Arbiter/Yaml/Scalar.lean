import Arbiter.Yaml.Cursor

/-!
The texts of scalars. Between two lines of a scalar the first break becomes a space, and further ones
stay; block scalars have rules of their own.
-/

namespace Arbiter.Yaml

inductive Style where
  | plain
  | singleQuoted
  | doubleQuoted
  | literal
  | folded
  deriving DecidableEq, Repr

/-- Blanks and breaks that may turn out to stand between two words. -/
structure Gap where
  /-- The blanks before the first break, the latest first. -/
  blanks : List Char := []
  broken : Bool := false
  /-- The first break, unless it was escaped. -/
  first : List Char := []
  /-- The breaks after the first, the latest first. -/
  more : List Char := []
  deriving Repr

namespace Gap

/-- Blanks after a break are dropped. -/
def addBlank (g : Gap) (c : Char) : Gap :=
  if g.broken then g else { g with blanks := c :: g.blanks }

def addBreak (g : Gap) (c : Char) : Gap :=
  if g.broken then { g with more := c :: g.more } else { broken := true, first := [c] }

/-- What the gap becomes between two words, the latest first. -/
def folded (g : Gap) : List Char :=
  if g.broken then
    if g.first = ['\n'] then
      if g.more.isEmpty then [' '] else g.more
    else g.more ++ g.first
  else g.blanks

end Gap

/-- A text that was read, and the place behind it. -/
structure Reading where
  text : String
  cursor : Cursor
  broken : Bool := false
  deriving Repr

def Reading.of (reversed : List Char) (cursor : Cursor) (broken : Bool := false) : Reading :=
  { text := String.ofList reversed.reverse, cursor, broken }

structure PlainContext where
  inFlow : Bool
  /-- The least column of a further line. -/
  indent : Nat

def isFlowMark (c : Char) : Bool :=
  c = ',' || c = '[' || c = ']' || c = '\x7b' || c = '\x7d'

def endsPlain (ctx : PlainContext) (c : Char) (rest : List Char) : Bool :=
  c = ':' && atGap rest || ctx.inFlow && isFlowMark c

/-- In a flow collection, a colon within a scalar must not touch a bracket or a comma. -/
def isBadColon (ctx : PlainContext) (c : Char) (rest : List Char) : Bool :=
  ctx.inFlow && c = ':' && match rest with
    | d :: _ => isFlowMark d || d = '?'
    | [] => false

/-- Whether a plain scalar ends where a gap does. -/
def endsAfterGap (ctx : PlainContext) (place : Cursor) (c : Char) (rest : List Char) : Bool :=
  !ctx.inFlow && place.column < ctx.indent || place.column = 0 && atDocumentMark (c :: rest) || c = '#'

/-- The rest of a plain scalar, after `done` and perhaps a gap. -/
def readPlain (ctx : PlainContext) (done : List Char) (gap : Option Gap) (place : Cursor) :
    List Char → Option Reading
  | [] => some (.of done { place with rest := [] } (gap.any (·.broken)))
  | '\r' :: '\n' :: rest =>
    readPlain ctx done ((gap.getD {}).addBreak '\n') (place.nextLine 2 rest) rest
  | c :: rest =>
    if isBlank c then
      if c = '\t' && gap.any (·.broken) && place.column < ctx.indent then none
      else readPlain ctx done ((gap.getD {}).addBlank c) (place.forward rest) rest
    else if isBreak c then
      readPlain ctx done ((gap.getD {}).addBreak (breakChar c)) (place.nextLine 1 rest) rest
    else if gap.isSome && endsAfterGap ctx place c rest then
      some (.of done { place with rest := c :: rest } (gap.any (·.broken)))
    else if isBadColon ctx c rest then none
    else if endsPlain ctx c rest then
      some (.of done { place with rest := c :: rest } (gap.any (·.broken)))
    else
      readPlain ctx (c :: (gap.elim [] Gap.folded) ++ done) none (place.forward rest) rest

/-- The rest of a scalar in single quotes. A quote is written twice. -/
def readSingleQuoted (done : List Char) (gap : Gap) (place : Cursor) : List Char → Option Reading
  | [] => none
  | '\'' :: '\'' :: rest =>
    readSingleQuoted ('\'' :: gap.folded ++ done) {} (place.skip 2) rest
  | '\'' :: rest => some (.of (gap.folded ++ done) (place.forward rest))
  | '\r' :: '\n' :: rest => readSingleQuoted done (gap.addBreak '\n') (place.nextLine 2 rest) rest
  | c :: rest =>
    if isBlank c then readSingleQuoted done (gap.addBlank c) (place.forward rest) rest
    else if isBreak c then
      readSingleQuoted done (gap.addBreak (breakChar c)) (place.nextLine 1 rest) rest
    else if place.column = 0 && atDocumentMark (c :: rest) then none
    else readSingleQuoted (c :: gap.folded ++ done) {} (place.forward rest) rest

inductive Escape where
  | none
  | begun
  /-- Within a code point, with some digits left. -/
  | code (left value : Nat)
  deriving Repr

/-- What an escape of one character stands for. -/
def escape? : Char → Option Char
  | '0' => some '\x00'
  | 'a' => some '\x07'
  | 'b' => some '\x08'
  | 't' => some '\t'
  | '\t' => some '\t'
  | 'n' => some '\n'
  | 'v' => some '\x0b'
  | 'f' => some '\x0c'
  | 'r' => some '\r'
  | 'e' => some '\x1b'
  | ' ' => some ' '
  | '"' => some '"'
  | '/' => some '/'
  | '\\' => some '\\'
  | 'N' => some '\x85'
  | '_' => some '\xa0'
  | 'L' => some '\u2028'
  | 'P' => some '\u2029'
  | _ => none

/-- How many digits an escaped code point has. -/
def codeLength? : Char → Option Nat
  | 'x' => some 2
  | 'u' => some 4
  | 'U' => some 8
  | _ => none

def hexValue? (c : Char) : Option Nat :=
  if '0' ≤ c ∧ c ≤ '9' then some (c.toNat - '0'.toNat)
  else if 'a' ≤ c ∧ c ≤ 'f' then some (c.toNat - 'a'.toNat + 10)
  else if 'A' ≤ c ∧ c ≤ 'F' then some (c.toNat - 'A'.toNat + 10)
  else none

def charOf? (n : Nat) : Option Char :=
  if n.isValidChar then some (Char.ofNat n) else none

/-- The rest of a scalar in double quotes. An escaped break joins two lines without a space. -/
def readDoubleQuoted (done : List Char) (gap : Gap) (escape : Escape) (place : Cursor) :
    List Char → Option Reading
  | [] => none
  | '\r' :: '\n' :: rest =>
    match escape with
    | .none => readDoubleQuoted done (gap.addBreak '\n') .none (place.nextLine 2 rest) rest
    | .begun => readDoubleQuoted done { broken := true } .none (place.nextLine 2 rest) rest
    | .code .. => none
  | c :: rest =>
    match escape with
    | .none =>
      if c = '"' then some (.of (gap.folded ++ done) (place.forward rest))
      else if isBlank c then readDoubleQuoted done (gap.addBlank c) .none (place.forward rest) rest
      else if isBreak c then
        readDoubleQuoted done (gap.addBreak (breakChar c)) .none (place.nextLine 1 rest) rest
      else if place.column = 0 && atDocumentMark (c :: rest) then none
      else if c = '\\' then
        readDoubleQuoted (gap.folded ++ done) {} .begun (place.forward rest) rest
      else readDoubleQuoted (c :: gap.folded ++ done) {} .none (place.forward rest) rest
    | .begun =>
      if isBreak c then readDoubleQuoted done { broken := true } .none (place.nextLine 1 rest) rest
      else match escape? c, codeLength? c with
        | some d, _ => readDoubleQuoted (d :: done) {} .none (place.forward rest) rest
        | none, some length => readDoubleQuoted done {} (.code length 0) (place.forward rest) rest
        | none, none => none
    | .code left value =>
      match hexValue? c with
      | none => none
      | some digit =>
        let value := value * 16 + digit
        if left ≤ 1 then
          match charOf? value with
          | none => none
          | some d => readDoubleQuoted (d :: done) {} .none (place.forward rest) rest
        else readDoubleQuoted done {} (.code (left - 1) value) (place.forward rest) rest

/-- What becomes of the breaks at the end of a block scalar. -/
inductive Chomping where
  | strip
  | clip
  | keep
  deriving DecidableEq, Repr

structure Block where
  isLiteral : Bool
  chomping : Chomping
  /-- The column at which lines begin, zero as long as it is not known. -/
  indent : Nat
  /-- The least such column. -/
  leastIndent : Nat
  /-- The largest column that was reached before that. -/
  deepest : Nat := 0
  done : List Char := []
  /-- The break after the latest line. -/
  pending : List Char := []
  /-- The breaks after that one, the latest first. -/
  more : List Char := []
  afterBlank : Bool := false
  inLine : Bool := false
  deriving Repr

namespace Block

/-- The column at which lines begin. -/
def settled (b : Block) (column : Nat) : Block :=
  if b.indent = 0 then { b with indent := max (max b.deepest column) b.leastIndent } else b

/-- Begins a line with its first character. In a folded scalar a single break between two lines that
both begin without a blank becomes a space. -/
def beginLine (b : Block) (c : Char) : Block :=
  let joined : List Char :=
    if !b.isLiteral && b.pending = ['\n'] && !b.afterBlank && !isBlank c then
      if b.more.isEmpty then [' '] else []
    else b.pending
  { b with
    done := c :: (b.more ++ joined ++ b.done)
    pending := []
    more := []
    afterBlank := isBlank c
    inLine := true }

/-- The text, less what is chomped off its end. -/
def finish (b : Block) (cursor : Cursor) : Reading :=
  .of (match b.chomping with
    | .strip => b.done
    | .clip => b.pending ++ b.done
    | .keep => b.more ++ b.pending ++ b.done) cursor

/-- Ends a line with a break, or passes an empty line. -/
def endLine (b : Block) (c : Char) (column : Nat) : Block :=
  if b.inLine then { b with pending := [c], inLine := false }
  else { b with more := c :: b.more, deepest := max b.deepest column }

/-- Whether the column is still before that at which lines begin, as far as this is known. -/
def isMargin (b : Block) (column : Nat) : Bool :=
  b.indent = 0 || column < b.indent

def readFrom (b : Block) (place : Cursor) : List Char → Option Reading
  | [] => some (b.finish { place with rest := [] })
  | '\r' :: '\n' :: rest => readFrom (b.endLine '\n' place.column) (place.nextLine 2 rest) rest
  | c :: rest =>
    if !b.inLine && b.isMargin place.column && c = ' ' then readFrom b (place.forward rest) rest
    else if !b.inLine && b.isMargin place.column && c = '\t' then none
    else if isBreak c then
      let b := b.endLine (breakChar c) place.column
      -- the width of the margin is known once a line was read
      readFrom b (place.nextLine 1 rest) rest
    else if b.inLine then readFrom { b with done := c :: b.done } (place.forward rest) rest
    else
      let b := b.settled place.column
      if place.column = b.indent then readFrom (b.beginLine c) (place.forward rest) rest
      else some (b.finish { place with rest := c :: rest })

end Block

/-- The head of a block scalar: how its end is chomped and how deep its lines are indented. -/
def blockHead (c : Cursor) : Option (Chomping × Nat × Cursor) :=
  let chomping? : Char → Option Chomping := fun
    | '+' => some .keep
    | '-' => some .strip
    | _ => none
  let depth? (d : Char) : Option Nat :=
    if '1' ≤ d ∧ d ≤ '9' then some (d.toNat - '0'.toNat) else none
  match c.rest with
  | a :: b :: _ =>
    match chomping? a, depth? a with
    | some chomping, _ =>
      if b = '0' then none
      else match depth? b with
        | some depth => some (chomping, depth, c.skip 2)
        | none => some (chomping, 0, c.skip 1)
    | none, some depth =>
      match chomping? b with
      | some chomping => some (chomping, depth, c.skip 2)
      | none => some (.clip, depth, c.skip 1)
    | none, none => if a = '0' then none else some (.clip, 0, c)
  | [a] =>
    match chomping? a, depth? a with
    | some chomping, _ => some (chomping, 0, c.skip 1)
    | none, some depth => some (.clip, depth, c.skip 1)
    | none, none => if a = '0' then none else some (.clip, 0, c)
  | [] => some (.clip, 0, c)

/-- A block scalar, from behind its first character, in a collection of the given indentation. -/
def readBlock (isLiteral : Bool) (outer : Option Nat) (c : Cursor) : Option Reading := do
  let (chomping, depth, c) ← blockHead c
  let c := c.skipBlanks
  let c := if c.rest.head? = some '#' then c.skipLine else c
  match c.rest with
  | d :: _ => if !isBreak d then none
  | [] => pure ()
  let c := c.skipBreak
  let least := max 1 (outer.elim 0 (· + 1))
  let indent := if depth = 0 then 0 else outer.getD 0 + depth
  Block.readFrom { isLiteral, chomping, indent, leastIndent := least } c c.rest

end Arbiter.Yaml
