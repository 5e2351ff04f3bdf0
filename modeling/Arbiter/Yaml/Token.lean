import Arbiter.Yaml.Tag

/-!
The tokens of a YAML text: scalars and marks, and the beginnings and ends of the collections that
follow from indentation.

Whether a scalar or a collection in brackets is a key is known only when a colon follows it on the
same line. Until then it is a candidate, and no token from it on can be used. If the text goes wrong,
the tokens that could be used before are all that there is: a list without `streamEnd` at its end.
-/

namespace Arbiter.Yaml

inductive Token where
  | directive (d : Directive)
  | documentStart
  | documentEnd
  | streamEnd
  | blockSequence
  | blockMapping
  | blockEnd
  | flowSequence
  | flowSequenceEnd
  | flowMapping
  | flowMappingEnd
  | blockEntry
  | flowEntry
  | key
  | value
  | alias (name : String)
  | anchor (name : String)
  | tag (t : WrittenTag)
  | scalar (style : Style) (text : String)
  deriving DecidableEq, Repr

/-- Something that becomes a key if a colon follows. -/
structure Candidate where
  /-- The number of its first token. -/
  number : Nat
  /-- Whether nothing but a key can stand in its place. -/
  required : Bool
  index : Nat
  line : Nat
  column : Nat
  deriving Repr

/-- The tokens so far, and what is needed to go on. -/
structure Scan where
  cursor : Cursor
  /-- The columns of the open block collections, the innermost first. -/
  indents : List Nat := []
  /-- The candidate at each level of flow collections, the innermost first, and outside of them. -/
  candidates : List (Option Candidate) := [none]
  keyAllowed : Bool := true
  /-- The tokens so far, the latest first. -/
  tokens : List Token := []
  /-- How many of them can be used. -/
  usable : Nat := 0
  deriving Repr

namespace Scan

def inFlow (s : Scan) : Bool :=
  1 < s.candidates.length

def indent (s : Scan) : Option Nat :=
  s.indents.head?

/-- Whether the column is deeper than that of the innermost block collection. -/
def isDeeper (s : Scan) (column : Nat) : Bool :=
  s.indent.all (· < column)

def push (s : Scan) (t : Token) : Scan :=
  { s with tokens := t :: s.tokens }

/-- Puts a token in front of the one with the given number. -/
def insert (s : Scan) (number : Nat) (t : Token) : Scan :=
  { s with tokens := s.tokens.insertIdx (s.tokens.length - number) t }

/-- Passes blanks, comments and breaks. Outside of flow collections a break allows a key, and a tab
must not stand where one is allowed. -/
def gapFrom (inFlow keyAllowed inComment : Bool) (place : Cursor) : List Char → Cursor × Bool
  | [] => ({ place with rest := [] }, keyAllowed)
  | '\r' :: '\n' :: rest =>
    gapFrom inFlow (keyAllowed || !inFlow) false (place.nextLine 2 rest) rest
  | c :: rest =>
    if isBreak c then gapFrom inFlow (keyAllowed || !inFlow) false (place.nextLine 1 rest) rest
    else if inComment || c = ' ' || c = '\t' && (inFlow || !keyAllowed) then
      gapFrom inFlow keyAllowed inComment (place.forward rest) rest
    else if c = '#' then gapFrom inFlow keyAllowed true (place.forward rest) rest
    else ({ place with rest := c :: rest }, keyAllowed)

def skipGap (s : Scan) : Scan :=
  let (cursor, keyAllowed) := gapFrom s.inFlow s.keyAllowed false s.cursor s.cursor.rest
  { s with cursor, keyAllowed }

/-- A key ends on the line on which it begins, and within 1024 characters. -/
def isStale (s : Scan) (c : Candidate) : Bool :=
  c.line < s.cursor.line || c.index + 1024 < s.cursor.index

def dropStale (s : Scan) : Option Scan :=
  let stale (c : Candidate) : Bool := s.isStale c
  if s.candidates.any (·.any fun c => stale c && c.required) then none
  else some { s with candidates := s.candidates.map (·.filter fun c => !stale c) }

def dropCandidate (s : Scan) : Option Scan :=
  match s.candidates with
  | some c :: outer => if c.required then none else some { s with candidates := none :: outer }
  | _ => some s

/-- Makes what begins here a candidate, if a key may begin here. -/
def addCandidate (s : Scan) : Option Scan :=
  if s.keyAllowed then do
    let required := !s.inFlow && s.indent = some s.cursor.column
    let s ← s.dropCandidate
    let candidate : Candidate :=
      { number := s.tokens.length, required, index := s.cursor.index, line := s.cursor.line
        column := s.cursor.column }
    return { s with candidates := some candidate :: s.candidates.drop 1 }
  else some s

/-- Ends the block collections that are deeper than the column; without one, all of them. -/
def closeTo (s : Scan) (column : Option Nat) : Scan :=
  if s.inFlow then s
  else
    let closed := s.indents.takeWhile fun indent => column.all (· < indent)
    { s with
      indents := s.indents.drop closed.length
      tokens := closed.map (fun _ => Token.blockEnd) ++ s.tokens }

/-- Begins a block collection at the column, unless one is open there, in front of the token with the
given number. -/
def openAt (s : Scan) (column number : Nat) (t : Token) : Scan :=
  if !s.inFlow && s.isDeeper column then
    { s with indents := column :: s.indents }.insert number t
  else s

def mark (s : Scan) (length : Nat) (t : Token) : Scan :=
  { s with cursor := s.cursor.skip length }.push t

/-- The end of the text, which is also the end of a line. -/
def endStream (s : Scan) : Option Scan := do
  let s ← (s.closeTo none).dropCandidate
  let cursor := if s.cursor.column = 0 then s.cursor else s.cursor.nextLine 0 []
  return { s with cursor, keyAllowed := false }.push .streamEnd

def takeDirective (s : Scan) : Option Scan := do
  let s ← (s.closeTo none).dropCandidate
  let (directive, rest) ← readDirective (s.cursor.rest.drop 1)
  let cursor := s.cursor.skip (s.cursor.rest.length - rest.length)
  return { s with cursor := cursor.skipLine.skipBreak, keyAllowed := false }.push
    (.directive directive)

def documentMark (s : Scan) (t : Token) : Option Scan := do
  let s ← (s.closeTo none).dropCandidate
  return { s with keyAllowed := false }.mark 3 t

def flowStart (s : Scan) (t : Token) : Option Scan := do
  let s ← s.addCandidate
  return { s with candidates := none :: s.candidates, keyAllowed := true }.mark 1 t

def flowEnd (s : Scan) (t : Token) : Option Scan := do
  let s ← s.dropCandidate
  let candidates := if s.inFlow then s.candidates.drop 1 else s.candidates
  return { s with candidates, keyAllowed := false }.mark 1 t

def flowEntry (s : Scan) : Option Scan := do
  let s ← s.dropCandidate
  return { s with keyAllowed := true }.mark 1 .flowEntry

def blockEntry (s : Scan) : Option Scan := do
  if !s.inFlow && !s.keyAllowed then none
  else
    let s ← (s.openAt s.cursor.column s.tokens.length .blockSequence).dropCandidate
    return { s with keyAllowed := true }.mark 1 .blockEntry

/-- A question mark, which says that a key follows. -/
def keyMark (s : Scan) : Option Scan := do
  if !s.inFlow && !s.keyAllowed then none
  else
    let s ← (s.openAt s.cursor.column s.tokens.length .blockMapping).dropCandidate
    return { s with keyAllowed := !s.inFlow }.mark 1 .key

/-- A colon. The candidate at this level turns out to be a key. -/
def valueMark (s : Scan) : Option Scan :=
  match s.candidates with
  | some c :: outer =>
    let s := (s.insert c.number .key).openAt c.column c.number .blockMapping
    some ({ s with candidates := none :: outer, keyAllowed := false }.mark 1 .value)
  | _ =>
    if !s.inFlow && !s.keyAllowed then none
    else
      let s := s.openAt s.cursor.column s.tokens.length .blockMapping
      some ({ s with keyAllowed := !s.inFlow }.mark 1 .value)

/-- Marks that may follow a name directly. -/
def endsReference (c : Char) : Bool :=
  "?:,]\x7d%@\x60".contains c

/-- A name behind `&` or `*`. It ends at a gap or before certain marks. -/
def reference (s : Scan) (t : String → Token) : Option Scan := do
  let s ← s.addCandidate
  let cs := s.cursor.rest.drop 1
  let name := cs.takeWhile isWord
  let rest := cs.drop name.length
  if name.isEmpty || !(atGap rest || rest.head?.any endsReference) then none
  else return { s with keyAllowed := false }.mark (1 + name.length) (t (String.ofList name))

def takeTag (s : Scan) : Option Scan := do
  let s ← s.addCandidate
  let (t, rest) ← readTag s.cursor.rest
  if !atGap rest && !(s.inFlow && rest.head? = some ',') then none
  else return { s with keyAllowed := false }.mark (s.cursor.rest.length - rest.length) (.tag t)

def blockScalar (s : Scan) (style : Style) : Option Scan := do
  let s ← s.dropCandidate
  let reading ← readBlock (style = .literal) s.indent (s.cursor.skip 1)
  return { s with cursor := reading.cursor, keyAllowed := true }.push (.scalar style reading.text)

def quotedScalar (s : Scan) (style : Style) : Option Scan := do
  let s ← s.addCandidate
  let inner := s.cursor.skip 1
  let reading ← match style with
    | .singleQuoted => readSingleQuoted [] {} inner inner.rest
    | _ => readDoubleQuoted [] {} .none inner inner.rest
  return { s with cursor := reading.cursor, keyAllowed := false }.push (.scalar style reading.text)

def plainScalar (s : Scan) : Option Scan := do
  let s ← s.addCandidate
  let ctx : PlainContext := { inFlow := s.inFlow, indent := s.indent.elim 0 (· + 1) }
  let reading ← readPlain ctx [] none s.cursor s.cursor.rest
  return { s with cursor := reading.cursor, keyAllowed := reading.broken }.push
    (.scalar .plain reading.text)

def startsPlain (inFlow : Bool) (c : Char) (rest : List Char) : Bool :=
  !(isBlank c || isBreak c || "-?:,[]\x7b\x7d#&*!|>'\"%@\x60".contains c) ||
    c = '-' && !(rest.head?.any isBlank) || !inFlow && (c = '?' || c = ':') && !atGap rest

/-- The token or tokens that begin here. -/
def dispatch (s : Scan) : Option Scan :=
  match s.cursor.rest with
  | [] => s.endStream
  | c :: rest =>
    if s.cursor.column = 0 && c = '%' then s.takeDirective
    else if s.cursor.column = 0 && atDocumentMark (c :: rest) then
      s.documentMark (if c = '-' then .documentStart else .documentEnd)
    else if c = '[' then s.flowStart .flowSequence
    else if c = '\x7b' then s.flowStart .flowMapping
    else if c = ']' then s.flowEnd .flowSequenceEnd
    else if c = '\x7d' then s.flowEnd .flowMappingEnd
    else if c = ',' then s.flowEntry
    else if c = '-' && atGap rest then s.blockEntry
    else if c = '?' && (s.inFlow || atGap rest) then s.keyMark
    else if c = ':' && (s.inFlow || atGap rest) then s.valueMark
    else if c = '*' then s.reference .alias
    else if c = '&' then s.reference .anchor
    else if c = '!' then s.takeTag
    else if c = '|' && !s.inFlow then s.blockScalar .literal
    else if c = '>' && !s.inFlow then s.blockScalar .folded
    else if c = '\'' then s.quotedScalar .singleQuoted
    else if c = '"' then s.quotedScalar .doubleQuoted
    else if startsPlain s.inFlow c rest then s.plainScalar
    else none

/-- Goes on by one token, and by those that come with it. -/
def advance (s : Scan) : Option Scan := do
  let s ← s.skipGap.dropStale
  (s.closeTo (some s.cursor.column)).dispatch

/-- The number of the first candidate; without one all tokens can be used. -/
def countUsable (s : Scan) : Nat :=
  (s.candidates.filterMap (·.map (·.number))).foldl min s.tokens.length

def firstTokens (s : Scan) (n : Nat) : List Token :=
  (s.tokens.drop (s.tokens.length - n)).reverse

/-- The tokens up to the end of the text or to the first error, with enough fuel for the text. -/
def runFor : Nat → Scan → List Token
  | 0, s => s.firstTokens s.usable
  | fuel + 1, s =>
    match s.advance with
    | none => s.firstTokens s.usable
    | some next =>
      match next.dropStale with
      | none => s.firstTokens s.usable
      | some next =>
        if next.tokens.head? = some .streamEnd then next.firstTokens next.tokens.length
        else runFor fuel { next with usable := next.countUsable }

end Scan

/-- The tokens of a text. A mark of the encoding may stand in front of it. A text with a character
that no text may hold has no tokens at all. -/
def tokens (s : String) : List Token :=
  let cs := match s.toList with
    | '\ufeff' :: rest => rest
    | cs => cs
  if cs.all isAllowed then
    Scan.runFor (cs.length + 1) { cursor := { rest := cs } }
  else []

end Arbiter.Yaml
