/-!
Places in a YAML text, and the classes of characters that matter there. Lines end with a line feed, a
carriage return, both, or one of three other breaks.
-/

namespace Arbiter.Yaml

/-- What is left of a text, and where that begins. -/
structure Cursor where
  rest : List Char
  /-- How many characters came before. -/
  index : Nat := 0
  line : Nat := 0
  column : Nat := 0
  deriving Repr

def isBlank (c : Char) : Bool :=
  c = ' ' || c = '\t'

def isBreak (c : Char) : Bool :=
  c = '\n' || c = '\r' || c = '\x85' || c = '\u2028' || c = '\u2029'

/-- Characters of names: letters and digits of ASCII, the underscore and the hyphen. -/
def isWord (c : Char) : Bool :=
  c.isAlphanum || c = '_' || c = '-'

/-- Whether nothing, or nothing but a blank or a break, comes next. -/
def atGap : List Char → Bool
  | [] => true
  | c :: _ => isBlank c || isBreak c

def isAllowed (c : Char) : Bool :=
  let n := c.toNat
  c = '\t' || c = '\n' || c = '\r' || (0x20 ≤ n && n ≤ 0x7E) || n = 0x85 ||
    (0xA0 ≤ n && n ≤ 0xFFFD && n ≠ 0xFEFF) || 0x10000 ≤ n

/-- What a break becomes in the text of a scalar. -/
def breakChar (c : Char) : Char :=
  if c = '\u2028' || c = '\u2029' then c else '\n'

/-- The marks between documents, `---` and `...`, when something else begins behind them. -/
def atDocumentMark : List Char → Bool
  | '-' :: '-' :: '-' :: rest => atGap rest
  | '.' :: '.' :: '.' :: rest => atGap rest
  | _ => false

namespace Cursor

def skip (c : Cursor) (n : Nat) : Cursor :=
  { c with rest := c.rest.drop n, index := c.index + n, column := c.column + n }

def nextLine (c : Cursor) (length : Nat) (rest : List Char) : Cursor :=
  { rest, index := c.index + length, line := c.line + 1, column := 0 }

def forward (c : Cursor) (rest : List Char) : Cursor :=
  { c with rest, index := c.index + 1, column := c.column + 1 }

def skipBreak (c : Cursor) : Cursor :=
  match c.rest with
  | '\r' :: '\n' :: rest => c.nextLine 2 rest
  | b :: rest => if isBreak b then c.nextLine 1 rest else c
  | [] => c

def skipLine (c : Cursor) : Cursor :=
  c.skip (c.rest.takeWhile (!isBreak ·)).length

def skipBlanks (c : Cursor) : Cursor :=
  c.skip (c.rest.takeWhile isBlank).length

end Cursor

end Arbiter.Yaml
