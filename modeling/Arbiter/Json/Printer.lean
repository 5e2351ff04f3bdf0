import Arbiter.Document.Datum
import Arbiter.Json.Tree
import Arbiter.Text.Pieces
import Arbiter.Text.Quoted

/-! Writing values as JSON, on one line or on many. -/

namespace Arbiter.Json

open Document

/-- A character of a text. Only what cannot stand there by itself is escaped. -/
def escapeChar (c : Char) : List Char :=
  if c = '"' then ['\\', '"']
  else if c = '\\' then ['\\', '\\']
  else if c = '\x08' then ['\\', 'b']
  else if c = '\x0c' then ['\\', 'f']
  else if c = '\n' then ['\\', 'n']
  else if c = '\r' then ['\\', 'r']
  else if c = '\t' then ['\\', 't']
  else if c.toNat < 0x20 then
    '\\' :: 'u' :: '0' :: '0' :: (if c.toNat < 16 then ['0'] else []) ++ Text.hexDigits c.toNat
  else [c]

def quote (s : String) : List Char :=
  '"' :: s.toList.flatMap escapeChar ++ ['"']

def intChars (n : Int) : List Char :=
  (Text.ofInt n).toList

def commas : List (List Char) → List Char
  | [] => []
  | [cs] => cs
  | cs :: rest => cs ++ ',' :: commas rest

mutual

/-- A value without any blanks. -/
def compact : Datum → List Char
  | .null => ['n', 'u', 'l', 'l']
  | .flag b => if b then ['t', 'r', 'u', 'e'] else ['f', 'a', 'l', 's', 'e']
  | .integer n => intChars n
  | .text s => quote s
  | .list ds => '[' :: commas (compactItems ds) ++ [']']
  | .record fs => '\x7b' :: commas (compactFields fs) ++ ['\x7d']
termination_by structural d => d

def compactItems : List Datum → List (List Char)
  | [] => []
  | d :: ds => compact d :: compactItems ds
termination_by structural ds => ds

def compactFields : List (String × Datum) → List (List Char)
  | [] => []
  | (name, d) :: fs => (quote name ++ ':' :: compact d) :: compactFields fs
termination_by structural fs => fs

end

def render (d : Datum) : String :=
  String.ofList (compact d)

/-- A new line, indented to the given depth. -/
def newLine (depth : Nat) : List Char :=
  '\n' :: List.replicate (2 * depth) ' '

/-- Items on lines of their own between two brackets; nothing between them if there are none. -/
def block (left right : Char) (depth : Nat) (items : List (List Char)) : List Char :=
  if items.isEmpty then [left, right]
  else left :: commas (items.map (newLine (depth + 1) ++ ·)) ++ newLine depth ++ [right]

mutual

def spread (depth : Nat) : Datum → List Char
  | .list ds => block '[' ']' depth (spreadItems (depth + 1) ds)
  | .record fs => block '\x7b' '\x7d' depth (spreadFields (depth + 1) fs)
  | .null => compact .null
  | .flag b => compact (.flag b)
  | .integer n => compact (.integer n)
  | .text s => compact (.text s)
termination_by structural d => d

def spreadItems (depth : Nat) : List Datum → List (List Char)
  | [] => []
  | d :: ds => spread depth d :: spreadItems depth ds
termination_by structural ds => ds

def spreadFields (depth : Nat) : List (String × Datum) → List (List Char)
  | [] => []
  | (name, d) :: fs => (quote name ++ ':' :: ' ' :: spread depth d) :: spreadFields depth fs
termination_by structural fs => fs

end

/-- The text of a value with each item and field on a line of its own. -/
def renderLines (d : Datum) : String :=
  String.ofList (spread 0 d)

end Arbiter.Json
