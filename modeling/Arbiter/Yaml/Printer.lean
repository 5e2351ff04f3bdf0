import Arbiter.Document.Datum
import Arbiter.Text.Quoted
import Arbiter.Yaml.Meaning

/-!
Writing values as YAML, one item or field on each line. Items stand right below the name of their
list, fields two columns further in than the name of their record.
-/

namespace Arbiter.Yaml

open Document

/-- Words that some readers take for truth values. -/
def ambiguousWords : List String :=
  ["y", "Y", "yes", "Yes", "YES", "n", "N", "no", "No", "NO", "on", "On", "ON", "off", "Off", "OFF"]

/-- Whether a text can stand without quotes and is then read as a text: it is made of letters,
digits, hyphens and underscores, the first being a letter. -/
def isPlain (s : String) : Bool :=
  match s.toList with
  | [] => false
  | c :: cs =>
    c.isAlpha && cs.all isWord && !ambiguousWords.contains s && found s = .text s

def singleQuoteChar (c : Char) : List Char :=
  if c = '\'' then ['\'', '\''] else [c]

/-- Whether a text can stand on one line between single quotes. -/
def isSingleLine (s : String) : Bool :=
  s.toList.all fun c => !Text.isHidden c && !isBreak c

/-- The digits of a code point, as many as an escape has. -/
def paddedHex (width n : Nat) : List Char :=
  let digits := Text.hexDigits n
  List.replicate (width - digits.length) '0' ++ digits

def doubleQuoteChar (c : Char) : List Char :=
  if c = '"' then ['\\', '"']
  else if c = '\\' then ['\\', '\\']
  else if !Text.isHidden c && !isBreak c then [c]
  else if c.toNat < 0x100 then '\\' :: 'x' :: paddedHex 2 c.toNat
  else if c.toNat < 0x10000 then '\\' :: 'u' :: paddedHex 4 c.toNat
  else '\\' :: 'U' :: paddedHex 8 c.toNat

/-- A text, in quotes where it needs them. -/
def scalarChars (s : String) : List Char :=
  if isPlain s then s.toList
  else if isSingleLine s then '\'' :: s.toList.flatMap singleQuoteChar ++ ['\'']
  else '"' :: s.toList.flatMap doubleQuoteChar ++ ['"']

def isInline : Datum → Bool
  | .list items => items.isEmpty
  | .record fields => fields.isEmpty
  | _ => true

def indent (lines : List (List Char)) : List (List Char) :=
  lines.map fun cs => ' ' :: ' ' :: cs

/-- An item: its first line behind a dash, the others below it. -/
def itemBlock (lines : List (List Char)) : List (List Char) :=
  match lines with
  | [] => [['-']]
  | first :: rest => ('-' :: ' ' :: first) :: indent rest

/-- A field: its name, and its value on the same line or below. -/
def fieldBlock (name : String) (d : Datum) (lines : List (List Char)) : List (List Char) :=
  let key := scalarChars name ++ [':']
  if isInline d then [key ++ ' ' :: lines.flatten]
  else match d with
    | .list _ => key :: lines
    | _ => key :: indent lines

mutual

def blockLines : Datum → List (List Char)
  | .null => [['n', 'u', 'l', 'l']]
  | .flag b => [if b then ['t', 'r', 'u', 'e'] else ['f', 'a', 'l', 's', 'e']]
  | .integer n => [(Text.ofInt n).toList]
  | .text s => [scalarChars s]
  | .list [] => [['[', ']']]
  | .list (d :: ds) => itemBlock (blockLines d) ++ itemLines ds
  | .record [] => [['\x7b', '\x7d']]
  | .record ((name, d) :: fs) => fieldBlock name d (blockLines d) ++ fieldLines fs
termination_by structural d => d

def itemLines : List Datum → List (List Char)
  | [] => []
  | d :: ds => itemBlock (blockLines d) ++ itemLines ds
termination_by structural ds => ds

def fieldLines : List (String × Datum) → List (List Char)
  | [] => []
  | (name, d) :: fs => fieldBlock name d (blockLines d) ++ fieldLines fs
termination_by structural fs => fs

end

def render (d : Datum) : String :=
  String.ofList ((blockLines d).flatMap (· ++ ['\n']))

end Arbiter.Yaml
