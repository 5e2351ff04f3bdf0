import Arbiter.Yaml.Scalar

/-!
Tags and directives. A tag names the kind of a node: in full between angle brackets, or as a handle
and a suffix, where a directive says what the handle is short for.
-/

namespace Arbiter.Yaml

/-- Characters of a tag. Brackets and commas are left to those that are given in full. -/
def isTagChar (full : Bool) (c : Char) : Bool :=
  isWord c || ";/?:@&=+$.!~*'()%".contains c || full && (c = ',' || c = '[' || c = ']')

/-- The octet behind a percent sign. -/
def octet? : List Char → Option (Nat × List Char)
  | '%' :: a :: b :: rest => do
    return ((← hexValue? a) * 16 + (← hexValue? b), rest)
  | _ => none

/-- How many octets follow the first one of a character, and its share of the code point. -/
def octetsAfter? (first : Nat) : Option (Nat × Nat) :=
  if first < 0x80 then some (0, first)
  else if 0xC0 ≤ first ∧ first < 0xE0 then some (1, first - 0xC0)
  else if 0xE0 ≤ first ∧ first < 0xF0 then some (2, first - 0xE0)
  else if 0xF0 ≤ first ∧ first < 0xF8 then some (3, first - 0xF0)
  else none

def moreOctets : Nat → Nat → List Char → Option (Nat × List Char)
  | 0, value, cs => some (value, cs)
  | n + 1, value, cs => do
    let (octet, rest) ← octet? cs
    if octet < 0x80 || 0xC0 ≤ octet then none
    else moreOctets n (value * 64 + (octet - 0x80)) rest

/-- A character that is written as octets behind percent signs. -/
def octetChar? (cs : List Char) : Option (Char × List Char) := do
  let (first, rest) ← octet? cs
  let (count, share) ← octetsAfter? first
  let (value, rest) ← moreOctets count share rest
  return (← charOf? value, rest)

/-- The characters of a tag and what follows them, with enough fuel for the text. -/
def tagChars (full : Bool) : Nat → List Char → Option (List Char × List Char)
  | 0, cs => some ([], cs)
  | fuel + 1, cs =>
    match cs with
    | [] => some ([], [])
    | c :: rest =>
      if !isTagChar full c then some ([], cs)
      else if c = '%' then do
        let (d, rest) ← octetChar? cs
        let (ds, rest) ← tagChars full fuel rest
        return (d :: ds, rest)
      else do
        let (ds, rest) ← tagChars full fuel rest
        return (c :: ds, rest)

def readTagChars (full : Bool) (cs : List Char) : Option (List Char × List Char) :=
  tagChars full cs.length cs

/-- A tag as it is written: a handle, which may be empty, and what follows it. -/
structure WrittenTag where
  handle : String
  suffix : String
  deriving DecidableEq, Repr

/-- The word characters behind an exclamation mark, and a second mark if there is one. -/
def readHandle (cs : List Char) : List Char × List Char :=
  let word := cs.takeWhile isWord
  match cs.drop word.length with
  | '!' :: rest => ('!' :: word ++ ['!'], rest)
  | rest => ('!' :: word, rest)

/-- A tag and what follows it, from its exclamation mark. One that is nothing but the mark has no
handle. -/
def readTag : List Char → Option (WrittenTag × List Char)
  | '!' :: '<' :: cs => do
    let (uri, rest) ← readTagChars true cs
    match uri, rest with
    | [], _ => none
    | _, '>' :: rest => some (⟨"", String.ofList uri⟩, rest)
    | _, _ => none
  | '!' :: cs => do
    let (handle, rest) := readHandle cs
    if 1 < handle.length && handle.getLast? = some '!' then
      let (suffix, rest) ← readTagChars false rest
      if suffix.isEmpty then none
      else some (⟨String.ofList handle, String.ofList suffix⟩, rest)
    else
      let (suffix, rest) ← readTagChars false rest
      let suffix := handle.drop 1 ++ suffix
      if suffix.isEmpty then some (⟨"", "!"⟩, rest)
      else some (⟨"!", String.ofList suffix⟩, rest)
  | _ => none

/-- What a document says about itself before it begins. -/
inductive Directive where
  | version (major minor : Nat)
  | handle (name meaning : String)
  deriving DecidableEq, Repr

/-- Between one and nine digits. -/
def versionNumber (cs : List Char) : Option (Nat × List Char) :=
  let digits := cs.takeWhile Char.isDigit
  if digits.isEmpty || 9 < digits.length then none
  else some (digits.foldl (fun n c => n * 10 + (c.toNat - '0'.toNat)) 0, cs.drop digits.length)

def versionDirective (cs : List Char) : Option (Directive × List Char) := do
  let (major, rest) ← versionNumber (cs.dropWhile isBlank)
  match rest with
  | '.' :: rest =>
    let (minor, rest) ← versionNumber rest
    return (.version major minor, rest)
  | _ => none

def handleDirective (cs : List Char) : Option (Directive × List Char) :=
  match cs.dropWhile isBlank with
  | '!' :: cs => do
    let (handle, rest) := readHandle cs
    if handle ≠ ['!'] && handle.getLast? ≠ some '!' then none
    else match rest with
      | c :: _ =>
        if !isBlank c then none
        else do
          let (meaning, rest) ← readTagChars true (rest.dropWhile isBlank)
          if meaning.isEmpty || !atGap rest then none
          else some (.handle (String.ofList handle) (String.ofList meaning), rest)
      | [] => none
  | _ => none

/-- A directive and what follows it on its line, from behind the percent sign. -/
def readDirective (cs : List Char) : Option (Directive × List Char) := do
  let name := cs.takeWhile isWord
  let rest := cs.drop name.length
  if !atGap rest then none
  else
    let (directive, rest) ←
      if name = "YAML".toList then versionDirective rest
      else if name = "TAG".toList then handleDirective rest
      else none
    let rest := rest.dropWhile isBlank
    match rest with
    | c :: _ => if c = '#' || isBreak c then some (directive, rest) else none
    | [] => some (directive, [])

end Arbiter.Yaml
