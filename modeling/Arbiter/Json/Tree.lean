import Arbiter.Json.Numeral

/-!
JSON values, read from a text as far as it is well formed. What follows the first error is not part
of the value: the lists and records that are open at the error stay open.
-/

namespace Arbiter

inductive Json where
  | null
  | flag (b : Bool)
  | number (n : Json.Numeral)
  | text (s : String)
  /-- A text in which one half of a surrogate pair stands alone. It can be passed over, not read. -/
  | halfPair
  | list (items : List Json) (closed : Bool)
  /-- Names and values. A name that is no text ends the record. -/
  | record (members : List (Json × Json)) (closed : Bool)
  | malformed
  deriving Repr

namespace Json

def isBlank (c : Char) : Bool :=
  c = ' ' || c = '\t' || c = '\n' || c = '\r'

def skipBlank (cs : List Char) : List Char :=
  cs.dropWhile isBlank

def hexValue? (c : Char) : Option Nat :=
  if '0' ≤ c ∧ c ≤ '9' then some (c.toNat - '0'.toNat)
  else if 'a' ≤ c ∧ c ≤ 'f' then some (c.toNat - 'a'.toNat + 10)
  else if 'A' ≤ c ∧ c ≤ 'F' then some (c.toNat - 'A'.toNat + 10)
  else none

/-- What an escape of one letter stands for. -/
def escape? : Char → Option Char
  | '"' => some '"'
  | '\\' => some '\\'
  | '/' => some '/'
  | 'b' => some '\x08'
  | 'f' => some '\x0c'
  | 'n' => some '\n'
  | 'r' => some '\r'
  | 't' => some '\t'
  | _ => none

/-- The code units up to the closing quote and what follows it. -/
def textUnits : List Char → Option (List Nat × List Char)
  | [] => none
  | '"' :: rest => some ([], rest)
  | '\\' :: 'u' :: a :: b :: c :: d :: rest => do
    let unit := (← hexValue? a) * 4096 + (← hexValue? b) * 256 + (← hexValue? c) * 16 + (← hexValue? d)
    let (units, rest) ← textUnits rest
    return (unit :: units, rest)
  | '\\' :: e :: rest => do
    let c ← escape? e
    let (units, rest) ← textUnits rest
    return (c.toNat :: units, rest)
  | c :: rest =>
    if c.toNat < 0x20 || c = '\\' then none
    else do
      let (units, rest) ← textUnits rest
      return (c.toNat :: units, rest)

def isHigh (n : Nat) : Bool := 0xD800 ≤ n && n ≤ 0xDBFF
def isLow (n : Nat) : Bool := 0xDC00 ≤ n && n ≤ 0xDFFF

/-- The characters of the units, a surrogate pair being one; none if half of a pair stands alone. -/
def joinPairs : List Nat → Option (List Char)
  | [] => some []
  | [n] => if isHigh n || isLow n then none else some [Char.ofNat n]
  | n :: m :: rest =>
    if isHigh n then
      if isLow m then (joinPairs rest).map (Char.ofNat (0x10000 + (n - 0xD800) * 0x400 + (m - 0xDC00)) :: ·)
      else none
    else if isLow n then none
    else (joinPairs (m :: rest)).map (Char.ofNat n :: ·)

def digits (cs : List Char) : List Char × List Char :=
  cs.span Text.isDigit

/-- The digits before the point: no zero stands in front of others. -/
def wholePart? (cs : List Char) : Option (List Char × List Char) :=
  match digits cs with
  | ([], _) => none
  | ('0' :: _ :: _, _) => none
  | (ds, rest) => some (ds, rest)

def fractionPart? : List Char → Option (List Char × List Char)
  | '.' :: cs =>
    match digits cs with
    | ([], _) => none
    | (ds, rest) => some (ds, rest)
  | cs => some ([], cs)

def exponentDigits? (negative : Bool) (cs : List Char) : Option (Option (Bool × List Char) × List Char) :=
  match digits cs with
  | ([], _) => none
  | (ds, rest) => some (some (negative, ds), rest)

def exponentPart? (cs : List Char) : Option (Option (Bool × List Char) × List Char) :=
  match cs with
  | c :: rest =>
    if c = 'e' || c = 'E' then
      match rest with
      | '+' :: rest => exponentDigits? false rest
      | '-' :: rest => exponentDigits? true rest
      | _ => exponentDigits? false rest
    else some (none, cs)
  | [] => some (none, [])

def numeral? (cs : List Char) : Option (Numeral × List Char) := do
  let (negative, cs) := match cs with
    | '-' :: rest => (true, rest)
    | _ => (false, cs)
  let (whole, cs) ← wholePart? cs
  let (fraction, cs) ← fractionPart? cs
  let (exponent, cs) ← exponentPart? cs
  return ({ negative, whole, fraction, exponent }, cs)

/-- A value that is no list or record, and what follows it if it is well formed. -/
def leaf : List Char → Json × Option (List Char)
  | 'n' :: 'u' :: 'l' :: 'l' :: rest => (.null, some rest)
  | 't' :: 'r' :: 'u' :: 'e' :: rest => (.flag true, some rest)
  | 'f' :: 'a' :: 'l' :: 's' :: 'e' :: rest => (.flag false, some rest)
  | '"' :: cs =>
    match textUnits cs with
    | none => (.malformed, none)
    | some (units, rest) =>
      match joinPairs units with
      | none => (.halfPair, some rest)
      | some cs => (.text (String.ofList cs), some rest)
  | cs =>
    match numeral? cs with
    | none => (.malformed, none)
    | some (n, rest) => (.number n, some rest)

mutual

/-- A value and what follows it, with enough fuel for its nesting and length. -/
def value : Nat → List Char → Json × Option (List Char)
  | 0, _ => (.malformed, none)
  | fuel + 1, cs =>
    match skipBlank cs with
    | '[' :: rest =>
      let (items, closed, rest) := items fuel true rest
      (.list items closed, rest)
    | '\x7b' :: rest =>
      let (members, closed, rest) := members fuel true rest
      (.record members closed, rest)
    | cs => leaf cs

/-- The items up to the closing bracket, which may stand in place of the first one only. -/
def items : Nat → Bool → List Char → List Json × Bool × Option (List Char)
  | 0, _, _ => ([], false, none)
  | fuel + 1, first, cs =>
    match skipBlank cs with
    | ']' :: rest => if first then ([], true, some rest) else ([], false, none)
    | cs =>
      match value fuel cs with
      | (v, none) => ([v], false, none)
      | (v, some rest) =>
        match skipBlank rest with
        | ',' :: rest =>
          let (vs, closed, rest) := items fuel false rest
          (v :: vs, closed, rest)
        | ']' :: rest => ([v], true, some rest)
        | _ => ([v], false, none)

/-- The members up to the closing brace, which may stand in place of the first one only. -/
def members : Nat → Bool → List Char → List (Json × Json) × Bool × Option (List Char)
  | 0, _, _ => ([], false, none)
  | fuel + 1, first, cs =>
    match skipBlank cs with
    | '\x7d' :: rest => if first then ([], true, some rest) else ([], false, none)
    | cs =>
      match value fuel cs with
      | (.text name, some rest) =>
        match skipBlank rest with
        | ':' :: rest =>
          match value fuel rest with
          | (v, none) => ([(.text name, v)], false, none)
          | (v, some rest) =>
            match skipBlank rest with
            | ',' :: rest =>
              let (ms, closed, rest) := members fuel false rest
              ((.text name, v) :: ms, closed, rest)
            | '\x7d' :: rest => ([(.text name, v)], true, some rest)
            | _ => ([(.text name, v)], false, none)
        | _ => ([(.text name, .malformed)], false, none)
      | (key, _) => ([(key, .malformed)], false, none)

end

/-- The value at the beginning of a text, and whether nothing else follows it. -/
def ofText (s : String) : Json × Bool :=
  let cs := s.toList
  match value (2 * cs.length + 2) cs with
  | (j, some rest) => (j, (skipBlank rest).isEmpty)
  | (j, none) => (j, false)

end Json

end Arbiter
