import Arbiter.Document.Fault
import Arbiter.Number.Shortest
import Arbiter.Text.Integer
import Arbiter.Yaml.Node

/-!
What the text of a plain scalar means: nothing, a truth value, a number or just the text. Whole
numbers may be written in decimal, with `0x`, `0o` or `0b`, and with a sign; digits behind a leading
zero are no number.
-/

namespace Arbiter.Yaml

open Document

def isNull (s : String) : Bool :=
  s = "null" || s = "Null" || s = "NULL" || s = "~"

def flag? (s : String) : Option Bool :=
  if s = "true" || s = "True" || s = "TRUE" then some true
  else if s = "false" || s = "False" || s = "FALSE" then some false
  else none

/-- Digits of a base up to sixteen, at least one. -/
def digits? (base : Nat) (cs : List Char) : Option Nat :=
  let value (c : Char) : Nat := (hexValue? c).getD base
  if cs ≠ [] ∧ cs.all (fun c => value c < base) then some (Text.ofDigits base value cs) else none

/-- A number behind the mark of its base. -/
def basedNatural? : List Char → Option Nat
  | '0' :: 'x' :: cs => digits? 16 cs
  | '0' :: 'o' :: cs => digits? 8 cs
  | '0' :: 'b' :: cs => digits? 2 cs
  | _ => none

/-- Digits behind a zero, which are not a number. -/
def isZeroLed (cs : List Char) : Bool :=
  match cs with
  | '0' :: c :: rest => (c :: rest).all Text.isDigit
  | _ => false

def natural? (max : Nat) (cs : List Char) : Option Nat :=
  match (basedNatural? cs).filter (· ≤ max) with
  | some n => some n
  | none => if isZeroLed cs then none else (Text.natural? cs).filter (· ≤ max)

def integer? (min : Int) (max : Nat) (cs : List Char) : Option Int :=
  match cs with
  | '-' :: rest => ((natural? min.natAbs rest).map fun n => -(n : Int)).filter (min ≤ ·)
  | '+' :: rest => (natural? max rest).map fun n => n
  | _ => (natural? max cs).map fun n => n

def int64? (s : String) : Option Int :=
  integer? Int64.minValue.toInt Int64.maxValue.toInt.toNat s.toList

/-- A whole number as it is found: with more than 64 bits, it is a kind of its own. -/
def foundInteger? (s : String) : Option Found :=
  match integer? Int64.minValue.toInt Text.maxWord s.toList with
  | some n => some (.integer n)
  | none => (integer? (-Nat.pow 2 127) (Nat.pow 2 128 - 1) s.toList).map .wideInteger

/-- A decimal number: digits with a point among or around them, and perhaps an exponent. -/
def decimal? (cs : List Char) : Option (Nat × Int) := do
  let whole := cs.takeWhile Text.isDigit
  let (fraction, rest) := match cs.drop whole.length with
    | '.' :: rest => rest.span Text.isDigit
    | rest => ([], rest)
  if whole.isEmpty && fraction.isEmpty then none
  else
    let n := Text.ofDigits 10 Text.digitValue (whole ++ fraction)
    match rest with
    | [] => some (n, -fraction.length)
    | c :: rest =>
      if c = 'e' || c = 'E' then do
        let e ← match rest with
          | '+' :: rest => (Text.natural? rest).map fun n => (n : Int)
          | '-' :: rest => (Text.natural? rest).map fun n => -(n : Int)
          | _ => (Text.natural? rest).map fun n => (n : Int)
        some (n, e - fraction.length)
      else none

/-- Exponents beyond these make no difference to what a number is rounded to. -/
def clampExponent (n : Nat) (e : Int) : Int :=
  let length : Int := (Text.natDigits n).length
  max (-400 - length) (min e 400)

/-- A number that is not a whole one, rounded to the nearest floating-point number. One that is too
large for that is no number. -/
def double? (s : String) : Option Double :=
  let cs := s.toList
  let (negative, sign, unsigned) := match cs with
    | '-' :: rest => (true, true, rest)
    | '+' :: rest => (false, true, rest)
    | _ => (false, false, cs)
  let word := String.ofList unsigned
  if word = ".inf" || word = ".Inf" || word = ".INF" then some (.infinite negative)
  else if !sign && (s = ".nan" || s = ".NaN" || s = ".NAN") then some .nan
  else do
    let (n, e) ← decimal? unsigned
    let x ← Dyadic.ofDecimal n (clampExponent n e)
    return .finite negative x

def found (s : String) : Found :=
  if s.isEmpty || isNull s then .nothing
  else match flag? s with
    | some b => .flag b
    | none =>
      match foundInteger? s with
      | some n => n
      | none =>
        let digits := match s.toList with
          | '-' :: rest => rest
          | '+' :: rest => rest
          | cs => cs
        if isZeroLed digits then .text s
        else match double? s with
          | some x => .decimal x.toString
          | none => .text s

end Arbiter.Yaml
