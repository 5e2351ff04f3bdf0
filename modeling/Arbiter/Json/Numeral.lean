import Arbiter.Number.Shortest
import Arbiter.Text.Integer

/-!
Numbers as they are written in JSON, and what they stand for. Whole numbers of 64 bits are exact;
every other number is a floating-point number, as is a zero with a minus sign.
-/

namespace Arbiter.Json

/-- A number in the form in which it was written. -/
structure Numeral where
  negative : Bool
  whole : List Char
  /-- The digits behind the point, none without a point. -/
  fraction : List Char := []
  /-- The exponent: whether it is negative, and its digits. -/
  exponent : Option (Bool × List Char) := none
  deriving DecidableEq, Repr

inductive Number where
  | integer (n : Int)
  | double (x : Double)
  deriving DecidableEq, Repr

/-- Takes digits in as long as the number fits into 64 bits. Gives the number and how many digits
were taken. -/
def takeDigits : Nat → List Char → Nat × Nat
  | n, [] => (n, 0)
  | n, c :: cs =>
    let next := n * 10 + Text.digitValue c
    if next ≤ Text.maxWord then
      let (m, count) := takeDigits next cs
      (m, count + 1)
    else (n, 0)

namespace Numeral

/-- The sum of a position and a written exponent, within 32 bits. -/
def shift (start : Int) (negative : Bool) (digits : List Char) : Int :=
  let e : Int := Text.ofDigits 10 Text.digitValue digits
  max Int32.minValue.toInt (min Int32.maxValue.toInt (if negative then start - e else start + e))

/-- Powers of ten up to this one are used as a factor. -/
def largestPower : Nat := 308

/-- `x · 10 ^ e`, the power being rounded and then the product or quotient. None if it is too large.
-/
def scaleBy (x : Dyadic) (e : Int) : Option Dyadic :=
  let power (k : Nat) : Option Dyadic := Dyadic.ofDecimal 1 k
  if 0 ≤ e then
    if e.toNat ≤ largestPower then (power e.toNat).bind x.mul
    else if x.significand = 0 then some x else none
  else down x (-e).toNat 3
where
  /-- Divides in several steps where one is not enough; after three nothing is left. -/
  down (x : Dyadic) (k : Nat) : Nat → Option Dyadic
    | 0 => some .zero
    | n + 1 =>
      if k ≤ largestPower then (Dyadic.ofDecimal 1 k).bind x.div
      else if x.significand = 0 then some x
      else do
        let power ← Dyadic.ofDecimal 1 largestPower
        down (← x.div power) (k - largestPower) n

/-- The number that is denoted, none if it is beyond the largest floating-point number. -/
def value (n : Numeral) : Option Number :=
  let (head, count) := takeDigits 0 n.whole
  if n.fraction = [] ∧ n.exponent = none ∧ count = n.whole.length ∧
      (!n.negative || head ≠ 0 && head ≤ Nat.pow 2 63) then
    some (.integer (if n.negative then -(head : Int) else head))
  else
    let (significand, taken) := takeDigits head n.fraction
    let start : Int := (n.whole.length - count : Nat) - taken
    let magnitude : Option Dyadic := match n.exponent with
      | none => (Dyadic.ofNat significand).bind (scaleBy · start)
      | some (negative, digits) =>
        if Int32.maxValue.toInt < Text.ofDigits 10 Text.digitValue digits then
          if significand = 0 || negative then some .zero else none
        else (Dyadic.ofNat significand).bind (scaleBy · (shift start negative digits))
    magnitude.map fun x => .double (.finite n.negative x)

end Numeral

/-- How a floating-point number is shown: with an exponent only where it would need more than sixteen
digits before the point or more than four zeros behind it. -/
def showDouble : Double → String
  | .finite negative x =>
    let sign := if negative then "-" else ""
    if x.significand = 0 then sign ++ "0.0"
    else
      let d := x.shortest
      if -5 < d.point && d.point ≤ 16 then (Double.finite negative x).toString
      else
        let e := d.point - 1
        sign ++ String.ofList (mantissa d.digits) ++ "e" ++ (if e < 0 then "-" else "+") ++
          Text.ofNat e.natAbs
  | x => x.toString
where
  mantissa : List Char → List Char
    | [] => []
    | [c] => [c]
    | c :: cs => c :: '.' :: cs

end Arbiter.Json
