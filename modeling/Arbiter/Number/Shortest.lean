import Arbiter.Number.Double
import Arbiter.Text.Integer

/-!
The shortest decimal text of a floating-point number: the fewest digits that are read back as the
same number, and of those the nearest to it. It is written without an exponent.
-/

namespace Arbiter

/-- Digits `d₁ … dₙ` and a position `p`, for the number `0.d₁…dₙ · 10 ^ p`. -/
structure Decimal where
  digits : List Char
  point : Int
  deriving DecidableEq, Repr

namespace Dyadic

/-- The numbers strictly between these two bounds, in quarters of a unit of the last place, round to
`x`. The lower bound is nearer where the spacing below is half of that above. -/
def bounds (x : Dyadic) : Nat × Nat :=
  let low := if x.significand = limit / 2 ∧ minExponent < x.exponent then 1 else 2
  (4 * x.significand - low, 4 * x.significand + 2)

/-- Whether `n / d` rounds to `x`, a bound itself if the significand is even. -/
def covers (x : Dyadic) (n d : Nat) : Bool :=
  let (low, high) := x.bounds
  let (scaledNum, scaledDen) := scaled n d (x.exponent - 2)
  let even := x.significand % 2 == 0
  (low * scaledDen < scaledNum || even && low * scaledDen == scaledNum) &&
    (scaledNum < high * scaledDen || even && scaledNum == high * scaledDen)

/-- How many decimal digits stand before the point; fewer than none for zeros behind it. -/
def pointOf (x : Dyadic) : Int :=
  let whole := x.num / x.den
  if whole ≠ 0 then (Text.natDigits whole).length
  else
    let above := (x.den + x.num - 1) / x.num - 1
    1 - (if above = 0 then 0 else (Text.natDigits above).length : Nat)

/-- The nearest number with the given count of digits that rounds to `x`, if one does. -/
def nearestWith (x : Dyadic) (count : Nat) : Option Nat :=
  let shift := x.pointOf - count
  let up := Nat.pow 10 shift.toNat
  let down := Nat.pow 10 (-shift).toNat
  let below := x.num * down / (x.den * up)
  let hits (n : Nat) : Bool := x.covers (n * up) down
  let distance (n : Nat) : Nat :=
    let a := n * up * x.den
    let b := x.num * down
    if a ≤ b then b - a else a - b
  match hits below, hits (below + 1) with
  | true, true => some (if distance (below + 1) < distance below then below + 1 else below)
  | true, false => some below
  | false, true => some (below + 1)
  | false, false => none

/-- The shortest digits of a number that is not zero. Seventeen are always enough. -/
def shortest (x : Dyadic) : Decimal :=
  let found := (List.range 17).findSome? fun i => (x.nearestWith (i + 1)).map fun n => (i + 1, n)
  let (count, n) := found.getD (17, 0)
  let digits := Text.natDigits n
  -- rounding up can add a digit
  { digits := digits.reverse.dropWhile (· = '0') |>.reverse
    point := x.pointOf + (digits.length - count : Nat) }

/-- Without an exponent, and with a point only where a fraction follows. -/
def plain (d : Decimal) : List Char :=
  let n := d.digits.length
  if d.point ≤ 0 then '0' :: '.' :: List.replicate (-d.point).toNat '0' ++ d.digits
  else if n ≤ d.point.toNat then d.digits ++ List.replicate (d.point.toNat - n) '0'
  else d.digits.take d.point.toNat ++ '.' :: d.digits.drop d.point.toNat

def text (x : Dyadic) : List Char :=
  if x.significand = 0 then ['0'] else plain x.shortest

end Dyadic

namespace Double

/-- The text of a number as it stands in messages: a finite one always has a point. -/
protected def toString : Double → String
  | finite negative x =>
    let cs := x.text
    String.ofList ((if negative then ['-'] else []) ++ cs ++
      (if '.' ∈ cs then [] else ['.', '0']))
  | infinite negative => if negative then "-inf" else "inf"
  | nan => "NaN"

instance : ToString Double := ⟨Double.toString⟩

end Double

end Arbiter
