/-!
Binary floating-point numbers of 64 bits, as exact multiples of powers of two. Every operation
rounds its exact result to the nearest such number, a half to the even neighbour.
-/

namespace Arbiter

/-- A finite number that is not negative: `significand · 2 ^ exponent`. -/
structure Dyadic where
  significand : Nat
  exponent : Int
  deriving DecidableEq, Repr

/-- The nearest whole number to `num / den`, the even one of two that are equally near. -/
def roundEven (num den : Nat) : Nat :=
  let q := num / den
  let twice := 2 * (num % den)
  if twice < den then q
  else if den < twice then q + 1
  else q + q % 2

namespace Dyadic

/-- The smallest exponent of a number of 64 bits. -/
def minExponent : Int := -1074

/-- The largest one. -/
def maxExponent : Int := 971

/-- Significands are below this. -/
def limit : Nat := Nat.pow 2 53

def zero : Dyadic := ⟨0, minExponent⟩

/-- Numerator and denominator of `num / den / 2 ^ e`. -/
def scaled (num den : Nat) (e : Int) : Nat × Nat :=
  (num * Nat.pow 2 (-e).toNat, den * Nat.pow 2 e.toNat)

/-- The exponent at which `num / den` has a significand of full length, or the smallest one. -/
def exponentFor (num den : Nat) : Int :=
  let low := (Nat.log2 num : Int) - Nat.log2 den - 53
  let (n, d) := scaled num den low
  max (if n / d < limit then low else low + 1) minExponent

/-- The nearest number of 64 bits; none when it is too large for a finite one. -/
def ofRatio (num den : Nat) : Option Dyadic :=
  if num = 0 then some zero
  else
    let e := exponentFor num den
    let (n, d) := scaled num den e
    let m := roundEven n d
    let (m, e) := if m = limit then (m / 2, e + 1) else (m, e)
    if e ≤ maxExponent then some ⟨m, e⟩ else none

def ofNat (n : Nat) : Option Dyadic :=
  ofRatio n 1

def num (x : Dyadic) : Nat := x.significand * Nat.pow 2 x.exponent.toNat

def den (x : Dyadic) : Nat := Nat.pow 2 (-x.exponent).toNat

def mul (x y : Dyadic) : Option Dyadic :=
  ofRatio (x.num * y.num) (x.den * y.den)

def div (x y : Dyadic) : Option Dyadic :=
  ofRatio (x.num * y.den) (x.den * y.num)

/-- The number nearest to a decimal `n · 10 ^ e`. -/
def ofDecimal (n : Nat) (e : Int) : Option Dyadic :=
  ofRatio (n * Nat.pow 10 e.toNat) (Nat.pow 10 (-e).toNat)

end Dyadic

/-- A number of 64 bits, with a sign of its own. -/
inductive Double where
  | finite (negative : Bool) (magnitude : Dyadic)
  | infinite (negative : Bool)
  | nan
  deriving DecidableEq, Repr

end Arbiter
