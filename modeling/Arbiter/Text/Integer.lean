/-!
Whole numbers written in decimal: the digits `0` to `9` of ASCII with an optional sign in front,
read into a given range. Leading zeros are allowed.
-/

namespace Arbiter.Text

def isDigit (c : Char) : Bool :=
  '0' ≤ c && c ≤ '9'

def digitValue (c : Char) : Nat :=
  c.toNat - '0'.toNat

/-- The number that the digits denote in the given base. -/
def ofDigits (base : Nat) (value : Char → Nat) (cs : List Char) : Nat :=
  cs.foldl (fun n c => n * base + value c) 0

/-- One or more decimal digits and nothing else. -/
def natural? (cs : List Char) : Option Nat :=
  if cs ≠ [] ∧ cs.all isDigit then some (ofDigits 10 digitValue cs) else none

/-- An optional `+` and digits that denote at most `max`. -/
def unsigned? (max : Nat) (cs : List Char) : Option Nat :=
  let digits := match cs with
    | '+' :: rest => rest
    | _ => cs
  (natural? digits).filter (· ≤ max)

/-- An optional `+` or `-` and digits, with a value from `min` to `max`. -/
def signed? (min max : Int) (cs : List Char) : Option Int :=
  let value : Option Int := match cs with
    | '+' :: rest => (natural? rest).map fun n => (n : Int)
    | '-' :: rest => (natural? rest).map fun n => -(n : Int)
    | _ => (natural? cs).map fun n => (n : Int)
  value.filter fun n => decide (min ≤ n ∧ n ≤ max)

def int32? (cs : List Char) : Option Int32 :=
  (signed? Int32.minValue.toInt Int32.maxValue.toInt cs).map Int32.ofInt

/-- The largest number of milliseconds, and of anything else, that 64 bits hold. -/
def maxWord : Nat := Nat.pow 2 64 - 1

def word? (cs : List Char) : Option Nat :=
  unsigned? maxWord cs

def natDigits (n : Nat) : List Char :=
  Nat.toDigits 10 n

def ofNat (n : Nat) : String :=
  String.ofList (natDigits n)

def ofInt : Int → String
  | .ofNat n => ofNat n
  | .negSucc n => "-" ++ ofNat (n + 1)

end Arbiter.Text
