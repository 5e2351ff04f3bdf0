/-!
Spans of time, exact to the nanosecond, and instants as spans since the clock was started.
Timers fire on whole milliseconds: a timer for a moment in between fires at the next one.
-/

namespace Arbiter

structure Duration where
  nanos : Nat
  deriving DecidableEq, Inhabited, Repr

namespace Duration

def zero : Duration := ⟨0⟩

def ofMillis (ms : Nat) : Duration := ⟨ms * 1000000⟩

def ofSecs (secs nanos : Nat) : Duration := ⟨secs * 1000000000 + nanos⟩

def secs (d : Duration) : Nat := d.nanos / 1000000000

def subsecNanos (d : Duration) : Nat := d.nanos % 1000000000

/-- Whole milliseconds, what is left over dropped. -/
def millis (d : Duration) : Nat := d.nanos / 1000000

def add (a b : Duration) : Duration := ⟨a.nanos + b.nanos⟩

/-- The difference, and nothing when the second is longer. -/
def sub (a b : Duration) : Duration := ⟨a.nanos - b.nanos⟩

instance : Add Duration := ⟨add⟩
instance : Sub Duration := ⟨sub⟩
instance : LE Duration := ⟨fun a b => a.nanos ≤ b.nanos⟩
instance : LT Duration := ⟨fun a b => a.nanos < b.nanos⟩
instance (a b : Duration) : Decidable (a ≤ b) := inferInstanceAs (Decidable (a.nanos ≤ b.nanos))
instance (a b : Duration) : Decidable (a < b) := inferInstanceAs (Decidable (a.nanos < b.nanos))
instance : Min Duration := ⟨fun a b => if a ≤ b then a else b⟩

/-- The first whole millisecond that is not earlier. -/
def ceilMillis (d : Duration) : Duration := ofMillis ((d.nanos + 999999) / 1000000)

/-- Milliseconds in 64 bits with a sign, as they are sent to the discovery service: what does not
fit becomes the largest such number. -/
def clampedMillis (d : Duration) : Int64 :=
  if d.millis ≤ Int64.maxValue.toInt.toNat then Int64.ofNat d.millis else Int64.maxValue

end Duration

/-- A point on the clock: the time since it was started. -/
abbrev Instant := Duration

end Arbiter
