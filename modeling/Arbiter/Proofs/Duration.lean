import Arbiter.Duration
import Mathlib.Order.Defs.LinearOrder
import Mathlib.Tactic.SplitIfs

/-!
Durations compare and add as their nanoseconds do, whole milliseconds as their numbers do, and
rounding to milliseconds goes up.
-/

namespace Arbiter.Duration

variable {a b : Duration}

theorem le_iff : a ≤ b ↔ a.nanos ≤ b.nanos := Iff.rfl

theorem lt_iff : a < b ↔ a.nanos < b.nanos := Iff.rfl

@[simp] theorem nanos_add (a b : Duration) : (a + b).nanos = a.nanos + b.nanos := rfl

@[simp] theorem nanos_sub (a b : Duration) : (a - b).nanos = a.nanos - b.nanos := rfl

@[simp] theorem nanos_ceilMillis (a : Duration) :
    a.ceilMillis.nanos = (a.nanos + 999999) / 1000000 * 1000000 := rfl

theorem eq_iff : a = b ↔ a.nanos = b.nanos := by
  cases a
  cases b
  simp

instance : LinearOrder Duration where
  le_refl _ := Nat.le_refl _
  le_trans _ _ _ := Nat.le_trans
  lt_iff_le_not_ge _ _ := Nat.lt_iff_le_and_not_ge
  le_antisymm _ _ h h' := eq_iff.mpr (Nat.le_antisymm h h')
  le_total _ _ := Nat.le_total _ _
  toDecidableLE := inferInstance

@[simp] theorem nanos_ofMillis (ms : Nat) : (ofMillis ms).nanos = ms * 1000000 := rfl

/-- A number of milliseconds with nothing left over. -/
def IsWhole (a : Duration) : Prop := a.ceilMillis = a

theorem isWhole_iff : a.IsWhole ↔ 1000000 ∣ a.nanos := by
  rw [IsWhole, eq_iff, nanos_ceilMillis]
  omega

theorem isWhole_ceilMillis (a : Duration) : a.ceilMillis.IsWhole := by
  rw [isWhole_iff, nanos_ceilMillis]
  exact Nat.dvd_mul_left _ _

theorem isWhole_ofMillis (ms : Nat) : (ofMillis ms).IsWhole := by
  rw [isWhole_iff, nanos_ofMillis]
  exact Nat.dvd_mul_left _ _

theorem le_ceilMillis (a : Duration) : a ≤ a.ceilMillis := by
  rw [le_iff, nanos_ceilMillis]
  omega

theorem ceilMillis_mono (h : a ≤ b) : a.ceilMillis ≤ b.ceilMillis := by
  rw [le_iff] at *
  simp only [nanos_ceilMillis]
  omega

theorem ceilMillis_le (h : a ≤ b) (hb : b.IsWhole) : a.ceilMillis ≤ b :=
  hb ▸ ceilMillis_mono h

theorem le_add (a b : Duration) : a ≤ a + b := Nat.le_add_right _ _

theorem sub_le_sub (h : a ≤ b) (c : Duration) : a - c ≤ b - c := Nat.sub_le_sub_right h c.nanos

theorem lt_sub_of_add_lt {c : Duration} (h : a + b < c) : b < c - a := by
  rw [lt_iff, nanos_add] at h
  rw [lt_iff, nanos_sub]
  omega

theorem IsWhole.add (ha : a.IsWhole) (hb : b.IsWhole) : (a + b).IsWhole := by
  rw [isWhole_iff] at *
  exact Nat.dvd_add ha hb

theorem add_ofMillis (d : Duration) (a b : Nat) :
    d + ofMillis a + ofMillis b = d + ofMillis (a + b) := by
  rw [eq_iff]
  simp only [nanos_add, nanos_ofMillis]
  omega

theorem add_ofMillis_lt_iff {d : Duration} {a b : Nat} :
    d + ofMillis a < d + ofMillis b ↔ a < b := by
  rw [lt_iff]
  simp only [nanos_add, nanos_ofMillis]
  omega

theorem add_ofMillis_le_add_ofMillis {d : Duration} {a b : Nat} (h : a ≤ b) :
    d + ofMillis a ≤ d + ofMillis b := by
  rw [le_iff]
  simp only [nanos_add, nanos_ofMillis]
  omega

theorem add_ofMillis_sub (d : Duration) (a b : Nat) :
    d + ofMillis b - (d + ofMillis a) = ofMillis (b - a) := by
  rw [eq_iff]
  simp only [nanos_add, nanos_sub, nanos_ofMillis]
  omega

theorem ofMillis_lt_iff {a b : Nat} : ofMillis a < ofMillis b ↔ a < b := by
  rw [lt_iff]
  simp only [nanos_ofMillis]
  omega

theorem clampedMillis_ofMillis (ms : Nat) :
    (ofMillis ms).clampedMillis = .ofNat (min ms Int64.maxValue.toInt.toNat) := by
  have hmillis : (ofMillis ms).millis = ms := Nat.mul_div_cancel ms (by decide)
  rw [clampedMillis, hmillis]
  split_ifs with h
  · rw [Nat.min_eq_left h]
  · rw [Nat.min_eq_right (Nat.le_of_not_le h)]
    rfl

end Arbiter.Duration
