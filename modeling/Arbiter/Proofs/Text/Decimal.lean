import Arbiter.Text.Integer
import Mathlib.Data.List.Basic

/-!
The decimal digits of a number: at least one, none but digits, no zero in front of others, and the
number is read back from them.
-/

namespace Arbiter.Text

theorem isDigit_iff {c : Char} : isDigit c ↔ '0'.toNat ≤ c.toNat ∧ c.toNat ≤ '9'.toNat := by
  rw [isDigit, Bool.and_eq_true, decide_eq_true_iff, decide_eq_true_iff]
  rfl

theorem natDigits_ne_nil (n : Nat) : natDigits n ≠ [] :=
  Nat.toDigits_ne_nil

theorem natDigits_of_lt {n : Nat} (h : n < 10) : natDigits n = [n.digitChar] :=
  Nat.toDigits_of_lt_base h

theorem natDigits_of_le {n : Nat} (h : 10 ≤ n) :
    natDigits n = natDigits (n / 10) ++ [(n % 10).digitChar] := by
  rw [natDigits, Nat.toDigits_of_base_le (by decide) h]
  rfl

theorem isDigit_of_mem_natDigits {n : Nat} {c : Char} (h : c ∈ natDigits n) : isDigit c := by
  have hd : c.isDigit := Nat.isDigit_of_mem_toDigits (by decide) (by decide) h
  rw [Char.isDigit, Bool.and_eq_true, decide_eq_true_iff, decide_eq_true_iff] at hd
  exact isDigit_iff.mpr hd

theorem natDigits_eq_cons (n : Nat) : ∃ c cs, natDigits n = c :: cs ∧ isDigit c := by
  obtain ⟨c, cs, h⟩ := List.exists_cons_of_ne_nil (natDigits_ne_nil n)
  exact ⟨c, cs, h, isDigit_of_mem_natDigits (h ▸ List.mem_cons_self)⟩

theorem head?_natDigits_ne_zero {n : Nat} (h : 0 < n) : (natDigits n).head? ≠ some '0' := by
  induction n using Nat.strongRecOn with
  | ind n ih =>
    by_cases hn : n < 10
    · rw [natDigits_of_lt hn, List.head?_cons, ne_eq, Option.some.injEq, Nat.digitChar_eq_zero]
      omega
    · have hle : 10 ≤ n := by omega
      rw [natDigits_of_le hle, List.head?_append_of_ne_nil _ (natDigits_ne_nil _)]
      exact ih (n / 10) (by omega) (by omega)

/-- Only the number zero is written with a zero in front. -/
theorem natDigits_eq_zero_cons {n : Nat} {ds : List Char} (h : natDigits n = '0' :: ds) : ds = [] := by
  cases n with
  | zero =>
    rw [natDigits_of_lt (by decide), List.cons.injEq] at h
    exact h.2.symm
  | succ n => exact absurd (by rw [h, List.head?_cons]) (head?_natDigits_ne_zero (Nat.succ_pos n))

theorem le_ofDigitChars (n : Nat) (cs : List Char) : n ≤ Nat.ofDigitChars 10 cs n := by
  rw [Nat.ofDigitChars_eq_ofDigitChars_zero]
  have hpos : 0 < 10 ^ cs.length := Nat.pow_pos (by decide)
  have hle : n ≤ 10 ^ cs.length * n := Nat.le_mul_of_pos_left n hpos
  omega

theorem ofDigitChars_natDigits (n : Nat) : Nat.ofDigitChars 10 (natDigits n) 0 = n :=
  Nat.ofDigitChars_ten_toDigits

theorem toList_ofInt_ofNat (n : Nat) : (ofInt (.ofNat n)).toList = natDigits n :=
  String.toList_ofList

theorem toList_ofInt_negSucc (n : Nat) : (ofInt (.negSucc n)).toList = '-' :: natDigits (n + 1) := by
  simp [ofInt, ofNat]

end Arbiter.Text
