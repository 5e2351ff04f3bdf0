import Arbiter.Proofs.Text.Decimal
import Arbiter.Text.Blank

/-!
The texts that are read as a whole number: digits with a sign in front or without one, however many
zeros there are among them.
-/

namespace Arbiter.Text

variable {cs : List Char} {n max : Nat}

/-- One or more of the digits `0` to `9`, which denote a number in decimal. -/
structure Denotes (digits : List Char) (n : Nat) : Prop where
  nonempty : digits ≠ []
  isDigit : ∀ c ∈ digits, c.isDigit
  value : Nat.ofDigitChars 10 digits 0 = n

/-- Digits that may have a plus sign in front of them. -/
inductive IsUnsigned : List Char → Nat → Prop
  | plain {digits : List Char} {n : Nat} (h : Denotes digits n) : IsUnsigned digits n
  | plus {digits : List Char} {n : Nat} (h : Denotes digits n) : IsUnsigned ('+' :: digits) n

theorem isDigit_eq (c : Char) : isDigit c = c.isDigit := by
  rw [Bool.eq_iff_iff, isDigit_iff, Char.isDigit, Bool.and_eq_true, decide_eq_true_iff,
    decide_eq_true_iff]
  rfl

theorem ofDigits_eq_ofDigitChars (cs : List Char) :
    ofDigits 10 digitValue cs = Nat.ofDigitChars 10 cs 0 := by
  unfold ofDigits Nat.ofDigitChars
  simp only [Nat.mul_comm, digitValue]

theorem natural?_eq_some_iff : natural? cs = some n ↔ Denotes cs n := by
  unfold natural?
  rw [Option.ite_none_right_eq_some, Option.some.injEq, ofDigits_eq_ofDigitChars, List.all_eq_true]
  simp only [isDigit_eq]
  exact ⟨fun ⟨⟨hne, hdigits⟩, hvalue⟩ => ⟨hne, hdigits, hvalue⟩,
    fun h => ⟨⟨h.nonempty, h.isDigit⟩, h.value⟩⟩

theorem unsigned?_eq_some_iff : unsigned? max cs = some n ↔ IsUnsigned cs n ∧ n ≤ max := by
  unfold unsigned?
  rw [Option.filter_eq_some_iff, decide_eq_true_iff]
  refine and_congr_left fun _ => ?_
  split
  case h_1 rest =>
    rw [natural?_eq_some_iff]
    refine ⟨.plus, fun h => ?_⟩
    cases h with
    | plus h => exact h
    | plain h => exact absurd (h.isDigit '+' List.mem_cons_self) (by decide)
  case h_2 hplus =>
    rw [natural?_eq_some_iff]
    refine ⟨.plain, fun h => ?_⟩
    cases h with
    | plain h => exact h
    | plus h => exact absurd rfl (hplus _)

/-- Digits that may have a sign in front of them. -/
inductive IsSigned : List Char → Int → Prop
  | plain {digits : List Char} {n : Nat} (h : Denotes digits n) : IsSigned digits n
  | plus {digits : List Char} {n : Nat} (h : Denotes digits n) : IsSigned ('+' :: digits) n
  | minus {digits : List Char} {n : Nat} (h : Denotes digits n) : IsSigned ('-' :: digits) (-n)

theorem denotes_natDigits (n : Nat) : Denotes (natDigits n) n where
  nonempty := natDigits_ne_nil n
  isDigit _ h := isDigit_eq _ ▸ isDigit_of_mem_natDigits h
  value := ofDigitChars_natDigits n

theorem isSigned_ofInt (n : Int) : IsSigned (ofInt n).toList n := by
  cases n with
  | ofNat n =>
    rw [toList_ofInt_ofNat]
    exact .plain (denotes_natDigits n)
  | negSucc n =>
    rw [toList_ofInt_negSucc, Int.negSucc_eq]
    exact .minus (denotes_natDigits (n + 1))

theorem map_natural?_eq_some_iff {f : Int → Int} {m : Int} :
    (do let n ← natural? cs; pure (n : Int)).map f = some m ↔ ∃ n : Nat, Denotes cs n ∧ f n = m := by
  simp only [Option.map_eq_some_iff, Option.bind_eq_bind, Option.bind_eq_some_iff,
    natural?_eq_some_iff, Option.pure_def, Option.some.injEq]
  constructor
  · rintro ⟨_, ⟨n, h, rfl⟩, hm⟩
    exact ⟨n, h, hm⟩
  · rintro ⟨n, h, hm⟩
    exact ⟨n, ⟨n, h, rfl⟩, hm⟩

theorem signed?_eq_some_iff {min max m : Int} :
    signed? min max cs = some m ↔ IsSigned cs m ∧ min ≤ m ∧ m ≤ max := by
  unfold signed?
  rw [Option.filter_eq_some_iff, decide_eq_true_iff]
  refine and_congr_left fun _ => ?_
  split
  case h_1 rest =>
    rw [map_natural?_eq_some_iff]
    refine ⟨fun ⟨n, h, heq⟩ => heq ▸ .plus h, fun h => ?_⟩
    cases h with
    | plus h => exact ⟨_, h, rfl⟩
    | plain h => exact absurd (h.isDigit '+' List.mem_cons_self) (by decide)
  case h_2 rest =>
    rw [map_natural?_eq_some_iff]
    refine ⟨fun ⟨n, h, heq⟩ => heq ▸ .minus h, fun h => ?_⟩
    cases h with
    | minus h => exact ⟨_, h, rfl⟩
    | plain h => exact absurd (h.isDigit '-' List.mem_cons_self) (by decide)
  case h_3 hplus hminus =>
    rw [map_natural?_eq_some_iff]
    refine ⟨fun ⟨n, h, heq⟩ => heq ▸ .plain h, fun h => ?_⟩
    cases h with
    | plain h => exact ⟨_, h, rfl⟩
    | plus h => exact absurd rfl (hplus _)
    | minus h => exact absurd rfl (hminus _)

theorem int32?_eq_some_iff {x : Int32} : int32? cs = some x ↔ IsSigned cs x.toInt := by
  unfold int32?
  rw [Option.map_eq_some_iff]
  simp only [signed?_eq_some_iff]
  constructor
  · rintro ⟨m, ⟨h, hmin, hmax⟩, rfl⟩
    rwa [Int32.toInt_ofInt_of_le hmin (Int.lt_add_one_of_le hmax)]
  · intro h
    exact ⟨x.toInt, ⟨h, x.minValue_le_toInt, x.toInt_le⟩, x.ofInt_toInt⟩

theorem isBlank_of_isDigit {c : Char} (h : c.isDigit) : isBlank c = false := by
  rw [← isDigit_eq, isDigit_iff] at h
  obtain ⟨hmin, hmax⟩ := h
  have hzero : '0'.toNat = 48 := rfl
  have hnine : '9'.toNat = 57 := rfl
  simp [isBlank, blankRuns]
  omega

theorem IsSigned.isDigit_or_sign {m : Int} (h : IsSigned cs m) {c : Char} (hc : c ∈ cs) :
    c.isDigit ∨ c = '+' ∨ c = '-' := by
  cases h with
  | plain h => exact .inl (h.isDigit c hc)
  | plus h =>
    rcases List.mem_cons.mp hc with rfl | hc
    · exact .inr (.inl rfl)
    · exact .inl (h.isDigit c hc)
  | minus h =>
    rcases List.mem_cons.mp hc with rfl | hc
    · exact .inr (.inr rfl)
    · exact .inl (h.isDigit c hc)

theorem IsSigned.not_blank {m : Int} (h : IsSigned cs m) : ∀ c ∈ cs, isBlank c = false := by
  intro c hc
  rcases h.isDigit_or_sign hc with hc | rfl | rfl
  · exact isBlank_of_isDigit hc
  · decide
  · decide

end Arbiter.Text
