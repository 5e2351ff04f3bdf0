import Arbiter.Json.Printer
import Arbiter.Proofs.Text.Decimal
import Mathlib.Algebra.Group.Int.Defs
import Mathlib.Data.List.TakeDrop

/-!
Texts and whole numbers are read back from what is written for them, whatever follows a text, and
whatever cannot go on with a number follows one.
-/

namespace Arbiter.Json

open Text (natDigits maxWord)

section Quoted

theorem hexValue?_digitChar : ∀ n < 16, hexValue? n.digitChar = some n := by
  decide

/-- A control character is written with two digits of base sixteen. -/
theorem hexDigits_of_lt {n : Nat} (h : n < 32) :
    (if n < 16 then ['0'] else []) ++ Text.hexDigits n =
      [(n / 16).digitChar, (n % 16).digitChar] := by
  by_cases hn : n < 16
  · have hzero : n / 16 = 0 := by omega
    have hmod : n % 16 = n := Nat.mod_eq_of_lt hn
    rw [if_pos hn, Text.hexDigits, Nat.toDigits_of_lt_base hn, hzero, hmod]
    rfl
  · have hle : 16 ≤ n := by omega
    have hdiv : n / 16 < 16 := by omega
    rw [if_neg hn, Text.hexDigits, Nat.toDigits_of_base_le (by decide) hle,
      Nat.toDigits_of_lt_base hdiv]
    rfl

/-- The units behind one that was read. -/
def withUnit (unit : Nat) (read : Option (List Nat × List Char)) : Option (List Nat × List Char) :=
  read.map fun (units, rest) => (unit :: units, rest)

theorem textUnits_letter {e c : Char} (h : escape? e = some c) (hu : e ≠ 'u') (cs : List Char) :
    textUnits ('\\' :: e :: cs) = withUnit c.toNat (textUnits cs) := by
  rw [textUnits, h]
  · cases textUnits cs <;> rfl
  · intro _ _ _ _ _ heq
    exact absurd heq hu

theorem textUnits_control {n : Nat} (h : n < 32) (cs : List Char) :
    textUnits ('\\' :: 'u' :: '0' :: '0' ::
        ((if n < 16 then ['0'] else []) ++ Text.hexDigits n ++ cs)) =
      withUnit n (textUnits cs) := by
  have hzero : hexValue? '0' = some 0 := by decide
  have hhigh := hexValue?_digitChar (n / 16) (by omega)
  have hlow := hexValue?_digitChar (n % 16) (by omega)
  have hn : n / 16 * 16 + n % 16 = n := Nat.div_add_mod' n 16
  simp only [hexDigits_of_lt h, List.cons_append, List.nil_append, textUnits, hzero, hhigh, hlow]
  cases textUnits cs <;> simp [withUnit, hn]

theorem textUnits_plain {c : Char} (hquote : c ≠ '"') (hslash : c ≠ '\\') (hctl : ¬c.toNat < 0x20)
    (cs : List Char) : textUnits (c :: cs) = withUnit c.toNat (textUnits cs) := by
  rw [textUnits]
  · simp only [hctl, hslash, decide_false, Bool.or_self, Bool.false_eq_true, if_false]
    cases textUnits cs <;> rfl
  all_goals
    intros
    simp_all

theorem textUnits_escapeChar (c : Char) (cs : List Char) :
    textUnits (escapeChar c ++ cs) = withUnit c.toNat (textUnits cs) := by
  unfold escapeChar
  split
  · next h => subst h; exact textUnits_letter rfl (by decide) cs
  split
  · next h => subst h; exact textUnits_letter rfl (by decide) cs
  split
  · next h => subst h; exact textUnits_letter rfl (by decide) cs
  split
  · next h => subst h; exact textUnits_letter rfl (by decide) cs
  split
  · next h => subst h; exact textUnits_letter rfl (by decide) cs
  split
  · next h => subst h; exact textUnits_letter rfl (by decide) cs
  split
  · next h => subst h; exact textUnits_letter rfl (by decide) cs
  split
  · next hctl => exact textUnits_control hctl cs
  · next hquote hslash _ _ _ _ _ hctl => exact textUnits_plain hquote hslash hctl cs

/-- The units of a written text are its characters, one unit for each. -/
theorem textUnits_flatMap (cs rest : List Char) :
    textUnits (cs.flatMap escapeChar ++ '"' :: rest) = some (cs.map Char.toNat, rest) := by
  induction cs with
  | nil => rfl
  | cons c cs ih =>
    rw [List.flatMap_cons, List.append_assoc, textUnits_escapeChar, ih]
    rfl

/-- A character is never one half of a surrogate pair. -/
theorem not_half (c : Char) : isHigh c.toNat = false ∧ isLow c.toNat = false := by
  have hvalid : c.toNat < 0xD800 ∨ 0xDFFF < c.toNat ∧ c.toNat < 0x110000 := c.valid
  simp only [isHigh, isLow, Bool.and_eq_false_iff, decide_eq_false_iff_not]
  omega

theorem joinPairs_toNat (cs : List Char) : joinPairs (cs.map Char.toNat) = some cs := by
  induction cs with
  | nil => rfl
  | cons c cs ih =>
    obtain ⟨hhigh, hlow⟩ := not_half c
    cases cs with
    | nil =>
      rw [List.map_cons, List.map_nil, joinPairs, hhigh, hlow, Char.ofNat_toNat]
      rfl
    | cons d ds =>
      rw [List.map_cons] at ih
      rw [List.map_cons, List.map_cons, joinPairs, hhigh, hlow, if_neg (by decide),
        if_neg (by decide), ih, Char.ofNat_toNat]
      rfl

theorem leaf_quote (s : String) (rest : List Char) :
    leaf (quote s ++ rest) = (.text s, some rest) := by
  simp only [quote, List.cons_append, List.append_assoc, List.nil_append]
  rw [leaf, textUnits_flatMap]
  simp only [joinPairs_toNat, String.ofList_toList]

end Quoted

section Whole

/-- What may stand behind a value without blanks: nothing, or something that is no part of it. -/
def Delimited (rest : List Char) : Prop :=
  ∀ c ∈ rest.head?, c ∈ [',', ']', '\x7d']

theorem delimited_nil : Delimited [] := by
  simp [Delimited]

theorem delimited_cons {c : Char} (h : c ∈ [',', ']', '\x7d']) (cs : List Char) :
    Delimited (c :: cs) := by
  simp only [Delimited, List.head?_cons, Option.mem_some_iff, forall_eq']
  exact h

theorem Delimited.cases {rest : List Char} (h : Delimited rest) :
    rest = [] ∨ ∃ c cs, rest = c :: cs ∧ c ∈ [',', ']', '\x7d'] := by
  cases rest with
  | nil => exact .inl rfl
  | cons c cs => exact .inr ⟨c, cs, rfl, h c rfl⟩

theorem forall_delimiter {p : Char → Prop} (comma : p ',') (bracket : p ']') (brace : p '\x7d') :
    ∀ c ∈ [',', ']', '\x7d'], p c :=
  List.forall_mem_cons.mpr
    ⟨comma, List.forall_mem_cons.mpr ⟨bracket, List.forall_mem_singleton.mpr brace⟩⟩

theorem digits_append {ds rest : List Char} (h : ∀ c ∈ ds, Text.isDigit c) (hrest : Delimited rest) :
    digits (ds ++ rest) = (ds, rest) := by
  have hstop : rest.takeWhile Text.isDigit = [] ∧ rest.dropWhile Text.isDigit = rest := by
    obtain rfl | ⟨c, cs, rfl, hc⟩ := hrest.cases
    · exact ⟨rfl, rfl⟩
    · have hdigit : ∀ c ∈ [',', ']', '\x7d'], Text.isDigit c = false :=
        forall_delimiter rfl rfl rfl
      simp [hdigit c hc]
  rw [digits, List.span_eq_takeWhile_dropWhile, List.takeWhile_append_of_pos h,
    List.dropWhile_append_of_pos h, hstop.1, hstop.2, List.append_nil]

theorem wholePart?_natDigits (n : Nat) {rest : List Char} (hrest : Delimited rest) :
    wholePart? (natDigits n ++ rest) = some (natDigits n, rest) := by
  rw [wholePart?, digits_append (fun _ h => Text.isDigit_of_mem_natDigits h) hrest]
  split
  · next h => exact absurd (congrArg Prod.fst h) (Text.natDigits_ne_nil n)
  · next c cs _ h =>
    have hcons : natDigits n = '0' :: c :: cs := congrArg Prod.fst h
    exact absurd (Text.natDigits_eq_zero_cons hcons) (List.cons_ne_nil _ _)
  · next ds rest' _ _ h =>
    cases h
    rfl

/-- A whole number in the form in which it is written. -/
def Numeral.ofInt (n : Int) : Numeral where
  negative := n < 0
  whole := natDigits n.natAbs

theorem intChars_of_neg {n : Int} (h : n < 0) : intChars n = '-' :: natDigits n.natAbs := by
  cases n with
  | ofNat n => exact absurd h (Int.not_lt.mpr (Int.natCast_nonneg n))
  | negSucc n => simp [intChars, Text.ofInt, Text.ofNat]

theorem intChars_of_nonneg {n : Int} (h : 0 ≤ n) : intChars n = natDigits n.natAbs := by
  cases n with
  | ofNat n => simp [intChars, Text.ofInt, Text.ofNat]
  | negSucc n => exact absurd h (Int.not_le.mpr (Int.negSucc_lt_zero n))

theorem fractionPart?_delimited {rest : List Char} (h : Delimited rest) :
    fractionPart? rest = some ([], rest) := by
  obtain rfl | ⟨c, cs, rfl, hc⟩ := h.cases
  · rfl
  · rw [fractionPart?]
    intro _ heq
    rw [(List.cons.inj heq).1] at hc
    exact absurd hc (by decide)

theorem exponentPart?_delimited {rest : List Char} (h : Delimited rest) :
    exponentPart? rest = some (none, rest) := by
  obtain rfl | ⟨c, cs, rfl, hc⟩ := h.cases
  · rfl
  · have hmark : ∀ c ∈ [',', ']', '\x7d'], (c = 'e' || c = 'E') = false :=
      forall_delimiter rfl rfl rfl
    unfold exponentPart?
    simp only [hmark c hc, Bool.false_eq_true, if_false]

theorem numeral?_intChars (n : Int) {rest : List Char} (hrest : Delimited rest) :
    numeral? (intChars n ++ rest) = some (Numeral.ofInt n, rest) := by
  by_cases h : n < 0
  · rw [intChars_of_neg h, List.cons_append]
    simp [numeral?, wholePart?_natDigits _ hrest, fractionPart?_delimited hrest,
      exponentPart?_delimited hrest, Numeral.ofInt, h]
  · have hpos : 0 ≤ n := by omega
    rw [intChars_of_nonneg hpos, numeral?]
    · simp [wholePart?_natDigits _ hrest, fractionPart?_delimited hrest,
        exponentPart?_delimited hrest, Numeral.ofInt, h]
    · intro cs hcs
      obtain ⟨c, ds, hds, hc⟩ := Text.natDigits_eq_cons n.natAbs
      rw [hds, List.cons_append, List.cons.injEq] at hcs
      rw [hcs.1] at hc
      exact absurd hc (by decide)

/-- Digits are taken in as long as the number that they make up is small enough. -/
theorem takeDigits_eq {ds : List Char} {n : Nat} (h : Nat.ofDigitChars 10 ds n ≤ maxWord) :
    takeDigits n ds = (Nat.ofDigitChars 10 ds n, ds.length) := by
  induction ds generalizing n with
  | nil => rfl
  | cons c cs ih =>
    have hnext : Nat.ofDigitChars 10 (c :: cs) n =
        Nat.ofDigitChars 10 cs (n * 10 + Text.digitValue c) := by
      rw [Nat.ofDigitChars_cons, Nat.mul_comm]
      rfl
    rw [hnext] at h ⊢
    have hle : n * 10 + Text.digitValue c ≤ maxWord := Nat.le_trans (Text.le_ofDigitChars _ cs) h
    simp only [takeDigits, hle, if_true, ih h, List.length_cons]

theorem takeDigits_natDigits {n : Nat} (h : n ≤ maxWord) :
    takeDigits 0 (natDigits n) = (n, (natDigits n).length) := by
  have hn := Text.ofDigitChars_natDigits n
  rw [takeDigits_eq (hn.symm ▸ h), hn]

/-- The whole numbers of 64 bits, with a sign or without. -/
theorem Numeral.value_ofInt {n : Int} (hmin : -2 ^ 63 ≤ n) (hmax : n ≤ maxWord) :
    (Numeral.ofInt n).value = some (.integer n) := by
  have hmaxWord : maxWord = 2 ^ 64 - 1 := rfl
  have hword : n.natAbs ≤ maxWord := by omega
  have hsign : (!decide (n < 0) ||
      decide (n.natAbs ≠ 0) && decide (n.natAbs ≤ Nat.pow 2 63)) = true := by
    simp only [Bool.or_eq_true, Bool.not_eq_true', decide_eq_false_iff_not, Bool.and_eq_true,
      decide_eq_true_eq]
    change ¬n < 0 ∨ n.natAbs ≠ 0 ∧ n.natAbs ≤ 2 ^ 63
    omega
  simp only [Numeral.value, Numeral.ofInt, takeDigits_natDigits hword, hsign, and_self, if_true,
    decide_eq_true_eq]
  congr 2
  split <;> omega

end Whole

end Arbiter.Json
