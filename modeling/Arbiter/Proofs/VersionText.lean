import Arbiter.Proofs.Text.Pieces
import Arbiter.Proofs.Text.Trimming
import Arbiter.Proofs.Text.WholeNumber
import Arbiter.Version

/-!
The texts that are read as a version, and what is said of the others. The text of a version is one
of them.
-/

namespace Arbiter.Version

open Text (IsSigned Trims)

/-- A whole number that 32 bits hold, with a sign or without one. -/
def IsPart (cs : List Char) (n : Int32) : Prop :=
  IsSigned cs n.toInt

/-- What is read of a text. The blanks at its ends do not count, and the point that does is the
first. -/
inductive Reads (s : String) : Except TextFault Version → Prop
  | noPoint {cs : List Char} (h : Trims s.toList cs) (hpoint : '.' ∉ cs) :
    Reads s (.error .noPoint)
  | badMajor {major minor : List Char} (h : Trims s.toList (major ++ '.' :: minor))
    (hpoint : '.' ∉ major) (hmajor : ∀ n, ¬ IsPart major n) : Reads s (.error .badMajor)
  | badMinor {major minor : List Char} {n : Int32} (h : Trims s.toList (major ++ '.' :: minor))
    (hmajor : IsPart major n) (hminor : ∀ n, ¬ IsPart minor n) : Reads s (.error .badMinor)
  | ok {major minor : List Char} {v : Version} (h : Trims s.toList (major ++ '.' :: minor))
    (hmajor : IsPart major v.major) (hminor : IsPart minor v.minor) : Reads s (.ok v)

variable {s : String} {r : Except TextFault Version} {cs major minor : List Char} {n : Int32}

theorem int32?_eq_none_iff : Text.int32? cs = none ↔ ∀ n, ¬ IsPart cs n := by
  rw [Option.eq_none_iff_forall_ne_some]
  exact forall_congr' fun n => not_congr Text.int32?_eq_some_iff

theorem IsPart.no_point (h : IsPart cs n) : '.' ∉ cs := fun hmem =>
  absurd (IsSigned.isDigit_or_sign h hmem) (by decide)

theorem ofText_of_trims (h : Trims s.toList (major ++ '.' :: minor)) (hpoint : '.' ∉ major) :
    ofText s =
      match Text.int32? major with
      | none => .error .badMajor
      | some a =>
        match Text.int32? minor with
        | none => .error .badMinor
        | some b => .ok { major := a, minor := b } := by
  have hcut : Text.cutOnce '.' (Text.trimChars s.toList) = some (major, minor) := by
    rw [h.eq_trimChars, Text.cutOnce_append hpoint]
  cases hmajor : Text.int32? major with
  | none => simp [ofText, ofChars, hcut, hmajor]
  | some a => cases hminor : Text.int32? minor <;> simp [ofText, ofChars, hcut, hmajor, hminor]

theorem Reads.ofText_eq (h : Reads s r) : ofText s = r := by
  cases h with
  | noPoint h hpoint => rw [ofText, ofChars, h.eq_trimChars, Text.cutOnce_eq_none_iff.mpr hpoint]
  | badMajor h hpoint hmajor =>
    rw [ofText_of_trims h hpoint, int32?_eq_none_iff.mpr hmajor]
  | badMinor h hmajor hminor =>
    rw [ofText_of_trims h hmajor.no_point, Text.int32?_eq_some_iff.mpr hmajor,
      int32?_eq_none_iff.mpr hminor]
  | ok h hmajor hminor =>
    rw [ofText_of_trims h hmajor.no_point, Text.int32?_eq_some_iff.mpr hmajor,
      Text.int32?_eq_some_iff.mpr hminor]

theorem reads_ofText (s : String) : Reads s (ofText s) := by
  have h : Trims s.toList (Text.trimChars s.toList) := Text.trims_trimChars _
  cases hcut : Text.cutOnce '.' (Text.trimChars s.toList) with
  | none =>
    have hreads : Reads s _ := .noPoint h (Text.cutOnce_eq_none_iff.mp hcut)
    exact hreads.ofText_eq ▸ hreads
  | some parts =>
    obtain ⟨hsplit, hpoint⟩ := Text.cutOnce_eq_some_iff.mp hcut
    rw [hsplit] at h
    cases hmajor : Text.int32? parts.1 with
    | none =>
      have hreads : Reads s _ := .badMajor h hpoint (int32?_eq_none_iff.mp hmajor)
      exact hreads.ofText_eq ▸ hreads
    | some a =>
      have ha : IsPart parts.1 a := Text.int32?_eq_some_iff.mp hmajor
      cases hminor : Text.int32? parts.2 with
      | none =>
        have hreads : Reads s _ := .badMinor h ha (int32?_eq_none_iff.mp hminor)
        exact hreads.ofText_eq ▸ hreads
      | some b =>
        have hreads : Reads s (.ok { major := a, minor := b }) :=
          .ok h ha (Text.int32?_eq_some_iff.mp hminor)
        exact hreads.ofText_eq ▸ hreads

theorem toList_toString (v : Version) :
    v.toString.toList =
      (Text.ofInt v.major.toInt).toList ++ '.' :: (Text.ofInt v.minor.toInt).toList := by
  simp [Version.toString]

/-- A version is read back from its text. -/
theorem ofText_toString (v : Version) : ofText v.toString = .ok v := by
  have hmajor : IsPart (Text.ofInt v.major.toInt).toList v.major := Text.isSigned_ofInt _
  have hminor : IsPart (Text.ofInt v.minor.toInt).toList v.minor := Text.isSigned_ofInt _
  have hblank : ∀ c ∈ v.toString.toList, Text.isBlank c = false := by
    rw [toList_toString, List.forall_mem_append, List.forall_mem_cons]
    exact ⟨Text.IsSigned.not_blank hmajor, by decide, Text.IsSigned.not_blank hminor⟩
  have htrims : Trims v.toString.toList v.toString.toList :=
    ⟨⟨fun c h => hblank c (List.mem_of_mem_head? h),
      fun c h => hblank c (List.mem_of_mem_getLast? h)⟩, [], [], by simp, by simp, by simp⟩
  exact Reads.ofText_eq (.ok (toList_toString v ▸ htrims) hmajor hminor)

/-- A text is read as a version exactly where it is written as one, and otherwise it is said what is
wrong first. Every version is read back from its own text. -/
theorem ofText_eq_iff_reads :
    (∀ (s : String) (r : Except TextFault Version), ofText s = r ↔ Reads s r) ∧
    ∀ v : Version, ofText (toString v) = .ok v :=
  ⟨fun s _ => ⟨fun h => h ▸ reads_ofText s, Reads.ofText_eq⟩, ofText_toString⟩

example : ofText "\u3000+007.-2147483648\n" = .ok { major := 7, minor := Int32.minValue } := by
  decide

end Arbiter.Version
