import Arbiter.Text.Pieces
import Mathlib.Data.List.Basic

/-!
Cutting and joining undo each other, as long as the separator stands in none of the pieces. A single
cut is made at the first separator, and a separator may also be made of two characters.
-/

namespace Arbiter.Text

variable {sep : Char} {cs before : List Char} {pieces : List (List Char)}

theorem cut_eq_splitOn (sep : Char) (cs : List Char) : cut sep cs = cs.splitOn sep := by
  induction cs with
  | nil => rfl
  | cons c rest ih =>
    rw [cut, List.splitOn_cons_eq_if_modifyHead, ih]
    by_cases hc : c = sep
    · rw [if_pos hc, if_pos (beq_iff_eq.mpr hc)]
    · rw [if_neg hc, if_neg (by simpa using hc)]
      obtain ⟨piece, pieces, hcut⟩ := List.exists_cons_of_ne_nil (List.splitOn_ne_nil sep rest)
      rw [hcut, List.modifyHead_cons]

theorem intercalate_cut (sep : Char) (cs : List Char) : [sep].intercalate (cut sep cs) = cs := by
  rw [cut_eq_splitOn, List.intercalate_splitOn]

theorem cut_intercalate (h : ∀ piece ∈ pieces, sep ∉ piece) (hne : pieces ≠ []) :
    cut sep ([sep].intercalate pieces) = pieces := by
  rw [cut_eq_splitOn, List.splitOn_intercalate sep h hne]

theorem not_mem_of_mem_cut {piece : List Char} (h : piece ∈ cut sep cs) : sep ∉ piece := by
  induction cs generalizing piece with
  | nil => simp_all [cut]
  | cons c rest ih =>
    obtain ⟨first, pieces, hcut⟩ := List.exists_cons_of_ne_nil (cut_ne_nil sep rest)
    rw [hcut] at ih
    rw [cut, hcut] at h
    split at h
    case isTrue =>
      rcases List.mem_cons.mp h with rfl | h
      · exact List.not_mem_nil
      · exact ih h
    case isFalse hc =>
      rcases List.mem_cons.mp h with rfl | h
      · have hfirst := ih List.mem_cons_self
        simp [hfirst, Ne.symm hc]
      · exact ih (List.mem_cons_of_mem _ h)

theorem toList_join (sep : String) (ss : List String) :
    (join sep ss).toList = sep.toList.intercalate (ss.map String.toList) := by
  induction ss using join.induct with
  | case1 => simp [join]
  | case2 s => simp [join]
  | case3 s t rest ih =>
    rw [join, String.toList_append, String.toList_append, ih]
    simp [List.intercalate_cons_cons]

theorem cutOnce_eq_none_iff : cutOnce sep cs = none ↔ sep ∉ cs := by
  induction cs with
  | nil => simp [cutOnce]
  | cons c rest ih =>
    rw [cutOnce, List.mem_cons, not_or]
    by_cases hc : c = sep
    · rw [if_pos hc]
      exact iff_of_false (Option.some_ne_none _) fun h => h.1 hc.symm
    · rw [if_neg hc, Option.map_eq_none_iff, ih]
      exact (and_iff_right (Ne.symm hc)).symm

theorem cutOnce_append (h : sep ∉ before) (after : List Char) :
    cutOnce sep (before ++ sep :: after) = some (before, after) := by
  induction before with
  | nil => simp [cutOnce]
  | cons c rest ih =>
    rw [List.mem_cons, not_or] at h
    obtain ⟨hc, hrest⟩ := h
    rw [List.cons_append, cutOnce, if_neg (Ne.symm hc), ih hrest, Option.map_some]

/-- The separator that counts is the first. -/
theorem cutOnce_eq_some_iff {after : List Char} :
    cutOnce sep cs = some (before, after) ↔ cs = before ++ sep :: after ∧ sep ∉ before := by
  constructor
  · intro h
    induction cs generalizing before with
    | nil => cases h
    | cons c rest ih =>
      rw [cutOnce] at h
      split at h
      case isTrue hc =>
        cases h
        exact ⟨by rw [hc, List.nil_append], List.not_mem_nil⟩
      case isFalse hc =>
        obtain ⟨⟨front, back⟩, hrest, heq⟩ := Option.map_eq_some_iff.mp h
        cases heq
        obtain ⟨rfl, hfront⟩ := ih hrest
        exact ⟨rfl, List.not_mem_cons_of_ne_of_not_mem (Ne.symm hc) hfront⟩
  · rintro ⟨rfl, h⟩
    exact cutOnce_append h after

/-- The pieces between the places where the two characters stand one after the other. -/
def cutAtPair (a b : Char) : List Char → List (List Char)
  | [] => [[]]
  | [c] => [[c]]
  | c :: d :: rest =>
    if c = a ∧ d = b then [] :: cutAtPair a b rest
    else (cutAtPair a b (d :: rest)).modifyHead (c :: ·)

section Pair

variable {a b : Char} {piece : List Char}

theorem cutAtPair_of_not_mem (h : a ∉ piece) : cutAtPair a b piece = [piece] := by
  induction piece using cutAtPair.induct a b with
  | case1 | case2 => rfl
  | case3 c d rest hpair => exact absurd (hpair.1 ▸ List.mem_cons_self) h
  | case4 c d rest hpair ih =>
    rw [cutAtPair, if_neg hpair, ih (List.not_mem_of_not_mem_cons h), List.modifyHead_cons]

theorem cutAtPair_append (h : a ∉ piece) (rest : List Char) :
    cutAtPair a b (piece ++ a :: b :: rest) = piece :: cutAtPair a b rest := by
  induction piece with
  | nil => rw [List.nil_append, cutAtPair, if_pos ⟨rfl, rfl⟩]
  | cons c piece ih =>
    have hc : c ≠ a := fun hc => h (hc ▸ List.mem_cons_self)
    have hcut := ih (List.not_mem_of_not_mem_cons h)
    obtain ⟨d, ds, hd⟩ := List.exists_cons_of_ne_nil (l := piece ++ a :: b :: rest) (by simp)
    rw [hd] at hcut
    rw [List.cons_append, hd, cutAtPair, if_neg fun hpair => hc hpair.1, hcut,
      List.modifyHead_cons]

theorem cutAtPair_intercalate (h : ∀ piece ∈ pieces, a ∉ piece) (hne : pieces ≠ []) :
    cutAtPair a b ([a, b].intercalate pieces) = pieces := by
  induction pieces with
  | nil => exact absurd rfl hne
  | cons piece pieces ih =>
    obtain ⟨hpiece, hrest⟩ := List.forall_mem_cons.mp h
    cases pieces with
    | nil => rw [List.intercalate_singleton, cutAtPair_of_not_mem hpiece]
    | cons next pieces =>
      rw [List.intercalate_cons_cons, List.append_assoc, List.cons_append, List.cons_append,
        List.nil_append, cutAtPair_append hpiece, ih hrest (List.cons_ne_nil _ _)]

end Pair

end Arbiter.Text
