import Arbiter.Text.Blank
import Mathlib.Data.List.DropRight

/-!
What is left of a text when it is trimmed, said without taking anything off: the one stretch of it
that has only blank characters before and behind it and no blank character at either end.
-/

namespace Arbiter.Text

variable {cs ds before after : List Char}

/-- There is no blank character at either end. -/
structure Tight (cs : List Char) : Prop where
  first : ∀ c ∈ cs.head?, isBlank c = false
  last : ∀ c ∈ cs.getLast?, isBlank c = false

/-- `ds` is what stands in `cs` between the blank characters of both ends. -/
structure Trims (cs ds : List Char) : Prop where
  tight : Tight ds
  between : ∃ before after, cs = before ++ ds ++ after ∧
    (∀ c ∈ before, isBlank c) ∧ ∀ c ∈ after, isBlank c

theorem trimChars_eq_rdropWhile (cs : List Char) :
    trimChars cs = (cs.dropWhile isBlank).rdropWhile isBlank :=
  rfl

theorem dropWhile_isBlank_append (hfirst : ∀ c ∈ cs.head?, isBlank c = false) (hne : cs ≠ []) :
    (cs ++ after).dropWhile isBlank = cs ++ after := by
  obtain ⟨c, rest, rfl⟩ := List.exists_cons_of_ne_nil hne
  exact List.dropWhile_cons_of_neg (by simp [hfirst c rfl])

theorem rdropWhile_isBlank_append (hlast : ∀ c ∈ cs.getLast?, isBlank c = false)
    (hafter : ∀ c ∈ after, isBlank c) : (cs ++ after).rdropWhile isBlank = cs := by
  have hcs : cs.reverse.dropWhile isBlank = cs.reverse := by
    rcases List.eq_nil_or_concat cs with rfl | ⟨rest, c, rfl⟩
    · rfl
    · rw [List.concat_eq_append, List.reverse_append]
      exact List.dropWhile_cons_of_neg (by simp [hlast c (by simp)])
  rw [List.rdropWhile, List.reverse_append,
    List.dropWhile_append_of_pos (by simpa using hafter), hcs, List.reverse_reverse]

theorem trimChars_of_blank (h : ∀ c ∈ cs, isBlank c) : trimChars cs = [] := by
  rw [trimChars_eq_rdropWhile, List.dropWhile_eq_nil_iff.mpr h, List.rdropWhile_nil]

theorem tight_trimChars (cs : List Char) : Tight (trimChars cs) where
  first c hc := by
    obtain ⟨after, hafter⟩ := List.rdropWhile_prefix isBlank (cs.dropWhile isBlank)
    have hhead : (cs.dropWhile isBlank).head? = some c := by
      rw [← hafter, List.head?_append, ← trimChars_eq_rdropWhile, hc]
      rfl
    have hnot := List.head?_dropWhile_not isBlank cs
    rwa [hhead] at hnot
  last c hc := by
    obtain ⟨hne, rfl⟩ := List.mem_getLast?_eq_getLast hc
    exact eq_false_of_ne_true (List.rdropWhile_last_not isBlank _ hne)

theorem trims_trimChars (cs : List Char) : Trims cs (trimChars cs) where
  tight := tight_trimChars cs
  between := by
    refine ⟨cs.takeWhile isBlank, (cs.dropWhile isBlank).rtakeWhile isBlank, ?_,
      fun _ => List.mem_takeWhile_imp, fun _ => List.mem_rtakeWhile_imp⟩
    rw [trimChars_eq_rdropWhile, List.append_assoc, List.rdropWhile_append_rtakeWhile,
      List.takeWhile_append_dropWhile]

theorem Trims.eq_trimChars (h : Trims cs ds) : trimChars cs = ds := by
  obtain ⟨before, after, rfl, hbefore, hafter⟩ := h.between
  by_cases hne : ds = []
  case pos =>
    rw [hne, List.append_nil, trimChars_of_blank]
    simpa [or_imp, forall_and] using ⟨hbefore, hafter⟩
  case neg =>
    rw [trimChars_eq_rdropWhile, List.append_assoc, List.dropWhile_append_of_pos hbefore,
      dropWhile_isBlank_append h.tight.first hne, rdropWhile_isBlank_append h.tight.last hafter]

/-- Trimming leaves exactly what stands between the blank characters of both ends. -/
theorem trimChars_eq_iff : trimChars cs = ds ↔ Trims cs ds :=
  ⟨fun h => h ▸ trims_trimChars cs, Trims.eq_trimChars⟩

theorem trimChars_eq_nil_iff : trimChars cs = [] ↔ ∀ c ∈ cs, isBlank c := by
  refine ⟨fun h => ?_, trimChars_of_blank⟩
  obtain ⟨before, after, rfl, hbefore, hafter⟩ := (trimChars_eq_iff.mp h).between
  simpa [or_imp, forall_and] using ⟨hbefore, hafter⟩

theorem trim_eq_iff {s t : String} : trim s = t ↔ Trims s.toList t.toList := by
  rw [← trimChars_eq_iff, trim, ← String.toList_inj, String.toList_ofList]

end Arbiter.Text
