import Arbiter.Policy
import Mathlib.Data.Finset.Card
import Mathlib.Data.Finset.Dedup
import Mathlib.Data.List.Perm.Basic
import Mathlib.Tactic.SplitIfs

/-! Versions are totally ordered, and a set of versions lists each of its members once, in order. -/

namespace Arbiter

namespace Version

theorem before_iff {v w : Version} :
    v.before w ↔ v.major.toInt < w.major.toInt ∨
      v.major.toInt = w.major.toInt ∧ v.minor.toInt < w.minor.toInt := by
  simp [before, Int32.lt_iff_toInt_lt, Int32.toInt_inj]

theorem before_trans {u v w : Version} (huv : u.before v) (hvw : v.before w) : u.before w := by
  rw [before_iff] at *
  omega

theorem ne_of_before {v w : Version} (h : v.before w) : v ≠ w := by
  rintro rfl
  rw [before_iff] at h
  omega

theorem eq_of_not_before {v w : Version} (hvw : ¬ v.before w) (hwv : ¬ w.before v) : v = w := by
  rw [before_iff] at hvw hwv
  have hmajor : v.major.toInt = w.major.toInt := by omega
  have hminor : v.minor.toInt = w.minor.toInt := by omega
  cases v
  cases w
  simp_all [Int32.toInt_inj]

end Version

namespace VersionSet

@[simp] theorem mem_insert {u v : Version} {set : VersionSet} :
    u ∈ insert v set ↔ u = v ∨ u ∈ set := by
  induction set with
  | nil => simp [insert]
  | cons w ws ih =>
    unfold insert
    split_ifs with hvw hwv
    · exact List.mem_cons
    · simp only [List.mem_cons, ih]
      exact or_left_comm
    · obtain rfl := Version.eq_of_not_before hvw hwv
      simp

theorem pairwise_insert {set : VersionSet} (h : set.Pairwise fun v w => v.before w) (v : Version) :
    (insert v set).Pairwise fun v w => v.before w := by
  induction set with
  | nil => simp [insert]
  | cons w ws ih =>
    obtain ⟨hw, hws⟩ := List.pairwise_cons.mp h
    unfold insert
    split_ifs with hvw hwv
    · refine List.pairwise_cons.mpr ⟨fun u hu => ?_, h⟩
      rcases List.mem_cons.mp hu with rfl | hu
      · exact hvw
      · exact Version.before_trans hvw (hw u hu)
    · refine List.pairwise_cons.mpr ⟨fun u hu => ?_, ih hws⟩
      rcases mem_insert.mp hu with rfl | hu
      · exact hwv
      · exact hw u hu
    · exact h

private theorem foldl_insert (vs : List Version) (set : VersionSet)
    (h : set.Pairwise fun v w => v.before w) :
    (∀ u, u ∈ vs.foldl (fun set v => insert v set) set ↔ u ∈ vs ∨ u ∈ set) ∧
      (vs.foldl (fun set v => insert v set) set).Pairwise fun v w => v.before w := by
  induction vs generalizing set with
  | nil => exact ⟨by simp, h⟩
  | cons v vs ih =>
    obtain ⟨hmem, hsorted⟩ := ih (insert v set) (pairwise_insert h v)
    refine ⟨fun u => ?_, hsorted⟩
    rw [List.foldl_cons, hmem, mem_insert, List.mem_cons, or_assoc, or_left_comm]

@[simp] theorem mem_ofList {u : Version} {vs : List Version} : u ∈ ofList vs ↔ u ∈ vs := by
  simpa [ofList] using (foldl_insert vs [] .nil).1 u

theorem pairwise_ofList (vs : List Version) : (ofList vs).Pairwise fun v w => v.before w :=
  (foldl_insert vs [] .nil).2

theorem nodup_ofList (vs : List Version) : (ofList vs).Nodup :=
  (pairwise_ofList vs).imp Version.ne_of_before

/-- A set hangs on its members alone, not on their order or on how often they are put in. -/
theorem ofList_congr {us vs : List Version} (h : ∀ v, v ∈ us ↔ v ∈ vs) : ofList us = ofList vs := by
  have hperm : (ofList us).Perm (ofList vs) :=
    (List.perm_ext_iff_of_nodup (nodup_ofList us) (nodup_ofList vs)).mpr fun v => by
      rw [mem_ofList, mem_ofList, h]
  refine hperm.eq_of_pairwise (fun u v _ _ huv hvu => ?_) (pairwise_ofList us) (pairwise_ofList vs)
  exact absurd rfl (Version.ne_of_before (Version.before_trans huv hvu))

theorem length_ofList (vs : List Version) : (ofList vs).length = vs.toFinset.card := by
  have hmembers : (ofList vs).toFinset = vs.toFinset := by
    ext v
    rw [List.mem_toFinset, List.mem_toFinset, mem_ofList]
  rw [← hmembers, List.toFinset_card_of_nodup (nodup_ofList vs)]

end VersionSet

end Arbiter
