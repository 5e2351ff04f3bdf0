import Arbiter.Metrics
import Mathlib.Algebra.BigOperators.Group.List.Lemmas
import Mathlib.Algebra.GroupWithZero.Nat
import Mathlib.Data.List.Dedup

/-!
What the published counts add up to: the counts of a metric, summed over its labels, are as many as
the observations of it.
-/

namespace Arbiter.Metrics

variable {ups : List Series}

/-- The counts of a metric, summed over its labels. -/
def total (metric : String) (ups : List Series) : Nat :=
  (((tally ups).filter fun (s, _) => s.metric == metric).map (·.2)).sum

theorem nodup_eraseDups (ups : List Series) : ups.eraseDups.Nodup := by
  match ups with
  | [] => simp
  | s :: rest =>
    rw [List.eraseDups_cons, List.nodup_cons]
    refine ⟨?_, nodup_eraseDups _⟩
    simp [List.mem_eraseDups]
  termination_by ups.length
  decreasing_by
    have hle := List.length_filter_le (fun b => !b == s) rest
    rw [List.length_cons]
    omega

theorem eraseDups_perm_dedup (ups : List Series) : ups.eraseDups.Perm ups.dedup :=
  (List.perm_ext_iff_of_nodup (nodup_eraseDups ups) (List.nodup_dedup ups)).mpr fun s => by
    rw [List.mem_eraseDups, List.mem_dedup]

/-- The counts of a metric add up to how often it was counted. -/
theorem total_eq_countP (metric : String) (ups : List Series) :
    total metric ups = ups.countP fun s => s.metric == metric := by
  have hperm := ((eraseDups_perm_dedup ups).filter fun s => s.metric == metric).map (ups.count ·)
  rw [← List.sum_map_count_dedup_filter_eq_countP, ← hperm.sum_eq, total, tally, List.filter_map,
    List.map_map]
  rfl

def Series.isStarted : Series → Bool
  | started _ => true
  | _ => false

/-- Whether this is an observation of how an arbitration ended. -/
def Series.isEnd : Series → Bool
  | outcomes _ | durations _ => true
  | _ => false

theorem metric_eq_startedName (s : Series) : (s.metric == startedName) = s.isStarted := by
  cases s <;> rfl

/-- What goes up at the end of an arbitration, by metric. -/
theorem countP_outcome (labels : List String) :
    (labels.flatMap outcome).countP (fun s => s.metric == outcomesName) = labels.length ∧
      (labels.flatMap outcome).countP (fun s => s.metric == durationName) = labels.length := by
  induction labels with
  | nil => exact ⟨rfl, rfl⟩
  | cons word labels ih =>
    have hone : (outcome word).countP (fun s => s.metric == outcomesName) = 1 ∧
        (outcome word).countP (fun s => s.metric == durationName) = 1 := ⟨rfl, rfl⟩
    rw [List.flatMap_cons, List.countP_append, List.countP_append, List.length_cons]
    omega

/-- Only observations of ends count for the metrics of ends. -/
theorem countP_filter_isEnd (ups : List Series) {metric : String}
    (h : metric = outcomesName ∨ metric = durationName) :
    (ups.filter Series.isEnd).countP (fun s => s.metric == metric) =
      ups.countP fun s => s.metric == metric := by
  rw [List.countP_filter]
  refine List.countP_congr fun s _ => ?_
  rcases h with rfl | rfl <;> cases s <;> simp [Series.metric, Series.isEnd] <;> decide

end Arbiter.Metrics
