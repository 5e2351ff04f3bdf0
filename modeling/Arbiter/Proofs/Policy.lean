import Arbiter.Policy
import Mathlib.Tactic.SplitIfs

/-! The policies choose among the entries that they are given. -/

namespace Arbiter

variable {es : List Entry} {e : Entry}

theorem mem_of_firstLargest {key : Entry → Int64} (h : firstLargest key es = some e) : e ∈ es := by
  induction es with
  | nil => simp [firstLargest] at h
  | cons a rest ih =>
    simp only [firstLargest] at h
    cases hb : firstLargest key rest with
    | none =>
      obtain rfl : a = e := by simpa [hb] using h
      exact List.mem_cons_self
    | some best =>
      simp only [hb] at h
      split_ifs at h
      · exact List.mem_cons_of_mem a (ih (hb.trans h))
      · obtain rfl : a = e := Option.some.inj h
        exact List.mem_cons_self

namespace Policy

theorem mem_of_select {policy : Policy} (h : policy.select es = some e) : e ∈ es := by
  cases policy with
  | highestPriority => exact (List.mem_filter.mp (mem_of_firstLargest h)).1
  | lastSeen => exact mem_of_firstLargest h
  | keyword | fixedParticipant => exact List.mem_of_find?_eq_some h

/-- The policy that requires support for subscriptions on change chooses no entry without it. -/
theorem supportsOnChange_of_select (h : (highestPriority true).select es = some e) :
    e.qos.supportsOnChange := by
  have hmem := (List.mem_filter.mp (mem_of_firstLargest h)).2
  simpa using hmem

theorem select_nil (policy : Policy) : policy.select [] = none := by
  cases policy <;> rfl

end Policy

/-- What is chosen among the compatible entries is one of all entries, and compatible. -/
theorem Policy.mem_of_select_compatible {policy : Policy} {required : Version}
    (h : policy.select (compatibleEntries required es) = some e) :
    e ∈ es ∧ e.version.serves required := by
  simpa [compatibleEntries] using mem_of_select h

end Arbiter
