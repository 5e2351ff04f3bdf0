import Arbiter.Proofs.Arbitration.Clock
import Arbiter.Proofs.Arbitration.Conclusion

/-!
The lookups of an arbitration, and what its counters say of them. An attempt is counted before the
discovery service is asked. A stop or the deadline can come in between, and then the counters are one
ahead for good.
-/

namespace Arbiter.Arbitration

open Discovery

/-- What the discovery service is asked with so much of the time to try left. -/
def queryOf (plan : Plan) (remaining : Duration) : Query :=
  { target := plan.target, qos := plan.request.lookupQos remaining, gbids := plan.gbids }

/-- Whether the task has counted an attempt and not asked yet. -/
def Task.isDue : Task → Bool
  | polling _ (.due _) => true
  | _ => false

theorem Task.isDue_iff {task : Task} :
    task.isDue ↔ ∃ attempt remaining, task = .polling attempt (.due remaining) := by
  cases task with
  | polling attempt lookup => cases lookup <;> simp [isDue]
  | _ => simp [isDue]

theorem Task.isLaunched_of_isDue {task : Task} (h : task.isDue) : task.isLaunched := by
  obtain ⟨attempt, remaining, rfl⟩ := isDue_iff.mp h
  rfl

theorem Task.isLaunched_of_over {task : Task} (h : task.isWorking = false) : task.isLaunched := by
  cases task with
  | absent => cases h
  | _ => rfl

/-- Whether the metric of attempts went up. -/
def Happening.isAttempt : Happening → Bool
  | counted (.attempts _) => true
  | _ => false

namespace World

variable {plan : Plan} {w : World} {acc : List CallId}

/-- A stop was signalled, or the time to try is over. -/
def CutOff (plan : Plan) (w : World) : Prop :=
  w.shared.stopSignalled ∨ w.deadline plan ≤ w.now

/-- What a step can do to the attempts that were counted and the lookups that were made. -/
inductive LookupMove (plan : Plan) (w after : World) : Prop where
  | keep (hdue : after.task.isDue = w.task.isDue)
      (hn : after.shared.attempts = w.shared.attempts) (hl : after.lookups = w.lookups)
  | count (ht : w.task = .beginning) (hdue : after.task.isDue)
      (hn : after.shared.attempts = w.shared.attempts + 1) (hl : after.lookups = w.lookups)
  | ask {attempt remaining} (ht : w.task = .polling attempt (.due remaining))
      (unstopped : w.shared.stopSignalled = false) (inTime : w.now < w.deadline plan)
      (hdue : after.task.isDue = false) (hn : after.shared.attempts = w.shared.attempts)
      (hl : after.lookups = w.lookups ++ [(queryOf plan remaining, w.now)])
  | drop (due : w.task.isDue) (cut : CutOff plan w) (hdue : after.task.isDue = false)
      (hover : after.task.isWorking = false) (hn : after.shared.attempts = w.shared.attempts)
      (hl : after.lookups = w.lookups)

theorem step_lookupMove (hd : Delivers plan acc w) (a : Action) :
    LookupMove plan w (w.step plan a) := by
  have hm := step_move plan w a
  generalize w.step plan a = after at hm
  cases hm with
  | start | stop | noCall | unasked | advance => exact .keep rfl rfl rfl
  | replyAtOnce _ ht | reply _ ht => exact .keep (by rw [ht]; rfl) rfl rfl
  | call hc split hs move =>
    cases move with
    | launch =>
      have ht := hd.absent_of_accepted (List.mem_of_getElem? hc)
      exact .keep (by rw [ht]; rfl) rfl (by simp)
    | accept | refuse | refused | signal | late | cancel | stopped => exact .keep rfl rfl (by simp)
  | task move =>
    cases move with
    | wait => exact .keep rfl rfl rfl
    | begin ht => exact .count ht rfl rfl (by simp)
    | ask ht unstopped inTime => exact .ask ht unstopped inTime rfl rfl (by simp [queryOf])
    | leave heeding stopped =>
      cases hdue : w.task.isDue with
      | false => exact .keep (by rw [hdue]; rfl) rfl rfl
      | true => exact .drop hdue (Or.inl stopped) rfl rfl rfl rfl
    | expire ht unstopped elapsed =>
      cases hdue : w.task.isDue with
      | false => exact .keep (by rw [hdue]; rfl) rfl rfl
      | true => exact .drop hdue (Or.inr elapsed) rfl rfl rfl rfl
    | overflow ht | pend ht | take ht | check ht | select ht | abort ht | retry ht | abandon ht
    | wake ht | late ht | close ht | deliver ht => exact .keep (by rw [ht]; rfl) rfl (by simp)

/-- How often the metric of attempts went up. -/
def attemptsCounted (w : World) : Nat := w.trace.countP Happening.isAttempt

@[simp] theorem attemptsCounted_mk (now : Instant) (shared : Shared) (calls : List Call)
    (task : Task) (starts : Nat) :
    attemptsCounted ⟨now, shared, calls, task, starts, w.trace⟩ = w.attemptsCounted := rfl

@[simp] theorem attemptsCounted_emit (hs : List Happening) :
    (w.emit hs).attemptsCounted = hs.countP Happening.isAttempt + w.attemptsCounted := by
  simp [attemptsCounted, emit, List.countP_append]

@[simp] theorem countP_answer (call : Option CallId) (outcome : Outcome) (runtime : Bool) :
    (w.answer call outcome runtime).countP Happening.isAttempt = 0 := by
  cases call <;> rfl

@[simp] theorem countP_countOutcome (label : String) :
    (countOutcome label).countP Happening.isAttempt = 0 := rfl

@[simp] theorem attemptsCounted_deliver (before : Shared) (outcome : Outcome) :
    (w.deliver before outcome).attemptsCounted = w.attemptsCounted := by
  unfold deliver
  simp [Happening.isAttempt]

theorem CutOff.step (h : CutOff plan w) (hd : Delivers plan acc w) (hk : Keeps acc w)
    (ht : w.task.isLaunched) (a : Action) : CutOff plan (w.step plan a) := by
  have hbegun := hk.begun_step hd ht a
  unfold CutOff at h ⊢
  rw [deadline_eq, hbegun, ← deadline_eq]
  have hm := step_move plan w a
  generalize w.step plan a = after at hm
  cases hm with
  | start | stop | noCall | replyAtOnce | reply | unasked => exact h
  | advance d => exact h.imp_right fun hle => Nat.le_trans hle (Nat.le_add_right _ _)
  | call hc split hs move =>
    cases move with
    | signal => exact Or.inl rfl
    | accept | refuse | refused | launch | late | cancel | stopped => exact h
  | task move => cases move <;> exact h

/-- At its end the task stays there. -/
theorem over_step (h : Delivers plan acc w) (hover : w.task.isWorking = false) (a : Action) :
    (w.step plan a).task.isWorking = false := by
  have hm := step_move plan w a
  generalize w.step plan a = after at hm
  cases hm with
  | start | stop | noCall | unasked | advance => exact hover
  | replyAtOnce _ ht | reply _ ht => simp [ht, Task.isWorking] at hover
  | call hc split hs move =>
    cases move with
    | launch => simp [h.absent_of_accepted (List.mem_of_getElem? hc), Task.isWorking] at hover
    | accept | refuse | refused | signal | late | cancel | stopped => exact hover
  | task move =>
    cases move with
    | wait => exact hover
    | overflow | leave | expire | select | abort | abandon | late | close | deliver => rfl
    | begin ht | ask ht | pend ht | take ht | check ht | retry ht | wake ht =>
      simp [ht, Task.isWorking] at hover

/-- There the task acts on no reply, counts no attempt and makes no lookup. -/
theorem idle_of_over (h : Delivers plan acc w) (hover : w.task.isWorking = false) (a : Action) :
    judgedIn w a = [] ∧ (w.step plan a).shared.attempts = w.shared.attempts ∧
      (w.step plan a).lookups = w.lookups := by
  constructor
  · cases a with
    | task =>
      cases ht : w.task with
      | judging => simp [ht, Task.isWorking] at hover
      | _ => simp [judgedIn, ht]
    | _ => rfl
  · cases step_lookupMove h a with
    | keep _ hn hl | drop _ _ _ _ hn hl => exact ⟨hn, hl⟩
    | count ht | ask ht => simp [ht, Task.isWorking] at hover

theorem lookups_run_of_over (h : Delivers plan acc w) (hover : w.task.isWorking = false)
    (more : List Action) : (w.run plan more).lookups = w.lookups := by
  induction more generalizing w acc with
  | nil => rfl
  | cons a more ih =>
    obtain ⟨-, -, hstep⟩ := idle_of_over h hover a
    exact (ih (h.step a) (over_step h hover a)).trans hstep

/-- What every run keeps about the number of attempts. -/
structure Counts (plan : Plan) (w : World) : Prop where
  counted : w.attemptsCounted = w.shared.attempts
  due : w.task.isDue → w.shared.attempts = w.lookups.length + 1
  asked : w.task.isDue = false → w.shared.attempts = w.lookups.length ∨
    w.shared.attempts = w.lookups.length + 1 ∧ w.task.isWorking = false ∧ CutOff plan w

namespace Counts

theorem counted_step (h : Counts plan w) (a : Action) :
    (w.step plan a).attemptsCounted = (w.step plan a).shared.attempts := by
  have hc := h.counted
  have hm := step_move plan w a
  generalize w.step plan a = after at hm
  cases hm with
  | start | stop | noCall | replyAtOnce | reply | unasked | advance => exact hc
  | call _ _ _ move =>
    cases move with
    | stopped before =>
      cases before.startedAt <;> simpa [List.countP_append, Happening.isAttempt] using hc
    | accept | refuse | refused | launch | signal | late | cancel =>
      simpa [Happening.isAttempt] using hc
  | task move =>
    cases move with
    | begin =>
      simp [Happening.isAttempt] at hc ⊢
      omega
    | _ => simpa [Happening.isAttempt] using hc

theorem step (h : Counts plan w) (hd : Delivers plan acc w) (hk : Keeps acc w) (a : Action) :
    Counts plan (w.step plan a) := by
  have hcounted := h.counted_step a
  have hover := fun hover => over_step hd hover a
  have hcut := fun ht (hc : CutOff plan w) => hc.step hd hk ht a
  have hm := step_lookupMove hd a
  generalize w.step plan a = after at hcounted hover hcut hm
  cases hm with
  | keep hdue hn hl =>
    refine ⟨hcounted, ?_, ?_⟩ <;> rw [hdue, hn, hl]
    · exact h.due
    · intro hnot
      refine (h.asked hnot).imp_right fun ⟨hone, hw, hc⟩ => ⟨hone, hover hw, hcut ?_ hc⟩
      exact Task.isLaunched_of_over hw
  | count ht hdue hn hl =>
    have heq : w.shared.attempts = w.lookups.length :=
      (h.asked (by rw [ht]; rfl)).resolve_right (by simp [ht, Task.isWorking])
    exact ⟨hcounted, fun _ => by rw [hn, hl, heq], fun hnot => by simp [hdue] at hnot⟩
  | ask ht unstopped inTime hdue hn hl =>
    refine ⟨hcounted, fun hd => by simp [hdue] at hd, fun _ => Or.inl ?_⟩
    rw [hn, hl, h.due (by rw [ht]; rfl), List.length_append, List.length_singleton]
  | drop due cut hdue hw hn hl =>
    refine ⟨hcounted, fun hd => by simp [hdue] at hd, fun _ => Or.inr ⟨?_, hw, hcut ?_ cut⟩⟩
    · rw [hn, hl, h.due due]
    · exact Task.isLaunched_of_isDue due

theorem init (plan : Plan) : Counts plan {} where
  counted := rfl
  due h := by cases h
  asked _ := Or.inl rfl

theorem run (plan : Plan) (actions : List Action) : Counts plan (World.run plan {} actions) := by
  induction actions using List.reverseRecOn with
  | nil => exact init plan
  | append_singleton actions a ih =>
    rw [run_concat]
    exact ih.step (.run plan actions) (.run plan actions) a

end Counts

/-- An attempt without its lookup is due, or was cut off, and then no lookup is made any more. -/
theorem attempts_eq_or_one_ahead (plan : Plan) (actions : List Action) :
    let w := World.run plan {} actions
    w.shared.attempts = w.lookups.length ∨
      w.shared.attempts = w.lookups.length + 1 ∧
        (w.task.isDue ∨ w.task.isWorking = false ∧ CutOff plan w ∧
          ∀ more, (w.run plan more).lookups = w.lookups) := by
  intro w
  have hd : Delivers plan (accepted plan {} actions) w := .run plan actions
  have h : Counts plan w := .run plan actions
  by_cases hdue : w.task.isDue
  case pos => exact Or.inr ⟨h.due hdue, Or.inl hdue⟩
  case neg =>
    refine (h.asked (by simpa using hdue)).imp_right ?_
    rintro ⟨hn, hover, hcut⟩
    exact ⟨hn, Or.inr ⟨hover, hcut, lookups_run_of_over hd hover⟩⟩

end World

end Arbiter.Arbitration
