import Arbiter.Proofs.Arbitration.Clock
import Mathlib.Algebra.Order.Floor.Div

/-!
The pace of an arbitration. Between two attempts lies at least the retry interval, and none begins
after the first unless the time to try is longer than the intervals before it, so the attempts are
bounded however the steps interleave.
-/

namespace Arbiter.Arbitration

/-- Whether an attempt is under way. -/
def Task.inAttempt : Task → Bool
  | polling .. | asking .. | checking .. | judging .. => true
  | _ => false

/-- As many attempts as retry intervals fit into a time to try, rounded up, and always one. -/
def attemptsWithin (plan : Plan) (time : Duration) : Nat :=
  max 1 (time.nanos ⌈/⌉ plan.request.retryInterval.nanos)

namespace World

variable {plan : Plan} {w : World} {acc : List CallId}

/-- The moment of the given number of retry intervals after the start, in nanoseconds. -/
def tick (plan : Plan) (w : World) (n : Nat) : Nat :=
  w.begun.nanos + n * plan.request.retryInterval.nanos

/-- What every run keeps about the number of attempts and the time. -/
structure Paced (plan : Plan) (w : World) : Prop where
  bounded : w.shared.attempts ≤ 1 ∨
    w.tick plan (w.shared.attempts - 1) < (w.deadline plan).nanos
  inAttempt : w.task.inAttempt → 0 < w.shared.attempts ∧
    w.tick plan (w.shared.attempts - 1) ≤ w.now.nanos
  beginning : w.task = .beginning → w.tick plan w.shared.attempts ≤ w.now.nanos ∧
    (w.shared.attempts = 0 ∨ w.tick plan w.shared.attempts < (w.deadline plan).nanos)
  pausing : ∀ wake, w.task = .pausing wake →
    w.tick plan w.shared.attempts ≤ wake.nanos ∧ wake < w.deadline plan

namespace Paced

theorem of_unattempted (hn : w.shared.attempts = 0) (hb : w.begun ≤ w.now)
    (ht : w.task = .absent ∨ w.task = .beginning) : Paced plan w where
  bounded := Or.inl (by omega)
  inAttempt h := by rcases ht with ht | ht <;> simp [ht, Task.inAttempt] at h
  beginning _ := ⟨by simpa [tick, hn] using Duration.le_iff.mp hb, Or.inl hn⟩
  pausing wake h := by rcases ht with ht | ht <;> simp [ht] at h

/-- Where no attempt is under way or to come, only the bound is left to keep. -/
theorem of_over (hb : w.shared.attempts ≤ 1 ∨
      w.tick plan (w.shared.attempts - 1) < (w.deadline plan).nanos)
    (ha : w.task.inAttempt = false) (ht : w.task ≠ .beginning)
    (hp : ∀ wake, w.task ≠ .pausing wake) : Paced plan w where
  bounded := hb
  inAttempt h := by simp [ha] at h
  beginning h := absurd h ht
  pausing wake h := absurd h (hp wake)

theorem of_attempting (h : Paced plan w) {after : World} (ht : w.task.inAttempt)
    (hat : after.task.inAttempt) (hs : after.shared = w.shared) (hn : after.now = w.now) :
    Paced plan after := by
  have hbegun : after.begun = w.begun := by rw [begun, begun, hs, hn]
  have htick : ∀ n, after.tick plan n = w.tick plan n := fun n => by rw [tick, tick, hbegun]
  have hd : after.deadline plan = w.deadline plan := by rw [deadline_eq, deadline_eq, hbegun]
  refine ⟨?_, fun _ => ?_, fun hk => ?_, fun wake hk => ?_⟩
  · rw [hs, htick, hd]
    exact h.bounded
  · rw [hs, htick, hn]
    exact h.inAttempt ht
  · simp [hk, Task.inAttempt] at hat
  · simp [hk, Task.inAttempt] at hat

theorem taskStep (h : Paced plan w) : Paced plan (w.step plan .task) := by
  have hm := taskStep_move plan w
  rw [show w.step plan .task = w.taskStep plan from rfl]
  generalize w.taskStep plan = after at hm
  cases hm with
  | wait => exact h
  | begin ht countable =>
    obtain ⟨hle, hlt⟩ := h.beginning ht
    refine ⟨?_, fun _ => ⟨Nat.succ_pos _, hle⟩, nofun, nofun⟩
    exact hlt.imp (fun h0 => by simp [h0]) id
  | ask ht | pend ht | take ht | check ht =>
    exact h.of_attempting (by rw [ht]; rfl) rfl rfl rfl
  | retry ht hj hr =>
    obtain ⟨hpos, hle⟩ := h.inAttempt (by rw [ht]; rfl)
    -- The pause begins no earlier than the attempt did, and lasts an interval.
    have hwake : w.tick plan w.shared.attempts ≤
        (w.now + plan.request.retryInterval).nanos := by
      obtain ⟨n, hn⟩ := Nat.exists_eq_succ_of_ne_zero (Nat.ne_of_gt hpos)
      rw [hn, Nat.succ_sub_one] at hle
      rw [hn, tick, Nat.succ_mul, Duration.nanos_add]
      rw [tick] at hle
      omega
    have hlt : w.now + plan.request.retryInterval < w.deadline plan := by
      rw [remaining, Duration.lt_iff, Duration.nanos_sub] at hr
      rw [Duration.lt_iff, Duration.nanos_add]
      omega
    refine ⟨h.bounded, nofun, nofun, ?_⟩
    rintro wake ⟨rfl⟩
    exact ⟨hwake, hlt⟩
  | wake ht unstopped elapsed =>
    obtain ⟨hle, hlt⟩ := h.pausing _ ht
    exact ⟨h.bounded, nofun, fun _ => ⟨Nat.le_trans hle elapsed, Or.inr (Nat.lt_of_le_of_lt hle hlt)⟩,
      nofun⟩
  | overflow | leave | expire | select | abort | abandon | late | close | deliver =>
    exact of_over h.bounded rfl nofun nofun

/-- Before the task is set to work, nothing but its being set to work happens to it. -/
theorem step_of_absent (hd : Delivers plan acc w) (hk : Keeps acc w) (ht : w.task = .absent)
    (a : Action) : Paced plan (w.step plan a) := by
  have hn : (w.step plan a).shared.attempts = 0 ∧
      ((w.step plan a).task = .absent ∨ (w.step plan a).task = .beginning) := by
    have h0 := (hk.fresh ht).1
    have hm := step_move plan w a
    generalize w.step plan a = after at hm
    cases hm with
    | start | stop | noCall | unasked | advance => exact ⟨h0, Or.inl ht⟩
    | replyAtOnce _ hr | reply _ hr => simp [ht] at hr
    | call hc split hs move =>
      cases move with
      | launch => exact ⟨h0, Or.inr rfl⟩
      | accept | refuse | refused | signal | late | cancel | stopped => exact ⟨h0, Or.inl ht⟩
    | task move =>
      rw [move.eq_self (by rw [taskDue, ht])]
      exact ⟨h0, Or.inl ht⟩
  exact of_unattempted hn.1 (hk.step hd a).begun_le hn.2

theorem advance (h : Paced plan w) {after : World} (hbegun : after.begun = w.begun)
    (hs : after.shared = w.shared) (ht : after.task = w.task) (hn : w.now ≤ after.now) :
    Paced plan after := by
  have htick : ∀ n, after.tick plan n = w.tick plan n := fun n => by rw [tick, tick, hbegun]
  have hdead : after.deadline plan = w.deadline plan := by rw [deadline_eq, deadline_eq, hbegun]
  refine ⟨?_, fun ha => ?_, fun hb => ?_, fun wake hp => ?_⟩
  · rw [hs, htick, hdead]
    exact h.bounded
  · rw [hs, htick]
    obtain ⟨hpos, hle⟩ := h.inAttempt (ht ▸ ha)
    exact ⟨hpos, Nat.le_trans hle hn⟩
  · rw [hs, htick, hdead]
    obtain ⟨hle, hlt⟩ := h.beginning (ht ▸ hb)
    exact ⟨Nat.le_trans hle hn, hlt⟩
  · rw [hs, htick, hdead]
    exact h.pausing wake (ht ▸ hp)

theorem step (h : Paced plan w) (hd : Delivers plan acc w) (hk : Keeps acc w) (a : Action) :
    Paced plan (w.step plan a) := by
  by_cases hl : w.task.isLaunched
  case neg => exact step_of_absent hd hk (Task.eq_absent hl) a
  have hbegun := hk.begun_step hd hl a
  have hm := step_move plan w a
  cases a with
  | task => exact h.taskStep
  | advance d => exact h.advance hbegun rfl rfl (Nat.le_add_right _ _)
  | start | stop => exact ⟨h.bounded, h.inAttempt, h.beginning, h.pausing⟩
  | reply r =>
    generalize w.step plan (.reply r) = after at hm
    cases hm with
    | unasked => exact h
    | replyAtOnce _ ht | reply _ ht => exact h.of_attempting (by rw [ht]; rfl) rfl rfl rfl
  | call i =>
    generalize w.step plan (.call i) = after at hm hbegun
    cases hm with
    | noCall => exact h
    | call hc split hs move =>
      cases move with
      | accept id idle => simp [hd.absent_of_idle idle, Task.isLaunched] at hl
      | launch id =>
        have ht := hd.absent_of_accepted (List.mem_of_getElem? hc)
        simp [ht, Task.isLaunched] at hl
      | refuse | refused | signal | late | cancel | stopped =>
        exact ⟨h.bounded, h.inAttempt, h.beginning, h.pausing⟩

theorem init (plan : Plan) : Paced plan {} :=
  of_unattempted rfl (Nat.le_refl _) (Or.inl rfl)

theorem run (plan : Plan) (actions : List Action) : Paced plan (World.run plan {} actions) := by
  induction actions using List.reverseRecOn with
  | nil => exact init plan
  | append_singleton actions a ih =>
    rw [run_concat]
    exact ih.step (.run plan actions) (.run plan actions) a

theorem attempts_le (h : Paced plan w) (hr : .zero < plan.request.retryInterval) :
    w.shared.attempts ≤ attemptsWithin plan (budget plan w.begun) := by
  rw [attemptsWithin, le_max_iff]
  refine h.bounded.imp id fun hlt => ?_
  rw [deadline_eq, Arbitration.deadline, tick, Duration.nanos_add, Nat.add_lt_add_iff_left] at hlt
  have hpos : 0 < plan.request.retryInterval.nanos := hr
  by_contra hmany
  have hle : (budget plan w.begun).nanos ⌈/⌉ plan.request.retryInterval.nanos ≤
      w.shared.attempts - 1 := by omega
  rw [ceilDiv_le_iff_le_mul hpos, Nat.mul_comm] at hle
  exact absurd hle (Nat.not_le_of_lt hlt)

end Paced

end World

end Arbiter.Arbitration
