import Arbiter.Proofs.Arbitration.Decision
import Arbiter.Proofs.Arbitration.Lookups
import Arbiter.Proofs.Arbitration.Pace

/-!
Attempts that come in time. Where there is time to try at all and the retry interval is a number of
milliseconds, no timer fires late, so each attempt of a timely run that nobody stops makes its lookup.
-/

namespace Arbiter.Arbitration

open Discovery

variable {plan : Plan}

theorem budget_pos (timeout : .zero < plan.request.timeout) (start : Instant) :
    .zero < budget plan start := by
  unfold budget
  split_ifs
  · exact timeout
  · decide +kernel

theorem lt_deadline (timeout : .zero < plan.request.timeout) (start : Instant) :
    start < deadline plan start := by
  have hpos := budget_pos timeout start
  rw [deadline, Duration.lt_iff, Duration.nanos_add]
  rw [Duration.lt_iff] at hpos
  have hzero : Duration.zero.nanos = 0 := rfl
  omega

namespace World

variable {w : World}

/-- Past its beginning the task has counted an attempt. -/
theorem attempts_pos_step (h : w.task.isLaunched → w.task = .beginning ∨ 0 < w.shared.attempts)
    (a : Action) (ht : (w.step plan a).task.isLaunched) :
    (w.step plan a).task = .beginning ∨ 0 < (w.step plan a).shared.attempts := by
  have hm := step_move plan w a
  generalize w.step plan a = after at hm ht
  cases hm with
  | start | stop | noCall | unasked | advance => exact h ht
  | replyAtOnce _ hk | reply _ hk => simpa [hk, Task.isLaunched] using h
  | call hc split hs move =>
    cases move with
    | launch => exact Or.inl rfl
    | accept | refuse | refused | signal | late | cancel | stopped => exact h ht
  | task move =>
    have hpos (hl : w.task.isLaunched) (hk : w.task ≠ .beginning) : 0 < w.shared.attempts :=
      (h hl).resolve_left hk
    cases move with
    | wait => exact h ht
    | begin => exact Or.inr (Nat.succ_pos _)
    | overflow hk uncountable =>
      have hlimit : 1 < attemptLimit := by decide +kernel
      exact Or.inr (by dsimp only; omega)
    | leave heeding =>
      refine Or.inr (hpos (Task.undecided_of_heedsStops heeding).2.2 fun hk => ?_)
      simp [hk, Task.heedsStops] at heeding
    | wake hk => exact Or.inl rfl
    | expire hk | ask hk | pend hk | take hk | check hk | select hk | abort hk | retry hk
    | abandon hk | late hk | close hk | deliver hk =>
      exact Or.inr (hpos (by rw [hk]; rfl) (by simp [hk]))

theorem attempts_pos (plan : Plan) (actions : List Action)
    (ht : (World.run plan {} actions).task.isLaunched) :
    (World.run plan {} actions).task = .beginning ∨
      0 < (World.run plan {} actions).shared.attempts := by
  induction actions using List.reverseRecOn with
  | nil => cases ht
  | append_singleton actions a ih =>
    rw [run_concat] at ht ⊢
    exact attempts_pos_step ih a ht

end World

namespace Clocked

open World

variable {s : Clocked} {acc : List CallId} {rs : List Reply} {a : Action}

/-- No time passes between a start that is accepted and the work on it. -/
theorem now_eq_begun_of_accepted {service : Service} {actions : List Action}
    (timely : Timely { plan, service } actions) {id : CallId}
    (hc : .accepted id ∈ (World.run plan {} actions).calls) :
    (World.run plan {} actions).now = (World.run plan {} actions).begun := by
  induction actions using List.reverseRecOn with
  | nil => cases hc
  | append_singleton actions a ih =>
    rw [timely_concat] at timely
    have hd := Delivers.run plan actions
    have hk := Keeps.run plan actions
    have ha := timely.2
    rw [World.run_concat] at hc ⊢
    by_cases hold : .accepted id ∈ (World.run plan {} actions).calls
    case pos =>
      have hacc : World.accepted plan {} actions ≠ [] := by
        intro hnone
        have hpos : 0 < (World.run plan {} actions).calls.countP Call.isAccepted :=
          List.countP_pos_iff.mpr ⟨_, hold, rfl⟩
        have hl := hd.launched
        rw [hnone, List.length_nil] at hl
        omega
      rw [hk.begun_step_of_accepted hd hacc, now_step]
      · exact ih timely.1 hold
      · rintro d rfl
        obtain ⟨hcalls, -⟩ := ha
        rw [Clocked.run_world] at hcalls
        simp [hcalls] at hold
    case neg =>
      have hm := step_move plan (World.run plan {} actions) a
      generalize (World.run plan {} actions).step plan a = after at hm hc
      cases hm with
      | start | stop => simp [hold] at hc
      | noCall | replyAtOnce | reply | unasked | advance => exact absurd hc hold
      | call hi split hs move =>
        cases move with
        | accept => rfl
        | refuse | refused | launch | signal | late | cancel | stopped =>
          rw [split] at hold
          simp only [List.mem_append, List.mem_cons] at hc hold
          simp_all
      | task move =>
        obtain ⟨-, hcalls, -⟩ := move.frame
        exact absurd (hcalls ▸ hc) hold

/-- An attempt that is due can still be made. -/
structure Punctual (s : Clocked) : Prop where
  accepted : ∀ id, .accepted id ∈ s.world.calls → s.world.now < s.world.deadline s.plan
  beginning : s.world.task = .beginning ∨ s.world.task.isDue →
    s.world.now < s.world.deadline s.plan
  pausing : ∀ wake, s.world.task = .pausing wake → wake.IsWhole

namespace Punctual

theorem beginning_step (h : Punctual s) (hd : Delivers s.plan acc s.world)
    (hp : Paced s.plan s.world) (hf : Follows rs s) (ha : s.Allows a)
    (ht : (s.world.step s.plan a).task = .beginning ∨ (s.world.step s.plan a).task.isDue) :
    (s.world.step s.plan a).now < (s.world.step s.plan a).deadline s.plan := by
  have hm := step_move s.plan s.world a
  generalize s.world.step s.plan a = after at hm ht
  cases hm with
  | start | stop | noCall | unasked => exact h.beginning ht
  | replyAtOnce | reply => simp [Task.isDue] at ht
  | advance d =>
    obtain ⟨-, -, hdue⟩ := ha
    have hnow : s.world.taskDue s.plan = some s.world.now := by
      rcases ht with ht | ht
      · simp [taskDue, show s.world.task = .beginning from ht]
      · obtain ⟨attempt, remaining, ht⟩ := Task.isDue_iff.mp ht
        simp [taskDue, show s.world.task = .polling attempt (.due remaining) from ht]
    exact absurd (hdue s.world.now (by simp [dues, hnow])).1 (lt_irrefl _)
  | call hc split hs move =>
    cases move with
    | launch id => exact h.accepted id (List.mem_of_getElem? hc)
    | accept id idle => simp [hd.absent_of_idle idle, Task.isDue] at ht
    | refuse | refused | signal | late | cancel | stopped => exact h.beginning ht
  | task move =>
    cases move with
    | wait => exact h.beginning ht
    | begin hk => exact h.beginning (Or.inl hk)
    | wake hk unstopped elapsed =>
      have hst := hf.stage
      rw [hk] at hst
      generalize s.exchanges = xs at hst
      cases hst with
      | pausing answered rested unmissed =>
        -- The pause ends on a whole millisecond, so its timer fires then and not later.
        rw [h.pausing _ hk] at unmissed
        exact lt_of_le_of_lt unmissed (hp.pausing _ hk).2
    | overflow | leave | expire | ask | pend | take | check | select | abort | retry | abandon
    | late | close | deliver => simp [Task.isDue] at ht

theorem pausing_step (h : Punctual s) (hf : Follows rs s)
    (interval : s.plan.request.retryInterval.IsWhole) (wake : Instant)
    (ht : (s.world.step s.plan a).task = .pausing wake) : wake.IsWhole := by
  have hm := step_move s.plan s.world a
  generalize s.world.step s.plan a = after at hm ht
  cases hm with
  | start | stop | noCall | unasked | advance => exact h.pausing wake ht
  | replyAtOnce | reply => cases ht
  | call hc split hs move =>
    cases move with
    | launch => cases ht
    | accept | refuse | refused | signal | late | cancel | stopped => exact h.pausing wake ht
  | task move =>
    cases move with
    | wait => exact h.pausing wake ht
    | retry =>
      obtain rfl := Task.pausing.inj ht
      exact hf.whole.add interval
    | _ => cases ht

theorem run {service : Service} {actions : List Action}
    (timeout : .zero < plan.request.timeout) (interval : plan.request.retryInterval.IsWhole)
    (timely : Timely { plan, service } actions) :
    Punctual (Clocked.run { plan, service } actions) := by
  induction actions using List.reverseRecOn with
  | nil => exact ⟨nofun, by simp [Clocked.run, Task.isDue], nofun⟩
  | append_singleton actions a ih =>
    have haccepted : ∀ id, .accepted id ∈ (World.run plan {} (actions ++ [a])).calls →
        (World.run plan {} (actions ++ [a])).now <
          (World.run plan {} (actions ++ [a])).deadline plan := by
      intro id hc
      rw [now_eq_begun_of_accepted timely hc]
      exact lt_deadline timeout _
    rw [timely_concat] at timely
    have h := ih timely.1
    have hf := Follows.run timely.1
    have hplan : (Clocked.run { plan, service } actions).plan = plan := run_plan _ actions
    have hworld : (Clocked.run { plan, service } actions).world = World.run plan {} actions :=
      run_world _ actions
    have hd := Delivers.run plan actions
    have hp := Paced.run plan actions
    rw [World.run_concat, ← hworld] at haccepted
    rw [run_concat]
    generalize Clocked.run { plan, service } actions = s at h hf hplan hworld timely haccepted ⊢
    subst hplan
    rw [← hworld] at hd hp
    refine ⟨?_, ?_, ?_⟩
    · rw [step_world, step_plan]
      exact haccepted
    · rw [step_world, step_plan]
      exact h.beginning_step hd hp hf timely.2
    · rw [step_world]
      exact h.pausing_step hf interval

end Punctual

/-- Where each attempt comes in time and nobody stops them, the attempts that were counted are the
lookups that were made. -/
theorem attempts_eq_lookups {service : Service} {actions : List Action}
    (timeout : .zero < plan.request.timeout) (interval : plan.request.retryInterval.IsWhole)
    (timely : Timely { plan, service } actions) (unstopped : ∀ runtime, .stop runtime ∉ actions)
    (hdue : (World.run plan {} actions).task.isDue = false) :
    (World.run plan {} actions).shared.attempts = (World.run plan {} actions).lookups.length := by
  induction actions using List.reverseRecOn with
  | nil => rfl
  | append_singleton actions a ih =>
    rw [timely_concat] at timely
    have hcalm : ∀ runtime, .stop runtime ∉ actions := fun runtime hr => unstopped runtime (by simp [hr])
    have hpunctual := (Punctual.run timeout interval timely.1).beginning
    rw [Clocked.run_world, run_plan] at hpunctual
    have hunstopped := Unstopped.run plan hcalm
    have hcounts := Counts.run plan actions
    have hd := Delivers.run plan actions
    have hbefore := ih timely.1 hcalm
    rw [World.run_concat] at hdue ⊢
    cases step_lookupMove hd a with
    | keep hkeep hn hl => rw [hn, hl, hbefore (hkeep ▸ hdue)]
    | count _ hcount => simp [hcount] at hdue
    | ask ht _ _ _ hn hl =>
      rw [hn, hl, hcounts.due (by rw [ht]; rfl), List.length_append, List.length_singleton]
    | drop due cut =>
      rcases cut with hs | hle
      · simp [hunstopped.signal] at hs
      · exact absurd hle (not_le_of_gt (hpunctual (Or.inr due)))

/-- The counters of attempts agree. They are the number of lookups, or one ahead while a lookup is
due, and for good if a stop or the deadline came in between. -/
theorem attempts_count_lookups (plan : Plan) :
    (∀ actions,
      let w := World.run plan {} actions
      w.attemptsCounted = w.shared.attempts ∧
        (w.shared.attempts = w.lookups.length ∨
          w.shared.attempts = w.lookups.length + 1 ∧
            (w.task.isDue ∨ w.task.isWorking = false ∧ CutOff plan w ∧
              ∀ more, (w.run plan more).lookups = w.lookups))) ∧
    -- To lose a lookup takes a stop, no time to try, or an interval of no whole milliseconds.
    (.zero < plan.request.timeout → plan.request.retryInterval.IsWhole →
      ∀ service actions, Timely { plan, service } actions → (∀ runtime, .stop runtime ∉ actions) →
        let w := World.run plan {} actions
        w.task.isDue = false → w.shared.attempts = w.lookups.length) := by
  constructor
  · intro actions w
    exact ⟨(Counts.run plan actions).counted, attempts_eq_or_one_ahead plan actions⟩
  · intro timeout interval service actions timely unstopped w hdue
    exact attempts_eq_lookups timeout interval timely unstopped hdue

/-- A plan without any time to try. -/
def noTime : Plan := { twoAttempts with request := { timeout := .zero } }

/-- With no time to try, an attempt is counted, and the discovery service is not asked. -/
theorem noTime_counts_no_lookup :
    let w := World.run noTime {} [.start true, .call 0, .call 0, .task, .task, .task, .task]
    w.task = .finished ∧ w.shared.attempts = 1 ∧ w.attemptsCounted = 1 ∧ w.lookups = [] := by
  refine ⟨?_, ?_, ?_, ?_⟩
  · rfl
  · rfl
  · decide +kernel
  · rfl

end Clocked

end Arbiter.Arbitration
