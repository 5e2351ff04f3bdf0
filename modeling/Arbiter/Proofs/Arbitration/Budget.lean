import Arbiter.Proofs.Arbitration.Exchanges
import Arbiter.Proofs.Arbitration.Pace
import Arbiter.Proofs.Arbitration.Playing

/-!
An arbitration ends within its budget: the outcome is told no later than the first whole millisecond
at which the time to try is over, whatever the discovery service does.
-/

namespace Arbiter.Arbitration

open Discovery

namespace Exchange

/-- Whether the lookup was made by the given moment, and the reply had not come. -/
def outstandingAt (moment : Instant) (x : Exchange) : Bool :=
  x.asked ≤ moment && x.arrival?.all (moment < ·)

/-- The reply to one lookup comes before another is made. -/
def Precedes (x y : Exchange) : Prop := ∃ t, x.arrival? = some t ∧ t ≤ y.asked

theorem asked_le_arrival {x : Exchange} {t : Instant} (h : x.arrival? = some t) : x.asked ≤ t := by
  obtain ⟨d, -, rfl⟩ := Option.map_eq_some_iff.mp h
  exact le_trans (Duration.le_add x.asked d) (Duration.le_ceilMillis _)

instance : IsTrans Exchange Precedes where
  trans _ _ _ := by
    rintro ⟨t, ht, hle⟩ ⟨t', ht', hle'⟩
    exact ⟨t, ht, le_trans hle (le_trans (asked_le_arrival ht') hle')⟩

theorem Precedes.not_outstanding {x y : Exchange} (h : x.Precedes y) (moment : Instant) :
    ¬(x.outstandingAt moment ∧ y.outstandingAt moment) := by
  rintro ⟨hx, hy⟩
  obtain ⟨t, ht, hle⟩ := h
  simp only [outstandingAt, Bool.and_eq_true, decide_eq_true_eq, ht, Option.all_some] at hx hy
  exact not_lt_of_ge (le_trans hle hy.1) hx.2

end Exchange

namespace World

variable {plan : Plan} {w : World} {acc : List CallId}

theorem answersTo_eq_nil {id : CallId} (h : ∀ outcome, (id, outcome) ∉ w.told) :
    w.answersTo id = [] := by
  rw [answersTo, List.map_eq_nil_iff, List.filter_eq_nil_iff]
  rintro ⟨caller, outcome⟩ hmem hid
  obtain rfl : caller = id := by simpa using hid
  exact h outcome hmem

/-- A start was accepted whose caller is still to be told. -/
def Awaited (acc : List CallId) (w : World) : Prop :=
  ∃ id ∈ acc, ∀ outcome, (id, outcome) ∉ w.told

/-- While a caller waits for the outcome and no call is under way, the task is at work or could not
count its attempts. -/
theorem working_of_awaited (hd : Delivers plan acc w) (hk : Keeps acc w) (awaited : Awaited acc w)
    (calls : w.calls = []) (waiting : ∀ due ∈ w.taskDue plan, w.now < due) :
    w.task = .overflowed ∨ w.shared.stopSignalled = false ∧
      ((∃ attempt, w.task = .polling attempt .outstanding) ∨ ∃ wake, w.task = .pausing wake) := by
  obtain ⟨id, hid, untold⟩ := awaited
  have hbusy := taskDue_ne_now waiting
  have hterm : w.shared.phase.isTerminal = false := by
    by_contra ht
    rcases hd.ended (by simpa using ht) id hid with ⟨before, runtime, hc, _⟩ |
      ⟨before, outcome, hk, _⟩ | ⟨outcome, ho, _⟩
    · simp [calls] at hc
    · exact hbusy (by simp [taskDue, hk])
    · exact untold outcome ho
  have hlaunched := hd.launched_of_accepted (List.ne_nil_of_mem hid) calls
  cases rests_of_later waiting with
  | absent ht => simp [ht, Task.isLaunched] at hlaunched
  | finished ht => simp [hk.terminal_of_finished calls ht] at hterm
  | overflowed ht => exact Or.inl ht
  | outstanding ht unstopped => exact Or.inr ⟨unstopped, Or.inl ⟨_, ht⟩⟩
  | pausing ht unstopped => exact Or.inr ⟨unstopped, Or.inr ⟨_, ht⟩⟩

theorem begun_of_accepted (plan : Plan) (w : World) {a : Action} (ha : acceptedIn plan w a ≠ []) :
    (w.step plan a).begun = (w.step plan a).now := by
  have hm := step_move plan w a
  generalize w.step plan a = after at hm
  cases hm with
  | call hc split hs move =>
    simp only [acceptedIn, hc, hs, Option.map_some] at ha
    cases move with
    | accept => rfl
    | refuse | refused | launch | signal | late | cancel | stopped => exact absurd rfl ha
  | noCall hc => simp [acceptedIn, hc] at ha
  | start | stop | replyAtOnce | reply | unasked | advance | task => exact absurd rfl ha

theorem startedAt_step (plan : Plan) (w : World) (a : Action) :
    (w.step plan a).shared.startedAt = w.shared.startedAt ∨
      (w.step plan a).shared.startedAt = some w.now := by
  have hm := step_move plan w a
  generalize w.step plan a = after at hm
  cases hm with
  | call hc split hs move =>
    cases move with
    | accept => exact Or.inr rfl
    | refuse | refused | launch | signal | late | cancel | stopped => exact Or.inl rfl
  | task move =>
    obtain ⟨-, -, hstart⟩ := move.frame
    exact Or.inl hstart
  | start | stop | noCall | replyAtOnce | reply | unasked | advance => exact Or.inl rfl

end World

namespace Clocked

open World

variable {s : Clocked} {acc : List CallId}

/-- As long as a caller waits for the outcome of attempts that can be counted, the time to try is
not over for longer than it takes a timer to fire. -/
def OnTime (acc : List CallId) (s : Clocked) : Prop :=
  Awaited acc s.world → s.world.task = .overflowed ∨
    s.world.now ≤ (s.world.deadline s.plan).ceilMillis

theorem advance_le_deadline (hd : Delivers s.plan acc s.world) (hk : Keeps acc s.world)
    (hp : Paced s.plan s.world) {d : Duration} (ha : s.Allows (.advance d))
    (awaited : Awaited acc s.world) :
    s.world.task = .overflowed ∨ s.world.now + d ≤ (s.world.deadline s.plan).ceilMillis := by
  obtain ⟨calls, _, hdue⟩ := ha
  have hdue' : ∀ due ∈ s.world.taskDue s.plan,
      s.world.now < due ∧ s.world.now + d ≤ due.ceilMillis :=
    fun due hmem => hdue due (by simp [dues, Option.mem_def.mp hmem])
  refine (working_of_awaited hd hk awaited calls fun due hmem => (hdue' due hmem).1).imp id ?_
  rintro ⟨unstopped, ⟨attempt, ht⟩ | ⟨wake, ht⟩⟩
  · exact (hdue' _ (by simp [taskDue, ht, unstopped])).2
  · have hwake := (hdue' wake (by simp [taskDue, ht, unstopped])).2
    exact le_trans hwake (Duration.ceilMillis_mono (le_of_lt (hp.pausing wake ht).2))

namespace OnTime

theorem step (h : OnTime acc s) (hd : Delivers s.plan acc s.world) (hk : Keeps acc s.world)
    (hp : Paced s.plan s.world) {a : Action} (ha : s.Allows a) :
    OnTime (acc ++ acceptedIn s.plan s.world a) (s.step a) := by
  rintro ⟨id, hid, untold⟩
  rw [step_world] at untold
  rw [step_world, step_plan, deadline_eq]
  by_cases hacc : acc = []
  case pos =>
    have hnew : acceptedIn s.plan s.world a ≠ [] := by
      rintro hnil
      simp [hacc, hnil] at hid
    right
    rw [begun_of_accepted s.plan s.world hnew]
    exact le_trans (Duration.le_add _ _) (Duration.le_ceilMillis _)
  have awaited : Awaited acc s.world :=
    ⟨id, by simpa [hd.acceptedIn_eq_nil hacc] using hid, fun outcome ho =>
      untold outcome ((told_suffix s.plan s.world a).subset ho)⟩
  rw [hk.begun_step_of_accepted hd hacc, ← deadline_eq]
  have hstays := fun ht => hd.overflowed_stays ht a
  by_cases hadvance : ∃ d, a = .advance d
  case pos =>
    obtain ⟨d, rfl⟩ := hadvance
    exact (advance_le_deadline hd hk hp ha awaited).imp_left hstays
  case neg =>
    rw [now_step s.plan s.world fun d hd => hadvance ⟨d, hd⟩]
    exact (h awaited).imp_left hstays

theorem run {plan : Plan} {service : Service} {actions : List Action}
    (timely : Timely { plan, service } actions) :
    OnTime (accepted plan {} actions) (Clocked.run { plan, service } actions) := by
  induction actions using List.reverseRecOn with
  | nil =>
    rintro ⟨id, hid, _⟩
    cases hid
  | append_singleton actions a ih =>
    rw [timely_concat] at timely
    have hd := Delivers.run plan actions
    have hk := Keeps.run plan actions
    have hp := Paced.run plan actions
    have hstep := (ih timely.1).step (by simpa using hd) (by simpa using hk) (by simpa using hp)
      timely.2
    rw [accepted, gather_concat, run_concat, ← accepted]
    simpa using hstep

end OnTime

/-- In the run, the caller was told an outcome by the limit, or the limit is not over yet. This is not
asked of attempts that can no longer be counted. -/
def ToldBy (plan : Plan) (actions : List Action) (id : CallId) (limit : Instant) : Prop :=
  (World.run plan {} actions).task = .overflowed ∨
    (World.run plan {} actions).answersTo id = [] ∧ (World.run plan {} actions).now ≤ limit ∨
    ∃ earlier outcome, earlier <+: actions ∧
      (World.run plan {} earlier).answersTo id = [outcome] ∧
      (World.run plan {} earlier).now ≤ limit

theorem told_in_time {plan : Plan} {service : Service} {actions : List Action}
    (timely : Timely { plan, service } actions) {id : CallId}
    (hid : id ∈ accepted plan {} actions) :
    ToldBy plan actions id ((World.run plan {} actions).deadline plan).ceilMillis := by
  induction actions using List.reverseRecOn with
  | nil => cases hid
  | append_singleton actions a ih =>
    have hd := Delivers.run plan actions
    have hk := Keeps.run plan actions
    by_cases awaited : ∀ outcome, (id, outcome) ∉ (World.run plan {} (actions ++ [a])).told
    case pos =>
      have hot : OnTime _ _ := OnTime.run timely
      rw [OnTime, Awaited, run_plan, Clocked.run_world] at hot
      exact (hot ⟨id, hid, awaited⟩).imp_right fun hle => Or.inl ⟨answersTo_eq_nil awaited, hle⟩
    obtain ⟨outcome, ho⟩ : ∃ outcome, (id, outcome) ∈ (World.run plan {} (actions ++ [a])).told := by
      simpa using awaited
    -- Told in the whole run, it is left to show that a part of the run that told is in time.
    have hwhole {limit : Instant} (hle : (World.run plan {} (actions ++ [a])).now ≤ limit) :
        ToldBy plan (actions ++ [a]) id limit :=
      Or.inr (Or.inr ⟨_, outcome, List.prefix_refl _,
        (Delivers.run plan (actions ++ [a])).answersTo_eq ho, hle⟩)
    rw [timely_concat] at timely
    rw [accepted, gather_concat, ← accepted] at hid
    by_cases hacc : accepted plan {} actions = []
    case pos =>
      have hnew : acceptedIn plan (World.run plan {} actions) a ≠ [] := by
        rintro hnil
        simp [hacc, hnil] at hid
      refine hwhole ?_
      rw [World.run_concat, deadline_eq, begun_of_accepted plan _ hnew]
      exact le_trans (Duration.le_add _ _) (Duration.le_ceilMillis _)
    rw [hd.acceptedIn_eq_nil hacc, List.append_nil] at hid
    have hlimit : (World.run plan {} (actions ++ [a])).deadline plan =
        (World.run plan {} actions).deadline plan := by
      rw [World.run_concat, deadline_eq, hk.begun_step_of_accepted hd hacc, ← deadline_eq]
    rw [hlimit]
    rcases ih timely.1 hid with hover | ⟨huntold, hle⟩ | ⟨earlier, outcome, hpre, htold⟩
    · left
      rw [World.run_concat]
      exact hd.overflowed_stays hover a
    · refine hwhole ?_
      rw [World.run_concat] at ho ⊢
      rw [now_step]
      · exact hle
      · rintro d rfl
        have hbefore := hd.answersTo_eq (show (id, outcome) ∈ (World.run plan {} actions).told from ho)
        simp [huntold] at hbefore
    · exact Or.inr (Or.inr ⟨earlier, outcome, hpre.trans (List.prefix_append _ _), htold⟩)

theorem startedAt_isWhole {plan : Plan} {service : Service} {actions : List Action}
    (timely : Timely { plan, service } actions) :
    ∀ start ∈ (Clocked.run { plan, service } actions).world.shared.startedAt, start.IsWhole := by
  induction actions using List.reverseRecOn with
  | nil => nofun
  | append_singleton actions a ih =>
    rw [timely_concat] at timely
    intro start hs
    rw [run_concat, step_world] at hs
    rcases startedAt_step _ _ a with heq | heq
    · exact ih timely.1 start (heq ▸ hs)
    · obtain rfl := Option.some.inj (heq.symm.trans hs)
      exact (Follows.run timely.1).whole

/-- At no time are two lookups outstanding. -/
theorem Spaced.pairwise {plan : Plan} {xs : List Exchange} (h : Spaced plan xs) :
    xs.Pairwise fun x y => ∀ moment, ¬(x.outstandingAt moment ∧ y.outstandingAt moment) := by
  have hchain : xs.IsChain Exchange.Precedes := List.IsChain.imp (fun x y ⟨t, ht, hle⟩ =>
    ⟨t, ht, le_trans (Duration.le_add t _) hle⟩) h
  exact (List.isChain_iff_pairwise.mp hchain).imp Exchange.Precedes.not_outstanding

/-- An arbitration with a retry interval ends within its budget. Played through, it comes to its
end, whatever the service does and whenever it is stopped. -/
theorem ends_within_budget (plan : Plan) (service : Service)
    (interval : .zero < plan.request.retryInterval) :
    (∀ actions, Timely { plan, service } actions →
      let s := Clocked.run { plan, service } actions
      ∀ start, s.world.shared.startedAt = some start →
        let time := budget plan start
        s.world.shared.attempts ≤ attemptsWithin plan time ∧
        -- The lookups are made one at a time, before the deadline and an interval apart.
        (s.exchanges.Pairwise fun x y =>
          ∀ moment, ¬(x.outstandingAt moment ∧ y.outstandingAt moment)) ∧
        (∀ x ∈ s.exchanges, x.asked < start + time) ∧
        Spaced plan s.exchanges ∧
        -- The outcome is told by the first whole millisecond at which the time to try is over.
        (∀ id ∈ accepted plan {} actions, ToldBy plan actions id (start + time).ceilMillis) ∧
        (time.IsWhole → (start + time).ceilMillis = start + time)) ∧
    ∀ (time : Nat) (stopAfter : Option Duration),
      let result := (Session.fresh plan service time).arbitrate stopAfter
      ∃ more, Timely { plan, service } (Session.opening time ++ more) ∧
        result.1.toClocked = Clocked.run { plan, service } (Session.opening time ++ more) ∧
        (result.1.world.task = .overflowed ∨ result.1.world.task = .finished ∧
          ∃ outcome, result.2 = some outcome ∧ result.1.world.answersTo 0 = [outcome]) := by
  constructor
  · intro actions timely s start hstart time
    have hworld : s.world = World.run plan {} actions := run_world _ actions
    have hplan : s.plan = plan := run_plan _ actions
    have hf := Follows.run timely
    have hbegun : s.world.begun = start := by rw [begun, hstart, Option.getD_some]
    have hdeadline : s.world.deadline s.plan = start + time := by
      rw [hplan, deadline_eq, hbegun]
      rfl
    refine ⟨?_, ?_, ?_, ?_, ?_, ?_⟩
    · have hp : Paced plan s.world := hworld ▸ .run plan actions
      have hle := hp.attempts_le interval
      rwa [hbegun] at hle
    · exact Spaced.pairwise hf.spaced
    · exact hdeadline ▸ hf.asked
    · exact hplan ▸ hf.spaced
    · intro id hid
      have htold := told_in_time timely hid
      rwa [← hworld, ← hplan, hdeadline, hplan] at htold
    · intro whole
      exact (startedAt_isWhole timely start hstart).add whole
  · intro time stopAfter
    obtain ⟨more, timely, -, hs, hend⟩ := Session.arbitrate_ends plan service time stopAfter
    exact ⟨more, timely, hs, hend⟩

/-- A service that never replies. -/
def silence : Service := fun _ _ => { reply := .ok [], delay := none }

/-- The only lookup is given up when its time is over. -/
def givenUp : List Action :=
  [.start true, .call 0, .call 0, .task, .task, .task, .advance (.ofMillis 150), .task, .task, .task]

theorem silence_ends_in_time :
    (Clocked.run { plan := twoAttempts, service := silence } givenUp).world.shared.attempts ≤ 2 ∧
      ToldBy twoAttempts givenUp 0 (.ofMillis 150) := by
  have interval : .zero < twoAttempts.request.retryInterval := by decide
  have timely : Timely { plan := twoAttempts, service := silence } givenUp := by decide +kernel
  obtain ⟨hattempts, -, -, -, htold, -⟩ :=
    (ends_within_budget twoAttempts silence interval).1 givenUp timely .zero rfl
  have hbudget : budget twoAttempts .zero = .ofMillis 150 := by decide +kernel
  rw [hbudget] at hattempts htold
  have hwithin : attemptsWithin twoAttempts (.ofMillis 150) = 2 := by decide +kernel
  have hlimit : (Duration.zero + .ofMillis 150).ceilMillis = .ofMillis 150 := by decide +kernel
  refine ⟨hwithin ▸ hattempts, hlimit ▸ htold 0 ?_⟩
  rw [show accepted twoAttempts {} givenUp = [0] from rfl]
  exact List.mem_singleton_self 0

end Clocked

end Arbiter.Arbitration
