import Arbiter.Proofs.Arbitration.Decisive
import Arbiter.Proofs.Arbitration.Progress
import Arbiter.Proofs.Arbitration.Schedule
import Arbiter.Proofs.Resolve

/-!
The numbers of the attempts. They are given out from one on and never twice, and whether they can
run out hangs on how many attempts fit into the time to try: where there are as many as cannot be
counted, a service that replies at once and never decides anything uses the numbers up, and nobody
is told.
-/

namespace Arbiter

open Discovery

/-- The number of an attempt that came to nothing, by its record. -/
def Log.Event.failedAttempt? : Log.Event → Option Nat
  | .attemptFailed attempt .. => some attempt
  | _ => none

namespace Arbitration

theorem attemptLimit_pos : 0 < attemptLimit := by
  decide +kernel

namespace World

variable {plan : Plan} {w : World} {acc : List CallId}

/-- The numbers of the attempts that came to nothing, in the order of their records. -/
def failedAttempts (w : World) : List Nat :=
  w.events.filterMap Log.Event.failedAttempt?

@[simp] theorem failedAttempts_mk (now : Instant) (shared : Shared) (calls : List Call)
    (task : Task) (starts : Nat) :
    failedAttempts ⟨now, shared, calls, task, starts, w.trace⟩ = w.failedAttempts := rfl

@[simp] theorem failedAttempts_emit (hs : List Happening) :
    (w.emit hs).failedAttempts = w.failedAttempts ++
      (hs.filterMap Happening.event?).filterMap Log.Event.failedAttempt? := by
  simp [failedAttempts, List.filterMap_append]

section Read

variable (es : List Log.Event)

@[simp] theorem failed_started (target strategy required : String) (timeout : Nat) :
    (.started target strategy required timeout :: es).filterMap Log.Event.failedAttempt? =
      es.filterMap Log.Event.failedAttempt? := rfl

@[simp] theorem failed_attemptFailed (attempt : Nat) (cause : String) (willRetry : Bool) :
    (.attemptFailed attempt cause willRetry :: es).filterMap Log.Event.failedAttempt? =
      attempt :: es.filterMap Log.Event.failedAttempt? := rfl

@[simp] theorem failed_cancelled (interface : String) (attempts : Nat) :
    (.cancelled interface attempts :: es).filterMap Log.Event.failedAttempt? =
      es.filterMap Log.Event.failedAttempt? := rfl

end Read

@[simp] theorem failed_endRecord (outcome : Outcome) (attempts elapsed : Nat) :
    (endRecord outcome attempts elapsed).failedAttempt? = none := by
  cases outcome <;> rfl

@[simp] theorem failedAttempts_deliver (before : Shared) (outcome : Outcome) :
    (w.deliver before outcome).failedAttempts = w.failedAttempts := by
  simp [failedAttempts]

/-- How many attempts have come to nothing, by the place where the task is: all that were counted,
or all but the latest. -/
inductive Failed (attempts : Nat) (task : Task) : Nat → Prop where
  | between (ht : task.attempt? = none) : Failed attempts task attempts
  | within {n} (ht : task.attempt? = some attempts) (count : n + 1 = attempts) :
    Failed attempts task n
  | gone {n} (ht : task.isWorking = false) (count : n + 1 = attempts) : Failed attempts task n

namespace Failed

variable {attempts n : Nat} {task after : Task}

theorem eq_or_one_behind (h : Failed attempts task n) : n = attempts ∨ n + 1 = attempts := by
  cases h with
  | between => exact Or.inl rfl
  | within _ count | gone _ count => exact Or.inr count

/-- Where the task has work and no attempt is under way, all have come to nothing. -/
theorem eq_of_between (h : Failed attempts task n) (ht : task.attempt? = none)
    (working : task.isWorking) : n = attempts := by
  cases h with
  | between => rfl
  | within hw => simp [ht] at hw
  | gone hw => simp [working] at hw

theorem of_attempt {attempt : Nat} (h : Failed attempts task n) (ht : task.attempt? = some attempt)
    (working : task.isWorking) : attempt = attempts ∧ n + 1 = attempts := by
  cases h with
  | between hw => simp [ht] at hw
  | within hw count => exact ⟨Option.some.inj (ht.symm.trans hw), count⟩
  | gone hw => simp [working] at hw

/-- The attempt that is under way goes on. -/
theorem goOn {attempt : Nat} (h : Failed attempts task n) (ht : task.attempt? = some attempt)
    (working : task.isWorking) (hafter : after.attempt? = some attempt) :
    Failed attempts after n := by
  obtain ⟨rfl, count⟩ := h.of_attempt ht working
  exact .within hafter count

/-- The task leaves its work, be it in an attempt or between two. -/
theorem leave (h : Failed attempts task n) (ht : after.attempt? = none)
    (gone : after.isWorking = false) : Failed attempts after n := by
  rcases h.eq_or_one_behind with rfl | count
  · exact .between ht
  · exact .gone gone count

end Failed

/-- What every run keeps about the numbers of the attempts. -/
structure Numbers (w : World) : Prop where
  few : w.shared.attempts < attemptLimit
  failed : ∃ n, w.failedAttempts = List.range' 1 n ∧ Failed w.shared.attempts w.task n

namespace Numbers

theorem few_step (h : Numbers w) (a : Action) : (w.step plan a).shared.attempts < attemptLimit := by
  have hfew := h.few
  have hm := step_move plan w a
  generalize w.step plan a = after at hm
  cases hm with
  | start | stop | noCall | replyAtOnce | reply | unasked | advance => exact hfew
  | call _ _ _ move => cases move <;> exact hfew
  | task move =>
    cases move with
    | begin _ countable => exact countable
    | _ => exact hfew

/-- An attempt that came to nothing is recorded with the next number. -/
theorem record {n : Nat} {attempt : Nat} (hn : w.failedAttempts = List.range' 1 n)
    (count : n + 1 = attempt) :
    w.failedAttempts ++ [attempt] = List.range' 1 attempt := by
  rw [hn, ← count, List.range'_concat, Nat.one_mul, Nat.add_comm 1 n]

theorem failed_step (h : Numbers w) (hd : Delivers plan acc w) (a : Action) :
    ∃ n, (w.step plan a).failedAttempts = List.range' 1 n ∧
      Failed (w.step plan a).shared.attempts (w.step plan a).task n := by
  obtain ⟨n, hn, hf⟩ := h.failed
  have hm := step_move plan w a
  generalize w.step plan a = after at hm
  cases hm with
  | start | stop | noCall | unasked | advance => exact ⟨n, hn, hf⟩
  | replyAtOnce _ ht | reply _ ht =>
    rw [ht] at hf
    exact ⟨n, hn, hf.goOn rfl rfl rfl⟩
  | call hc _ _ move =>
    cases move with
    | launch =>
      rw [hd.absent_of_accepted (List.mem_of_getElem? hc)] at hf
      obtain rfl := hf.eq_of_between rfl rfl
      exact ⟨_, by simpa using hn, .between rfl⟩
    | accept | refuse | refused | signal | late | cancel | stopped =>
      exact ⟨n, by simpa using hn, hf⟩
  | task move =>
    cases move with
    | wait => exact ⟨n, hn, hf⟩
    | begin ht =>
      rw [ht] at hf
      obtain rfl := hf.eq_of_between rfl rfl
      exact ⟨_, by simpa using hn, .within rfl rfl⟩
    | overflow | leave | expire | select | late | close => exact ⟨n, hn, hf.leave rfl rfl⟩
    | deliver => exact ⟨n, by simpa using hn, hf.leave rfl rfl⟩
    | ask ht | pend ht | take ht | check ht =>
      rw [ht] at hf
      exact ⟨n, by simpa using hn, hf.goOn rfl rfl rfl⟩
    | abort ht | retry ht | abandon ht =>
      rw [ht] at hf
      obtain ⟨rfl, count⟩ := hf.of_attempt rfl rfl
      exact ⟨_, by simpa using record hn count, .between rfl⟩
    | wake ht =>
      rw [ht] at hf
      obtain rfl := hf.eq_of_between rfl rfl
      exact ⟨_, hn, .between rfl⟩

theorem init : Numbers {} where
  few := attemptLimit_pos
  failed := ⟨0, rfl, .between rfl⟩

theorem run (plan : Plan) (actions : List Action) : Numbers (World.run plan {} actions) := by
  induction actions using List.reverseRecOn with
  | nil => exact init
  | append_singleton actions a ih =>
    rw [run_concat]
    exact ⟨ih.few_step a, ih.failed_step (.run plan actions) a⟩

end Numbers

/-- Attempts that cannot be counted fit into the time to try. -/
theorem many_of_overflowed (plan : Plan) (actions : List Action)
    (positive : .zero < plan.request.retryInterval)
    (ht : (World.run plan {} actions).task = .overflowed) :
    attemptLimit ≤ attemptsWithin plan (budget plan (World.run plan {} actions).begun) := by
  by_contra few
  refine ne_overflowed plan actions positive ?_ ht
  exact Nat.lt_of_le_of_lt (le_max_right _ _) (Nat.lt_of_not_le few)

end World

theorem lt_attemptsWithin_iff {plan : Plan} {time : Duration} {k : Nat}
    (positive : .zero < plan.request.retryInterval) :
    k < attemptsWithin plan time ↔
      k = 0 ∨ k * plan.request.retryInterval.nanos < time.nanos := by
  have hpos : 0 < plan.request.retryInterval.nanos := positive
  rw [attemptsWithin, lt_max_iff, Nat.lt_one_iff, ← not_le, ceilDiv_le_iff_le_mul hpos, not_le,
    Nat.mul_comm]

/-- A service that replies to a plan at once, and never decides anything. -/
structure Service.Fruitless (plan : Plan) (service : Service) : Prop extends service.Immediate where
  undecided : ∀ k remaining, Undecided plan (service k (queryOf plan remaining)).reply

theorem Service.fruitless_emptyAtOnce (plan : Plan) : Clocked.emptyAtOnce.Fruitless plan where
  delay _ _ := rfl
  calm _ _ := ⟨rfl, rfl⟩
  undecided _ _ := .empty

namespace Timetable

variable {c : Timetable} {k : Nat} {t : Instant}

theorem nanos_limit (c : Timetable) :
    c.limit.nanos = c.start.nanos + (budget c.plan c.start).nanos := rfl

theorem arrival?_exchange (immediate : c.service.Immediate) (whole : t.IsWhole) :
    (c.exchange k t).arrival? = some t := by
  have hzero : t + .zero = t := Duration.eq_iff.mpr (Nat.add_zero _)
  rw [Exchange.arrival?, exchange, immediate.delay, Option.map_some, hzero]
  exact congrArg some whole

section Fruitless

variable (fruitless : c.service.Fruitless c.plan) (start : c.start.IsWhole)
  (positive : .zero < c.plan.request.retryInterval)
  (interval : c.plan.request.retryInterval.IsWhole)
include fruitless start positive interval

/-- If the replies come at once and decide nothing, there is an attempt for each of the retry
intervals in the time to try. -/
theorem attempt?_of_fruitless (fits : k < attemptsWithin c.plan (budget c.plan c.start)) :
    ∃ t, c.attempt? k = some t ∧ t.IsWhole ∧
      t.nanos = c.start.nanos + k * c.plan.request.retryInterval.nanos := by
  induction k with
  | zero => exact ⟨c.start, rfl, start, by rw [Nat.zero_mul, Nat.add_zero]⟩
  | succ k ih =>
    obtain ⟨t, begun, whole, ht⟩ := ih (Nat.lt_of_succ_lt fits)
    have hlast := ((lt_attemptsWithin_iff positive).mp fits).resolve_left (Nat.succ_ne_zero k)
    have hlimit := c.nanos_limit
    rw [Nat.succ_mul] at hlast
    have inTime : t < c.limit := by
      rw [Duration.lt_iff]
      omega
    have time : c.plan.request.retryInterval < c.limit - t := by
      rw [Duration.lt_iff, Duration.nanos_sub]
      omega
    have hnext := Exchange.following?_of_retry (arrival?_exchange fruitless.toImmediate whole)
      inTime (undecided_iff.mp (fruitless.undecided k (c.limit - t))) time
    refine ⟨t + c.plan.request.retryInterval, ?_, whole.add interval, ?_⟩
    · rw [attempt?, begun, Option.bind_some, hnext]
      exact congrArg some (whole.add interval)
    · rw [Duration.nanos_add, ht, Nat.succ_mul, Nat.add_assoc]

theorem ends_of_fruitless (many : attemptLimit ≤ attemptsWithin c.plan (budget c.plan c.start)) :
    c.Ends (attemptLimit - 1) none := by
  have hlast : attemptLimit - 1 + 1 = attemptLimit := Nat.sub_add_cancel attemptLimit_pos
  obtain ⟨t, begun, -⟩ := attempt?_of_fruitless (k := attemptLimit - 1) fruitless start positive
    interval (Nat.lt_of_lt_of_le (Nat.sub_one_lt_of_lt attemptLimit_pos) many)
  exact .uncountable begun hlast

end Fruitless

end Timetable

open World

/-- Every number was given out, each to an attempt that made its lookup, and the next attempt has
none. None of the given starts was told anything. -/
structure Exhausted (acc : List CallId) (w : World) : Prop where
  overflowed : w.task = .overflowed
  attempts : w.shared.attempts + 1 = attemptLimit
  lookups : w.lookups.length + 1 = attemptLimit
  untold : ∀ id ∈ acc, w.toldAt id = []

section Exhausted

variable {plan : Plan} {service : Service} {time : Nat} (fruitless : service.Fruitless plan)
  (positive : .zero < plan.request.retryInterval)
  (interval : plan.request.retryInterval.IsWhole)
  (many : attemptLimit ≤ attemptsWithin plan (budget plan (.ofMillis time)))
include fruitless positive interval many

/-- With more attempts than can be counted, a timely run that nobody stops is over when there is no
number for the next one. -/
theorem Clocked.exhausted_of_over {actions : List Action}
    (timely : Timely { plan, service } actions) (unstopped : ∀ runtime, .stop runtime ∉ actions)
    (begun : (World.run plan {} actions).begun = .ofMillis time)
    (hover : (World.run plan {} actions).IsOver) :
    Exhausted (accepted plan {} actions) (World.run plan {} actions) := by
  have htimetable : (Clocked.run { plan, service } actions).timetable =
      ⟨plan, service, .ofMillis time⟩ := by rw [timetable_run, begun]
  have hrun : (Clocked.run { plan, service } actions).world = World.run plan {} actions :=
    run_world _ actions
  have hends := Timetable.ends_of_fruitless (c := ⟨plan, service, .ofMillis time⟩) fruitless
    (Duration.isWhole_ofMillis time) positive interval many
  have hfew := (Numbers.run plan actions).few
  have hending := endsOnTime_of_over timely unstopped (hrun ▸ hover)
  generalize Clocked.run { plan, service } actions = s at htimetable hending hrun
  cases hending with
  | told _ ends => cases (hends.unique (htimetable ▸ ends)).2
  | uncountable overflowed ends =>
    obtain ⟨hlength, -⟩ := hends.unique (htimetable ▸ ends)
    rw [hrun] at overflowed hlength
    have hmany := (Keeps.run plan actions).overflowed overflowed
    refine ⟨overflowed, Nat.le_antisymm (Nat.add_one_le_iff.mpr hfew) hmany, ?_,
      toldAt_of_overflowed plan unstopped overflowed⟩
    rw [← hlength, Nat.sub_add_cancel attemptLimit_pos]

/-- Played through, it comes to nothing. -/
theorem Session.exhausted_arbitrate :
    let result := (fresh plan service time).arbitrate none
    Exhausted [0] result.1.world ∧ result.2 = none := by
  have hplayed := arbitrate_over plan time fruitless.calm
  have hsome := fun outcome => (@arbitrate_eq_some_iff plan service time fruitless.calm outcome).mp
  generalize (fresh plan service time).arbitrate none = result at hplayed hsome ⊢
  obtain ⟨actions, timely, unstopped, hworld, begun, hacc, hover, -⟩ := hplayed
  have exhausted := Clocked.exhausted_of_over fruitless positive interval many timely unstopped
    begun hover
  rw [hacc, ← hworld] at exhausted
  refine ⟨exhausted, ?_⟩
  by_contra hne
  obtain ⟨outcome, houtcome⟩ := Option.ne_none_iff_exists'.mp hne
  obtain ⟨moment, told⟩ := hsome outcome houtcome
  cases (exhausted.untold 0 (List.mem_singleton_self 0)).symm.trans told

end Exhausted

/-- Where there are attempts that cannot be counted, a timely run comes to one without a number. -/
theorem exists_overflowed {plan : Plan} {time : Nat} (positive : .zero < plan.request.retryInterval)
    (interval : plan.request.retryInterval.IsWhole)
    (many : attemptLimit ≤ attemptsWithin plan (budget plan (.ofMillis time))) :
    ∃ service actions, Clocked.Timely { plan, service } actions ∧
      (World.run plan {} actions).shared.startedAt = some (.ofMillis time) ∧
      (World.run plan {} actions).task = .overflowed := by
  have fruitless := Service.fruitless_emptyAtOnce plan
  obtain ⟨actions, timely, unstopped, -, hbegun, hacc, hover, -⟩ :=
    Session.arbitrate_over plan time fruitless.calm
  have exhausted := Clocked.exhausted_of_over fruitless positive interval many timely unstopped
    hbegun hover
  refine ⟨Clocked.emptyAtOnce, actions, timely, ?_, exhausted.overflowed⟩
  obtain ⟨start, hstart⟩ := Option.isSome_iff_exists.mp
    ((Keeps.run plan actions).started (by simp [hacc]))
  rw [hstart, ← hbegun, begun, hstart, Option.getD_some]

/-- The attempts are numbered from one on, in every run. They cannot be counted any more just if
more of them fit into the time to try than there are numbers. -/
theorem attempts_run_out_iff (plan : Plan) (positive : .zero < plan.request.retryInterval)
    (interval : plan.request.retryInterval.IsWhole) :
    (∀ actions, let w := World.run plan {} actions
      w.shared.attempts < attemptLimit ∧ w.attemptsCounted = w.shared.attempts ∧
      (∃ n, w.failedAttempts = List.range' 1 n ∧
        (n = w.shared.attempts ∨ n + 1 = w.shared.attempts)) ∧
      (w.task = .overflowed → attemptLimit ≤ attemptsWithin plan (budget plan w.begun))) ∧
    (∀ time, (∃ service actions, Clocked.Timely { plan, service } actions ∧
        (World.run plan {} actions).shared.startedAt = some (.ofMillis time) ∧
        (World.run plan {} actions).task = .overflowed) ↔
      attemptLimit ≤ attemptsWithin plan (budget plan (.ofMillis time))) ∧
    -- A service that replies at once and never decides uses all numbers up, and nobody is told.
    (∀ service time, service.Fruitless plan →
      attemptLimit ≤ attemptsWithin plan (budget plan (.ofMillis time)) →
      (∀ actions, Clocked.Timely { plan, service } actions →
        (∀ runtime, .stop runtime ∉ actions) →
        (World.run plan {} actions).shared.startedAt = some (.ofMillis time) →
        (World.run plan {} actions).IsOver →
        Exhausted (accepted plan {} actions) (World.run plan {} actions)) ∧
      let result := (Session.fresh plan service time).arbitrate none
      Exhausted [0] result.1.world ∧ result.2 = none) := by
  refine ⟨fun actions => ?_, fun time => ⟨?_, fun many => ?_⟩,
    fun service time fruitless many => ⟨fun actions timely unstopped hstart hover => ?_, ?_⟩⟩
  · have hnumbers := Numbers.run plan actions
    obtain ⟨n, hn, hfailed⟩ := hnumbers.failed
    exact ⟨hnumbers.few, (Counts.run plan actions).counted, ⟨n, hn, hfailed.eq_or_one_behind⟩,
      many_of_overflowed plan actions positive⟩
  · rintro ⟨service, actions, -, hstart, overflowed⟩
    have many := many_of_overflowed plan actions positive overflowed
    rwa [World.begun, hstart, Option.getD_some] at many
  · exact exists_overflowed positive interval many
  · have hbegun : (World.run plan {} actions).begun = .ofMillis time := by
      rw [begun, hstart, Option.getD_some]
    exact Clocked.exhausted_of_over fruitless positive interval many timely unstopped hbegun hover
  · exact Session.exhausted_arbitrate fruitless positive interval many

end Arbitration

namespace Resolve

open Arbitration

theorem fruitless_registry {o : Options} {f : Fixture} {c : Config} {dates : Nat → Int64}
    (undecided : ∀ k, Undecided (o.soundPlan c) (steadyReply o f c (dates k))) :
    (Service.ofDatedRegistry f.registry dates).Fruitless (o.soundPlan c) where
  toImmediate := Service.immediate_ofDatedRegistry f.registry dates
  undecided k remaining := by
    change Undecided _ (f.registry.answer (dates k) (queryOf (o.soundPlan c) remaining))
    rw [answer_queryOf]
    exact undecided k

/-- Options that try again after a millisecond, for the given number of milliseconds. -/
def everyMillisecond (timeout : Nat) : Options where
  fixture := "nobody.yaml"
  domains := ["vehicle"]
  interface := "radio"
  version := { major := 1, minor := 2 }
  strategy := .lastSeen
  timeoutMillis := some timeout
  retryMillis := some 1

theorem many_everyMillisecond :
    let plan := (everyMillisecond (2 ^ 32)).soundPlan {}
    attemptLimit ≤ attemptsWithin plan (budget plan (.ofMillis 0)) := by
  decide +kernel

/-- In two to the power of 32 milliseconds every attempt but the last can be counted. -/
theorem everyMillisecond_overflows :
    let plan := (everyMillisecond (2 ^ 32)).soundPlan {}
    .zero < plan.request.retryInterval ∧ plan.request.retryInterval.IsWhole ∧
      let result := (Session.fresh plan Clocked.emptyAtOnce 0).arbitrate none
      Exhausted [0] result.1.world ∧ result.2 = none := by
  have positive : .zero < ((everyMillisecond (2 ^ 32)).soundPlan {}).request.retryInterval := by
    decide
  have interval : ((everyMillisecond (2 ^ 32)).soundPlan {}).request.retryInterval.IsWhole :=
    Duration.isWhole_ofMillis 1
  obtain ⟨-, -, hplayed⟩ := attempts_run_out_iff _ positive interval
  exact ⟨positive, interval,
    (hplayed _ 0 (Service.fruitless_emptyAtOnce _) many_everyMillisecond).2⟩

/-- Resolved from a fixture without entries, they come to nothing. With no time at all, one attempt
is counted and no lookup made. -/
theorem everyMillisecond_never_told :
    ((Session.fresh ((everyMillisecond (2 ^ 32)).soundPlan {})
      (.ofDatedRegistry (Fixture.registry {}) fun _ => 2000) 0).arbitrate none).1.world.task =
        .overflowed ∧
      (run (everyMillisecond (2 ^ 32)) {} {} 2000 none).outcome = none ∧
      let result := (Session.fresh ((everyMillisecond 0).soundPlan {})
        (.ofDatedRegistry (Fixture.registry {}) fun _ => 2000) 0).arbitrate none
      result.1.world.shared.attempts = 1 ∧ result.1.world.lookups = [] := by
  have fruitless : (Service.ofDatedRegistry (Fixture.registry {}) fun _ => 2000).Fruitless
      ((everyMillisecond (2 ^ 32)).soundPlan {}) := fruitless_registry fun _ => .empty
  obtain ⟨exhausted, untold⟩ := Session.exhausted_arbitrate fruitless (by decide)
    (Duration.isWhole_ofMillis 1) many_everyMillisecond
  obtain ⟨houtcome, -⟩ := runThrough_of_sound (o := everyMillisecond (2 ^ 32)) (f := {}) (c := {})
    rfl (fun _ => 2000) none
  exact ⟨exhausted.overflowed, houtcome.trans untold, by decide +kernel⟩

end Resolve

end Arbiter
