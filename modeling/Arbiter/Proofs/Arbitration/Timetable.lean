import Arbiter.Proofs.Arbitration.Budget
import Arbiter.Proofs.Arbitration.Steady

/-!
The timetable of an arbitration that nobody stops: when each attempt begins, what it asks, and how
and when it all ends. It is a function of the plan, the discovery service and the start, and every
timely run keeps to it, in whatever order its steps are taken.
-/

namespace Arbiter.Arbitration

open Discovery

namespace Exchange

/-- When the next attempt begins after an exchange, if there is to be one. -/
def following? (plan : Plan) (limit : Instant) (x : Exchange) : Option Instant :=
  x.arrival?.bind fun t =>
    if t < limit ∧ decision? plan x.reply = none ∧ plan.request.retryInterval < limit - t then
      some (t + plan.request.retryInterval).ceilMillis
    else none

/-- When all is over after an exchange that is the last: at the reply that came in time, or else at
the limit. -/
def closing (limit : Instant) (x : Exchange) : Instant :=
  (x.arrival?.filter (· < limit)).getD limit.ceilMillis

variable {plan : Plan} {limit now : Instant} {x : Exchange}

theorem following?_eq_some {t : Instant} (h : x.following? plan limit = some t) :
    x.asked < limit := by
  obtain ⟨u, hu, hif⟩ := Option.bind_eq_some_iff.mp h
  split_ifs at hif with hcond
  exact lt_of_le_of_lt (asked_le_arrival hu) hcond.1

theorem following?_of_retry (arrived : x.arrival? = some now) (inTime : now < limit)
    (undecided : decision? plan x.reply = none)
    (time : plan.request.retryInterval < limit - now) :
    x.following? plan limit = some (now + plan.request.retryInterval).ceilMillis := by
  rw [following?, arrived, Option.bind_some, if_pos ⟨inTime, undecided, time⟩]

theorem following?_of_decided (decided : decision? plan x.reply ≠ none) :
    x.following? plan limit = none := by
  unfold following?
  cases x.arrival? with
  | none => rfl
  | some t => exact if_neg fun h => decided h.2.1

theorem following?_of_noTime (arrived : x.arrival? = some now)
    (noTime : limit - now ≤ plan.request.retryInterval) : x.following? plan limit = none := by
  rw [following?, arrived, Option.bind_some]
  exact if_neg fun h => not_lt_of_ge noTime h.2.2

theorem following?_of_late (late : x.inTime limit = false) : x.following? plan limit = none := by
  unfold following?
  cases harrival : x.arrival? with
  | none => rfl
  | some t =>
    refine if_neg fun h => ?_
    have hin : x.inTime limit := inTime_iff.mpr ⟨t, harrival, h.1⟩
    simp [late] at hin

theorem closing_of_inTime (arrived : x.arrival? = some now) (inTime : now < limit) :
    x.closing limit = now := by
  simp [closing, arrived, Option.filter, inTime]

theorem closing_of_late (late : x.inTime limit = false) : x.closing limit = limit.ceilMillis := by
  unfold closing
  cases harrival : x.arrival? with
  | none => rfl
  | some t =>
    have hlate : ¬t < limit := by simpa [inTime, harrival] using late
    simp [Option.filter, hlate]

end Exchange

/-- All that an arbitration hangs on if nobody stops it. -/
structure Timetable where
  plan : Plan
  service : Service
  start : Instant

namespace Timetable

def limit (c : Timetable) : Instant := deadline c.plan c.start

/-- The exchange of the attempt with the given number, if it begins at that time. -/
def exchange (c : Timetable) (k : Nat) (t : Instant) : Exchange :=
  { query := queryOf c.plan (c.limit - t)
    asked := t
    answer := c.service k (queryOf c.plan (c.limit - t)) }

/-- When the attempt with the given number begins, if there is one. -/
def attempt? (c : Timetable) : Nat → Option Instant
  | 0 => some c.start
  | k + 1 => (c.attempt? k).bind fun t => (c.exchange k t).following? c.plan c.limit

/-- The attempt with the given number makes its lookup. -/
def Asks (c : Timetable) (k : Nat) : Prop :=
  ∃ t, c.attempt? k = some t ∧ t < c.limit ∧ k + 1 < attemptLimit

/-- How it ends after so many lookups, and when. It does not, if the attempts can no longer be
counted. -/
inductive Ends (c : Timetable) : Nat → Option Instant → Prop where
  | cutOff {n t} (begun : c.attempt? n = some t) (late : c.limit ≤ t)
      (countable : n + 1 < attemptLimit) : Ends c n (some t)
  | last {k t} (begun : c.attempt? k = some t) (inTime : t < c.limit)
      (countable : k + 1 < attemptLimit)
      (final : (c.exchange k t).following? c.plan c.limit = none) :
      Ends c (k + 1) (some ((c.exchange k t).closing c.limit))
  | uncountable {n t} (begun : c.attempt? n = some t) (all : n + 1 = attemptLimit) :
      Ends c n none

variable {c : Timetable} {n m k : Nat} {t u : Option Instant}

/-- There is an attempt only after one that made its lookup. -/
theorem asks_of_attempt? {time : Instant} (begun : c.attempt? (k + 1) = some time)
    (countable : k + 1 < attemptLimit) : c.Asks k := by
  obtain ⟨before, hbefore, hfollowing⟩ := Option.bind_eq_some_iff.mp begun
  exact ⟨before, hbefore, Exchange.following?_eq_some hfollowing, countable⟩

theorem asks_of_lt {time : Instant} (begun : c.attempt? n = some time)
    (countable : n < attemptLimit) : ∀ k < n, c.Asks k := by
  induction n generalizing time with
  | zero => intro k hk; cases hk
  | succ n ih =>
    intro k hk
    have hasks : c.Asks n := asks_of_attempt? begun countable
    obtain ⟨before, hbefore, -⟩ := id hasks
    rcases Nat.lt_succ_iff_lt_or_eq.mp hk with hlt | rfl
    · exact ih hbefore (Nat.lt_of_succ_lt countable) k hlt
    · exact hasks

theorem Asks.of_le (h : c.Asks n) (hle : k ≤ n) : c.Asks k := by
  obtain ⟨time, begun, inTime, countable⟩ := id h
  rcases Nat.lt_or_eq_of_le hle with hlt | rfl
  · exact asks_of_lt begun (by omega) k hlt
  · exact h

namespace Ends

/-- At the end as many lookups were made as there are attempts that make theirs. -/
theorem asks_iff (h : c.Ends n t) : c.Asks k ↔ k < n := by
  -- The first attempt that makes no lookup is the one that would come next.
  have hnot : ¬c.Asks n := by
    rintro ⟨time, htime, hlt, hcount⟩
    cases h with
    | cutOff begun late =>
      obtain rfl := Option.some.inj (begun.symm.trans htime)
      exact not_lt_of_ge late hlt
    | last begun inTime countable final => simp [attempt?, begun, final] at htime
    | uncountable begun all => omega
  constructor
  · intro hk
    by_contra hle
    exact hnot (hk.of_le (Nat.le_of_not_lt hle))
  · intro hk
    cases h with
    | cutOff begun late countable => exact asks_of_lt begun (by omega) k hk
    | last begun inTime countable =>
      exact Asks.of_le ⟨_, begun, inTime, countable⟩ (Nat.le_of_lt_succ hk)
    | uncountable begun all => exact asks_of_lt begun (by omega) k hk

/-- A timetable has one end. -/
theorem unique (h : c.Ends n t) (h' : c.Ends m u) : n = m ∧ t = u := by
  obtain rfl : n = m := by
    have hiff (k : Nat) : k < n ↔ k < m := (asks_iff h).symm.trans (asks_iff h')
    have hn := hiff n
    have hm := hiff m
    omega
  refine ⟨rfl, ?_⟩
  cases h with
  | cutOff begun late countable =>
    cases h' with
    | cutOff begun' => exact begun.symm.trans begun'
    | last begun' _ _ final' => simp [attempt?, begun', final'] at begun
    | uncountable _ all' => omega
  | last begun inTime countable final =>
    cases h' with
    | cutOff begun' => simp [attempt?, begun, final] at begun'
    | last begun' =>
      obtain rfl := Option.some.inj (begun.symm.trans begun')
      rfl
    | uncountable begun' => simp [attempt?, begun, final] at begun'
  | uncountable begun all =>
    cases h' with
    | cutOff _ _ countable' => omega
    | last begun' _ _ final' => simp [attempt?, begun', final'] at begun
    | uncountable => rfl

end Ends

/-- What the timetable says of the place where the task is, after so many lookups. -/
inductive Fits (c : Timetable) (now : Instant) (n : Nat) : Task → Prop where
  | absent : Fits c now n .absent
  | beginning (begun : c.attempt? n = some now) : Fits c now n .beginning
  | due {attempt} (begun : c.attempt? n = some now) (countable : n + 1 < attemptLimit) :
    Fits c now n (.polling attempt (.due (c.limit - now)))
  | asking {attempt query} : Fits c now n (.asking attempt query)
  | outstanding {attempt} : Fits c now n (.polling attempt .outstanding)
  | replied {attempt reply} (unmissed : now ≤ c.limit.ceilMillis) :
    Fits c now n (.polling attempt (.replied reply))
  | checking {attempt reply} : Fits c now n (.checking attempt reply)
  | judging {attempt reply} : Fits c now n (.judging attempt reply)
  | pausing {wake} (begun : c.attempt? n = some wake.ceilMillis) : Fits c now n (.pausing wake)
  | closing {outcome} (ends : c.Ends n (some now)) : Fits c now n (.closing outcome)
  | delivering {before outcome} (ends : c.Ends n (some now)) :
    Fits c now n (.delivering before outcome)
  | finished : Fits c now n .finished
  | overflowed (ends : c.Ends n none) : Fits c now n .overflowed

end Timetable

namespace World

variable {w : World} {id : CallId}

/-- Nothing is left for the task to do. -/
def IsOver (w : World) : Prop := w.task = .finished ∨ w.task = .overflowed

/-- What a call was told, and when. -/
def toldAt (w : World) (id : CallId) : List (Outcome × Option Instant) :=
  w.trace.filterMap fun
    | .answered call outcome _ time => if call = id then some (outcome, time) else none
    | _ => none

theorem map_toldAt (w : World) (id : CallId) : (w.toldAt id).map Prod.fst = w.answersTo id := by
  rw [toldAt, answersTo_eq_filterMap, List.map_filterMap]
  refine List.filterMap_congr fun happening _ => ?_
  cases happening with
  | answered call outcome seen time =>
    by_cases hcall : call = id
    case pos => simp [Happening.toldTo?, hcall]
    case neg => simp [Happening.toldTo?, hcall]
  | lookup | event | counted => rfl

theorem toldAt_eq {outcome told : Outcome} {seen : Phase} {time : Option Instant}
    (hans : w.answersTo id = [outcome]) (htold : .answered id told seen time ∈ w.trace) :
    w.toldAt id = [(outcome, time)] := by
  have hmem : (told, time) ∈ w.toldAt id :=
    List.mem_filterMap.mpr ⟨.answered id told seen time, htold, if_pos rfl⟩
  have hmap := map_toldAt w id
  rw [hans] at hmap
  obtain ⟨⟨outcome', time'⟩, hsingle, rfl⟩ := List.map_eq_singleton_iff.mp hmap
  rw [hsingle] at hmem ⊢
  obtain ⟨-, rfl⟩ := Prod.mk.inj (List.mem_singleton.mp hmem)
  rfl

end World

namespace Clocked

open World Exchange

variable {s : Clocked} {acc : List CallId} {rs : List Reply} {a : Action} {xs : List Exchange}
  {x : Exchange}

def timetable (s : Clocked) : Timetable := ⟨s.plan, s.service, s.world.begun⟩

theorem limit_timetable (s : Clocked) : s.timetable.limit = s.world.deadline s.plan := rfl

theorem length_exchanges (s : Clocked) : s.exchanges.length = s.world.lookups.length :=
  List.length_mapIdx

/-- When an attempt begins, each of those before it has made its lookup. -/
theorem attempts_of_beginning (hf : Follows rs s) (ht : s.world.task = .beginning) :
    s.world.shared.attempts = s.world.lookups.length := by
  have hst := hf.stage
  generalize hxs : s.exchanges = xs at hst
  rw [ht] at hst
  cases hst with
  | beginning _ _ count => rw [count, ← hxs, length_exchanges]

/-- Once the task was set to work, the timetable stays. -/
theorem timetable_step (hd : Delivers s.plan acc s.world) (hk : Keeps acc s.world)
    (launched : s.world.task.isLaunched) (a : Action) : (s.step a).timetable = s.timetable := by
  rw [timetable, timetable, step_plan, step_service, step_world, hk.begun_step hd launched]

/-- The task is set to work at the start and not a moment later. -/
theorem launch_step (hk : Keeps acc s.world) (ht : s.world.task = .absent)
    (prompt : ∀ id, .accepted id ∈ s.world.calls → s.world.now = s.world.begun) :
    (s.step a).world.task = .absent ∨ (s.step a).world.task = .beginning ∧
      (s.step a).world.lookups = [] ∧ (s.step a).world.now = (s.step a).world.begun := by
  have hlookups := (hk.fresh ht).2
  have hm := step_move s.plan s.world a
  rw [step_world]
  generalize s.world.step s.plan a = after at hm
  cases hm with
  | start | stop | noCall | unasked | advance => exact Or.inl ht
  | replyAtOnce _ hk | reply _ hk => simp [ht] at hk
  | task move =>
    rw [move.eq_self (by simp [taskDue, ht])]
    exact Or.inl ht
  | call hc split hs move =>
    cases move with
    | launch id =>
      exact Or.inr ⟨rfl, by simpa using hlookups, prompt id (List.mem_of_getElem? hc)⟩
    | accept | refuse | refused | signal | late | cancel | stopped => exact Or.inl ht

/-- What holds between the steps of every timely run that nobody stops, in which the given starts
were accepted. -/
structure OnTimetable (acc : List CallId) (s : Clocked) : Prop where
  few : s.world.lookups.length < attemptLimit
  made : ∀ k x, s.exchanges[k]? = some x →
    s.timetable.attempt? k = some x.asked ∧ s.timetable.exchange k x.asked = x
  fits : s.timetable.Fits s.world.now s.world.lookups.length s.world.task
  told : s.world.task = .finished → ∃ t, s.timetable.Ends s.world.lookups.length (some t) ∧
    ∃ id ∈ acc, ∃ outcome seen, .answered id outcome seen (some t) ∈ s.world.trace

namespace OnTimetable

/-- The last exchange is that of its attempt. -/
theorem made_last (h : OnTimetable acc s) (hxs : s.exchanges = xs ++ [x]) :
    s.world.lookups.length = xs.length + 1 ∧ s.timetable.attempt? xs.length = some x.asked ∧
      s.timetable.exchange xs.length x.asked = x := by
  have hlast : s.exchanges[xs.length]? = some x := by simp [hxs]
  have hlength : s.world.lookups.length = xs.length + 1 := by
    rw [← length_exchanges, hxs, List.length_append, List.length_singleton]
  exact ⟨hlength, h.made _ _ hlast⟩

/-- Where there is no attempt after the last lookup, all is over once it is closed. -/
theorem ends_of_final (h : OnTimetable acc s) (hf : Follows rs s) (hxs : s.exchanges = xs ++ [x])
    (final : x.following? s.plan (s.world.deadline s.plan) = none) :
    s.timetable.Ends s.world.lookups.length (some (x.closing (s.world.deadline s.plan))) := by
  obtain ⟨hlength, begun, hx⟩ := h.made_last hxs
  have inTime := hf.asked x (by simp [hxs])
  have hfew := h.few
  rw [hlength] at hfew ⊢
  have hends := Timetable.Ends.last begun inTime hfew (by rw [hx]; exact final)
  rwa [hx] at hends

theorem ends_of_late (h : OnTimetable acc s) (hf : Follows rs s) (hxs : s.exchanges = xs ++ [x])
    (late : x.inTime (s.world.deadline s.plan) = false)
    (elapsed : s.world.deadline s.plan ≤ s.world.now)
    (unmissed : s.world.now ≤ (s.world.deadline s.plan).ceilMillis) :
    s.timetable.Ends s.world.lookups.length (some s.world.now) := by
  have hends := h.ends_of_final hf hxs (following?_of_late late)
  rwa [closing_of_late late,
    le_antisymm (Duration.ceilMillis_le elapsed hf.whole) unmissed] at hends

theorem ends_of_inTime (h : OnTimetable acc s) (hf : Follows rs s) (hxs : s.exchanges = xs ++ [x])
    (arrived : x.arrival? = some s.world.now) (inTime : s.world.now < s.world.deadline s.plan)
    (final : x.following? s.plan (s.world.deadline s.plan) = none) :
    s.timetable.Ends s.world.lookups.length (some s.world.now) := by
  have hends := h.ends_of_final hf hxs final
  rwa [closing_of_inTime arrived inTime] at hends

theorem fits_taskStep (h : OnTimetable acc s) (hf : Follows rs s) (hu : Unstopped s.world) :
    s.timetable.Fits s.world.now (s.world.taskStep s.plan).lookups.length
      (s.world.taskStep s.plan).task := by
  have hfits := h.fits
  have hst := hf.stage
  have hm := taskStep_move s.plan s.world
  generalize s.world.taskStep s.plan = after at hm
  generalize hxs : s.exchanges = xs at hst
  cases hm with
  | wait => exact hfits
  | begin ht countable =>
    rw [attempts_of_beginning hf ht] at countable
    rw [ht] at hfits
    cases hfits with
    | beginning begun =>
      have hdue : s.timetable.Fits s.world.now s.world.lookups.length
          (.polling (s.world.shared.attempts + 1) (.due (s.world.remaining s.plan))) :=
        .due begun countable
      simpa using hdue
  | overflow ht uncountable =>
    have hfew := h.few
    rw [attempts_of_beginning hf ht] at uncountable
    rw [ht] at hfits
    cases hfits with
    | beginning begun => exact .overflowed (.uncountable begun (by simp; omega))
  | leave heeding stopped => simp [hu.signal] at stopped
  | expire ht unstopped elapsed =>
    rw [ht] at hfits hst
    refine .closing ?_
    cases hst with
    | due =>
      cases hfits with
      | due begun countable => exact .cutOff begun elapsed countable
    | outstanding ha hp hu hc =>
      exact h.ends_of_late hf hxs (late_of_pending (hp ▸ hf.unmissed) elapsed) elapsed hu
    | replied ha har hc =>
      cases hfits with
      | replied unmissed =>
        exact h.ends_of_late hf hxs (late_of_arrived har elapsed) elapsed unmissed
  | ask => exact .asking
  | pend => exact .outstanding
  | take => exact .checking
  | check => exact .judging
  | select ht hj | abort ht hj =>
    rw [ht] at hst
    cases hst with
    | @judging _ _ x _ ha har hi hc =>
      have decided : decision? s.plan x.reply ≠ none := by simp [decision?, hj]
      have hends := h.ends_of_inTime hf hxs har hi (following?_of_decided decided)
      simpa using Timetable.Fits.closing hends
  | abandon ht hj hr =>
    rw [ht] at hst
    cases hst with
    | judging ha har hi hc =>
      have hends := h.ends_of_inTime hf hxs har hi (following?_of_noTime har hr)
      simpa using Timetable.Fits.closing hends
  | retry ht hj hr =>
    rw [ht] at hst
    cases hst with
    | @judging _ earlier x _ ha har hi hc =>
      obtain ⟨hlength, begun, hx⟩ := h.made_last hxs
      have hnext : s.timetable.attempt? (earlier.length + 1) =
          some (s.world.now + s.plan.request.retryInterval).ceilMillis := by
        rw [Timetable.attempt?, begun, Option.bind_some, hx]
        have undecided : decision? s.plan x.reply = none := by rw [decision?, hj]
        exact following?_of_retry har hi undecided hr
      simpa [hlength] using Timetable.Fits.pausing hnext
  | wake ht unstopped elapsed =>
    rw [ht] at hfits hst
    cases hfits with
    | pausing begun =>
      cases hst with
      | pausing _ _ unmissed =>
        rw [le_antisymm (Duration.ceilMillis_le elapsed hf.whole) unmissed] at begun
        exact .beginning begun
  | late => exact .finished
  | close ht =>
    rw [ht] at hfits
    cases hfits with
    | closing ends => exact .delivering ends
  | deliver => exact .finished

theorem fits_advance (h : OnTimetable acc s) {d : Duration} (ha : s.Allows (.advance d)) :
    s.timetable.Fits (s.world.now + d) s.world.lookups.length s.world.task := by
  obtain ⟨-, -, hdue⟩ := ha
  have hlater : ∀ due ∈ s.world.taskDue s.plan, s.world.now < due := fun due hmem =>
    (hdue due (by simp [dues, Option.mem_def.mp hmem])).1
  have hrests := rests_of_later hlater
  have hfits := h.fits
  cases hrests with
  | absent ht => rw [ht]; exact .absent
  | finished ht => rw [ht]; exact .finished
  | outstanding ht => rw [ht]; exact .outstanding
  | overflowed ht =>
    rw [ht] at hfits ⊢
    cases hfits with
    | overflowed ends => exact .overflowed ends
  | pausing ht =>
    rw [ht] at hfits ⊢
    cases hfits with
    | pausing begun => exact .pausing begun

theorem fits_step (h : OnTimetable acc s) (hf : Follows rs s) (hd : Delivers s.plan acc s.world)
    (hk : Keeps acc s.world) (hu : Unstopped s.world) (ha : s.Allows a)
    (prompt : ∀ id, .accepted id ∈ s.world.calls → s.world.now = s.world.begun) :
    (s.step a).timetable.Fits (s.step a).world.now (s.step a).world.lookups.length
      (s.step a).world.task := by
  by_cases launched : s.world.task.isLaunched
  case pos =>
    rw [timetable_step hd hk launched, step_world]
    have hfits := h.fits
    have hst := hf.stage
    cases a with
    | task =>
      have hnow : (s.world.taskStep s.plan).now = s.world.now := (taskStep_move _ _).frame.1
      have htask := h.fits_taskStep hf hu
      rwa [← hnow] at htask
    | advance d => exact h.fits_advance ha
    | start | stop => exact hfits
    | reply reply =>
      have hm := step_move s.plan s.world (.reply reply)
      generalize s.world.step s.plan (.reply reply) = after at hm
      generalize s.exchanges = xs at hst
      cases hm with
      | unasked => exact hfits
      | replyAtOnce => exact .checking
      | reply _ ht =>
        rw [ht] at hst
        cases hst with
        | outstanding _ _ unmissed => exact .replied unmissed
    | call i =>
      have hm := step_move s.plan s.world (.call i)
      generalize s.world.step s.plan (.call i) = after at hm
      cases hm with
      | noCall => exact hfits
      | call hc split hs move =>
        cases move with
        | accept id idle => simp [hd.absent_of_idle idle, Task.isLaunched] at launched
        | launch id =>
          have ht := hd.absent_of_accepted (List.mem_of_getElem? hc)
          simp [ht, Task.isLaunched] at launched
        | refuse | refused | signal | late | cancel | stopped => simpa using hfits
  case neg =>
    -- Until the task is set to work the timetable may move, so this step is looked at by itself.
    rcases launch_step hk (Task.eq_absent launched) prompt with ht | ⟨ht, hlookups, hnow⟩
    · rw [ht]
      exact .absent
    · rw [ht, hlookups, hnow]
      exact .beginning rfl

theorem few_step (h : OnTimetable acc s) (hd : Delivers s.plan acc s.world) (a : Action) :
    (s.step a).world.lookups.length < attemptLimit := by
  have hfew := h.few
  have hfits := h.fits
  rw [step_world]
  cases step_lookupMove hd a with
  | keep _ _ hl | count _ _ _ hl | drop _ _ _ _ _ hl => rwa [hl]
  | ask ht _ _ _ _ hl =>
    rw [ht] at hfits
    rw [hl, List.length_append, List.length_singleton]
    cases hfits with
    | due begun countable => exact countable

theorem made_step (h : OnTimetable acc s) (hd : Delivers s.plan acc s.world)
    (hk : Keeps acc s.world) (a : Action) (k : Nat) (x : Exchange)
    (hx : (s.step a).exchanges[k]? = some x) :
    (s.step a).timetable.attempt? k = some x.asked ∧
      (s.step a).timetable.exchange k x.asked = x := by
  have hmove := step_lookupMove hd a
  by_cases launched : s.world.task.isLaunched
  case pos =>
    rw [timetable_step hd hk launched]
    have hfits := h.fits
    cases hmove with
    | keep _ _ hl | count _ _ _ hl | drop _ _ _ _ _ hl =>
      rw [exchanges_step_of_eq hl] at hx
      exact h.made k x hx
    | ask ht _ _ _ _ hl =>
      rw [ht] at hfits
      rw [exchanges_step, hl, List.mapIdx_concat, ← exchanges, List.getElem?_append] at hx
      split_ifs at hx with hold
      · exact h.made k x hx
      · cases hfits with
        | due begun countable =>
          rw [length_exchanges] at hx hold
          have hlast : k - s.world.lookups.length < 1 := (List.getElem?_eq_some_iff.mp hx).1
          obtain rfl : k = s.world.lookups.length := by omega
          rw [Nat.sub_self] at hx
          obtain rfl := Option.some.inj hx
          exact ⟨begun, rfl⟩
  case neg =>
    have ht := Task.eq_absent launched
    have hnone := (hk.fresh ht).2
    cases hmove with
    | keep _ _ hl | count _ _ _ hl | drop _ _ _ _ _ hl =>
      rw [exchanges_step, hl, hnone] at hx
      simp at hx
    | ask hdue => simp [ht] at hdue

theorem told_step (h : OnTimetable acc s) (hd : Delivers s.plan acc s.world)
    (hk : Keeps acc s.world) (hc : Concludes s.plan acc rs s.world) (hu : Unstopped s.world)
    (a : Action) (ht : (s.step a).world.task = .finished) :
    ∃ t, (s.step a).timetable.Ends (s.step a).world.lookups.length (some t) ∧
      ∃ id ∈ acc ++ acceptedIn s.plan s.world a, ∃ outcome seen,
        .answered id outcome seen (some t) ∈ (s.step a).world.trace := by
  by_cases hold : s.world.task = .finished
  case pos =>
    obtain ⟨t, ends, id, hid, outcome, seen, told⟩ := h.told hold
    have hlookups : (s.world.step s.plan a).lookups = s.world.lookups := by
      cases step_lookupMove hd a with
      | keep _ _ hl => exact hl
      | count hb => simp [hold] at hb
      | ask hb => simp [hold] at hb
      | drop due => simp [hold, Task.isDue] at due
    have hsuffix := trace_suffix s.plan s.world a
    rw [timetable_step hd hk (by rw [hold]; rfl), step_world, hlookups]
    exact ⟨t, ends, id, List.mem_append_left _ hid, outcome, seen, hsuffix.subset told⟩
  case neg =>
    have hfits := h.fits
    have hended := hc.ended
    rw [step_world] at ht ⊢
    have hm := step_move s.plan s.world a
    have htimetable := fun launched => timetable_step hd hk launched a
    generalize s.world.step s.plan a = after at hm ht
    cases hm with
    | start | stop | noCall | unasked | advance => exact absurd ht hold
    | replyAtOnce | reply => cases ht
    | call hc split hs move =>
      cases move with
      | launch => cases ht
      | accept | refuse | refused | signal | late | cancel | stopped => exact absurd ht hold
    | task move =>
      cases move with
      | wait => exact absurd ht hold
      | leave heeding stopped => simp [hu.signal] at stopped
      | late hclosing ended =>
        -- Nobody but the task ends it, and the task has not.
        obtain ⟨id, -, ⟨before, hother, -⟩ | ⟨hother, -⟩⟩ := hended (hu.ended_of_terminal ended)
        · simp [hclosing] at hother
        · exact absurd hother hold
      | @deliver before outcome hdelivering =>
        rw [hdelivering] at hfits
        obtain ⟨id, hid, ⟨before', hsame, hanswer⟩ | ⟨hother, -⟩⟩ :=
          hended (hu.ended_of_terminal (hk.delivering _ _ hdelivering))
        · obtain ⟨rfl, -⟩ := Task.delivering.inj (hdelivering.symm.trans hsame)
          cases hfits with
          | delivering ends =>
            rw [htimetable (by rw [hdelivering]; rfl), lookups_deliver]
            refine ⟨s.world.now, ends, id, by simp [hid], outcome, s.world.shared.phase, ?_⟩
            simp [deliver, emit, World.answer, hanswer]
        · exact absurd hother hold
      | _ => cases ht

theorem init (plan : Plan) (service : Service) : OnTimetable [] { plan, service } where
  few := by
    have hlimit : 0 < attemptLimit := by decide +kernel
    exact hlimit
  made k x hx := by cases hx
  fits := .absent
  told h := by cases h

theorem run {plan : Plan} {service : Service} {actions : List Action}
    (timely : Timely { plan, service } actions) (unstopped : ∀ runtime, .stop runtime ∉ actions) :
    OnTimetable (accepted plan {} actions) (Clocked.run { plan, service } actions) := by
  induction actions using List.reverseRecOn with
  | nil => exact init plan service
  | append_singleton actions a ih =>
    rw [timely_concat] at timely
    have hcalm : ∀ runtime, .stop runtime ∉ actions := fun runtime hr =>
      unstopped runtime (List.mem_append_left _ hr)
    have h := ih timely.1 hcalm
    have hf := Follows.run timely.1
    have hplan : (Clocked.run { plan, service } actions).plan = plan := run_plan _ actions
    have hworld : (Clocked.run { plan, service } actions).world = World.run plan {} actions :=
      run_world _ actions
    have hd := Delivers.run plan actions
    have hk := Keeps.run plan actions
    have hc := Concludes.run plan actions
    have hu := Unstopped.run plan hcalm
    have prompt : ∀ id, .accepted id ∈ (World.run plan {} actions).calls →
        (World.run plan {} actions).now = (World.run plan {} actions).begun :=
      fun _ => now_eq_begun_of_accepted timely.1
    rw [accepted, gather_concat, ← accepted, run_concat]
    generalize Clocked.run { plan, service } actions = s at h hf hplan hworld timely ⊢
    subst hplan
    rw [← hworld] at hd hk hc hu prompt
    rw [← hworld]
    exact ⟨h.few_step hd a, h.made_step hd hk a, h.fits_step hf hd hk hu timely.2 prompt,
      h.told_step hd hk hc hu a⟩

/-- Each lookup is that of its attempt. -/
theorem attempt?_of_lookup (h : OnTimetable acc s) {k : Nat} {lookup : Query × Instant}
    (hlookup : s.world.lookups[k]? = some lookup) :
    s.timetable.attempt? k = some lookup.2 ∧
      lookup.1 = queryOf s.plan (s.timetable.limit - lookup.2) := by
  have hx : s.exchanges[k]? = some
      { query := lookup.1, asked := lookup.2, answer := s.service k lookup.1 } := by
    rw [exchanges, List.getElem?_mapIdx, hlookup, Option.map_some]
  obtain ⟨begun, hexchange⟩ := h.made k _ hx
  exact ⟨begun, (congrArg Exchange.query hexchange).symm⟩

end OnTimetable

/-- An arbitration that is over came to the end of its timetable, and the accepted start was told
then what the replies in time conclude, unless the attempts can no longer be counted. -/
inductive EndsOnTime (acc : List CallId) (s : Clocked) : Prop where
  | told {id time} (accepted : acc = [id])
    (ends : s.timetable.Ends s.world.lookups.length (some time))
    (told : s.world.toldAt id = [(conclude s.plan
      ((s.exchanges.filter (Exchange.inTime s.timetable.limit)).map Exchange.reply), some time)])
  | uncountable (overflowed : s.world.task = .overflowed)
    (ends : s.timetable.Ends s.world.lookups.length none)

theorem endsOnTime_of_over {plan : Plan} {service : Service} {actions : List Action}
    (timely : Timely { plan, service } actions) (unstopped : ∀ runtime, .stop runtime ∉ actions)
    (hover : (Clocked.run { plan, service } actions).world.IsOver) :
    EndsOnTime (accepted plan {} actions) (Clocked.run { plan, service } actions) := by
  have h := OnTimetable.run timely unstopped
  rcases hover with finished | overflowed
  · obtain ⟨time, ends, caller, hcaller, told, seen, hanswered⟩ := h.told finished
    obtain ⟨start, id, outcome, hstart, hid, hans, hdecided⟩ :=
      decided_of_finished timely unstopped finished
    obtain rfl : caller = id := by simpa [hid] using hcaller
    have hlimit : (Clocked.run { plan, service } actions).timetable.limit =
        Arbitration.deadline plan start := by
      rw [limit_timetable, run_plan, deadline_eq, begun, hstart, Option.getD_some]
    refine .told hid ends ?_
    rw [run_plan, hlimit, ← hdecided.concluded]
    exact toldAt_eq hans hanswered
  · have hfits := h.fits
    rw [overflowed] at hfits
    cases hfits with
    | overflowed ends => exact .uncountable overflowed ends

end Clocked

namespace Session

/-- Played through with a service that does not stop it, an arbitration is a timely run that is
over, which nobody stopped. -/
theorem arbitrate_over (plan : Plan) {service : Service} (time : Nat)
    (calm : ∀ k query,
      (service k query).stops = false ∧ (service k query).stopsWhenShown = false) :
    let result := (fresh plan service time).arbitrate none
    ∃ actions, Clocked.Timely { plan, service } actions ∧ (∀ runtime, .stop runtime ∉ actions) ∧
      result.1.world = World.run plan {} actions ∧
      (World.run plan {} actions).begun = .ofMillis time ∧
      World.accepted plan {} actions = [0] ∧ (World.run plan {} actions).IsOver ∧
      ∀ outcome moment, result.1.world.toldAt 0 = [(outcome, moment)] →
        result.2 = some outcome := by
  obtain ⟨more, timely, hstop, hs, hend⟩ := arbitrate_ends plan service time none
  have hresult : ((fresh plan service time).arbitrate none).2 =
      ((fresh plan service time).arbitrate none).1.outcomeOf 0 := by rw [arbitrate_fresh]
  generalize (fresh plan service time).arbitrate none = result at hs hend hresult ⊢
  have hworld : result.1.world = World.run plan {} (opening time ++ more) := by
    rw [hs, Clocked.run_world]
  refine ⟨opening time ++ more, timely, unstopped_opening calm time hstop, hworld,
    begun_opening plan time more, ?_, ?_, ?_⟩
  · have hmem := mem_accepted_opening plan time more
    have hlength := (World.Delivers.run plan (opening time ++ more)).length_le_one
    obtain ⟨id, hid⟩ := List.length_eq_one_iff.mp
      (Nat.le_antisymm hlength (List.length_pos_of_mem hmem))
    rw [hid] at hmem ⊢
    rw [List.mem_singleton.mp hmem]
  · rw [← hworld]
    exact hend.symm.imp_left And.left
  · intro outcome moment told
    rw [hresult, outcomeOf, ← World.map_toldAt, told]
    rfl

end Session

end Arbiter.Arbitration
