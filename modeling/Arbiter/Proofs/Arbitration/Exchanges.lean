import Arbiter.Proofs.Arbitration.Clock
import Arbiter.Proofs.Arbitration.Conclusion
import Mathlib.Data.List.Chain

/-!
The exchanges with the discovery service in a timely run: which lookups were made and when, which
replies came in time, and which of them the task acted on.
-/

namespace Arbiter.Arbitration

open Discovery

structure Exchange where
  query : Query
  asked : Instant
  answer : Answer
  deriving Repr

namespace Exchange

def reply (x : Exchange) : Reply := x.answer.reply

/-- What is still to come right after the lookup. -/
def pending (x : Exchange) : Option (Instant × Reply) :=
  x.answer.delay.map fun d => (x.asked + d, x.answer.reply)

/-- When the reply comes: at the first whole millisecond after its delay. -/
def arrival? (x : Exchange) : Option Instant :=
  x.answer.delay.map fun d => (x.asked + d).ceilMillis

/-- Whether the reply comes before the limit. -/
def inTime (limit : Instant) (x : Exchange) : Bool :=
  x.arrival?.any (· < limit)

theorem inTime_iff {limit : Instant} {x : Exchange} :
    x.inTime limit ↔ ∃ t, x.arrival? = some t ∧ t < limit := by
  simp [inTime, Option.any_eq_true]

/-- A reply is taken at the moment of its arrival, as long as the clock does not go past it. -/
theorem arrived {x : Exchange} {arrival : Instant × Reply} {now : Instant}
    (h : x.pending = some arrival) (whole : now.IsWhole) (due : arrival.1 ≤ now)
    (unmissed : now ≤ arrival.1.ceilMillis) : x.arrival? = some now ∧ x.reply = arrival.2 := by
  obtain ⟨d, hd, rfl⟩ := Option.map_eq_some_iff.mp h
  refine ⟨?_, rfl⟩
  have hnow : (x.asked + d).ceilMillis = now :=
    le_antisymm (Duration.ceilMillis_le due whole) unmissed
  rw [arrival?, hd, Option.map_some, hnow]

theorem late_of_pending {x : Exchange} {now limit : Instant}
    (unmissed : ∀ arrival ∈ x.pending, now ≤ arrival.1.ceilMillis) (elapsed : limit ≤ now) :
    x.inTime limit = false := by
  by_contra hin
  obtain ⟨t, hat, hlt⟩ := inTime_iff.mp (by simpa using hin)
  obtain ⟨d, hd, rfl⟩ := Option.map_eq_some_iff.mp hat
  have hle : now ≤ (x.asked + d).ceilMillis :=
    unmissed (x.asked + d, x.answer.reply) (by rw [pending, hd]; rfl)
  exact not_lt_of_ge hle (lt_of_lt_of_le hlt elapsed)

theorem late_of_arrived {x : Exchange} {now limit : Instant} (arrived : x.arrival? = some now)
    (elapsed : limit ≤ now) : x.inTime limit = false := by
  by_contra hin
  obtain ⟨t, hat, hlt⟩ := inTime_iff.mp (by simpa using hin)
  obtain rfl : now = t := Option.some.inj (arrived.symm.trans hat)
  exact not_lt_of_ge elapsed hlt

end Exchange

/-- The exchanges of which the task acted on each reply, none of them decisive. -/
structure Answered (plan : Plan) (limit : Instant) (xs : List Exchange) (rs : List Reply) :
    Prop where
  replies : rs = xs.map Exchange.reply
  inTime : ∀ x ∈ xs, x.inTime limit
  undecided : ∀ x ∈ xs, decision? plan x.reply = none

/-- The reply of the latest exchange came at least a retry interval before the moment. -/
def Rested (plan : Plan) (moment : Instant) (xs : List Exchange) : Prop :=
  ∀ x ∈ xs.getLast?, ∃ t, x.arrival? = some t ∧ t + plan.request.retryInterval ≤ moment

/-- The exchanges when an outcome was reached: the task acted on the replies that came in time, and
before the last exchange none was decisive. -/
structure Ended (plan : Plan) (limit : Instant) (attempts : Nat) (xs : List Exchange)
    (rs : List Reply) : Prop where
  replies : rs = (xs.filter (Exchange.inTime limit)).map Exchange.reply
  inTime : ∀ x ∈ xs.dropLast, x.inTime limit
  undecided : ∀ x ∈ xs.dropLast, decision? plan x.reply = none
  attempts : attempts = xs.length ∨ ∀ r ∈ rs, decision? plan r = none

/-- The exchanges so far, by the place where the task is. -/
inductive Stage (plan : Plan) (limit now : Instant) (arrival : Option (Instant × Reply))
    (shared : Shared) : Task → List Exchange → List Reply → Prop where
  | absent : Stage plan limit now arrival shared .absent [] []
  | beginning {xs rs} (answered : Answered plan limit xs rs) (rested : Rested plan now xs)
      (count : shared.attempts = xs.length) :
    Stage plan limit now arrival shared .beginning xs rs
  | due {attempt remaining xs rs} (answered : Answered plan limit xs rs)
      (rested : Rested plan now xs) (count : shared.attempts = xs.length + 1) :
    Stage plan limit now arrival shared (.polling attempt (.due remaining)) xs rs
  | asking {attempt query xs x rs} (answered : Answered plan limit xs rs)
      (pending : arrival = x.pending) (inTime : now < limit)
      (count : shared.attempts = xs.length + 1) :
    Stage plan limit now arrival shared (.asking attempt query) (xs ++ [x]) rs
  | outstanding {attempt xs x rs} (answered : Answered plan limit xs rs)
      (pending : arrival = x.pending) (unmissed : now ≤ limit.ceilMillis)
      (count : shared.attempts = xs.length + 1) :
    Stage plan limit now arrival shared (.polling attempt .outstanding) (xs ++ [x]) rs
  | replied {attempt xs x rs} (answered : Answered plan limit xs rs)
      (arrived : x.arrival? = some now) (count : shared.attempts = xs.length + 1) :
    Stage plan limit now arrival shared (.polling attempt (.replied x.reply)) (xs ++ [x]) rs
  | checking {attempt xs x rs} (answered : Answered plan limit xs rs)
      (arrived : x.arrival? = some now) (inTime : now < limit)
      (count : shared.attempts = xs.length + 1) :
    Stage plan limit now arrival shared (.checking attempt x.reply) (xs ++ [x]) rs
  | judging {attempt xs x rs} (answered : Answered plan limit xs rs)
      (arrived : x.arrival? = some now) (inTime : now < limit)
      (count : shared.attempts = xs.length + 1) :
    Stage plan limit now arrival shared (.judging attempt x.reply) (xs ++ [x]) rs
  | pausing {wake xs rs} (answered : Answered plan limit xs rs) (rested : Rested plan wake xs)
      (unmissed : now ≤ wake.ceilMillis) (count : shared.attempts = xs.length) :
    Stage plan limit now arrival shared (.pausing wake) xs rs
  | closing {outcome xs rs} (ended : Ended plan limit shared.attempts xs rs) :
    Stage plan limit now arrival shared (.closing outcome) xs rs
  | delivering {before outcome xs rs} :
    Stage plan limit now arrival shared (.delivering before outcome) xs rs
  | finished {xs rs} : Stage plan limit now arrival shared .finished xs rs
  | overflowed {xs rs} : Stage plan limit now arrival shared .overflowed xs rs

variable {plan : Plan} {limit : Instant} {xs : List Exchange} {rs : List Reply} {x : Exchange}

theorem Rested.mono {moment later : Instant} (h : Rested plan moment xs) (hle : moment ≤ later) :
    Rested plan later xs := by
  intro x hx
  obtain ⟨t, ht, hrest⟩ := h x hx
  exact ⟨t, ht, le_trans hrest hle⟩

theorem rested_concat {now : Instant} (arrived : x.arrival? = some now) :
    Rested plan (now + plan.request.retryInterval) (xs ++ [x]) := by
  intro y hy
  obtain rfl : x = y := by simpa using hy
  exact ⟨now, arrived, le_refl _⟩

namespace Answered

theorem concat (h : Answered plan limit xs rs) (hx : x.inTime limit)
    (hu : decision? plan x.reply = none) :
    Answered plan limit (xs ++ [x]) (rs ++ [x.reply]) where
  replies := by simp [h.replies]
  inTime y hy := by
    rcases List.mem_append.mp hy with hy | hy
    · exact h.inTime y hy
    · rwa [List.mem_singleton.mp hy]
  undecided y hy := by
    rcases List.mem_append.mp hy with hy | hy
    · exact h.undecided y hy
    · rwa [List.mem_singleton.mp hy]

theorem filter_inTime (h : Answered plan limit xs rs) :
    xs.filter (Exchange.inTime limit) = xs :=
  List.filter_eq_self.mpr h.inTime

theorem undecided_replies (h : Answered plan limit xs rs) :
    ∀ r ∈ rs, decision? plan r = none := by
  intro r hr
  rw [h.replies] at hr
  obtain ⟨x, hx, rfl⟩ := List.mem_map.mp hr
  exact h.undecided x hx

theorem ended (h : Answered plan limit xs rs) (attempts : Nat) :
    Ended plan limit attempts xs rs where
  replies := by rw [h.filter_inTime, h.replies]
  inTime x hx := h.inTime x (xs.dropLast_subset hx)
  undecided x hx := h.undecided x (xs.dropLast_subset hx)
  attempts := Or.inr h.undecided_replies

/-- The reply to the last lookup does not count if it comes too late. -/
theorem ended_of_late (h : Answered plan limit xs rs) (hx : x.inTime limit = false)
    (attempts : Nat) : Ended plan limit attempts (xs ++ [x]) rs where
  replies := by rw [List.filter_append, h.filter_inTime]; simp [hx, h.replies]
  inTime y hy := h.inTime y (by simpa using hy)
  undecided y hy := h.undecided y (by simpa using hy)
  attempts := Or.inr h.undecided_replies

theorem ended_of_inTime (h : Answered plan limit xs rs) (hx : x.inTime limit) {attempts : Nat}
    (hn : attempts = xs.length + 1) :
    Ended plan limit attempts (xs ++ [x]) (rs ++ [x.reply]) where
  replies := by rw [List.filter_append, h.filter_inTime]; simp [hx, h.replies]
  inTime y hy := h.inTime y (by simpa using hy)
  undecided y hy := h.undecided y (by simpa using hy)
  attempts := Or.inl (by simpa using hn)

end Answered

namespace Stage

variable {now : Instant} {arrival : Option (Instant × Reply)} {shared : Shared} {task : Task}

/-- Nothing depends on what callers do. -/
theorem of_shared (h : Stage plan limit now arrival shared task xs rs) {after : Shared}
    (hn : after.attempts = shared.attempts) :
    Stage plan limit now arrival after task xs rs := by
  cases h with
  | absent => exact .absent
  | beginning ha hr hc => exact .beginning ha hr (hn.trans hc)
  | due ha hr hc => exact .due ha hr (hn.trans hc)
  | asking ha hp hi hc => exact .asking ha hp hi (hn.trans hc)
  | outstanding ha hp hu hc => exact .outstanding ha hp hu (hn.trans hc)
  | replied ha har hc => exact .replied ha har (hn.trans hc)
  | checking ha har hi hc => exact .checking ha har hi (hn.trans hc)
  | judging ha har hi hc => exact .judging ha har hi (hn.trans hc)
  | pausing ha hr hu hc => exact .pausing ha hr hu (hn.trans hc)
  | closing he => exact .closing (hn ▸ he)
  | delivering => exact .delivering
  | finished => exact .finished
  | overflowed => exact .overflowed

/-- Nothing but a lookup that is still to be replied to depends on what is to come. -/
theorem forget (h : Stage plan limit now arrival shared task xs rs)
    (hasking : ∀ attempt query, task ≠ .asking attempt query)
    (houtstanding : ∀ attempt, task ≠ .polling attempt .outstanding) :
    Stage plan limit now none shared task xs rs := by
  cases h with
  | absent => exact .absent
  | beginning ha hr hc => exact .beginning ha hr hc
  | due ha hr hc => exact .due ha hr hc
  | asking => exact absurd rfl (hasking _ _)
  | outstanding => exact absurd rfl (houtstanding _)
  | replied ha har hc => exact .replied ha har hc
  | checking ha har hi hc => exact .checking ha har hi hc
  | judging ha har hi hc => exact .judging ha har hi hc
  | pausing ha hr hu hc => exact .pausing ha hr hu hc
  | closing he => exact .closing he
  | delivering => exact .delivering
  | finished => exact .finished
  | overflowed => exact .overflowed

/-- The clock only goes on while the task waits, and not beyond the moment it waits for. -/
theorem advance {w : World}
    (h : Stage plan limit w.now arrival w.shared w.task xs rs) (hlimit : w.deadline plan = limit)
    {d : Duration} (hdue : ∀ due ∈ w.taskDue plan, w.now < due ∧ w.now + d ≤ due.ceilMillis) :
    Stage plan limit (w.now + d) arrival w.shared w.task xs rs := by
  have hrests : w.Rests := World.rests_of_later fun due hmem => (hdue due hmem).1
  have hreach : ∀ due ∈ w.taskDue plan, w.now + d ≤ due.ceilMillis :=
    fun due hmem => (hdue due hmem).2
  cases hrests with
  | absent ht =>
    rw [ht] at h ⊢
    cases h with
    | absent => exact .absent
  | finished ht =>
    rw [ht] at h ⊢
    cases h with
    | finished => exact .finished
  | overflowed ht =>
    rw [ht] at h ⊢
    cases h with
    | overflowed => exact .overflowed
  | outstanding ht unstopped =>
    have hle := hreach (w.deadline plan) (by simp [World.taskDue, ht, unstopped])
    rw [ht] at h ⊢
    cases h with
    | outstanding ha hp hu hc => exact .outstanding ha hp (hlimit ▸ hle) hc
  | @pausing wake ht unstopped =>
    have hle := hreach wake (by simp [World.taskDue, ht, unstopped])
    rw [ht] at h ⊢
    cases h with
    | pausing ha hr hu hc => exact .pausing ha hr hle hc

end Stage

namespace Clocked

open World Exchange

variable {s : Clocked}

def exchanges (s : Clocked) : List Exchange :=
  s.world.lookups.mapIdx fun i lookup =>
    { query := lookup.1, asked := lookup.2, answer := s.service i lookup.1 }

theorem exchanges_step (s : Clocked) (a : Action) : (s.step a).exchanges =
    (s.world.step s.plan a).lookups.mapIdx fun i lookup =>
      { query := lookup.1, asked := lookup.2, answer := s.service i lookup.1 } := by
  rw [exchanges, step_world, step_service]

theorem exchanges_step_of_eq {a : Action}
    (hl : (s.world.step s.plan a).lookups = s.world.lookups) :
    (s.step a).exchanges = s.exchanges := by
  rw [exchanges_step, hl, exchanges]

/-- Each lookup was made at least a retry interval after the reply to the one before. -/
def Spaced (plan : Plan) (xs : List Exchange) : Prop :=
  xs.IsChain fun x y => ∃ t, x.arrival? = some t ∧ t + plan.request.retryInterval ≤ y.asked

/-- What holds between the steps of every timely run with the given replies. -/
structure Follows (rs : List Reply) (s : Clocked) : Prop where
  whole : s.world.now.IsWhole
  counted : s.lookups = s.world.lookups.length
  unmissed : ∀ arrival ∈ s.arrival, s.world.now ≤ arrival.1.ceilMillis
  stage : Stage s.plan (s.world.deadline s.plan) s.world.now s.arrival s.world.shared
    s.world.task s.exchanges rs
  spaced : Spaced s.plan s.exchanges
  asked : ∀ x ∈ s.exchanges, x.asked < s.world.deadline s.plan

theorem asked?_self (w : World) : asked? w w = none := by
  unfold asked?
  split <;> simp_all

theorem goOn_of_none {after : World} (h : asked? s.world after = none) :
    s.goOn after = { s with world := after } := by
  rw [goOn, h]

theorem goOn_of_some {after : World} {query : Query} (h : asked? s.world after = some query) :
    s.goOn after = { s with
      world := after
      lookups := s.lookups + 1
      arrival := (s.service s.lookups query).delay.map fun d =>
        (after.now + d, (s.service s.lookups query).reply) } := by
  rw [goOn, h]

namespace Follows

theorem of_absent (whole : s.world.now.IsWhole) (counted : s.lookups = 0)
    (unmissed : ∀ arrival ∈ s.arrival, s.world.now ≤ arrival.1.ceilMillis)
    (ht : s.world.task = .absent) (hl : s.world.lookups = []) : Follows [] s := by
  have hx : s.exchanges = [] := by rw [exchanges, hl, List.mapIdx_nil]
  refine ⟨whole, by simp [counted, hl], unmissed, ?_, ?_, ?_⟩
  · rw [ht, hx]
    exact .absent
  · rw [hx]
    exact .nil
  · simp [hx]

/-- Where no lookup is made, only the stage is to be shown. -/
theorem of_stage (h : Follows rs s) {after : World} {arrival : Option (Instant × Reply)}
    {rs' : List Reply} (hxs : s.exchanges = xs) (hl : after.lookups = s.world.lookups)
    (hn : after.now = s.world.now) (hs : after.shared.startedAt = s.world.shared.startedAt)
    (harr : ∀ a ∈ arrival, a ∈ s.arrival)
    (hst : Stage s.plan (s.world.deadline s.plan) s.world.now arrival after.shared after.task
      xs rs') : Follows rs' { s with world := after, arrival } := by
  have hx : exchanges { s with world := after, arrival } = s.exchanges := by
    rw [exchanges, exchanges, hl]
  have hd : after.deadline s.plan = s.world.deadline s.plan := by
    rw [deadline_eq, deadline_eq, begun, begun, hs, hn]
  refine ⟨?_, ?_, ?_, ?_, ?_, ?_⟩
  · exact hn ▸ h.whole
  · exact hl ▸ h.counted
  · exact fun a ha => hn ▸ h.unmissed a (harr a ha)
  · rw [hx, hd, hn, hxs]
    exact hst
  · exact hx ▸ h.spaced
  · rw [hx, hd]
    exact h.asked

theorem goOn (h : Follows rs s) {after : World} {rs' : List Reply} (hxs : s.exchanges = xs)
    (hq : asked? s.world after = none) (hl : after.lookups = s.world.lookups)
    (hn : after.now = s.world.now)
    (hs : after.shared.startedAt = s.world.shared.startedAt)
    (hst : Stage s.plan (s.world.deadline s.plan) s.world.now s.arrival after.shared after.task
      xs rs') : Follows rs' (s.goOn after) := by
  rw [goOn_of_none hq]
  exact h.of_stage hxs hl hn hs (fun _ ha => ha) hst

theorem ask (h : Follows rs s) {attempt : Nat} {remaining : Duration} {query : Query}
    (ht : s.world.task = .polling attempt (.due remaining))
    (inTime : s.world.now < s.world.deadline s.plan) {after : World}
    (hq : asked? s.world after = some query)
    (hl : after.lookups = s.world.lookups ++ [(query, s.world.now)])
    (hn : after.now = s.world.now) (hs : after.shared = s.world.shared)
    (hta : after.task = .asking attempt query) : Follows rs (s.goOn after) := by
  let x : Exchange := { query, asked := s.world.now, answer := s.service s.lookups query }
  have hx : (s.goOn after).exchanges = s.exchanges ++ [x] := by
    rw [exchanges, goOn_world, goOn_service, hl, List.mapIdx_concat, ← h.counted]
    rfl
  have hd : after.deadline s.plan = s.world.deadline s.plan := by
    rw [deadline_eq, deadline_eq, begun, begun, hs, hn]
  have hst := h.stage
  rw [goOn_of_some hq] at hx ⊢
  generalize hxs : s.exchanges = xs at hst hx
  rw [ht] at hst
  cases hst with
  | due ha hr hc =>
    refine ⟨?_, ?_, ?_, ?_, ?_, ?_⟩
    · exact hn ▸ h.whole
    · simp [hl, h.counted]
    · intro arrival har
      obtain ⟨d, hd, rfl⟩ := Option.map_eq_some_iff.mp har
      exact le_trans (Duration.le_add _ d) (Duration.le_ceilMillis _)
    · rw [hx]
      simp only [hd, hn, hs, hta]
      exact .asking ha rfl inTime hc
    · rw [hx]
      refine List.isChain_append.mpr ⟨hxs ▸ h.spaced, .singleton _, fun y hy z hz => ?_⟩
      obtain rfl : x = z := by simpa using hz
      exact hr y hy
    · rw [hx, hd]
      intro y hy
      rcases List.mem_append.mp hy with hy | hy
      · exact h.asked y (hxs ▸ hy)
      · rw [List.mem_singleton.mp hy]
        exact inTime

theorem taskStep (h : Follows rs s) :
    Follows (rs ++ judgedIn s.world .task) (s.step .task) := by
  have hst := h.stage
  have hm := taskStep_move s.plan s.world
  rw [show s.step .task = s.goOn (s.world.taskStep s.plan) from rfl]
  generalize s.world.taskStep s.plan = after at hm
  generalize hxs : s.exchanges = xs at hst
  obtain ⟨hnow, -, hstart⟩ := hm.frame
  have hquiet {rs' : List Reply} (hq : asked? s.world after = none)
      (hl : after.lookups = s.world.lookups)
      (hstage : Stage s.plan (s.world.deadline s.plan) s.world.now s.arrival after.shared
        after.task xs rs') : Follows rs' (s.goOn after) :=
    h.goOn hxs hq hl hnow hstart hstage
  cases hm with
  | wait early =>
    rw [judgedIn_of_wait early, List.append_nil, goOn_of_none (asked?_self _)]
    exact h
  | begin ht =>
    simp only [judgedIn, ht, List.append_nil] at hst ⊢
    cases hst with
    | beginning ha hr hc =>
      exact hquiet (by simp [asked?, ht]) (by simp) (.due ha hr (by simp [hc]))
  | overflow ht =>
    simp only [judgedIn, ht, List.append_nil]
    exact hquiet (by simp [asked?]) (by simp) .overflowed
  | leave heeding stopped =>
    exact hquiet (by simp [asked?]) (by simp) .finished
  | expire ht unstopped elapsed =>
    simp only [judgedIn, ht, List.append_nil] at hst ⊢
    refine hquiet (by simp [asked?]) (by simp) (.closing ?_)
    cases hst with
    | due ha hr hc => exact ha.ended _
    | outstanding ha hp hu hc => exact ha.ended_of_late (late_of_pending (hp ▸ h.unmissed) elapsed) _
    | replied ha har hc => exact ha.ended_of_late (late_of_arrived har elapsed) _
  | ask ht unstopped inTime =>
    simp only [judgedIn, ht, List.append_nil]
    exact h.ask ht inTime (by simp [asked?, ht]) (by simp) rfl rfl rfl
  | pend ht =>
    simp only [judgedIn, ht, List.append_nil] at hst ⊢
    cases hst with
    | asking ha hp hi hc =>
      have hu := le_trans (le_of_lt hi) (Duration.le_ceilMillis _)
      exact hquiet (by simp [asked?, ht]) (by simp) (.outstanding ha hp hu hc)
  | take ht unstopped inTime =>
    simp only [judgedIn, ht, List.append_nil] at hst ⊢
    cases hst with
    | replied ha har hc =>
      exact hquiet (by simp [asked?]) (by simp) (.checking ha har inTime hc)
  | check ht =>
    simp only [judgedIn, ht, List.append_nil] at hst ⊢
    cases hst with
    | checking ha har hi hc =>
      exact hquiet (by simp [asked?]) (by simp) (.judging ha har hi hc)
  | select ht hj | abort ht hj | abandon ht hj =>
    simp only [judgedIn, ht] at hst ⊢
    cases hst with
    | judging ha har hi hc =>
      have hin := inTime_iff.mpr ⟨_, har, hi⟩
      exact hquiet (by simp [asked?]) (by simp) (.closing (ha.ended_of_inTime hin hc))
  | retry ht hj hr =>
    simp only [judgedIn, ht] at hst ⊢
    cases hst with
    | @judging _ earlier x _ ha har hi hc =>
      have hin := inTime_iff.mpr ⟨_, har, hi⟩
      have hanswered := ha.concat hin (by rw [decision?, hj])
      have hrested : Rested s.plan (s.world.now + s.plan.request.retryInterval) (earlier ++ [x]) :=
        rested_concat har
      have hu := le_trans (Duration.le_add s.world.now s.plan.request.retryInterval)
        (Duration.le_ceilMillis _)
      have hcount : s.world.shared.attempts = (earlier ++ [x]).length := by
        rw [hc, List.length_append, List.length_singleton]
      exact hquiet (by simp [asked?]) (by simp) (.pausing hanswered hrested hu hcount)
  | wake ht unstopped elapsed =>
    simp only [judgedIn, ht, List.append_nil] at hst ⊢
    cases hst with
    | pausing ha hr hu hc =>
      exact hquiet (by simp [asked?]) (by simp) (.beginning ha (hr.mono elapsed) hc)
  | close ht =>
    simp only [judgedIn, ht, List.append_nil]
    exact hquiet (by simp [asked?]) (by simp) .delivering
  | late ht | deliver ht =>
    simp only [judgedIn, ht, List.append_nil]
    exact hquiet (by simp [asked?]) (by simp) .finished

theorem callStep (h : Follows rs s) {acc : List CallId} (hd : Delivers s.plan acc s.world)
    (hk : Keeps acc s.world) (i : Nat) : Follows rs (s.step (.call i)) := by
  have hst := h.stage
  have hm := step_move s.plan s.world (.call i)
  rw [show s.step (.call i) = { s with world := s.world.step s.plan (.call i) } from rfl]
  generalize s.world.step s.plan (.call i) = after at hm
  generalize hxs : s.exchanges = xs at hst
  cases hm with
  | noCall => exact h
  | call hc split hs move =>
    cases move with
    | accept id idle =>
      have ht := hd.absent_of_idle idle
      rw [ht] at hst
      cases hst with
      | absent =>
        have hl := (hk.fresh ht).2
        exact of_absent h.whole (by rw [h.counted, hl]; rfl) h.unmissed ht hl
    | launch id =>
      have ht := hd.absent_of_accepted (List.mem_of_getElem? hc)
      refine h.of_stage hxs (by simp) rfl rfl (fun _ ha => ha) ?_
      rw [ht] at hst
      cases hst with
      | absent => exact .beginning ⟨rfl, by simp, by simp⟩ (by simp [Rested]) (hk.fresh ht).1
    | signal | cancel =>
      exact h.of_stage hxs (by simp) rfl rfl (fun _ ha => ha) (hst.of_shared rfl)
    | refuse | refused | late | stopped => exact h.of_stage hxs (by simp) rfl rfl (fun _ ha => ha) hst

theorem replyStep (h : Follows rs s) {r : Reply} (ha : s.Allows (.reply r)) :
    Follows rs (s.step (.reply r)) := by
  obtain ⟨arrival, harr, rfl, due⟩ := ha
  have hst := h.stage
  have hm := step_move s.plan s.world (.reply arrival.2)
  rw [show s.step (.reply arrival.2) = { s with
    world := s.world.step s.plan (.reply arrival.2), arrival := none } from rfl]
  generalize s.world.step s.plan (.reply arrival.2) = after at hm
  generalize hxs : s.exchanges = xs at hst
  cases hm with
  | unasked _ hasking houtstanding =>
    exact h.of_stage hxs rfl rfl rfl nofun (hst.forget hasking houtstanding)
  | replyAtOnce _ ht =>
    rw [ht] at hst
    cases hst with
    | asking ha hp hi hc =>
      obtain ⟨harrived, hr⟩ := arrived (hp ▸ harr) h.whole due (h.unmissed arrival harr)
      exact h.of_stage hxs rfl rfl rfl nofun (hr ▸ .checking ha harrived hi hc)
  | reply _ ht =>
    rw [ht] at hst
    cases hst with
    | outstanding ha hp hu hc =>
      obtain ⟨harrived, hr⟩ := arrived (hp ▸ harr) h.whole due (h.unmissed arrival harr)
      exact h.of_stage hxs rfl rfl rfl nofun (hr ▸ .replied ha harrived hc)

theorem advanceStep (h : Follows rs s) {acc : List CallId} (hd : Delivers s.plan acc s.world)
    (hk : Keeps acc s.world) {d : Duration} (ha : s.Allows (.advance d)) :
    Follows rs (s.step (.advance d)) := by
  obtain ⟨_, whole, hdue⟩ := ha
  have unmissed : ∀ arrival ∈ s.arrival, s.world.now + d ≤ arrival.1.ceilMillis :=
    fun arrival harr => (hdue arrival.1 (by simp [dues, Option.mem_def.mp harr])).2
  by_cases hl : s.world.task.isLaunched
  case pos =>
    have hlimit : (s.step (.advance d)).world.deadline s.plan = s.world.deadline s.plan := by
      rw [step_world, deadline_eq, deadline_eq, hk.begun_step hd hl]
    refine ⟨whole, h.counted, unmissed, ?_, h.spaced, ?_⟩
    · rw [step_plan, hlimit]
      exact h.stage.advance rfl fun due hmem => hdue due (by simp [dues, Option.mem_def.mp hmem])
    · rw [step_plan, hlimit]
      exact h.asked
  case neg =>
    have ht := Task.eq_absent hl
    have hst := h.stage
    rw [ht] at hst
    generalize hxs : s.exchanges = xs at hst
    cases hst with
    | absent =>
      have hno := (hk.fresh ht).2
      have hcount : s.lookups = 0 := by rw [h.counted, hno, List.length_nil]
      exact of_absent whole hcount unmissed ht hno

theorem step (h : Follows rs s) {acc : List CallId} (hd : Delivers s.plan acc s.world)
    (hk : Keeps acc s.world) {a : Action} (ha : s.Allows a) :
    Follows (rs ++ judgedIn s.world a) (s.step a) := by
  have hquiet (hne : a ≠ .task) (hs : Follows rs (s.step a)) :
      Follows (rs ++ judgedIn s.world a) (s.step a) := by
    rwa [judgedIn_of_ne_task hne, List.append_nil]
  cases a with
  | task => exact h.taskStep
  | call i => exact hquiet nofun (h.callStep hd hk i)
  | reply r => exact hquiet nofun (h.replyStep ha)
  | advance d => exact hquiet nofun (h.advanceStep hd hk ha)
  | start | stop => exact hquiet nofun (h.of_stage rfl rfl rfl rfl (fun _ ha => ha) h.stage)

theorem init (plan : Plan) (service : Service) : Follows [] { plan, service } :=
  of_absent (Duration.isWhole_ofMillis 0) rfl nofun rfl rfl

theorem run {plan : Plan} {service : Service} {actions : List Action}
    (timely : Timely { plan, service } actions) :
    Follows (judged plan {} actions) (Clocked.run { plan, service } actions) := by
  induction actions using List.reverseRecOn with
  | nil => exact init plan service
  | append_singleton actions a ih =>
    rw [timely_concat] at timely
    have hd := Delivers.run plan actions
    have hk := Keeps.run plan actions
    have hstep := (ih timely.1).step (by simpa using hd) (by simpa using hk) timely.2
    rw [judged, gather_concat, run_concat, ← judged]
    simpa using hstep

end Follows

end Clocked

end Arbiter.Arbitration
