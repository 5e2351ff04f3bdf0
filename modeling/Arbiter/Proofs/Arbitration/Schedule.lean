import Arbiter.Proofs.Arbitration.Timetable

/-!
The schedule of retries, in whole milliseconds. Where every reply leaves an arbitration undecided, the
times of its lookups and of its failure follow from the time to try, the retry interval and the delays
of the replies alone.
-/

namespace Arbiter.Arbitration

open Discovery

/-- What the times of an undecided arbitration hang on: the time to try, the interval between a
reply and the next lookup, and how long each reply takes, if it comes. -/
structure Schedule where
  timeout : Nat
  interval : Nat
  delays : Nat → Option Nat

namespace Schedule

/-- When a lookup is made after the one with the given number and time, if one is. -/
def next? (c : Schedule) (k t : Nat) : Option Nat :=
  (c.delays k).bind fun d =>
    if t + d + c.interval < c.timeout then some (t + d + c.interval) else none

/-- When the lookup with the given number is made, counted from the start, if it is made. -/
def lookup? (c : Schedule) : Nat → Option Nat
  | 0 => some 0
  | k + 1 => (c.lookup? k).bind (c.next? k)

/-- When the failure is told if the lookup with the given number was the last and was made then: at
the reply, or when the time to try is over. -/
def closing (c : Schedule) (k t : Nat) : Nat :=
  match c.delays k with
  | some d => if t + d < c.timeout then t + d else c.timeout
  | none => c.timeout

/-- What a lookup asks that is made so long after the start. -/
def query (c : Schedule) (plan : Plan) (t : Nat) : Query where
  target := plan.target
  qos :=
    { cacheMaxAge := plan.request.cacheMaxAge.clampedMillis
      timeout := .ofNat (min (c.timeout - t) Int64.maxValue.toInt.toNat)
      scope := plan.request.scope
      mustSupportOnChange := plan.request.mustSupportOnChange }
  gbids := plan.gbids

/-- The answer takes as long as the schedule says and, if it comes, leaves the arbitration
undecided. -/
structure Foresees (c : Schedule) (plan : Plan) (k : Nat) (answer : Answer) : Prop where
  delay : answer.delay = (c.delays k).map .ofMillis
  undecided : answer.delay ≠ none → Undecided plan answer.reply

/-- The plan has the times of the schedule, and so have the answers to the lookups on it. -/
structure Governs (c : Schedule) (plan : Plan) (service : Service) : Prop where
  timeout : plan.request.timeout = .ofMillis c.timeout
  interval : plan.request.retryInterval = .ofMillis c.interval
  positive : 0 < c.timeout
  answers : ∀ k t, c.lookup? k = some t → c.Foresees plan k (service k (c.query plan t))

/-- An arbitration that is over made the lookups on the schedule, and its start was told a failure
when the last of them was closed. -/
structure KeptBy (c : Schedule) (plan : Plan) (start : Instant) (id : CallId) (w : World) :
    Prop where
  lookups : ∀ k, w.lookups[k]? =
    (c.lookup? k).map fun t => (c.query plan t, start + .ofMillis t)
  told : ∃ k t failure, w.lookups.length = k + 1 ∧ c.lookup? k = some t ∧
    w.toldAt id = [(.error failure, some (start + .ofMillis (c.closing k t)))]

/-- An arbitration that is over made its lookups an interval apart, as many as begin within the time to
try, and its start was told a failure with the last of them. -/
structure KeptEvenlyBy (c : Schedule) (plan : Plan) (start : Instant) (id : CallId) (w : World) :
    Prop where
  lookups : w.lookups = (List.range (c.timeout ⌈/⌉ c.interval)).map fun k =>
    (c.query plan (k * c.interval), start + .ofMillis (k * c.interval))
  told : ∃ failure, w.toldAt id = [(.error failure,
    some (start + .ofMillis ((c.timeout ⌈/⌉ c.interval - 1) * c.interval)))]
  late : c.timeout - c.interval ≤ (c.timeout ⌈/⌉ c.interval - 1) * c.interval
  inTime : (c.timeout ⌈/⌉ c.interval - 1) * c.interval < c.timeout

variable {c : Schedule} {plan : Plan} {service : Service} {k t n : Nat} {start : Instant}

theorem next?_lt {u : Nat} (h : c.next? k t = some u) : u < c.timeout := by
  obtain ⟨d, -, hif⟩ := Option.bind_eq_some_iff.mp h
  split_ifs at hif with hlt
  obtain rfl := Option.some.inj hif
  exact hlt

theorem lookup?_lt (positive : 0 < c.timeout) (h : c.lookup? k = some t) : t < c.timeout := by
  cases k with
  | zero =>
    obtain rfl := Option.some.inj h
    exact positive
  | succ k =>
    obtain ⟨before, -, hnext⟩ := Option.bind_eq_some_iff.mp h
    exact next?_lt hnext

theorem lookup?_eq_none_of_le {l : Nat} (h : c.lookup? k = none) (hle : k ≤ l) :
    c.lookup? l = none := by
  induction l, hle using Nat.le_induction with
  | base => exact h
  | succ l hle ih => rw [lookup?, ih, Option.bind_none]

section Exchange

variable {x : Exchange} (whole : start.IsWhole) (hasked : x.asked = start + .ofMillis t)
  (foreseen : c.Foresees plan k x.answer)
include whole hasked foreseen

theorem arrival?_eq :
    x.arrival? = (c.delays k).map fun d => start + .ofMillis (t + d) := by
  rw [Exchange.arrival?, foreseen.delay, Option.map_map]
  refine Option.map_congr fun d _ => ?_
  rw [Function.comp_apply, hasked, Duration.add_ofMillis]
  exact whole.add (Duration.isWhole_ofMillis _)

theorem closing_eq :
    x.closing (start + .ofMillis c.timeout) = start + .ofMillis (c.closing k t) := by
  have hlimit : (start + .ofMillis c.timeout).ceilMillis = start + .ofMillis c.timeout :=
    whole.add (Duration.isWhole_ofMillis _)
  rw [Exchange.closing, arrival?_eq whole hasked foreseen, hlimit, closing]
  cases c.delays k with
  | none => rfl
  | some d =>
    simp only [Option.map_some, Option.filter_some, Duration.add_ofMillis_lt_iff,
      decide_eq_true_eq]
    split_ifs <;> rfl

theorem following?_eq (interval : plan.request.retryInterval = .ofMillis c.interval) :
    x.following? plan (start + .ofMillis c.timeout) =
      (c.next? k t).map fun t => start + .ofMillis t := by
  have harrival := arrival?_eq whole hasked foreseen
  have hdelay := foreseen.delay
  unfold Exchange.following? next?
  rw [harrival]
  cases hd : c.delays k with
  | none => rfl
  | some d =>
    have undecided : decision? plan x.reply = none :=
      undecided_iff.mp (foreseen.undecided (by simp [hdelay, hd]))
    -- A reply at the limit is too late, and one that leaves just the interval is the last.
    have hcond : (start + .ofMillis (t + d) < start + .ofMillis c.timeout ∧
        decision? plan x.reply = none ∧ plan.request.retryInterval <
          start + .ofMillis c.timeout - (start + .ofMillis (t + d))) ↔
        t + d + c.interval < c.timeout := by
      rw [interval, Duration.add_ofMillis_lt_iff, Duration.add_ofMillis_sub,
        Duration.ofMillis_lt_iff]
      constructor
      · rintro ⟨-, -, hinterval⟩
        omega
      · intro hlt
        exact ⟨by omega, undecided, by omega⟩
    have hnext : (start + .ofMillis (t + d) + plan.request.retryInterval).ceilMillis =
        start + .ofMillis (t + d + c.interval) := by
      rw [interval, Duration.add_ofMillis]
      exact whole.add (Duration.isWhole_ofMillis _)
    rw [Option.map_some, Option.bind_some, Option.bind_some,
      if_congr hcond (congrArg some hnext) rfl, apply_ite (Option.map _), Option.map_some,
      Option.map_none]

end Exchange

section Timetable

variable (governs : c.Governs plan service)
  (representable : start + .ofMillis c.timeout < clockLimit)
include governs representable

theorem limit_eq : Timetable.limit ⟨plan, service, start⟩ = start + .ofMillis c.timeout := by
  unfold Timetable.limit deadline budget
  rw [governs.timeout, if_pos representable]

theorem queryOf_eq :
    queryOf plan (Timetable.limit ⟨plan, service, start⟩ - (start + .ofMillis t)) =
      c.query plan t := by
  rw [limit_eq governs representable, Duration.add_ofMillis_sub, queryOf, Request.lookupQos,
    Duration.clampedMillis_ofMillis, query]

theorem foresees_exchange (h : c.lookup? k = some t) : c.Foresees plan k
    (Timetable.exchange ⟨plan, service, start⟩ k (start + .ofMillis t)).answer := by
  have hquery := queryOf_eq (t := t) governs representable
  have hanswer := governs.answers k t h
  rwa [← hquery] at hanswer

/-- The timetable, which is computed in durations, is the schedule counted from the start. -/
theorem attempt?_eq (whole : start.IsWhole) (k : Nat) :
    Timetable.attempt? ⟨plan, service, start⟩ k =
      (c.lookup? k).map fun t => start + .ofMillis t := by
  induction k with
  | zero =>
    have hzero : start + .ofMillis 0 = start := by simp [Duration.eq_iff]
    rw [Timetable.attempt?, lookup?, Option.map_some, hzero]
  | succ k ih =>
    rw [Timetable.attempt?, ih, lookup?]
    cases h : c.lookup? k with
    | none => rfl
    | some t =>
      have foreseen := foresees_exchange governs representable h
      rw [Option.map_some, Option.bind_some, Option.bind_some, limit_eq governs representable]
      exact following?_eq whole rfl foreseen governs.interval

/-- The lookups come to an end on the schedule before they can no longer be counted. -/
theorem ends_eq (whole : start.IsWhole) (few : c.lookup? (attemptLimit - 1) = none)
    {time : Option Instant} (ends : Timetable.Ends ⟨plan, service, start⟩ n time) :
    ∃ k t, n = k + 1 ∧ c.lookup? k = some t ∧ c.lookup? n = none ∧
      time = some (start + .ofMillis (c.closing k t)) := by
  have hattempt := attempt?_eq governs representable whole
  have hlimit := limit_eq governs representable
  cases ends with
  -- No attempt on the schedule begins too late to ask, and none is the one too many.
  | cutOff begun late =>
    obtain ⟨t, ht, rfl⟩ := Option.map_eq_some_iff.mp ((hattempt n).symm.trans begun)
    have hlt := lookup?_lt governs.positive ht
    rw [hlimit, ← not_lt, Duration.add_ofMillis_lt_iff] at late
    exact absurd hlt late
  | @last k _ begun _ _ final =>
    obtain ⟨t, ht, rfl⟩ := Option.map_eq_some_iff.mp ((hattempt k).symm.trans begun)
    have foreseen := foresees_exchange governs representable ht
    rw [hlimit] at final ⊢
    rw [following?_eq whole rfl foreseen governs.interval, Option.map_eq_none_iff] at final
    refine ⟨k, t, rfl, ht, ?_, ?_⟩
    · rw [lookup?, ht, Option.bind_some, final]
    · rw [closing_eq whole rfl foreseen]
  | uncountable begun all =>
    obtain ⟨t, ht, -⟩ := Option.map_eq_some_iff.mp ((hattempt n).symm.trans begun)
    obtain rfl : n = attemptLimit - 1 := by omega
    simp [few] at ht

end Timetable

section Runs

open Clocked World

variable {s : Clocked} {acc : List CallId} (governs : c.Governs plan service)
  (representable : start + .ofMillis c.timeout < clockLimit) (whole : start.IsWhole)
  (h : OnTimetable acc s) (ht : s.timetable = ⟨plan, service, start⟩)
include governs representable whole h ht

/-- Each lookup that was made is on the schedule. -/
theorem lookup_on_schedule {lookup : Query × Instant} (hlookup : s.world.lookups[k]? = some lookup) :
    ∃ t, c.lookup? k = some t ∧ lookup = (c.query plan t, start + .ofMillis t) := by
  have hplan : s.plan = plan := congrArg Timetable.plan ht
  obtain ⟨begun, hquery⟩ := h.attempt?_of_lookup hlookup
  rw [ht, attempt?_eq governs representable whole] at begun
  obtain ⟨t, hk, htime⟩ := Option.map_eq_some_iff.mp begun
  refine ⟨t, hk, Prod.ext ?_ htime.symm⟩
  rw [hquery, ht, hplan, ← htime]
  exact queryOf_eq governs representable

/-- No reply that came is decisive. -/
theorem undecided_of_inTime {x : Exchange} (hx : x ∈ s.exchanges) {limit : Instant}
    (inTime : x.inTime limit) : decision? plan x.reply = none := by
  obtain ⟨k, hk⟩ := List.mem_iff_getElem?.mp hx
  obtain ⟨begun, hexchange⟩ := h.made k x hk
  rw [ht] at begun hexchange
  rw [attempt?_eq governs representable whole] at begun
  obtain ⟨t, hlookup, hasked⟩ := Option.map_eq_some_iff.mp begun
  have foreseen := foresees_exchange governs representable hlookup
  rw [hasked, hexchange] at foreseen
  obtain ⟨moment, harrival, -⟩ := Exchange.inTime_iff.mp inTime
  refine undecided_iff.mp (foreseen.undecided fun hnone => ?_)
  simp [Exchange.arrival?, hnone] at harrival

theorem kept_of_ends (few : c.lookup? (attemptLimit - 1) = none) (ends : EndsOnTime acc s) :
    ∃ id, acc = [id] ∧ c.KeptBy plan start id s.world := by
  have hplan : s.plan = plan := congrArg Timetable.plan ht
  cases ends with
  | uncountable _ ends =>
    rw [ht] at ends
    obtain ⟨_, _, -, -, -, htime⟩ := ends_eq governs representable whole few ends
    cases htime
  | @told id time accepted ends told =>
    rw [ht] at ends
    obtain ⟨k, t, hlength, hk, hlast, htime⟩ := ends_eq governs representable whole few ends
    obtain rfl := Option.some.inj htime
    refine ⟨id, accepted, fun j => ?_, k, t, ?_⟩
    · cases hlookup : s.world.lookups[j]? with
      | none =>
        have hle := List.getElem?_eq_none_iff.mp hlookup
        rw [lookup?_eq_none_of_le hlast hle, Option.map_none]
      | some lookup =>
        obtain ⟨u, hu, rfl⟩ := lookup_on_schedule governs representable whole h ht hlookup
        rw [hu, Option.map_some]
    · have undecided : ∀ reply ∈ (s.exchanges.filter
          (Exchange.inTime s.timetable.limit)).map Exchange.reply,
          decision? plan reply = none := by
        intro reply hreply
        obtain ⟨x, hx, rfl⟩ := List.mem_map.mp hreply
        obtain ⟨hmem, inTime⟩ := List.mem_filter.mp hx
        exact undecided_of_inTime governs representable whole h ht hmem inTime
      rw [hplan, conclude_of_undecided undecided] at told
      exact ⟨_, hlength, hk, told⟩

end Runs

/-- So many lookups begin within the time to try. -/
theorem mul_interval_lt_iff (interval : 0 < c.interval) :
    k * c.interval < c.timeout ↔ k < c.timeout ⌈/⌉ c.interval := by
  rw [← not_le, ← not_le, not_iff_not, ceilDiv_le_iff_le_mul interval, Nat.mul_comm]

section Immediate

variable (immediate : ∀ k, c.delays k = some 0) (positive : 0 < c.timeout)
include immediate positive

theorem lookup?_of_immediate (k : Nat) :
    c.lookup? k = if k * c.interval < c.timeout then some (k * c.interval) else none := by
  induction k with
  | zero => rw [Nat.zero_mul, if_pos positive, lookup?]
  | succ k ih =>
    have hle : k * c.interval ≤ (k + 1) * c.interval := Nat.mul_le_mul_right _ (Nat.le_succ k)
    have hnext : k * c.interval + 0 + c.interval = (k + 1) * c.interval := by
      rw [Nat.add_zero, Nat.succ_mul]
    rw [lookup?, ih]
    by_cases hlt : k * c.interval < c.timeout
    case pos => rw [if_pos hlt, Option.bind_some, next?, immediate, Option.bind_some, hnext]
    case neg =>
      have hlater : ¬(k + 1) * c.interval < c.timeout := by omega
      rw [if_neg hlt, if_neg hlater, Option.bind_none]

variable (interval : 0 < c.interval) {id : CallId} {w : World} (h : c.KeptBy plan start id w)
include interval h

theorem KeptBy.lookups_of_immediate :
    w.lookups = (List.range (c.timeout ⌈/⌉ c.interval)).map fun k =>
      (c.query plan (k * c.interval), start + .ofMillis (k * c.interval)) := by
  refine List.ext_getElem? fun k => ?_
  rw [h.lookups, lookup?_of_immediate immediate positive, List.getElem?_map]
  split_ifs with hk
  · rw [List.getElem?_range ((mul_interval_lt_iff interval).mp hk), Option.map_some,
      Option.map_some]
  · have hnone : (List.range (c.timeout ⌈/⌉ c.interval))[k]? = none := by
      rw [List.getElem?_eq_none_iff, List.length_range]
      exact Nat.le_of_not_lt fun hlt => hk ((mul_interval_lt_iff interval).mpr hlt)
    rw [hnone, Option.map_none, Option.map_none]

/-- With replies that come at once, the lookups are an interval apart and the failure comes with the
last reply. -/
theorem KeptBy.evenly : c.KeptEvenlyBy plan start id w := by
  have hlookups := h.lookups_of_immediate immediate positive interval
  obtain ⟨k, t, failure, hlength, hk, told⟩ := h.told
  rw [hlookups, List.length_map, List.length_range] at hlength
  have hlast : k * c.interval < c.timeout := (mul_interval_lt_iff interval).mpr (by omega)
  have hover : c.timeout ≤ (k + 1) * c.interval := by
    rw [← not_lt, mul_interval_lt_iff interval, hlength]
    exact lt_irrefl (k + 1)
  rw [lookup?_of_immediate immediate positive, if_pos hlast] at hk
  obtain rfl := Option.some.inj hk
  have hclosing : c.closing k (k * c.interval) = k * c.interval := by
    rw [closing, immediate]
    simp [hlast]
  have hcount : c.timeout ⌈/⌉ c.interval - 1 = k := by omega
  refine ⟨hlookups, ⟨failure, ?_⟩, ?_, ?_⟩
  · rw [told, hclosing, hcount]
  · rw [hcount]
    rw [Nat.succ_mul] at hover
    omega
  · rwa [hcount]

end Immediate

end Schedule

namespace Clocked

open World Schedule

/-- In a timely run that nobody stops, the lookups are on the schedule, and when it is over the
schedule was kept. -/
theorem run_on_schedule {c : Schedule} {plan : Plan} {service : Service} {actions : List Action}
    {start : Instant} (governs : c.Governs plan service)
    (few : c.lookup? (attemptLimit - 1) = none) (timely : Timely { plan, service } actions)
    (unstopped : ∀ runtime, .stop runtime ∉ actions)
    (begun : (World.run plan {} actions).begun = start) (whole : start.IsWhole)
    (representable : start + .ofMillis c.timeout < clockLimit) :
    let w := World.run plan {} actions
    (∀ k lookup, w.lookups[k]? = some lookup →
      ∃ t, c.lookup? k = some t ∧ lookup = (c.query plan t, start + .ofMillis t)) ∧
    (w.IsOver → ∃ id, accepted plan {} actions = [id] ∧ c.KeptBy plan start id w) := by
  intro w
  have hworld : (Clocked.run { plan, service } actions).world = w := run_world _ actions
  have h := OnTimetable.run timely unstopped
  have ht : (Clocked.run { plan, service } actions).timetable = ⟨plan, service, start⟩ := by
    rw [timetable, run_plan, run_service, hworld, begun]
  have hends := endsOnTime_of_over timely unstopped
  rw [← hworld]
  exact ⟨fun _ _ => lookup_on_schedule governs representable whole h ht,
    fun hover => kept_of_ends governs representable whole h ht few (hends hover)⟩

/-- As long as the replies are undecided, the lookups are those of the schedule, and the accepted
start is told a failure at the reply to the last one, or when the time is over. -/
theorem retries_keep_to_schedule (c : Schedule) (plan : Plan) (service : Service)
    (governs : c.Governs plan service) (few : c.lookup? (attemptLimit - 1) = none) :
    (∀ actions, Timely { plan, service } actions → (∀ runtime, .stop runtime ∉ actions) →
      let w := World.run plan {} actions
      ∀ start, w.shared.startedAt = some start → start + .ofMillis c.timeout < clockLimit →
        (∀ k lookup, w.lookups[k]? = some lookup →
          ∃ t, c.lookup? k = some t ∧ lookup = (c.query plan t, start + .ofMillis t)) ∧
        (w.IsOver → ∃ id, accepted plan {} actions = [id] ∧ c.KeptBy plan start id w)) ∧
    (∀ time, .ofMillis time + .ofMillis c.timeout < clockLimit →
      (∀ k query, (service k query).stops = false ∧ (service k query).stopsWhenShown = false) →
      let result := (Session.fresh plan service time).arbitrate none
      c.KeptBy plan (.ofMillis time) 0 result.1.world ∧
        ∃ failure, result.2 = some (.error failure)) ∧
    -- With replies that come at once, the lookups are an interval apart.
    (0 < c.interval → (∀ k, c.delays k = some 0) →
      ∀ start id w, c.KeptBy plan start id w → c.KeptEvenlyBy plan start id w) := by
  refine ⟨?_, ?_, ?_⟩
  · intro actions timely unstopped w start hstart representable
    have begun : w.begun = start := by rw [World.begun, hstart, Option.getD_some]
    have whole := startedAt_isWhole timely start (by rw [run_world]; exact hstart)
    exact run_on_schedule governs few timely unstopped begun whole representable
  · intro time representable calm
    have hplayed := Session.arbitrate_over plan time calm
    generalize (Session.fresh plan service time).arbitrate none = result at hplayed ⊢
    obtain ⟨actions, timely, unstopped, hworld, begun, haccepted, finished, houtcome⟩ := hplayed
    have whole := Duration.isWhole_ofMillis time
    obtain ⟨-, hover⟩ := run_on_schedule governs few timely unstopped begun whole representable
    obtain ⟨id, hid, kept⟩ := hover finished
    obtain rfl := List.singleton_inj.mp (haccepted.symm.trans hid)
    rw [← hworld] at kept
    obtain ⟨_, _, failure, -, -, told⟩ := kept.told
    exact ⟨kept, failure, houtcome _ _ told⟩
  · intro interval immediate start id w kept
    exact kept.evenly immediate governs.positive interval

/-- A service that knows of nothing at first, and then does not reply any more. -/
def fallsSilent : Service := fun k _ =>
  { reply := .ok [], delay := if k = 0 then some (.ofMillis 20) else none }

/-- The lookup that is not replied to is given up when the time to try is over. -/
def givenUpAtLast : List Action :=
  [.start true, .call 0, .call 0, .task, .task, .task, .advance (.ofMillis 20), .reply (.ok []),
   .task, .task, .task, .advance (.ofMillis 100), .task, .task, .task, .task,
   .advance (.ofMillis 30), .task, .task, .task]

def untilSilence : Schedule := ⟨150, 100, fun k => if k = 0 then some 20 else none⟩

/-- A service that knows of nothing, and says so at once. -/
def emptyAtOnce : Service := fun _ _ => { reply := .ok [] }

def atOnce : Schedule := ⟨150, 100, fun _ => some 0⟩

theorem twoAttempts_keeps_to_schedule :
    untilSilence.KeptBy twoAttempts .zero 0 (World.run twoAttempts {} givenUpAtLast) ∧
      atOnce.KeptEvenlyBy twoAttempts (.ofMillis 0) 0
        ((Session.fresh twoAttempts emptyAtOnce 0).arbitrate none).1.world := by
  have two : 2 ≤ attemptLimit - 1 := by decide +kernel
  constructor
  · have governs : untilSilence.Governs twoAttempts fallsSilent := by
      refine ⟨rfl, rfl, by decide, fun k t _ => ⟨?_, fun _ => .empty⟩⟩
      by_cases hk : k = 0
      case pos => simp [untilSilence, fallsSilent, hk]
      case neg => simp [untilSilence, fallsSilent, hk]
    have few : untilSilence.lookup? (attemptLimit - 1) = none :=
      lookup?_eq_none_of_le (k := 2) (by decide) two
    have timely : Timely { plan := twoAttempts, service := fallsSilent } givenUpAtLast := by
      decide +kernel
    have unstopped : ∀ runtime, .stop runtime ∉ givenUpAtLast := by
      simp [givenUpAtLast]
    have finished : (World.run twoAttempts {} givenUpAtLast).task = .finished := by rfl
    have hacc : accepted twoAttempts {} givenUpAtLast = [0] := by rfl
    obtain ⟨-, hover⟩ := (retries_keep_to_schedule untilSilence twoAttempts fallsSilent governs
      few).1 givenUpAtLast timely unstopped .zero rfl (by decide +kernel)
    obtain ⟨id, hid, kept⟩ := hover (Or.inl finished)
    obtain rfl := List.singleton_inj.mp (hacc.symm.trans hid)
    exact kept
  · have governs : atOnce.Governs twoAttempts emptyAtOnce :=
      ⟨rfl, rfl, by decide, fun _ _ _ => ⟨rfl, fun _ => .empty⟩⟩
    have few : atOnce.lookup? (attemptLimit - 1) = none :=
      lookup?_eq_none_of_le (k := 2) (by decide) two
    obtain ⟨-, hplayed, heven⟩ :=
      retries_keep_to_schedule atOnce twoAttempts emptyAtOnce governs few
    obtain ⟨kept, -⟩ := hplayed 0 (by decide +kernel) fun _ _ => ⟨rfl, rfl⟩
    exact heven (by decide) (fun _ => rfl) _ _ _ kept

/-- The second lookup is made a retry interval after the reply to the first, and the failure is told
when the time to try is over. -/
example : untilSilence.lookup? 1 = some 120 ∧ untilSilence.lookup? 2 = none ∧
    untilSilence.closing 1 120 = 150 := by decide

end Clocked

end Arbiter.Arbitration
