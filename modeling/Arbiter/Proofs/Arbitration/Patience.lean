import Arbiter.Proofs.Arbitration.Decisive

/-!
What more time to try can change. An arbitration that came to a decision comes to the same one, by the
same lookups, if it is given more time. One that gives up after the longer time gives up after the
shorter one too, with no more lookups and no later.
-/

namespace Arbiter

/-- The same plan with so many milliseconds to try. -/
def Plan.lasting (plan : Plan) (timeout : Nat) : Plan :=
  { plan with request := { plan.request with timeout := .ofMillis timeout } }

namespace Arbitration

open Discovery

/-- A service whose answers depend on nothing but the number of the lookup. -/
def Service.scripted (answers : Nat → Answer) : Service := fun k _ => answers k

/-- A decision of the first arbitration is one of the second, which had more time. If the second gave
up, so did the first, as early at least. -/
structure DecisionKept (plan plan' : Plan) (acc acc' : List CallId) (w w' : World) : Prop where
  settled : ∀ id outcome time, acc = [id] → w.toldAt id = [(outcome, some time)] →
    Settled outcome → (∃ id', acc' = [id'] ∧ w'.toldAt id' = [(outcome, some time)]) ∧
      w'.lookups.map Prod.snd = w.lookups.map Prod.snd
  gaveUp : ∀ id' failure' time', acc' = [id'] →
    w'.toldAt id' = [(.error failure', some time')] → GaveUp plan' failure' →
      (∃ id failure time, acc = [id] ∧ w.toldAt id = [(.error failure, some time)] ∧
        GaveUp plan failure ∧ time ≤ time') ∧
      w.lookups.map Prod.snd <+: w'.lookups.map Prod.snd

namespace Exchange

variable {plan : Plan} {limit limit' : Instant} {x y : Exchange}

theorem asked_le_closing (inTime : x.asked < limit) : x.asked ≤ x.closing limit := by
  cases hin : x.inTime limit with
  | true =>
    obtain ⟨t, arrived, hlt⟩ := inTime_iff.mp hin
    rw [closing_of_inTime arrived hlt]
    exact asked_le_arrival arrived
  | false =>
    rw [closing_of_late hin]
    exact le_trans (le_of_lt inTime) (Duration.le_ceilMillis limit)

/-- An exchange is over before the next attempt begins. -/
theorem closing_le_following {t : Instant} (h : x.following? plan limit = some t) :
    x.closing limit ≤ t := by
  obtain ⟨u, arrived, hif⟩ := Option.bind_eq_some_iff.mp h
  split_ifs at hif with hcond
  obtain rfl := Option.some.inj hif
  rw [closing_of_inTime arrived hcond.1]
  exact le_trans (Duration.le_add u _) (Duration.le_ceilMillis _)

theorem closing_mono (harrival : x.arrival? = y.arrival?) (hle : limit ≤ limit') :
    x.closing limit ≤ y.closing limit' := by
  have hlimit : limit.ceilMillis ≤ limit'.ceilMillis := Duration.ceilMillis_mono hle
  cases hin : y.inTime limit' with
  | false =>
    rw [closing_of_late hin]
    cases hin' : x.inTime limit with
    | false => rwa [closing_of_late hin']
    | true =>
      obtain ⟨t, arrived, hlt⟩ := inTime_iff.mp hin'
      rw [closing_of_inTime arrived hlt]
      exact le_trans (le_of_lt hlt) (le_trans (Duration.le_ceilMillis limit) hlimit)
  | true =>
    obtain ⟨t, arrived, hlt⟩ := inTime_iff.mp hin
    rw [closing_of_inTime arrived hlt]
    cases hin' : x.inTime limit with
    | true =>
      obtain ⟨u, arrived', hlt'⟩ := inTime_iff.mp hin'
      rw [closing_of_inTime arrived' hlt']
      exact le_of_eq (Option.some.inj ((arrived'.symm.trans harrival).trans arrived))
    | false =>
      -- The reply comes at a whole millisecond, so it does not come before the limit is rounded.
      rw [closing_of_late hin']
      obtain ⟨d, hd, rfl⟩ := Option.map_eq_some_iff.mp arrived
      refine Duration.ceilMillis_le ?_ (Duration.isWhole_ceilMillis _)
      by_contra hlt'
      have hin : x.inTime limit := inTime_iff.mpr ⟨_, harrival.trans arrived, not_le.mp hlt'⟩
      simp [hin'] at hin

end Exchange

namespace Timetable

variable {c c' : Timetable} {n n' k l : Nat} {t u : Instant} {outcome : Outcome}

theorem le_closing (inTime : t < c.limit) : t ≤ (c.exchange k t).closing c.limit := by
  have hasked : (c.exchange k t).asked < c.limit := inTime
  exact Exchange.asked_le_closing hasked

/-- An exchange is over before any later attempt begins. -/
theorem closing_le_attempt? (begun : c.attempt? k = some t) (hkl : k < l)
    (later : c.attempt? l = some u) : (c.exchange k t).closing c.limit ≤ u := by
  induction l, hkl using Nat.le_induction generalizing u with
  | base =>
    rw [attempt?, begun, Option.bind_some] at later
    exact Exchange.closing_le_following later
  | succ l hkl ih =>
    obtain ⟨v, begun', hnext⟩ := Option.bind_eq_some_iff.mp later
    have hasked : v ≤ (c.exchange l v).closing c.limit :=
      le_closing (Exchange.following?_eq_some hnext)
    exact le_trans (ih begun') (le_trans hasked (Exchange.closing_le_following hnext))

theorem Ends.closing_le (h : c.Ends n (some u)) (begun : c.attempt? k = some t) (hk : k < n) :
    (c.exchange k t).closing c.limit ≤ u := by
  cases h with
  | cutOff begun' => exact closing_le_attempt? begun hk begun'
  | @last l v begun' inTime =>
    rcases Nat.lt_or_eq_of_le (Nat.le_of_lt_succ hk) with hlt | rfl
    · exact le_trans (closing_le_attempt? begun hlt begun') (le_closing inTime)
    · obtain rfl := Option.some.inj (begun.symm.trans begun')
      exact le_refl _

/-- The second is the same but for a limit that may be later. -/
structure Shorter (c c' : Timetable) : Prop where
  start : c.start = c'.start
  limit : c.limit ≤ c'.limit
  interval : c.plan.request.retryInterval = c'.plan.request.retryInterval
  decision : ∀ reply, decision? c.plan reply = decision? c'.plan reply
  answer : ∀ k query query', c.service k query = c'.service k query'

namespace Shorter

variable (h : c.Shorter c')
include h

theorem arrival?_eq (k : Nat) (t : Instant) :
    (c.exchange k t).arrival? = (c'.exchange k t).arrival? := by
  have hanswer : (c.exchange k t).answer = (c'.exchange k t).answer := h.answer k _ _
  rw [Exchange.arrival?, Exchange.arrival?, hanswer]
  rfl

theorem decision?_eq (k : Nat) (t : Instant) :
    decision? c.plan (c.exchange k t).reply = decision? c'.plan (c'.exchange k t).reply := by
  have hanswer : (c.exchange k t).answer = (c'.exchange k t).answer := h.answer k _ _
  rw [h.decision, Exchange.reply, Exchange.reply, hanswer]

theorem following?_eq_some (hnext : (c.exchange k t).following? c.plan c.limit = some u) :
    (c'.exchange k t).following? c'.plan c'.limit = some u := by
  obtain ⟨v, arrived, hif⟩ := Option.bind_eq_some_iff.mp hnext
  split_ifs at hif with hcond
  obtain ⟨inTime, undecided, time⟩ := hcond
  obtain rfl := Option.some.inj hif
  have time' : c'.plan.request.retryInterval < c'.limit - v :=
    h.interval ▸ lt_of_lt_of_le time (Duration.sub_le_sub h.limit v)
  rw [h.interval]
  exact Exchange.following?_of_retry (h.arrival?_eq k t ▸ arrived)
    (lt_of_lt_of_le inTime h.limit) (h.decision?_eq k t ▸ undecided) time'

/-- With more time, an attempt begins when it would have begun anyway. -/
theorem attempt?_eq_some (begun : c.attempt? k = some t) : c'.attempt? k = some t := by
  induction k generalizing t with
  | zero => rw [← begun, attempt?, attempt?, h.start]
  | succ k ih =>
    obtain ⟨u, begun', hnext⟩ := Option.bind_eq_some_iff.mp begun
    rw [attempt?, ih begun', Option.bind_some]
    exact h.following?_eq_some hnext

theorem decides (hd : c.Decides k u outcome) : c'.Decides k u outcome := by
  obtain ⟨t, begun, countable, arrived, inTime, decided⟩ := hd
  exact ⟨t, h.attempt?_eq_some begun, countable, h.arrival?_eq k t ▸ arrived,
    lt_of_lt_of_le inTime h.limit, h.decision?_eq k t ▸ decided⟩

theorem uncountable (hends : c.Ends n none) : c'.Ends n none := by
  cases hends with
  | uncountable begun all => exact .uncountable (h.attempt?_eq_some begun) all

theorem lookups_le {time time' : Option Instant} (hends : c.Ends n time)
    (hends' : c'.Ends n' time') : n ≤ n' := by
  by_contra hlt
  obtain ⟨t, begun, inTime, countable⟩ := hends.asks_iff.mpr (Nat.lt_of_not_le hlt)
  have hasks : c'.Asks n' :=
    ⟨t, h.attempt?_eq_some begun, lt_of_lt_of_le inTime h.limit, countable⟩
  exact Nat.lt_irrefl n' (hends'.asks_iff.mp hasks)

/-- With less time, the end does not come later. -/
theorem time_le (hends : c.Ends n (some t)) (hends' : c'.Ends n' (some u)) : t ≤ u := by
  have hle : n ≤ n' := h.lookups_le hends hends'
  cases hends with
  | cutOff begun late =>
    have begun' := h.attempt?_eq_some begun
    rcases Nat.lt_or_eq_of_le hle with hlt | rfl
    · obtain ⟨v, hv, inTime, -⟩ := hends'.asks_iff.mpr hlt
      obtain rfl := Option.some.inj (begun'.symm.trans hv)
      exact le_trans (le_closing inTime) (hends'.closing_le begun' hlt)
    · cases hends' with
      | cutOff begun'' => exact le_of_eq (Option.some.inj (begun'.symm.trans begun''))
      | last begun'' _ _ final => simp [attempt?, begun'', final] at begun'
  | @last k v begun =>
    have hclosing : (c.exchange k v).closing c.limit ≤ (c'.exchange k v).closing c'.limit :=
      Exchange.closing_mono (h.arrival?_eq k v) h.limit
    exact le_trans hclosing (hends'.closing_le (h.attempt?_eq_some begun) hle)

end Shorter

theorem decision?_lasting (plan : Plan) (timeout : Nat) (reply : Reply) :
    decision? (plan.lasting timeout) reply = decision? plan reply := by
  rcases reply with (code | text) | es
  · rw [decision?_application, decision?_application]
    rfl
  · rfl
  · rw [decision?_ok, decision?_ok]
    rfl

theorem shorter_lasting (plan : Plan) (answers : Nat → Answer) {timeout timeout' : Nat}
    (hle : timeout ≤ timeout') {start : Instant}
    (representable : start + .ofMillis timeout' < clockLimit) :
    Shorter ⟨plan.lasting timeout, .scripted answers, start⟩
      ⟨plan.lasting timeout', .scripted answers, start⟩ where
  start := rfl
  limit := by
    have hlimit : start + .ofMillis timeout ≤ start + .ofMillis timeout' :=
      Duration.add_ofMillis_le_add_ofMillis hle
    have hshort := lt_of_le_of_lt hlimit representable
    unfold limit deadline budget
    rw [Plan.lasting, Plan.lasting, if_pos hshort, if_pos representable]
    exact hlimit
  interval := rfl
  decision reply := by rw [decision?_lasting, decision?_lasting]
  answer _ _ _ := rfl

end Timetable

namespace Clocked

open World

section Pair

variable {s s' : Clocked} {acc acc' : List CallId} (h : OnTimetable acc s)
  (h' : OnTimetable acc' s') (shorter : s.timetable.Shorter s'.timetable)
include h h' shorter

/-- The longer one makes its lookups when the shorter one does, as long as that makes any. -/
theorem times_initial (hle : s.world.lookups.length ≤ s'.world.lookups.length) :
    s.world.lookups.map Prod.snd <+: s'.world.lookups.map Prod.snd := by
  refine prefix_of_agree (fun k time time' htime htime' => ?_) (by simpa using hle)
  rw [List.getElem?_map] at htime htime'
  obtain ⟨lookup, hk, rfl⟩ := Option.map_eq_some_iff.mp htime
  obtain ⟨lookup', hk', rfl⟩ := Option.map_eq_some_iff.mp htime'
  obtain ⟨begun, -⟩ := h.attempt?_of_lookup hk
  obtain ⟨begun', -⟩ := h'.attempt?_of_lookup hk'
  exact Option.some.inj ((shorter.attempt?_eq_some begun).symm.trans begun')

theorem settled_kept (ends : Resolution acc s) (ends' : Resolution acc' s') {id : CallId}
    {outcome : Outcome} {time : Instant} (accepted : acc = [id])
    (told : s.world.toldAt id = [(outcome, some time)]) (settled : Settled outcome) :
    (∃ id', acc' = [id'] ∧ s'.world.toldAt id' = [(outcome, some time)]) ∧
      s'.world.lookups.map Prod.snd = s.world.lookups.map Prod.snd := by
  subst accepted
  cases ends with
  | uncountable _ untold => simp [untold id (List.mem_singleton_self id)] at told
  | gaveUp accepted _ _ told' failed =>
    obtain rfl := List.singleton_inj.mp accepted
    obtain ⟨rfl, -⟩ := Prod.mk.inj (List.singleton_inj.mp (told'.symm.trans told))
    exact absurd settled failed.not_settled
  | decided accepted decides count toldSo =>
    obtain rfl := List.singleton_inj.mp accepted
    obtain ⟨rfl, htime⟩ := Prod.mk.inj (List.singleton_inj.mp (toldSo.symm.trans told))
    obtain rfl := Option.some.inj htime
    have hd' := shorter.decides decides
    cases ends' with
    | uncountable ends _ => cases (ends.unique hd'.ends).2
    | gaveUp _ _ undecided => exact absurd hd' (undecided _ _ _)
    | decided accepted' decides' count' told' =>
      obtain ⟨rfl, rfl, rfl⟩ := decides'.unique hd'
      have hlength : s.world.lookups.length = s'.world.lookups.length := count.trans count'.symm
      have hinitial := times_initial h h' shorter (Nat.le_of_eq hlength)
      exact ⟨⟨_, accepted', told'⟩, (hinitial.eq_of_length (by simpa using hlength)).symm⟩

theorem gaveUp_before {plan plan' : Plan} (hplan : s.plan = plan) (hplan' : s'.plan = plan')
    (ends : Resolution acc s) (ends' : Resolution acc' s') {id' : CallId} {failure' : Failure}
    {time' : Instant} (accepted' : acc' = [id'])
    (told' : s'.world.toldAt id' = [(.error failure', some time')])
    (failed' : GaveUp plan' failure') :
    (∃ id failure time, acc = [id] ∧ s.world.toldAt id = [(.error failure, some time)] ∧
        GaveUp plan failure ∧ time ≤ time') ∧
      s.world.lookups.map Prod.snd <+: s'.world.lookups.map Prod.snd := by
  subst hplan hplan' accepted'
  cases ends' with
  | uncountable _ untold => simp [untold id' (List.mem_singleton_self id')] at told'
  | decided accepted decides _ told =>
    obtain rfl := List.singleton_inj.mp accepted
    obtain ⟨rfl, -⟩ := Prod.mk.inj (List.singleton_inj.mp (told.symm.trans told'))
    exact absurd decides.settled failed'.not_settled
  | gaveUp accepted hends' undecided told =>
    obtain rfl := List.singleton_inj.mp accepted
    obtain ⟨-, htime⟩ := Prod.mk.inj (List.singleton_inj.mp (told.symm.trans told'))
    obtain rfl := Option.some.inj htime
    cases ends with
    | decided _ decides => exact absurd (shorter.decides decides) (undecided _ _ _)
    | uncountable hends => cases ((shorter.uncountable hends).unique hends').2
    | gaveUp accepted hends _ told failed =>
      exact ⟨⟨_, _, _, accepted, told, failed, shorter.time_le hends hends'⟩,
        times_initial h h' shorter (shorter.lookups_le hends hends')⟩

end Pair

/-- Where the timetables are the same but for a later limit, decisions are kept. -/
theorem runs_kept {plan plan' : Plan} {service service' : Service} {start : Instant}
    {actions actions' : List Action}
    (shorter : Timetable.Shorter ⟨plan, service, start⟩ ⟨plan', service', start⟩)
    (timely : Timely { plan, service } actions)
    (timely' : Timely { plan := plan', service := service' } actions')
    (unstopped : ∀ runtime, .stop runtime ∉ actions)
    (unstopped' : ∀ runtime, .stop runtime ∉ actions')
    (begun : (World.run plan {} actions).begun = start)
    (begun' : (World.run plan' {} actions').begun = start)
    (hover : (World.run plan {} actions).IsOver) (hover' : (World.run plan' {} actions').IsOver) :
    DecisionKept plan plan' (accepted plan {} actions) (accepted plan' {} actions')
      (World.run plan {} actions) (World.run plan' {} actions') := by
  have hworld : (Clocked.run { plan, service } actions).world = World.run plan {} actions :=
    run_world _ actions
  have hworld' : (Clocked.run { plan := plan', service := service' } actions').world =
      World.run plan' {} actions' := run_world _ actions'
  have h := OnTimetable.run timely unstopped
  have h' := OnTimetable.run timely' unstopped'
  have ht : (Clocked.run { plan, service } actions).timetable = ⟨plan, service, start⟩ := by
    rw [timetable_run, begun]
  have ht' : (Clocked.run { plan := plan', service := service' } actions').timetable =
      ⟨plan', service', start⟩ := by rw [timetable_run, begun']
  rw [← ht, ← ht'] at shorter
  rw [← hworld] at hover ⊢
  rw [← hworld'] at hover' ⊢
  have ends := resolution_of_over timely unstopped hover
  have ends' := resolution_of_over timely' unstopped' hover'
  exact ⟨fun _ _ _ => settled_kept h h' shorter ends ends',
    fun _ _ _ => gaveUp_before h h' shorter (run_plan _ actions) (run_plan _ actions') ends ends'⟩

/-- More time to try does not change a decision: the same is decided at the same time, by as many
lookups. If the longer run gave up, the shorter gave up no later. -/
theorem more_time_keeps_decisions (plan : Plan) (answers : Nat → Answer) {timeout timeout' : Nat}
    (hle : timeout ≤ timeout') :
    (∀ actions actions',
      Timely { plan := plan.lasting timeout, service := .scripted answers } actions →
      Timely { plan := plan.lasting timeout', service := .scripted answers } actions' →
      (∀ runtime, .stop runtime ∉ actions) → (∀ runtime, .stop runtime ∉ actions') →
      let w := World.run (plan.lasting timeout) {} actions
      let w' := World.run (plan.lasting timeout') {} actions'
      ∀ start, w.shared.startedAt = some start → w'.shared.startedAt = some start →
        start + .ofMillis timeout' < clockLimit → w.IsOver → w'.IsOver →
        DecisionKept (plan.lasting timeout) (plan.lasting timeout')
          (accepted (plan.lasting timeout) {} actions)
          (accepted (plan.lasting timeout') {} actions') w w') ∧
    ∀ time, .ofMillis time + .ofMillis timeout' < clockLimit →
      (∀ k, (answers k).stops = false ∧ (answers k).stopsWhenShown = false) →
      let result := (Session.fresh (plan.lasting timeout) (.scripted answers) time).arbitrate none
      let result' := (Session.fresh (plan.lasting timeout') (.scripted answers) time).arbitrate none
      DecisionKept (plan.lasting timeout) (plan.lasting timeout') [0] [0]
          result.1.world result'.1.world ∧
        (∀ outcome, result.2 = some outcome → Settled outcome → result'.2 = some outcome) ∧
        ∀ failure', result'.2 = some (.error failure') → GaveUp (plan.lasting timeout') failure' →
          ∃ failure, result.2 = some (.error failure) ∧ GaveUp (plan.lasting timeout) failure := by
  constructor
  · intro actions actions' timely timely' unstopped unstopped' w w' start hstart hstart'
      representable hover hover'
    have begun : w.begun = start := by rw [World.begun, hstart, Option.getD_some]
    have begun' : w'.begun = start := by rw [World.begun, hstart', Option.getD_some]
    have shorter := Timetable.shorter_lasting plan answers hle representable
    exact runs_kept shorter timely timely' unstopped unstopped' begun begun' hover hover'
  · intro time representable calm
    have calmly : ∀ k query, (Service.scripted answers k query).stops = false ∧
        (Service.scripted answers k query).stopsWhenShown = false := fun k _ => calm k
    have shorter := Timetable.shorter_lasting plan answers hle representable
    have hplayed := Session.arbitrate_over (plan.lasting timeout) time calmly
    have hplayed' := Session.arbitrate_over (plan.lasting timeout') time calmly
    have hresult (outcome : Outcome) :=
      @Session.arbitrate_eq_some_iff (plan.lasting timeout) _ time calmly outcome
    have hresult' (outcome : Outcome) :=
      @Session.arbitrate_eq_some_iff (plan.lasting timeout') _ time calmly outcome
    dsimp only at hresult hresult'
    generalize (Session.fresh (plan.lasting timeout) (.scripted answers) time).arbitrate none =
      result at hplayed hresult ⊢
    generalize (Session.fresh (plan.lasting timeout') (.scripted answers) time).arbitrate none =
      result' at hplayed' hresult' ⊢
    obtain ⟨actions, timely, unstopped, hworld, begun, hacc, hover, -⟩ := hplayed
    obtain ⟨actions', timely', unstopped', hworld', begun', hacc', hover', -⟩ := hplayed'
    have kept := runs_kept shorter timely timely' unstopped unstopped' begun begun' hover hover'
    rw [hacc, hacc', ← hworld, ← hworld'] at kept
    refine ⟨kept, fun outcome houtcome settled => ?_, fun failure' hfailure failed => ?_⟩
    · obtain ⟨moment, told⟩ := (hresult outcome).mp houtcome
      obtain ⟨⟨id', hid', told'⟩, -⟩ := kept.settled 0 outcome moment rfl told settled
      obtain rfl := List.singleton_inj.mp hid'
      exact (hresult' outcome).mpr ⟨moment, told'⟩
    · obtain ⟨moment, told⟩ := (hresult' _).mp hfailure
      obtain ⟨⟨id, failure, moment', hid, told', failed', -⟩, -⟩ :=
        kept.gaveUp 0 failure' moment rfl told failed
      obtain rfl := List.singleton_inj.mp hid
      exact ⟨failure, (hresult _).mpr ⟨moment', told'⟩, failed'⟩

/-- Nothing at first, and a radio that takes twenty milliseconds after that. -/
def radioInTheEnd (k : Nat) : Answer :=
  if k = 0 then { reply := .ok [] } else { reply := .ok [radio], delay := some (.ofMillis 20) }

def nothingEver (_ : Nat) : Answer := { reply := .ok [] }

/-- With twice the time the radio is found by the same two lookups, and where nothing is found the
shorter time ends without a winner as well. -/
theorem twice_the_time :
    DecisionKept (twoAttempts.lasting 150) (twoAttempts.lasting 300) [0] [0]
        (World.run (twoAttempts.lasting 150) {} secondAttempt)
        (World.run (twoAttempts.lasting 300) {} secondAttempt) ∧
      ∃ failure, ((Session.fresh (twoAttempts.lasting 150) (.scripted nothingEver) 0).arbitrate
        none).2 = some (.error failure) ∧ GaveUp (twoAttempts.lasting 150) failure := by
  have hle : 150 ≤ 300 := by decide
  constructor
  · have timely : Timely { plan := twoAttempts.lasting 150, service := .scripted radioInTheEnd }
        secondAttempt := by
      decide +kernel
    have timely' : Timely { plan := twoAttempts.lasting 300, service := .scripted radioInTheEnd }
        secondAttempt := by
      decide +kernel
    have unstopped : ∀ runtime, .stop runtime ∉ secondAttempt := by
      simp [secondAttempt]
    have finished : (World.run (twoAttempts.lasting 150) {} secondAttempt).task = .finished := by rfl
    have finished' : (World.run (twoAttempts.lasting 300) {} secondAttempt).task = .finished := by rfl
    exact (more_time_keeps_decisions twoAttempts radioInTheEnd hle).1 secondAttempt secondAttempt
      timely timely' unstopped unstopped .zero rfl rfl (by decide +kernel) (Or.inl finished)
      (Or.inl finished')
  · have hlonger : ((Session.fresh (twoAttempts.lasting 300) (.scripted nothingEver) 0).arbitrate
        none).2 = some (.error (.noEntries twoAttempts.target)) := by
      decide +kernel
    obtain ⟨-, -, hgave⟩ := (more_time_keeps_decisions twoAttempts nothingEver hle).2 0
      (by decide +kernel) fun _ => ⟨rfl, rfl⟩
    exact hgave _ hlonger .noEntries

/-- The radio comes a hundred and twenty milliseconds after the start, with either time. -/
example : (World.run (twoAttempts.lasting 150) {} secondAttempt).toldAt 0 =
    [(.ok radio, some (.ofMillis 120))] := by rfl

end Clocked

end Arbitration

end Arbiter
