import Arbiter.Proofs.Arbitration.Timetable

/-!
Entries of an incompatible version do not count. Two services with the same delays, whose lists
agree in the compatible entries, lead to the same lookups at the same times and to the same end,
whatever else the lists hold.
-/

namespace Arbiter.Arbitration

open Discovery

/-- The same error, or lists with the same compatible entries in the same order. -/
inductive SameReply (required : Version) : Reply → Reply → Prop where
  | error (e : LookupError) : SameReply required (.error e) (.error e)
  | ok {es es' : List Entry}
      (compatible : compatibleEntries required es = compatibleEntries required es') :
    SameReply required (.ok es) (.ok es')

/-- Answers that take the same time. What comes of it is the same, but for what is incompatible. -/
structure Answer.Alike (required : Version) (a b : Answer) : Prop where
  delay : a.delay = b.delay
  reply : a.delay ≠ none → SameReply required a.reply b.reply

def Service.Alike (required : Version) (service service' : Service) : Prop :=
  ∀ k query, (service k query).Alike required (service' k query)

structure Exchange.Alike (required : Version) (x y : Exchange) : Prop where
  query : x.query = y.query
  asked : x.asked = y.asked
  answer : x.answer.Alike required y.answer

/-- The failures of arbitrations whose time ran out. -/
inductive GaveUp (plan : Plan) : Failure → Prop where
  | timedOut : GaveUp plan .timedOut
  | noEntries : GaveUp plan (.noEntries plan.target)
  | noCompatibleProvider (versions : VersionSet) :
    GaveUp plan (.noCompatibleProvider plan.target versions)
  | lookupFailed (text : String) : GaveUp plan (.lookupFailed (continuing text))

/-- The same winner, the same fatal error, or no winner in time. -/
inductive SameEnd (plan : Plan) : Outcome → Outcome → Prop where
  | winner (e : Entry) : SameEnd plan (.ok e) (.ok e)
  | fatal (text : String) : SameEnd plan (.error (.lookupFailed (givingUp text)))
      (.error (.lookupFailed (givingUp text)))
  | gaveUp {failure failure' : Failure} (h : GaveUp plan failure) (h' : GaveUp plan failure') :
    SameEnd plan (.error failure) (.error failure')

/-- The attempts of both can no longer be counted, or both callers were told the same at the same
time. -/
inductive EndAlike (plan : Plan) (acc acc' : List CallId) (w w' : World) : Prop where
  | uncountable (h : w.task = .overflowed) (h' : w'.task = .overflowed)
  | told {id id' outcome outcome' time} (accepted : acc = [id]) (accepted' : acc' = [id'])
    (told : w.toldAt id = [(outcome, some time)])
    (told' : w'.toldAt id' = [(outcome', some time)]) (same : SameEnd plan outcome outcome')

section Alike

variable {plan : Plan} {x y : Exchange} {xs ys : List Exchange} {limit : Instant}

/-- Incompatible entries have no part in a decision. -/
theorem SameReply.decision?_eq {reply reply' : Reply} (h : SameReply plan.required reply reply') :
    decision? plan reply = decision? plan reply' := by
  cases h with
  | error => rfl
  | ok compatible => rw [decision?_ok, decision?_ok, compatible]

namespace Exchange.Alike

theorem arrival?_eq {required : Version} (h : x.Alike required y) : x.arrival? = y.arrival? := by
  rw [arrival?, arrival?, h.asked, h.answer.delay]

theorem decision?_eq (h : x.Alike plan.required y) {t : Instant} (arrived : x.arrival? = some t) :
    decision? plan x.reply = decision? plan y.reply := by
  refine (h.answer.reply fun hnone => ?_).decision?_eq
  simp [arrival?, hnone] at arrived

theorem inTime_eq {required : Version} (h : x.Alike required y) :
    x.inTime limit = y.inTime limit := by
  rw [inTime, inTime, h.arrival?_eq]

theorem closing_eq {required : Version} (h : x.Alike required y) :
    x.closing limit = y.closing limit := by
  rw [closing, closing, h.arrival?_eq]

theorem following?_eq (h : x.Alike plan.required y) :
    x.following? plan limit = y.following? plan limit := by
  rw [following?, following?, ← h.arrival?_eq]
  cases harrival : x.arrival? with
  | none => rfl
  | some t => rw [Option.bind_some, Option.bind_some, h.decision?_eq harrival]

end Exchange.Alike

theorem findSome?_alike (h : List.Forall₂ (Exchange.Alike plan.required) xs ys) :
    ((xs.filter (Exchange.inTime limit)).map Exchange.reply).findSome? (decision? plan) =
      ((ys.filter (Exchange.inTime limit)).map Exchange.reply).findSome? (decision? plan) := by
  induction h with
  | nil => rfl
  | @cons x y xs ys hxy _ ih =>
    rw [List.filter_cons, List.filter_cons, ← hxy.inTime_eq]
    by_cases hin : x.inTime limit
    case neg => simpa [hin] using ih
    case pos =>
      obtain ⟨t, arrived, -⟩ := Exchange.inTime_iff.mp hin
      simp only [hin, if_true, List.map_cons, List.findSome?_cons, hxy.decision?_eq arrived, ih]

theorem gaveUp_failureOf (plan : Plan) (replies : List Reply) :
    GaveUp plan (failureOf plan replies) := by
  unfold failureOf
  cases replies.getLast? with
  | none => exact .timedOut
  | some last =>
    dsimp only
    split_ifs
    · exact .noCompatibleProvider _
    · rcases last with (code | text) | es
      · exact .lookupFailed _
      · exact .lookupFailed _
      · exact .noEntries

/-- Exchanges that are alike come to the same end. -/
theorem conclude_alike (h : List.Forall₂ (Exchange.Alike plan.required) xs ys) :
    SameEnd plan (conclude plan ((xs.filter (Exchange.inTime limit)).map Exchange.reply))
      (conclude plan ((ys.filter (Exchange.inTime limit)).map Exchange.reply)) := by
  rw [conclude, conclude, ← findSome?_alike h]
  cases hdecided : ((xs.filter (Exchange.inTime limit)).map Exchange.reply).findSome?
      (decision? plan) with
  | none => exact .gaveUp (gaveUp_failureOf plan _) (gaveUp_failureOf plan _)
  | some outcome =>
    obtain ⟨reply, -, hdecision⟩ := List.exists_of_findSome?_eq_some hdecided
    rcases outcome with failure | e
    · obtain ⟨code, -, -, rfl⟩ := decision?_eq_error_iff.mp hdecision
      exact .fatal _
    · exact .winner e

end Alike

namespace Timetable

variable {plan : Plan} {service service' : Service} {start : Instant}
  (alike : service.Alike plan.required service')
include alike

theorem exchange_alike (k : Nat) (t : Instant) :
    (exchange ⟨plan, service, start⟩ k t).Alike plan.required
      (exchange ⟨plan, service', start⟩ k t) :=
  ⟨rfl, rfl, alike k _⟩

theorem attempt?_alike (k : Nat) :
    attempt? ⟨plan, service, start⟩ k = attempt? ⟨plan, service', start⟩ k := by
  induction k with
  | zero => rfl
  | succ k ih =>
    rw [attempt?, attempt?, ← ih]
    congr 1
    funext t
    exact (exchange_alike alike k t).following?_eq

theorem Ends.of_alike {n : Nat} {t : Option Instant} (h : Ends ⟨plan, service, start⟩ n t) :
    Ends ⟨plan, service', start⟩ n t := by
  cases h with
  | cutOff begun late countable =>
    exact .cutOff (attempt?_alike alike n ▸ begun) late countable
  | @last k t begun inTime countable final =>
    have hx : (exchange ⟨plan, service, start⟩ k t).Alike plan.required
        (exchange ⟨plan, service', start⟩ k t) := exchange_alike alike k t
    rw [hx.closing_eq]
    exact .last (attempt?_alike alike k ▸ begun) inTime countable (hx.following?_eq ▸ final)
  | uncountable begun all => exact .uncountable (attempt?_alike alike n ▸ begun) all

end Timetable

/-- Of two lists that agree where both have an entry, the shorter one is the beginning of the
other. -/
theorem prefix_of_agree {α : Type} {l l' : List α}
    (agree : ∀ (k : Nat) (a b : α), l[k]? = some a → l'[k]? = some b → a = b)
    (hle : l.length ≤ l'.length) : l <+: l' := by
  refine List.prefix_iff_getElem?.mpr fun k hk => ?_
  have hk' : l'[k]? = some l'[k] := List.getElem?_eq_getElem (Nat.lt_of_lt_of_le hk hle)
  rw [hk', agree k _ _ (List.getElem?_eq_getElem hk) hk']

namespace Clocked

open World

section Pair

variable {plan : Plan} {service service' : Service} {start : Instant} {s s' : Clocked}
  {acc acc' : List CallId}
  (alike : service.Alike plan.required service')
  (h : OnTimetable acc s) (h' : OnTimetable acc' s')
  (ht : s.timetable = ⟨plan, service, start⟩) (ht' : s'.timetable = ⟨plan, service', start⟩)
include alike h h' ht ht'

theorem lookup_eq {k : Nat} {lookup lookup' : Query × Instant}
    (hk : s.world.lookups[k]? = some lookup) (hk' : s'.world.lookups[k]? = some lookup') :
    lookup = lookup' := by
  obtain ⟨begun, hquery⟩ := h.attempt?_of_lookup hk
  obtain ⟨begun', hquery'⟩ := h'.attempt?_of_lookup hk'
  have hplan : s.plan = plan := congrArg Timetable.plan ht
  have hplan' : s'.plan = plan := congrArg Timetable.plan ht'
  rw [ht] at begun hquery
  rw [ht', ← Timetable.attempt?_alike alike] at begun'
  rw [ht'] at hquery'
  have htime : lookup.2 = lookup'.2 := Option.some.inj (begun.symm.trans begun')
  refine Prod.ext ?_ htime
  rw [hquery, hquery', hplan, hplan', htime]
  rfl

/-- As far as both have come, they made the same lookups at the same times. -/
theorem lookups_initial :
    s.world.lookups <+: s'.world.lookups ∨ s'.world.lookups <+: s.world.lookups := by
  have agree : ∀ (k : Nat) (lookup lookup' : Query × Instant),
      s.world.lookups[k]? = some lookup → s'.world.lookups[k]? = some lookup' →
      lookup = lookup' := fun _ _ _ => lookup_eq alike h h' ht ht'
  rcases Nat.le_total s.world.lookups.length s'.world.lookups.length with hle | hle
  · exact Or.inl (prefix_of_agree agree hle)
  · exact Or.inr (prefix_of_agree (fun k a b ha hb => (agree k b a hb ha).symm) hle)

theorem lookups_eq (hlength : s.world.lookups.length = s'.world.lookups.length) :
    s.world.lookups = s'.world.lookups := by
  rcases lookups_initial alike h h' ht ht' with hinitial | hinitial
  · exact hinitial.eq_of_length hlength
  · exact (hinitial.eq_of_length hlength.symm).symm

theorem exchanges_alike (hlength : s.world.lookups.length = s'.world.lookups.length) :
    List.Forall₂ (Exchange.Alike plan.required) s.exchanges s'.exchanges := by
  refine List.forall₂_iff_get.mpr ⟨?_, fun k hk hk' => ?_⟩
  · rw [length_exchanges, length_exchanges, hlength]
  · obtain ⟨begun, hx⟩ := h.made k _ (List.getElem?_eq_getElem hk)
    obtain ⟨begun', hx'⟩ := h'.made k _ (List.getElem?_eq_getElem hk')
    rw [ht] at begun hx
    rw [ht', ← Timetable.attempt?_alike alike] at begun'
    rw [ht'] at hx'
    have htime : s.exchanges[k].asked = s'.exchanges[k].asked :=
      Option.some.inj (begun.symm.trans begun')
    rw [List.get_eq_getElem, List.get_eq_getElem, ← hx, ← hx', htime]
    exact Timetable.exchange_alike alike k _

/-- The two come to the same end of their timetables. -/
theorem end_alike (ends : EndsOnTime acc s) (ends' : EndsOnTime acc' s') :
    s.world.lookups = s'.world.lookups ∧ EndAlike plan acc acc' s.world s'.world := by
  have hplan : s.plan = plan := congrArg Timetable.plan ht
  have hplan' : s'.plan = plan := congrArg Timetable.plan ht'
  have hlimit : s'.timetable.limit = s.timetable.limit := by
    rw [ht, ht']
    rfl
  have hunique {t t' : Option Instant} (e : s.timetable.Ends s.world.lookups.length t)
      (e' : s'.timetable.Ends s'.world.lookups.length t') :
      s.world.lookups.length = s'.world.lookups.length ∧ t = t' := by
    rw [ht] at e
    rw [ht'] at e'
    exact (e.of_alike alike).unique e'
  -- Both ends are those of the one timetable, which has no other.
  cases ends with
  | told accepted ends told =>
    cases ends' with
    | told accepted' ends' told' =>
      obtain ⟨hlength, htime⟩ := hunique ends ends'
      obtain rfl := Option.some.inj htime
      rw [hplan] at told
      rw [hplan', hlimit] at told'
      have hxs := exchanges_alike alike h h' ht ht' hlength
      exact ⟨lookups_eq alike h h' ht ht' hlength,
        .told accepted accepted' told told' (conclude_alike hxs)⟩
    | uncountable _ ends' => cases (hunique ends ends').2
  | uncountable overflowed ends =>
    cases ends' with
    | told _ ends' => cases (hunique ends ends').2
    | uncountable overflowed' ends' =>
      exact ⟨lookups_eq alike h h' ht ht' (hunique ends ends').1,
        .uncountable overflowed overflowed'⟩

end Pair

section Runs

variable {plan : Plan} {service service' : Service} {actions actions' : List Action}

/-- Runs with alike services that began at the same time make the same lookups and end alike. -/
theorem runs_alike (alike : service.Alike plan.required service')
    (timely : Timely { plan, service } actions)
    (timely' : Timely { plan, service := service' } actions')
    (unstopped : ∀ runtime, .stop runtime ∉ actions)
    (unstopped' : ∀ runtime, .stop runtime ∉ actions')
    (begun : (World.run plan {} actions).begun = (World.run plan {} actions').begun) :
    let w := World.run plan {} actions
    let w' := World.run plan {} actions'
    (w.lookups <+: w'.lookups ∨ w'.lookups <+: w.lookups) ∧
      (w.IsOver → w'.IsOver → w.lookups = w'.lookups ∧
        EndAlike plan (accepted plan {} actions) (accepted plan {} actions') w w') := by
  intro w w'
  have hworld : (Clocked.run { plan, service } actions).world = w := run_world _ actions
  have hworld' : (Clocked.run { plan, service := service' } actions').world = w' :=
    run_world _ actions'
  have h := OnTimetable.run timely unstopped
  have h' := OnTimetable.run timely' unstopped'
  have ht : (Clocked.run { plan, service } actions).timetable = ⟨plan, service, w.begun⟩ := by
    rw [timetable, run_plan, run_service, hworld]
  have ht' : (Clocked.run { plan, service := service' } actions').timetable =
      ⟨plan, service', w.begun⟩ := by
    rw [timetable, run_plan, run_service, hworld', begun]
  have hends := endsOnTime_of_over timely unstopped
  have hends' := endsOnTime_of_over timely' unstopped'
  rw [← hworld, ← hworld']
  exact ⟨lookups_initial alike h h' ht ht',
    fun hover hover' => end_alike alike h h' ht ht' (hends hover) (hends' hover')⟩

theorem begun_eq_or_unasked (plan : Plan) {actions actions' : List Action}
    (hstarted : (World.run plan {} actions).shared.startedAt =
      (World.run plan {} actions').shared.startedAt) :
    (World.run plan {} actions).begun = (World.run plan {} actions').begun ∨
      (World.run plan {} actions).task = .absent ∧ (World.run plan {} actions).lookups = [] := by
  cases hs : (World.run plan {} actions).shared.startedAt with
  | some start =>
    rw [hs] at hstarted
    exact Or.inl (by rw [begun, begun, hs, ← hstarted, Option.getD_some, Option.getD_some])
  | none =>
    have hk := Keeps.run plan actions
    have hd := Delivers.run plan actions
    have hnone : accepted plan {} actions = [] := by
      by_contra hne
      simpa [hs] using hk.started hne
    have ht : (World.run plan {} actions).task = .absent := by
      refine Task.eq_absent fun hlaunched => ?_
      have hl := hd.launched
      simp [hnone, hlaunched] at hl
    exact Or.inr ⟨ht, (hk.fresh ht).2⟩

end Runs

/-- Incompatible entries do not count: with services that answer alike but for those entries, two
runs make the same lookups at the same times and come to the same end at the same time. -/
theorem incompatible_entries_do_not_count (plan : Plan) {service service' : Service}
    (alike : service.Alike plan.required service') :
    (∀ actions actions', Timely { plan, service } actions →
      Timely { plan, service := service' } actions' →
      (∀ runtime, .stop runtime ∉ actions) → (∀ runtime, .stop runtime ∉ actions') →
      let w := World.run plan {} actions
      let w' := World.run plan {} actions'
      w.shared.startedAt = w'.shared.startedAt →
        -- The runs keep step as far as they have come.
        (w.lookups <+: w'.lookups ∨ w'.lookups <+: w.lookups) ∧
        (w.IsOver → w'.IsOver → w.lookups = w'.lookups ∧
          EndAlike plan (accepted plan {} actions) (accepted plan {} actions') w w')) ∧
    ∀ time,
      (∀ k query, (service k query).stops = false ∧ (service k query).stopsWhenShown = false) →
      (∀ k query, (service' k query).stops = false ∧ (service' k query).stopsWhenShown = false) →
      let result := (Session.fresh plan service time).arbitrate none
      let result' := (Session.fresh plan service' time).arbitrate none
      result.1.world.lookups = result'.1.world.lookups ∧
        EndAlike plan [0] [0] result.1.world result'.1.world ∧
        (result.1.world.task = .overflowed ∨ ∃ outcome outcome',
          result.2 = some outcome ∧ result'.2 = some outcome' ∧ SameEnd plan outcome outcome') := by
  constructor
  · intro actions actions' timely timely' unstopped unstopped' w w' hstarted
    rcases begun_eq_or_unasked plan hstarted with begun | ⟨ht, hnone⟩
    · exact runs_alike alike timely timely' unstopped unstopped' begun
    -- Two worlds that were not started need not have the same time.
    · refine ⟨Or.inl (hnone ▸ List.nil_prefix), fun hover => ?_⟩
      rcases hover with finished | overflowed
      · simp [w, ht] at finished
      · simp [w, ht] at overflowed
  · intro time calm calm'
    have hplayed := Session.arbitrate_over plan time calm
    have hplayed' := Session.arbitrate_over plan time calm'
    generalize (Session.fresh plan service time).arbitrate none = result at hplayed ⊢
    generalize (Session.fresh plan service' time).arbitrate none = result' at hplayed' ⊢
    obtain ⟨actions, timely, unstopped, hworld, begun, hacc, hover, houtcome⟩ := hplayed
    obtain ⟨actions', timely', unstopped', hworld', begun', hacc', hover', houtcome'⟩ := hplayed'
    obtain ⟨-, hend⟩ :=
      runs_alike alike timely timely' unstopped unstopped' (begun.trans begun'.symm)
    obtain ⟨hlookups, hend⟩ := hend hover hover'
    rw [hacc, hacc', ← hworld, ← hworld'] at hend
    rw [← hworld, ← hworld'] at hlookups
    refine ⟨hlookups, hend, ?_⟩
    cases hend with
    | uncountable overflowed => exact Or.inl overflowed
    | told accepted accepted' told told' same =>
      obtain rfl := List.singleton_inj.mp accepted
      obtain rfl := List.singleton_inj.mp accepted'
      exact Or.inr ⟨_, _, houtcome _ _ told, houtcome' _ _ told', same⟩

/-- A radio that was seen later than any other, of a version that will not do. -/
def otherRadio : Entry :=
  { radio with version := { major := 2 }, participant := "radio-2", lastSeen := 1000 }

/-- The service that knows of nothing at first, with a radio that will not do in each of its
lists. -/
def lateRadioAmongOthers : Service := fun k _ =>
  if k = 0 then { reply := .ok [otherRadio] }
  else { reply := .ok [otherRadio, radio], delay := some (.ofMillis 20) }

/-- The same steps as those of the second attempt, with the other replies. -/
def secondAttemptAmongOthers : List Action :=
  secondAttempt.map fun
    | .reply (.ok es) => .reply (.ok (otherRadio :: es))
    | a => a

theorem otherRadio_does_not_count :
    lateRadio.Alike twoAttempts.required lateRadioAmongOthers ∧
      (World.run twoAttempts {} secondAttempt).lookups =
        (World.run twoAttempts {} secondAttemptAmongOthers).lookups ∧
      EndAlike twoAttempts [0] [0] (World.run twoAttempts {} secondAttempt)
        (World.run twoAttempts {} secondAttemptAmongOthers) := by
  have alike : lateRadio.Alike twoAttempts.required lateRadioAmongOthers := by
    intro k query
    by_cases hk : k = 0
    case pos =>
      simp only [lateRadio, lateRadioAmongOthers, hk, if_true]
      exact ⟨rfl, fun _ => .ok (by decide)⟩
    case neg =>
      simp only [lateRadio, lateRadioAmongOthers, hk, if_false]
      exact ⟨rfl, fun _ => .ok (by decide)⟩
  have timely : Timely { plan := twoAttempts, service := lateRadio } secondAttempt := by
    decide +kernel
  have timely' : Timely { plan := twoAttempts, service := lateRadioAmongOthers }
      secondAttemptAmongOthers := by
    decide +kernel
  have unstopped : ∀ runtime, .stop runtime ∉ secondAttempt := by
    simp [secondAttempt]
  have unstopped' : ∀ runtime, .stop runtime ∉ secondAttemptAmongOthers := by
    simp [secondAttemptAmongOthers, secondAttempt]
  have finished : (World.run twoAttempts {} secondAttempt).task = .finished := by rfl
  have finished' : (World.run twoAttempts {} secondAttemptAmongOthers).task = .finished := by rfl
  obtain ⟨-, hend⟩ := (incompatible_entries_do_not_count twoAttempts alike).1 secondAttempt
    secondAttemptAmongOthers timely timely' unstopped unstopped' rfl
  exact ⟨alike, hend (Or.inl finished) (Or.inl finished')⟩

end Clocked

end Arbiter.Arbitration
