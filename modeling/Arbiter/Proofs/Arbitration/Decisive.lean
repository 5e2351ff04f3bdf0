import Arbiter.Proofs.Arbitration.Indifference
import Arbiter.Proofs.Arbitration.Records

/-!
The reply that decides an arbitration which nobody stops, by its place on the timetable. There is at
most one such reply, nothing comes after it, and where there is none the time runs out.
-/

namespace Arbiter.Arbitration

open Discovery

/-- The outcomes that a single reply brings about. -/
inductive Settled : Outcome → Prop where
  | winner (e : Entry) : Settled (.ok e)
  | fatal (text : String) : Settled (.error (.lookupFailed (givingUp text)))

theorem settled_of_decision? {plan : Plan} {reply : Reply} {outcome : Outcome}
    (h : decision? plan reply = some outcome) : Settled outcome := by
  rcases outcome with failure | e
  · obtain ⟨code, -, -, rfl⟩ := decision?_eq_error_iff.mp h
    exact .fatal _
  · exact .winner e

theorem GaveUp.not_settled {plan : Plan} {failure : Failure} (h : GaveUp plan failure) :
    ¬Settled (.error failure) := by
  intro hs
  generalize hf : Except.error failure = outcome at hs
  cases hs with
  | winner => cases hf
  | fatal text =>
    cases h with
    | timedOut | noEntries | noCompatibleProvider => cases hf
    | lookupFailed text' =>
      exact givingUp_ne_continuing text text' (Failure.lookupFailed.inj (Except.error.inj hf)).symm

namespace Timetable

variable {c : Timetable} {k l : Nat} {t u : Instant} {outcome outcome' : Outcome}

/-- The reply to the attempt of that number comes at that time, before the limit, and decides. -/
def Decides (c : Timetable) (k : Nat) (time : Instant) (outcome : Outcome) : Prop :=
  ∃ t, c.attempt? k = some t ∧ k + 1 < attemptLimit ∧ (c.exchange k t).arrival? = some time ∧
    time < c.limit ∧ decision? c.plan (c.exchange k t).reply = some outcome

namespace Decides

theorem settled (h : c.Decides k t outcome) : Settled outcome := by
  obtain ⟨_, -, -, -, -, decided⟩ := h
  exact settled_of_decision? decided

theorem ends (h : c.Decides k u outcome) : c.Ends (k + 1) (some u) := by
  obtain ⟨t, begun, countable, arrived, inTime, decided⟩ := h
  have hasked : t < c.limit := lt_of_le_of_lt (Exchange.asked_le_arrival arrived) inTime
  rw [← Exchange.closing_of_inTime arrived inTime]
  exact .last begun hasked countable (Exchange.following?_of_decided (by simp [decided]))

theorem no_attempt_after (h : c.Decides k t outcome) : c.attempt? (k + 1) = none := by
  obtain ⟨u, begun, -, -, -, decided⟩ := h
  rw [attempt?, begun, Option.bind_some]
  exact Exchange.following?_of_decided (by simp [decided])

/-- There is one reply that decides. -/
theorem unique (h : c.Decides k t outcome) (h' : c.Decides l u outcome') :
    k = l ∧ t = u ∧ outcome = outcome' := by
  obtain ⟨hkl, htu⟩ := h.ends.unique h'.ends
  obtain rfl : k = l := Nat.succ.inj hkl
  obtain ⟨v, begun, -, -, -, decided⟩ := h
  obtain ⟨v', begun', -, -, -, decided'⟩ := h'
  obtain rfl := Option.some.inj (begun.symm.trans begun')
  exact ⟨rfl, Option.some.inj htu, Option.some.inj (decided.symm.trans decided')⟩

end Decides

end Timetable

namespace Clocked

open World

/-- How an arbitration that nobody stopped is over: a reply decided it, the time ran out, or its
attempts can no longer be counted. -/
inductive Resolution (acc : List CallId) (s : Clocked) : Prop where
  | decided {id k time outcome} (accepted : acc = [id])
      (decides : s.timetable.Decides k time outcome) (count : s.world.lookups.length = k + 1)
      (told : s.world.toldAt id = [(outcome, some time)])
  | gaveUp {id time failure} (accepted : acc = [id])
      (ends : s.timetable.Ends s.world.lookups.length (some time))
      (undecided : ∀ k t outcome, ¬s.timetable.Decides k t outcome)
      (told : s.world.toldAt id = [(.error failure, some time)]) (failed : GaveUp s.plan failure)
  | uncountable (ends : s.timetable.Ends s.world.lookups.length none)
      (untold : ∀ id ∈ acc, s.world.toldAt id = [])

/-- The replies that came in time, as far as the arbitration has come. -/
def timelyReplies (s : Clocked) : List Reply :=
  (s.exchanges.filter (Exchange.inTime s.timetable.limit)).map Exchange.reply

section Replies

variable {s : Clocked} {acc : List CallId} {k : Nat} {time : Instant} {outcome : Outcome}
  (h : OnTimetable acc s)
include h

/-- A decisive reply that came in time is that to one of the attempts. -/
theorem exists_decides (hfound : s.timelyReplies.findSome? (decision? s.plan) = some outcome) :
    ∃ k time, k < s.world.lookups.length ∧ s.timetable.Decides k time outcome := by
  obtain ⟨reply, hreply, decided⟩ := List.exists_of_findSome?_eq_some hfound
  obtain ⟨x, hx, rfl⟩ := List.mem_map.mp hreply
  obtain ⟨hmem, inTime⟩ := List.mem_filter.mp hx
  obtain ⟨time, arrived, hlt⟩ := Exchange.inTime_iff.mp inTime
  obtain ⟨k, hk⟩ := List.mem_iff_getElem?.mp hmem
  obtain ⟨begun, hexchange⟩ := h.made k x hk
  have hasked : k < s.world.lookups.length :=
    length_exchanges s ▸ (List.getElem?_eq_some_iff.mp hk).1
  refine ⟨k, time, hasked, x.asked, begun, Nat.lt_of_le_of_lt hasked h.few, ?_, hlt, ?_⟩
  · rwa [hexchange]
  · rwa [hexchange]

theorem findSome?_of_decides (hd : s.timetable.Decides k time outcome)
    (hasked : k < s.world.lookups.length) :
    s.timelyReplies.findSome? (decision? s.plan) = some outcome := by
  obtain ⟨t, begun, -, arrived, inTime, decided⟩ := id hd
  have hk : k < s.exchanges.length := length_exchanges s ▸ hasked
  obtain ⟨begun', hexchange⟩ := h.made k _ (List.getElem?_eq_getElem hk)
  obtain rfl := Option.some.inj (begun'.symm.trans begun)
  rw [hexchange] at arrived decided
  have hreply : s.exchanges[k].reply ∈ s.timelyReplies :=
    List.mem_map_of_mem (List.mem_filter.mpr
      ⟨List.getElem_mem hk, Exchange.inTime_iff.mpr ⟨time, arrived, inTime⟩⟩)
  have hdecided : (decision? s.plan s.exchanges[k].reply).isSome :=
    Option.isSome_iff_exists.mpr ⟨outcome, decided⟩
  -- Some reply is found to be decisive, and only this one is.
  obtain ⟨found, hfound⟩ := Option.isSome_iff_exists.mp
    (List.findSome?_isSome_iff.mpr ⟨_, hreply, hdecided⟩)
  obtain ⟨l, time', -, hd'⟩ := exists_decides h hfound
  rw [hfound, (hd'.unique hd).2.2]

end Replies

/-- If its attempts can no longer be counted, nobody is told. -/
theorem toldAt_of_overflowed (plan : Plan) {actions : List Action}
    (unstopped : ∀ runtime, .stop runtime ∉ actions)
    (ht : (World.run plan {} actions).task = .overflowed) :
    ∀ id ∈ accepted plan {} actions, (World.run plan {} actions).toldAt id = [] := by
  intro id hid
  have hd := Delivers.run plan actions
  have hu := Unstopped.run plan unstopped
  have hc := Concludes.run plan actions
  have going : (World.run plan {} actions).shared.phase.isTerminal = false := by
    by_contra hterm
    obtain ⟨_, -, ⟨_, hother, -⟩ | ⟨hother, -⟩⟩ :=
      hc.ended (hu.ended_of_terminal (by simpa using hterm))
    · simp [ht] at hother
    · simp [ht] at hother
  have hnone := answersTo_of_attempting hd (hd.attempting_of_launched (by rw [ht]; rfl) going) hid
  rwa [← map_toldAt, List.map_eq_nil_iff] at hnone

theorem timetable_run (plan : Plan) (service : Service) (actions : List Action) :
    (Clocked.run { plan, service } actions).timetable =
      ⟨plan, service, (World.run plan {} actions).begun⟩ := by
  rw [timetable, run_plan, run_service, run_world]

theorem resolution_of_over {plan : Plan} {service : Service} {actions : List Action}
    (timely : Timely { plan, service } actions) (unstopped : ∀ runtime, .stop runtime ∉ actions)
    (hover : (Clocked.run { plan, service } actions).world.IsOver) :
    Resolution (accepted plan {} actions) (Clocked.run { plan, service } actions) := by
  have h := OnTimetable.run timely unstopped
  have hworld : (Clocked.run { plan, service } actions).world = World.run plan {} actions :=
    run_world _ actions
  have huntold := toldAt_of_overflowed plan unstopped
  rw [← hworld] at huntold
  cases endsOnTime_of_over timely unstopped hover with
  | uncountable overflowed ends => exact .uncountable ends (huntold overflowed)
  | told accepted ends told =>
    generalize Clocked.run { plan, service } actions = s at h ends told
    rw [← timelyReplies, conclude] at told
    cases hfound : s.timelyReplies.findSome? (decision? s.plan) with
    | none =>
      rw [hfound, Option.getD_none] at told
      refine .gaveUp accepted ends (fun k t outcome hd => ?_) told (gaveUp_failureOf _ _)
      have hasked : k < s.world.lookups.length := by
        rw [(ends.unique hd.ends).1]
        exact Nat.lt_succ_self k
      cases hfound.symm.trans (findSome?_of_decides h hd hasked)
    | some outcome =>
      rw [hfound, Option.getD_some] at told
      obtain ⟨k, time, -, hd⟩ := exists_decides h hfound
      obtain ⟨hlength, htime⟩ := ends.unique hd.ends
      rw [htime] at told
      exact .decided accepted hd hlength told

theorem Resolution.ends {acc : List CallId} {s : Clocked} (h : Resolution acc s) :
    ∃ time, s.timetable.Ends s.world.lookups.length time := by
  cases h with
  | decided _ decides count => exact ⟨_, count ▸ decides.ends⟩
  | gaveUp _ ends | uncountable ends => exact ⟨_, ends⟩

/-- Whoever was told, was told once and had the time. -/
theorem Resolution.toldAt_cases {acc : List CallId} {s : Clocked} (h : Resolution acc s)
    {id : CallId} (accepted : acc = [id]) :
    s.world.toldAt id = [] ∨ ∃ outcome time, s.world.toldAt id = [(outcome, some time)] := by
  subst accepted
  cases h with
  | decided accepted _ _ told | gaveUp accepted _ _ told =>
    obtain rfl := List.singleton_inj.mp accepted
    exact Or.inr ⟨_, _, told⟩
  | uncountable _ untold => exact Or.inl (untold id (List.mem_singleton_self id))

end Clocked

namespace Session

/-- Played through with a service that does not stop it, an arbitration returns what its start was
told. -/
theorem arbitrate_eq_some_iff (plan : Plan) {service : Service} (time : Nat)
    (calm : ∀ k query,
      (service k query).stops = false ∧ (service k query).stopsWhenShown = false)
    {outcome : Outcome} :
    let result := (fresh plan service time).arbitrate none
    result.2 = some outcome ↔
      ∃ moment, result.1.world.toldAt 0 = [(outcome, some moment)] := by
  have hplayed := arbitrate_over plan time calm
  have hmem := @mem_told_of_arbitrate plan service time none outcome
  generalize (fresh plan service time).arbitrate none = result at hplayed hmem ⊢
  obtain ⟨actions, timely, unstopped, hworld, -, hacc, hover, houtcome⟩ := hplayed
  rw [← Clocked.run_world { plan, service }] at hworld hover
  have hcases := (Clocked.resolution_of_over timely unstopped hover).toldAt_cases hacc
  rw [← hworld] at hcases
  constructor
  · intro hresult
    have hne : outcome ∈ result.1.world.answersTo 0 :=
      List.mem_map.mpr ⟨_, List.mem_filter.mpr ⟨hmem hresult, rfl⟩, rfl⟩
    rw [← World.map_toldAt] at hne
    rcases hcases with hnil | ⟨outcome', moment, told⟩
    · simp [hnil] at hne
    · rw [told, List.map_singleton, List.mem_singleton] at hne
      exact ⟨moment, hne ▸ told⟩
  · rintro ⟨moment, told⟩
    exact houtcome _ _ told

end Session

end Arbiter.Arbitration
