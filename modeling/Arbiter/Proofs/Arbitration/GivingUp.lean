import Arbiter.Proofs.Arbitration.Exchanges
import Arbiter.Proofs.Arbitration.Lookups

/-!
How an arbitration fails without a fatal code. The failure follows from the replies that came before
the deadline, whatever anyone asks for once it is settled.
-/

namespace Arbiter.Arbitration

open Discovery

namespace Clocked

open World

variable {s : Clocked} {acc : List CallId} {rs : List Reply}

/-- The task has an outcome, or will have none. It acted on the replies that came in time. -/
structure Through (rs : List Reply) (s : Clocked) : Prop where
  idle : s.world.task.isWorking = false
  ended : Ended s.plan (s.world.deadline s.plan) s.world.shared.attempts s.exchanges rs

namespace Through

theorem of_closing (h : Follows rs s) {outcome : Outcome} (ht : s.world.task = .closing outcome) :
    Through rs s := by
  have hst := h.stage
  rw [ht] at hst
  generalize hxs : s.exchanges = xs at hst
  cases hst with
  | closing ended => exact ⟨by rw [ht]; rfl, hxs ▸ ended⟩

/-- Nothing that comes after makes a difference. -/
theorem step (h : Through rs s) (hd : Delivers s.plan acc s.world) (hk : Keeps acc s.world)
    (a : Action) : Through (rs ++ judgedIn s.world a) (s.step a) := by
  obtain ⟨hjudged, hattempts, hlookups⟩ := idle_of_over hd h.idle a
  have hbegun := hk.begun_step hd (Task.isLaunched_of_over h.idle) a
  have hlimit : (s.step a).world.deadline s.plan = s.world.deadline s.plan := by
    rw [step_world, deadline_eq, hbegun, ← deadline_eq]
  refine ⟨?_, ?_⟩
  · rw [step_world]
    exact over_step hd h.idle a
  · rw [step_plan, hlimit, exchanges_step_of_eq hlookups, step_world, hattempts, hjudged,
      List.append_nil]
    exact h.ended

end Through

section Runs

variable {plan : Plan} {service : Service} {actions : List Action}
  (timely : Timely { plan, service } actions)
  (settled : (World.run plan {} actions).shared.phase = .succeeded ∨
    (World.run plan {} actions).shared.phase = .failed)
include timely settled

/-- What succeeded or failed got through, though it may have been told to stop since. -/
theorem through_of_settled :
    Through (judged plan {} actions) (Clocked.run { plan, service } actions) := by
  induction actions using List.reverseRecOn with
  | nil => simp [World.run] at settled
  | append_singleton actions a ih =>
    rw [timely_concat] at timely
    rw [World.run_concat] at settled
    have hd := Delivers.run plan actions
    have hk := Keeps.run plan actions
    have before : Through (judged plan {} actions) (Clocked.run { plan, service } actions) := by
      have hm := step_phaseMove plan (World.run plan {} actions) a
      generalize acceptedIn plan (World.run plan {} actions) a = new at hm
      cases hm with
      | keep hp => exact ih timely.1 (hp ▸ settled)
      | start _ _ hp | cancel _ hp => simp [hp] at settled
      | close ht => exact .of_closing (Follows.run timely.1) (by rwa [run_world])
    have hstep := before.step (by simpa using hd) (by simpa using hk) a
    rw [judged, gather_concat, run_concat, ← judged]
    simpa using hstep

/-- The accepted start is told what the replies conclude that came before the deadline. -/
theorem told_of_settled
    (done : ∀ before outcome, (World.run plan {} actions).task ≠ .delivering before outcome) :
    let s := Clocked.run { plan, service } actions
    ∃ start id, s.world.shared.startedAt = some start ∧ accepted plan {} actions = [id] ∧
      s.world.answersTo id = [conclude plan (judged plan {} actions)] ∧
      Ended plan (Arbitration.deadline plan start) s.world.shared.attempts s.exchanges
        (judged plan {} actions) := by
  intro s
  have hworld : s.world = World.run plan {} actions := run_world _ actions
  have hplan : s.plan = plan := run_plan _ actions
  have hended := (through_of_settled timely settled).ended
  obtain ⟨id, hid, hans⟩ :=
    (Concludes.run plan actions).answersTo_eq (.run plan actions) settled done
  obtain ⟨start, hstart⟩ := Option.isSome_iff_exists.mp
    ((Keeps.run plan actions).started (by simp [hid]))
  have hlimit : s.world.deadline s.plan = Arbitration.deadline plan start := by
    rw [World.deadline, hplan, hworld, hstart, Option.getD_some]
  rw [hlimit, hplan] at hended
  rw [← hworld] at hstart hans
  exact ⟨start, id, hstart, hid, hans, hended⟩

end Runs

/-- The failure of an arbitration that no fatal code ended is a function of the replies to its
completed attempts, which in a timely run are those that came before the deadline. -/
theorem failure_follows_from_replies (plan : Plan) :
    (∀ actions,
      let w := World.run plan {} actions
      w.shared.phase = .failed → (∀ before outcome, w.task ≠ .delivering before outcome) →
      Unfatal (judged plan {} actions) →
      ∃ id, accepted plan {} actions = [id] ∧
        w.answersTo id = [.error (failureOf plan (judged plan {} actions))]) ∧
    -- The reply to a lookup that is still in flight at the deadline does not count.
    (∀ service actions, Timely { plan, service } actions →
      let s := Clocked.run { plan, service } actions
      s.world.shared.phase = .failed →
      (∀ before outcome, s.world.task ≠ .delivering before outcome) →
      ∃ start id, s.world.shared.startedAt = some start ∧ accepted plan {} actions = [id] ∧
        let replies := (s.exchanges.filter (Exchange.inTime (Arbitration.deadline plan start))).map
          Exchange.reply
        judged plan {} actions = replies ∧
          (Unfatal replies → s.world.answersTo id = [.error (failureOf plan replies)])) ∧
    -- The versions in it are those of the latest list of entries, if none of them would do.
    ∀ replies,
      (∀ v, v ∈ rejectedVersions plan replies ↔
        (∀ e ∈ latestEntries replies, e.version.serves plan.required = false) ∧
          ∃ e ∈ latestEntries replies, e.version = v) ∧
      (rejectedVersions plan replies).Pairwise fun v w => v.before w := by
  refine ⟨?_, ?_, ?_⟩
  · intro actions w failed done unfatal
    exact answersTo_of_failed plan actions failed done unfatal
  · intro service actions timely s failed done
    have hworld : s.world = World.run plan {} actions := run_world _ actions
    rw [hworld] at failed done
    obtain ⟨start, id, hstart, hid, -, hended⟩ := told_of_settled timely (Or.inr failed) done
    refine ⟨start, id, hstart, hid, hended.replies, fun unfatal => ?_⟩
    rw [← hended.replies] at unfatal ⊢
    obtain ⟨id', hid', hans⟩ := answersTo_of_failed plan actions failed done unfatal
    obtain rfl : id = id' := by simpa [hid] using hid'
    rwa [hworld]
  · intro replies
    exact ⟨fun v => mem_rejectedVersions, pairwise_rejectedVersions plan replies⟩

/-- An entry that will do for a plan with time for two attempts. -/
def radio : Entry :=
  { version := { major := 1, minor := 3 }, domain := "vehicle", interface := "radio",
    participant := "radio-1" }

/-- An entry that will not, for its version. -/
def newRadio : Entry :=
  { radio with version := { major := 2 }, participant := "radio-2" }

/-- A service that knows of a new radio at once, and of another after fifty milliseconds. -/
def slowToFind : Service := fun k _ =>
  if k = 0 then { reply := .ok [newRadio] }
  else { reply := .ok [radio], delay := some (.ofMillis 50) }

/-- The second lookup is replied to at the deadline. -/
def foundTooLate : List Action :=
  [.start true, .call 0, .call 0, .task, .task, .reply (.ok [newRadio]), .task, .task,
   .advance (.ofMillis 100), .task, .task, .task, .task, .advance (.ofMillis 50),
   .reply (.ok [radio]), .task, .task, .task]

theorem failures_of_outage_and_delay :
    (World.run twoAttempts {} outage).answersTo 0 =
        [.error (.noCompatibleProvider twoAttempts.target [{ major := 2 }])] ∧
      (Clocked.run { plan := twoAttempts, service := slowToFind } foundTooLate).world.answersTo 0 =
        [.error (.noCompatibleProvider twoAttempts.target [{ major := 2 }])] := by
  obtain ⟨hrun, htimely, -⟩ := failure_follows_from_replies twoAttempts
  constructor
  · have failed : (World.run twoAttempts {} outage).shared.phase = .failed := by decide +kernel
    have finished : (World.run twoAttempts {} outage).task = .finished := by rfl
    have replies : judged twoAttempts {} outage =
        [.ok [newRadio], .error (.runtime "connection refused")] := by rfl
    obtain ⟨id, hid, hans⟩ :=
      hrun outage failed (by simp [finished]) (by simp [Unfatal, replies])
    have haccepted : accepted twoAttempts {} outage = [0] := by rfl
    obtain rfl : 0 = id := by simpa [haccepted] using hid
    rw [hans, replies]
    decide +kernel
  · have timely : Timely { plan := twoAttempts, service := slowToFind } foundTooLate := by
      decide +kernel
    have failed : (Clocked.run { plan := twoAttempts, service := slowToFind }
        foundTooLate).world.shared.phase = .failed := by decide +kernel
    have finished : (World.run twoAttempts {} foundTooLate).task = .finished := by rfl
    obtain ⟨start, id, hstart, hid, -, hans⟩ :=
      htimely slowToFind foundTooLate timely failed (by simp [finished])
    have haccepted : accepted twoAttempts {} foundTooLate = [0] := by rfl
    obtain rfl : 0 = id := by simpa [haccepted] using hid
    obtain rfl : .zero = start := Option.some.inj hstart
    have replies : ((Clocked.run { plan := twoAttempts, service := slowToFind }
        foundTooLate).exchanges.filter (Exchange.inTime
          (Arbitration.deadline twoAttempts .zero))).map Exchange.reply = [.ok [newRadio]] := by rfl
    rw [replies] at hans
    rw [hans (by simp [Unfatal])]
    decide +kernel

end Clocked

end Arbiter.Arbitration
