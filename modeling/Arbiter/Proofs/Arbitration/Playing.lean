import Arbiter.Arbitration.Session
import Arbiter.Proofs.Arbitration.Clock
import Arbiter.Proofs.Arbitration.Conclusion

/-!
Sessions play timely runs. Whatever a session does by itself is a timely run of its arbitration, and
each thing that happens brings the arbitration closer to its end, so the turns that are reserved
suffice.
-/

namespace Arbiter.Arbitration

open Discovery

namespace World

variable {plan : Plan} {w : World}

theorem taskStep_calls (plan : Plan) (w : World) : (w.taskStep plan).calls = w.calls := by
  obtain ⟨-, hcalls, -⟩ := (taskStep_move plan w).frame
  exact hcalls

/-- A step of the task that has something to do brings it closer to its end, by more than the reply
that a lookup leaves to come. -/
theorem distance_taskStep {due : Instant} (hdue : due ∈ w.taskDue plan) (now : due ≤ w.now) :
    Session.distance (w.taskStep plan) +
      (Clocked.asked? w (w.taskStep plan)).toList.length < Session.distance w := by
  have hm := taskStep_move plan w
  generalize w.taskStep plan = after at hm
  -- Left as it is, the limit would be unfolded to its value.
  generalize hlimit : attemptLimit = limit at hm
  cases hm with
  | wait early => exact absurd (early due hdue) (not_lt_of_ge now)
  | begin ht countable =>
    simp only [Session.distance, ht, Clocked.asked?, emit_task, emit_shared, Option.toList_none,
      List.length_nil, hlimit]
    omega
  | leave heeding =>
    cases ht : w.task with
    | polling attempt lookup =>
      cases lookup <;> simp [Session.distance, ht, Clocked.asked?]
    | checking | pausing => simp [Session.distance, ht, Clocked.asked?]
    | _ => simp [ht, Task.heedsStops] at heeding
  | @expire attempt lookup ht =>
    cases lookup <;> simp [Session.distance, ht, Clocked.asked?]
  | overflow ht | ask ht | pend ht | take ht | check ht | select ht | abort ht | retry ht
  | abandon ht | wake ht | late ht | close ht | deliver ht =>
    simp [Session.distance, ht, Clocked.asked?]

theorem taskDue_advance {d : Duration} {due : Instant} (hdue : w.taskDue plan = some due)
    (later : w.now < due) (hbegun : (w.step plan (.advance d)).begun = w.begun) :
    (w.step plan (.advance d)).taskDue plan = some due := by
  have hdead : World.deadline plan { w with now := w.now + d } = w.deadline plan := by
    rw [deadline_eq, deadline_eq]
    exact congrArg (Arbitration.deadline plan) hbegun
  have hlater : ∀ moment ∈ w.taskDue plan, w.now < moment := fun moment hm =>
    Option.some.inj (hdue.symm.trans hm) ▸ later
  rw [step]
  cases rests_of_later hlater with
  | absent ht | finished ht | overflowed ht => simp [taskDue, ht] at hdue
  | pausing ht unstopped => simpa [taskDue, ht, unstopped] using hdue
  | outstanding ht unstopped =>
    simp only [taskDue, ht, unstopped] at hdue ⊢
    exact (congrArg some hdead).trans hdue

theorem isLaunched_of_taskDue {due : Instant} (hdue : w.taskDue plan = some due) :
    w.task.isLaunched := by
  cases ht : w.task with
  | absent => simp [taskDue, ht] at hdue
  | _ => rfl

theorem reply_spares (plan : Plan) (w : World) (r : Reply) :
    (w.step plan (.reply r)).calls = w.calls ∧
      Session.distance (w.step plan (.reply r)) ≤ Session.distance w := by
  have hm := step_move plan w (.reply r)
  generalize w.step plan (.reply r) = after at hm
  cases hm with
  | unasked => exact ⟨rfl, Nat.le_refl _⟩
  | replyAtOnce _ ht | reply _ ht => exact ⟨rfl, by simp [Session.distance, ht]⟩

/-- What a call does from beginning to end, when no other is under way. -/
def callToEnd (plan : Plan) (w : World) (a : Action) : World :=
  w.run plan [a, .call 0, .call 0, .call 0]

/-- A stop is done after three steps, and leaves everything to the task but its own signal. -/
theorem stop_toEnd (plan : Plan) (hc : w.calls = []) (runtime : Bool) :
    let after := w.callToEnd plan (.stop runtime)
    after.calls = [] ∧ after.task = w.task ∧ after.now = w.now ∧
      after.shared.attempts = w.shared.attempts := by
  cases ht : w.shared.phase.isTerminal <;>
    simp [callToEnd, run, step, callStep, hc, Shared.stop, ht, emit]

end World

namespace Clocked

theorem arrival_goOn_le (s : Clocked) (w : World) :
    (s.goOn w).arrival.toList.length ≤
      s.arrival.toList.length + (asked? s.world w).toList.length := by
  unfold goOn
  cases asked? s.world w with
  | none => exact Nat.le_refl _
  | some query => cases hd : (s.service s.lookups query).delay <;> simp [hd]

end Clocked

namespace Session

variable {s : Session}

/-- No caller does anything once it was told the outcome. -/
def Calm (s : Session) : Prop := ∀ starter ∈ s.starters, starter.next = []

theorem followUps_of_calm (h : Calm s) (before : World) : s.followUps before = [] := by
  unfold followUps
  split_ifs
  · rfl
  · split
    · split
      · rfl
      · rename_i starter hs
        rw [h starter (List.mem_of_getElem? hs), List.mapIdx_nil]
    · rfl

theorem tell_of_calm (h : Calm s) (follow : Session → Errand → Session) (a : Action) :
    s.tell follow a = s.act a := by
  have hc : Calm (s.act a) := h
  rw [tell, followUps_of_calm hc, List.foldl_nil]

theorem perform_of_calm {errand : Errand} (h : Calm (s.call errand)) (depth : Nat) :
    perform (depth + 1) s errand =
      (((s.call errand).act (.call 0)).act (.call 0)).act (.call 0) := by
  have h1 : Calm ((s.call errand).act (.call 0)) := h
  have h2 : Calm (((s.call errand).act (.call 0)).act (.call 0)) := h
  simp only [perform, tell_of_calm h, tell_of_calm h1, tell_of_calm h2]

theorem stop_of_calm (h : Calm s) (runtime : Bool) :
    s.stop runtime =
      (((s.act (.stop runtime)).act (.call 0)).act (.call 0)).act (.call 0) :=
  perform_of_calm (show Calm (s.call (.stop runtime)) from h) _

/-- A stop in a session leaves the task, the time and what is still to happen as they were. -/
theorem stop_spares (h : Calm s) (hc : s.world.calls = []) (runtime : Bool) :
    (s.stop runtime).world.calls = [] ∧ (s.stop runtime).world.task = s.world.task ∧
      (s.stop runtime).world.now = s.world.now ∧ (s.stop runtime).workload = s.workload := by
  obtain ⟨hcalls, htask, hnow, hattempts⟩ := World.stop_toEnd s.plan hc runtime
  have hw : (s.stop runtime).world = s.world.callToEnd s.plan (.stop runtime) := by
    rw [stop_of_calm h]
    rfl
  have harr : (s.stop runtime).arrival = s.arrival := by
    rw [stop_of_calm h]
    rfl
  have hstops : (s.stop runtime).stops = s.stops := by
    rw [stop_of_calm h]
    rfl
  refine ⟨?_, ?_, ?_, ?_⟩
  · rw [hw, hcalls]
  · rw [hw, htask]
  · rw [hw, hnow]
  · rw [workload, workload, harr, hstops, distance, distance, hw, htask, hattempts]

@[simp] theorem act_clocked (s : Session) (a : Action) :
    (s.act a).toClocked = s.toClocked.step a := rfl

theorem later_of_turn?_eq_none (hnone : s.turn? = none) :
    ∀ x ∈ s.stops ++ s.dues, s.world.now < x := by
  unfold turn? at hnone
  split_ifs at hnone with hstops hdue
  intro x hx
  simp only [Clocked.dues, List.mem_append, Option.mem_toList, Option.map_eq_some_iff] at hx
  rcases hx with hx | hx | ⟨arrival, harr, rfl⟩
  · by_contra hle
    exact hstops (List.any_eq_true.mpr ⟨x, hx, by simpa using hle⟩)
  · by_contra hle
    exact hdue ((Option.any_eq_true _ _).mpr ⟨x, hx, by simpa using hle⟩)
  · by_contra hle
    have hdue' : s.arrival.filter (·.1 ≤ s.world.now) = some arrival :=
      Option.filter_eq_some_iff.mpr ⟨harr, by simpa using hle⟩
    simp [receive?, hdue'] at hnone

theorem turn?_ne_none {x : Instant} (hx : x ∈ s.stops ++ s.dues) (now : x ≤ s.world.now) :
    s.turn? ≠ none := fun hnone =>
  not_lt_of_ge now (later_of_turn?_eq_none hnone x hx)

variable {plan : Plan} {service : Service} {first : List Action} {stoppable : Prop}

/-- A session that played a timely run which began with the given steps. After those there may be
stops only if the last condition holds. -/
structure Played (plan : Plan) (service : Service) (first : List Action) (stoppable : Prop)
    (s : Session) : Prop where
  reached : ∃ more, Clocked.Timely { plan, service } (first ++ more) ∧
    ((∃ runtime, .stop runtime ∈ more) → stoppable) ∧
    s.toClocked = Clocked.run { plan, service } (first ++ more)
  calm : Calm s
  stops : s.stops ≠ [] → stoppable
  shown : s.stopsWhenShown → stoppable
  service : ∀ k query, (service k query).stops ∨ (service k query).stopsWhenShown → stoppable

namespace Played

theorem plan_eq (h : Played plan service first stoppable s) : s.plan = plan := by
  obtain ⟨more, -, -, hs⟩ := h.reached
  rw [hs, Clocked.run_plan]

theorem service_eq (h : Played plan service first stoppable s) : s.service = service := by
  obtain ⟨more, -, -, hs⟩ := h.reached
  rw [hs, Clocked.run_service]

theorem act (h : Played plan service first stoppable s) {a : Action}
    (allowed : s.toClocked.Allows a) (hstop : ∀ runtime, a = .stop runtime → stoppable) :
    Played plan service first stoppable (s.act a) := by
  refine ⟨?_, h.calm, h.stops, h.shown, h.service⟩
  obtain ⟨more, timely, hmore, hs⟩ := h.reached
  refine ⟨more ++ [a], ?_, ?_, ?_⟩
  · rw [← List.append_assoc, Clocked.timely_concat, ← hs]
    exact ⟨timely, allowed⟩
  · rintro ⟨runtime, hmem⟩
    rcases List.mem_append.mp hmem with hmem | hmem
    · exact hmore ⟨runtime, hmem⟩
    · exact hstop runtime (List.mem_singleton.mp hmem).symm
  · rw [← List.append_assoc, Clocked.run_concat, ← hs, act_clocked]

theorem actCall (h : Played plan service first stoppable s) (i : Nat) :
    Played plan service first stoppable (s.act (.call i)) := by
  have allowed : s.toClocked.Allows (.call i) := trivial
  exact h.act allowed nofun

theorem stop (h : Played plan service first stoppable s) (hs : stoppable) (runtime : Bool) :
    Played plan service first stoppable (s.stop runtime) := by
  have allowed : s.toClocked.Allows (.stop runtime) := trivial
  rw [stop_of_calm h.calm]
  exact (((h.act allowed fun _ _ => hs).actCall 0).actCall 0).actCall 0

theorem actTask (h : Played plan service first stoppable s) (hc : s.world.calls = [])
    {due : Instant} (hdue : due ∈ s.world.taskDue s.plan) (now : due ≤ s.world.now) :
    Played plan service first stoppable (s.act .task) ∧ (s.act .task).world.calls = [] ∧
      (s.act .task).workload < s.workload := by
  have allowed : s.toClocked.Allows .task := trivial
  have hworld : (s.act .task).world = s.world.taskStep s.plan := Clocked.step_world _ _
  refine ⟨h.act allowed nofun, ?_, ?_⟩
  · rw [hworld, World.taskStep_calls, hc]
  · have hd := World.distance_taskStep hdue now
    have harr : (s.act .task).arrival.toList.length ≤ s.arrival.toList.length +
        (Clocked.asked? s.world (s.world.taskStep s.plan)).toList.length :=
      Clocked.arrival_goOn_le _ _
    rw [workload, workload, hworld]
    have hstops : (s.act .task).stops = s.stops := rfl
    rw [hstops]
    omega

theorem receive (h : Played plan service first stoppable s) (hc : s.world.calls = [])
    {next : Session} (hr : s.receive? = some next) :
    Played plan service first stoppable next ∧ next.world.calls = [] ∧
      next.workload < s.workload := by
  obtain ⟨⟨time, reply⟩, hf, rfl⟩ := Option.map_eq_some_iff.mp hr
  obtain ⟨harr, htime⟩ := Option.filter_eq_some_iff.mp hf
  have allowed : s.toClocked.Allows (.reply reply) :=
    ⟨(time, reply), harr, rfl, by simpa using htime⟩
  obtain ⟨hcalls, hdistance⟩ := World.reply_spares s.plan s.world reply
  refine ⟨h.act allowed nofun, hcalls.trans hc, ?_⟩
  have hnone : (s.act (.reply reply)).arrival = none := rfl
  have hstops : (s.act (.reply reply)).stops = s.stops := rfl
  have hworld : (s.act (.reply reply)).world = s.world.step s.plan (.reply reply) := rfl
  rw [workload, workload, hnone, hstops, hworld, harr, Option.toList_none, Option.toList_some,
    List.length_nil, List.length_singleton]
  omega

/-- Whatever the service does while it is being asked, less is left to happen. -/
theorem attend (h : Played plan service first stoppable s) (hc : s.world.calls = [])
    (k : Nat) (query : Query) :
    Played plan service first stoppable (s.attend (service k query)) ∧
      (s.attend (service k query)).world.calls = [] ∧
      (s.attend (service k query)).workload ≤ s.workload := by
  have hshown : Played plan service first stoppable
      { s with stopsWhenShown := (service k query).stopsWhenShown } :=
    ⟨h.reached, h.calm, h.stops, fun hs => h.service k query (Or.inr hs), h.service⟩
  have hstopped : ∃ after, (if (service k query).stops then
        Session.stop { s with stopsWhenShown := (service k query).stopsWhenShown } true
      else { s with stopsWhenShown := (service k query).stopsWhenShown }) = after ∧
      Played plan service first stoppable after ∧ after.world.calls = [] ∧
      after.workload = s.workload := by
    split_ifs with hs
    · obtain ⟨hcalls, -, -, hwork⟩ := stop_spares hshown.calm hc true
      exact ⟨_, rfl, hshown.stop (h.service k query (Or.inl hs)) true, hcalls, hwork⟩
    · exact ⟨_, rfl, hshown, hc, rfl⟩
  obtain ⟨after, hafter, hplayed, hcalls, hwork⟩ := hstopped
  simp only [Session.attend, hafter]
  cases hr : after.receive? with
  | none => exact ⟨hplayed, hcalls, Nat.le_of_eq hwork⟩
  | some next =>
    obtain ⟨hp, hn, hless⟩ := hplayed.receive hcalls hr
    exact ⟨hp, hn, hwork ▸ Nat.le_of_lt hless⟩

theorem taskTurn (h : Played plan service first stoppable s) (hc : s.world.calls = [])
    {due : Instant} (hdue : due ∈ s.world.taskDue s.plan) (now : due ≤ s.world.now) :
    Played plan service first stoppable s.taskTurn ∧ s.taskTurn.world.calls = [] ∧
      s.taskTurn.workload < s.workload := by
  have hact := h.actTask hc hdue now
  unfold Session.taskTurn
  split
  · rename_i attempt reply ht
    split_ifs with hs
    · have hshown : Played plan service first stoppable { s with stopsWhenShown := false } :=
        ⟨h.reached, h.calm, h.stops, nofun, h.service⟩
      obtain ⟨hcalls, htask, hnow, hwork⟩ := stop_spares hshown.calm hc true
      have hstopped := hshown.stop (h.shown hs) true
      generalize Session.stop { s with stopsWhenShown := false } true = after at *
      have hdue : after.world.now ∈ after.world.taskDue after.plan := by
        rw [World.taskDue, htask.trans ht]
        rfl
      obtain ⟨hp, hcalls', hless⟩ := hstopped.actTask hcalls hdue (le_refl _)
      exact ⟨hp, hcalls', Nat.lt_of_lt_of_eq hless hwork⟩
    · exact hact
  · obtain ⟨hp, hcalls, hless⟩ := hact
    dsimp only
    cases Clocked.asked? s.world (s.act .task).world with
    | none => exact ⟨hp, hcalls, hless⟩
    | some query =>
      dsimp only
      rw [h.service_eq]
      obtain ⟨hp', hcalls', hle⟩ := hp.attend hcalls s.lookups query
      exact ⟨hp', hcalls', Nat.lt_of_le_of_lt hle hless⟩
  · rw [tell_of_calm h.calm]
    exact hact
  · exact hact

/-- Whatever happens next brings the session closer to its end. -/
theorem turn (h : Played plan service first stoppable s) (hc : s.world.calls = [])
    {next : Session} (ht : s.turn? = some next) :
    Played plan service first stoppable next ∧ next.world.calls = [] ∧
      next.workload < s.workload := by
  unfold Session.turn? at ht
  split_ifs at ht with hstops hdue
  · obtain ⟨time, hmem, htime⟩ := List.any_eq_true.mp hstops
    obtain rfl := Option.some.inj ht
    have hs : Played plan service first stoppable
        { s with stops := s.stops.eraseP (· ≤ s.world.now) } :=
      ⟨h.reached, h.calm, fun _ => h.stops (List.ne_nil_of_mem hmem), h.shown, h.service⟩
    obtain ⟨hcalls, -, -, hwork⟩ := stop_spares hs.calm hc true
    have hless : (s.stops.eraseP (· ≤ s.world.now)).length < s.stops.length := by
      have hpos := List.length_pos_of_mem hmem
      rw [List.length_eraseP_of_mem hmem htime]
      omega
    exact ⟨hs.stop (h.stops (List.ne_nil_of_mem hmem)) true, hcalls,
      lt_of_eq_of_lt hwork (Nat.add_lt_add_left hless _)⟩
  · obtain ⟨due, hmem, hnow⟩ := (Option.any_eq_true _ _).mp hdue
    obtain rfl := Option.some.inj ht
    exact h.taskTurn hc hmem (by simpa using hnow)
  · exact h.receive hc ht

theorem begun_advance (h : Played plan service first stoppable s) {due : Instant}
    (hdue : s.world.taskDue s.plan = some due) (d : Duration) :
    (s.world.step s.plan (.advance d)).begun = s.world.begun := by
  have hl := World.isLaunched_of_taskDue hdue
  obtain ⟨more, -, -, hs⟩ := h.reached
  have hworld : s.world = World.run plan {} (first ++ more) := by
    rw [hs, Clocked.run_world]
  rw [h.plan_eq]
  rw [hworld] at hl ⊢
  exact (World.Keeps.run plan _).begun_step (.run plan _) hl _

/-- When nothing happens at this moment, the clock may go on to the next one, and there something
happens. -/
theorem advance (h : Played plan service first stoppable s) (hc : s.world.calls = [])
    (hnone : s.turn? = none) {moment : Instant} (hm : s.nextMoment none = some moment) :
    Played plan service first stoppable (s.advanceTo moment) ∧
      (s.advanceTo moment).world.calls = [] ∧ (s.advanceTo moment).workload = s.workload ∧
      (s.advanceTo moment).turn? ≠ none := by
  have hmin : s.moments.min? = some moment := by simpa [nextMoment] using hm
  obtain ⟨hmem, hle⟩ := List.min?_eq_some_iff.mp hmin
  obtain ⟨x, hx, hceil⟩ := List.mem_map.mp hmem
  have hlater := later_of_turn?_eq_none hnone
  have hreach : x ≤ moment := hceil ▸ Duration.le_ceilMillis x
  have hadd : s.world.now + (moment - s.world.now) = moment := by
    have hlt := lt_of_lt_of_le (hlater x hx) hreach
    rw [Duration.lt_iff] at hlt
    rw [Duration.eq_iff, Duration.nanos_add, Duration.nanos_sub]
    omega
  have allowed : s.toClocked.Allows (.advance (moment - s.world.now)) := by
    refine ⟨hc, ?_, fun due hdue => ⟨hlater due (by simp [hdue]), ?_⟩⟩
    · rw [hadd, ← hceil]
      exact Duration.isWhole_ceilMillis x
    · rw [hadd]
      exact hle _ (List.mem_map_of_mem (by simp [hdue]))
  refine ⟨h.act allowed nofun, hc, rfl, turn?_ne_none (x := x) ?_ ?_⟩
  · simp only [Clocked.dues, List.mem_append, Option.mem_toList] at hx ⊢
    refine hx.imp id (Or.imp (fun hdue => ?_) id)
    have hlt := hlater x (by simp [Clocked.dues, hdue])
    exact World.taskDue_advance hdue hlt (h.begun_advance hdue _)
  · exact le_of_le_of_eq hreach hadd.symm

/-- With a turn for each thing that can still happen, nothing is left to happen at this moment. -/
theorem settleFor (n : Nat) (h : Played plan service first stoppable s) (hc : s.world.calls = [])
    (hn : s.workload < n) :
    Played plan service first stoppable (settleFor n s) ∧ (settleFor n s).world.calls = [] ∧
      (settleFor n s).turn? = none := by
  induction n generalizing s with
  | zero => exact absurd hn (Nat.not_lt_zero _)
  | succ n ih =>
    rw [Session.settleFor]
    cases ht : s.turn? with
    | none => exact ⟨h, hc, ht⟩
    | some next =>
      obtain ⟨hp, hcalls, hless⟩ := h.turn hc ht
      exact ih hp hcalls (by omega)

theorem settle (h : Played plan service first stoppable s) (hc : s.world.calls = []) :
    Played plan service first stoppable s.settle ∧ s.settle.world.calls = [] ∧
      s.settle.turn? = none :=
  h.settleFor _ hc (by rw [turns]; omega)

/-- The clock goes on at most once before each thing that happens, so with two turns for each the
session is done, or nothing is left to happen ever. -/
theorem runFor (done : Session → Bool) (n : Nat) (h : Played plan service first stoppable s)
    (hc : s.world.calls = [])
    (hn : 2 * s.workload + (if s.turn? = none then 2 else 1) ≤ n) :
    Played plan service first stoppable (runFor done none n s) ∧
      (runFor done none n s).world.calls = [] ∧
      (done (runFor done none n s) ∨ (runFor done none n s).turn? = none ∧
        (runFor done none n s).nextMoment none = none) := by
  induction n generalizing s with
  | zero => split_ifs at hn <;> omega
  | succ n ih =>
    rw [Session.runFor]
    split_ifs with hdone
    · exact ⟨h, hc, Or.inl hdone⟩
    · cases ht : s.turn? with
      | some next =>
        obtain ⟨hp, hcalls, hless⟩ := h.turn hc ht
        refine ih hp hcalls ?_
        rw [if_neg (by simp [ht])] at hn
        split_ifs <;> omega
      | none =>
        -- The clock goes on without less being left to happen, but then there is a turn.
        rw [if_pos ht] at hn
        dsimp only
        cases hm : s.nextMoment none with
        | none => exact ⟨h, hc, Or.inr ⟨ht, hm⟩⟩
        | some moment =>
          obtain ⟨hp, hcalls, hwork, hturn⟩ := h.advance hc ht hm
          refine ih hp hcalls ?_
          rw [if_neg hturn, hwork]
          omega

/-- The same session, with all that it played so far taken as its beginning. -/
theorem rebase (h : Played plan service first stoppable s) :
    ∃ more, Played plan service (first ++ more) stoppable s ∧
      ((∃ runtime, .stop runtime ∈ more) → stoppable) ∧
      s.toClocked = Clocked.run { plan, service } (first ++ more) := by
  obtain ⟨more, timely, hmore, hs⟩ := h.reached
  refine ⟨more, ⟨⟨[], ?_, ?_, ?_⟩, h.calm, h.stops, h.shown, h.service⟩, hmore, hs⟩
  · rwa [List.append_nil]
  · simp
  · rwa [List.append_nil]

end Played

/-- A session in which nothing has happened, at some whole millisecond. -/
def fresh (plan : Plan) (service : Service) (time : Nat) : Session where
  plan := plan
  service := service
  world := { now := .ofMillis time }

def opening (time : Nat) : List Action :=
  [.advance (.ofMillis time), .start true, .call 0, .call 0, .call 0]

theorem timely_opening (plan : Plan) (service : Service) (time : Nat) :
    Clocked.Timely { plan, service } (opening time) := by
  have whole : (Duration.zero + .ofMillis time).IsWhole :=
    .add (Duration.isWhole_ofMillis 0) (Duration.isWhole_ofMillis time)
  refine ⟨⟨rfl, whole, ?_⟩, trivial, trivial, trivial, trivial, trivial⟩
  simp [Clocked.dues, World.taskDue]

theorem accepted_opening (plan : Plan) (time : Nat) :
    World.accepted plan {} (opening time) = [0] := rfl

theorem mem_accepted_opening (plan : Plan) (time : Nat) (more : List Action) :
    0 ∈ World.accepted plan {} (opening time ++ more) := by
  rw [World.accepted, World.gather_append, ← World.accepted, accepted_opening]
  exact List.mem_append_left _ List.mem_cons_self

/-- What can stop an arbitration that is played through: a scheduled stop, or the service. -/
def MayStop (service : Service) (stopAfter : Option Duration) : Prop :=
  stopAfter ≠ none ∨ ∃ k query, (service k query).stops ∨ (service k query).stopsWhenShown

/-- The session played until its first caller was told, and then through all that happens at that
moment. -/
def playOut (s : Session) : Session :=
  (runFor (·.world.shared.answerTo != some 0) none s.turns s).settle

theorem played_start (plan : Plan) (service : Service) (time : Nat) (stopAfter : Option Duration)
    (stops : List Instant) (hstops : stops ≠ [] → stopAfter ≠ none) :
    let begun := ({ fresh plan service time with stops } : Session).start {}
    Played plan service (opening time) (MayStop service stopAfter) begun ∧
      begun.world.calls = [] := by
  have hcalm : Calm (({ fresh plan service time with stops } : Session).call (.start {})) := by
    simp [Calm, fresh, call, Session.act]
  have hnow : Duration.zero + .ofMillis time = .ofMillis time := by
    rw [Duration.eq_iff, Duration.nanos_add]
    exact Nat.zero_add _
  have hfresh : (fresh plan service time).toClocked =
      Clocked.step { plan, service } (.advance (.ofMillis time)) := by
    show _ = ({ plan, service, world := { now := .zero + .ofMillis time } } : Clocked)
    rw [hnow]
    rfl
  rw [Session.start, depth, perform_of_calm hcalm]
  refine ⟨⟨⟨[], ?_, by simp, ?_⟩, hcalm, ?_, nofun, ?_⟩, rfl⟩
  · rw [List.append_nil]
    exact timely_opening plan service time
  · rw [List.append_nil, opening, Clocked.run, List.foldl_cons, ← hfresh]
    rfl
  · exact fun hs => Or.inl (hstops hs)
  · exact fun k query hs => Or.inr ⟨k, query, hs⟩

theorem settle_of_none (hnone : s.turn? = none) : s.settle = s := by
  rw [settle, turns, Nat.mul_succ, settleFor, hnone]

namespace Played

/-- What a session played is a run of its world, in which the starts that were accepted at its
beginning were accepted too. -/
theorem world_eq (h : Played plan service first stoppable s) :
    ∃ actions, s.world = World.run plan {} actions ∧
      ∀ id ∈ World.accepted plan {} first, id ∈ World.accepted plan {} actions := by
  obtain ⟨more, -, -, hs⟩ := h.reached
  refine ⟨first ++ more, by rw [hs, Clocked.run_world], fun id hid => ?_⟩
  rw [World.accepted, World.gather_append]
  exact List.mem_append_left _ hid

theorem terminal_of_base {base : Session}
    (hbase : base.toClocked = Clocked.run { plan, service } first)
    (hterm : base.world.shared.phase.isTerminal) (h : Played plan service first stoppable s) :
    s.world.shared.phase.isTerminal := by
  obtain ⟨more, -, -, hs⟩ := h.reached
  have hworld : s.world = base.world.run plan more := by
    rw [hs, hbase, Clocked.run_world, Clocked.run_world, World.run_append]
  have hd : World.Delivers plan (World.accepted plan {} first) base.world := by
    rw [hbase, Clocked.run_world]
    exact .run plan first
  rwa [hworld, World.phase_run_of_terminal hterm hd]

/-- Of an arbitration that has nothing left to tell its first caller, or in which nothing is left to
happen, the phase is terminal or the attempts could not be counted. -/
theorem terminal_or_overflowed (h : Played plan service first stoppable s)
    (hc : s.world.calls = []) (ha : 0 ∈ World.accepted plan {} first)
    (hdone : s.world.shared.answerTo ≠ some 0 ∨ s.turn? = none ∧ s.nextMoment none = none) :
    s.world.shared.phase.isTerminal ∨ s.world.task = .overflowed ∧ s.turn? = none := by
  obtain ⟨actions, hworld, hacc⟩ := h.world_eq
  have hd : World.Delivers plan (World.accepted plan {} actions) s.world := hworld ▸ .run plan actions
  have hk : World.Keeps (World.accepted plan {} actions) s.world := hworld ▸ .run plan actions
  have hmem := hacc 0 ha
  rcases hdone with hanswer | ⟨hnone, hm⟩
  · left
    cases hp : s.world.shared.phase with
    | idle => simp [(hd.idle hp).1] at hmem
    | attempting =>
      obtain ⟨id, hid, hans⟩ := hd.attempting hp
      obtain rfl : 0 = id := by simpa [hid] using hmem
      exact absurd hans hanswer
    | succeeded | failed | cancelled => rfl
  · have hdue : s.world.taskDue s.plan = none := by
      have hmin : s.moments.min? = none := by
        simpa [nextMoment, Option.eq_none_iff_forall_ne_some] using hm
      have hmoments := List.min?_eq_none_iff.mp hmin
      simp only [moments, Clocked.dues, List.map_eq_nil_iff, List.append_eq_nil_iff] at hmoments
      simpa using hmoments.2.1
    have hl := hd.launched_of_accepted (List.ne_nil_of_mem hmem) hc
    cases World.rests_of_later (by simp [hdue] : ∀ due ∈ s.world.taskDue s.plan, _) with
    | absent ht => simp [ht, Task.isLaunched] at hl
    | finished ht => exact Or.inl (hk.terminal_of_finished hc ht)
    | overflowed ht => exact Or.inr ⟨ht, hnone⟩
    | outstanding ht unstopped | pausing ht unstopped =>
      simp [World.taskDue, ht, unstopped] at hdue

/-- Where nothing is left to happen at this moment, an arbitration that ended has told its outcome. -/
theorem told_of_terminal (h : Played plan service first stoppable s)
    (hc : s.world.calls = []) (ha : 0 ∈ World.accepted plan {} first) (hnone : s.turn? = none)
    (hphase : s.world.shared.phase.isTerminal) :
    (s.world.task = .finished ∨ s.world.task = .overflowed) ∧
      ∃ outcome, s.world.answersTo 0 = [outcome] := by
  obtain ⟨actions, hworld, hacc⟩ := h.world_eq
  have hd : World.Delivers plan (World.accepted plan {} actions) s.world := hworld ▸ .run plan actions
  have hk : World.Keeps (World.accepted plan {} actions) s.world := hworld ▸ .run plan actions
  have hcon : World.Concludes plan (World.accepted plan {} actions) (World.judged plan {} actions)
      s.world := hworld ▸ .run plan actions
  have hmem := hacc 0 ha
  have hlater : ∀ due ∈ s.world.taskDue s.plan, s.world.now < due := fun due hdue =>
    later_of_turn?_eq_none hnone due (by simp [Clocked.dues, Option.mem_def.mp hdue])
  have hrests := World.rests_of_later hlater
  have hdelivering : ∀ before outcome, s.world.task ≠ .delivering before outcome := by
    intro before outcome hk
    cases hrests with
    | absent ht | finished ht | overflowed ht | outstanding ht | pausing ht => simp [ht] at hk
  obtain ⟨outcome, ho, -⟩ := hd.answersTo_of_ended hphase (fun _ => hc) hdelivering hmem
  refine ⟨?_, outcome, ho⟩
  cases hp : s.world.shared.phase with
  | idle | attempting => simp [hp, Phase.isTerminal] at hphase
  | succeeded | failed =>
    obtain ⟨id, -, ⟨before, ht, -⟩ | ⟨ht, -⟩⟩ := hcon.ended (by simp [hp])
    · exact absurd ht (hdelivering _ _)
    · exact Or.inl ht
  | cancelled =>
    have hs := hk.stopped (Or.inl hp)
    have hl := hd.launched_of_accepted (List.ne_nil_of_mem hmem) hc
    cases hrests with
    | absent ht => simp [ht, Task.isLaunched] at hl
    | finished ht => exact Or.inl ht
    | overflowed ht => exact Or.inr ht
    | outstanding ht unstopped | pausing ht unstopped => simp [unstopped] at hs

/-- Played until its first caller was told, and then through all that happens at that moment, a
session ends, with the outcome told unless its attempts can no longer be counted. -/
theorem playOut (h : Played plan service first stoppable s) (hc : s.world.calls = [])
    (ha : 0 ∈ World.accepted plan {} first) :
    Played plan service first stoppable s.playOut ∧
      (s.playOut.world.task = .overflowed ∨ s.playOut.world.task = .finished ∧
        ∃ outcome, s.playOut.world.answersTo 0 = [outcome]) := by
  have hturns : 2 * s.workload + (if s.turn? = none then 2 else 1) ≤ s.turns := by
    rw [turns]
    split_ifs <;> omega
  obtain ⟨hmid, hmidCalls, hdone⟩ := h.runFor (·.world.shared.answerTo != some 0) _ hc hturns
  rw [Session.playOut]
  generalize Session.runFor (·.world.shared.answerTo != some 0) none s.turns s = mid at *
  obtain ⟨hend, hendCalls, hendNone⟩ := hmid.settle hmidCalls
  refine ⟨hend, ?_⟩
  rcases hmid.terminal_or_overflowed hmidCalls ha (hdone.imp_left (by simp)) with
    hterm | ⟨hover, hnone⟩
  · -- What comes after the phase became terminal is a run of its own, from that moment on.
    obtain ⟨more, hbase, -, hs⟩ := hmid.rebase
    have hphase := terminal_of_base hs hterm (hbase.settle hmidCalls).1
    obtain ⟨htask, outcome, ho⟩ := hend.told_of_terminal hendCalls ha hendNone hphase
    exact htask.symm.imp_right fun ht => ⟨ht, outcome, ho⟩
  · rw [settle_of_none hnone]
    exact Or.inl hover

end Played

theorem mem_told_of_outcomeOf {id : CallId} {outcome : Outcome}
    (h : s.outcomeOf id = some outcome) : (id, outcome) ∈ s.world.told := by
  rw [outcomeOf, World.answersTo, List.head?_map, Option.map_eq_some_iff] at h
  obtain ⟨⟨caller, told⟩, hhead, rfl⟩ := h
  obtain ⟨hmem, hcaller⟩ := List.mem_filter.mp (List.mem_of_head? hhead)
  obtain rfl : caller = id := by simpa using hcaller
  exact hmem

/-- An arbitration of its own is a start that is played out. -/
theorem arbitrate_fresh (plan : Plan) (service : Service) (time : Nat)
    (stopAfter : Option Duration) :
    let begun := ({ fresh plan service time with
      stops := (stopAfter.map (Duration.ofMillis time + ·)).toList } : Session).start {}
    (fresh plan service time).arbitrate stopAfter = (begun.playOut, begun.playOut.outcomeOf 0) := by
  intro begun
  rfl

theorem mem_told_of_arbitrate {plan : Plan} {service : Service} {time : Nat}
    {stopAfter : Option Duration} {outcome : Outcome}
    (h : ((fresh plan service time).arbitrate stopAfter).2 = some outcome) :
    (0, outcome) ∈ ((fresh plan service time).arbitrate stopAfter).1.world.told := by
  rw [arbitrate_fresh] at h ⊢
  dsimp only at h ⊢
  exact mem_told_of_outcomeOf h

/-- An arbitration that is played through is a timely run that ends, with the outcome told unless its
attempts can no longer be counted. -/
theorem arbitrate_ends (plan : Plan) (service : Service) (time : Nat)
    (stopAfter : Option Duration) :
    let result := (fresh plan service time).arbitrate stopAfter
    ∃ more, Clocked.Timely { plan, service } (opening time ++ more) ∧
      ((∃ runtime, .stop runtime ∈ more) → MayStop service stopAfter) ∧
      result.1.toClocked = Clocked.run { plan, service } (opening time ++ more) ∧
      (result.1.world.task = .overflowed ∨ result.1.world.task = .finished ∧
        ∃ outcome, result.2 = some outcome ∧ result.1.world.answersTo 0 = [outcome]) := by
  let stops : List Instant := (stopAfter.map (Duration.ofMillis time + ·)).toList
  obtain ⟨hbegun, hcalls⟩ := played_start plan service time stopAfter stops
    (by cases stopAfter <;> simp [stops])
  rw [arbitrate_fresh]
  generalize ({ fresh plan service time with stops } : Session).start {} = begun at *
  have hacc : 0 ∈ World.accepted plan {} (opening time) := by simp [accepted_opening]
  obtain ⟨hplayed, hend⟩ := hbegun.playOut hcalls hacc
  obtain ⟨more, timely, hstop, hs⟩ := hplayed.reached
  refine ⟨more, timely, hstop, hs, hend.imp_right ?_⟩
  rintro ⟨ht, outcome, ho⟩
  refine ⟨ht, outcome, ?_, ho⟩
  rw [outcomeOf, ho]
  rfl

end Session

end Arbiter.Arbitration
