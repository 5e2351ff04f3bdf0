import Arbiter.Proofs.Arbitration.Playing
import Arbiter.Proofs.Arbitration.Punctual

/-!
Steady replies. A service that replies at once, and always the same, settles an arbitration with its
first reply: further attempts cannot change what it concludes.
-/

namespace Arbiter.Arbitration

open Discovery

variable {plan : Plan} {service : Service} {reply : Reply}

/-- Replies that are all the same conclude what one of them does. -/
theorem conclude_of_same {replies : List Reply} (hne : replies ≠ [])
    (same : ∀ r ∈ replies, r = reply) : conclude plan replies = conclude plan [reply] := by
  obtain ⟨n, rfl⟩ : ∃ n, replies = List.replicate (n + 1) reply := by
    have hpos := List.length_pos_of_ne_nil hne
    refine ⟨replies.length - 1, ?_⟩
    rw [Nat.sub_add_cancel hpos]
    exact List.eq_replicate_iff.mpr ⟨rfl, same⟩
  have hlatest : latestEntries (List.replicate (n + 1) reply) = latestEntries [reply] := by
    rw [latestEntries, latestEntries, List.reverse_replicate, List.findSome?_replicate]
    simp
  have hlast : (List.replicate (n + 1) reply).getLast? = some reply := by
    simp [List.getLast?_replicate]
  have hfailure : failureOf plan (List.replicate (n + 1) reply) = failureOf plan [reply] := by
    rw [failureOf, failureOf, hlast, rejectedVersions, rejectedVersions, hlatest]
    rfl
  rw [conclude, conclude, hfailure, List.findSome?_replicate]
  simp

theorem conclude_application (plan : Plan) (code : ErrorCode) :
    conclude plan [.error (.application code)] = .error (.lookupFailed
      (if code.isRetryable then continuing (codeFailure plan code)
        else givingUp (codeFailure plan code))) := by
  rw [conclude, List.findSome?_cons, decision?_application]
  by_cases hr : code.isRetryable
  case pos =>
    have hnone : rejectedVersions plan [.error (.application code)] = [] := by
      rw [rejectedVersions, ← List.nil_append [_], latestEntries_concat_error]
      rfl
    simp [hr, failureOf, hnone]
  case neg => simp [hr]

theorem rejectedVersions_ok (plan : Plan) (es : List Entry) :
    rejectedVersions plan [.ok es] =
      if compatibleEntries plan.required es = [] then VersionSet.ofList (es.map (·.version))
      else [] := by
  rw [rejectedVersions, ← List.nil_append [_], latestEntries_concat_ok]
  simp [compatibleEntries, List.filter_eq_nil_iff]

theorem ofList_ne_nil {es : List Entry} :
    VersionSet.ofList (es.map (·.version)) ≠ [] ↔ es ≠ [] := by
  cases es with
  | nil => simp [VersionSet.ofList]
  | cons e es =>
    have hmem : e.version ∈ VersionSet.ofList ((e :: es).map (·.version)) := by simp
    exact iff_of_true (List.ne_nil_of_mem hmem) (List.cons_ne_nil e es)

theorem conclude_ok (plan : Plan) (es : List Entry) :
    conclude plan [.ok es] =
      match plan.policy.select (compatibleEntries plan.required es) with
      | some e => .ok e
      | none => .error (if compatibleEntries plan.required es = [] ∧ es ≠ [] then
          .noCompatibleProvider plan.target (VersionSet.ofList (es.map (·.version)))
          else .noEntries plan.target) := by
  rw [conclude, List.findSome?_cons, decision?_ok]
  cases plan.policy.select (compatibleEntries plan.required es) with
  | some e => rfl
  | none =>
    have hfailure : failureOf plan [.ok es] =
        if compatibleEntries plan.required es = [] ∧ es ≠ [] then
          .noCompatibleProvider plan.target (VersionSet.ofList (es.map (·.version)))
        else .noEntries plan.target := by
      rw [failureOf, rejectedVersions_ok, List.getLast?_singleton]
      by_cases hnone : compatibleEntries plan.required es = []
      case pos => simp only [hnone, if_true, ofList_ne_nil, true_and]
      case neg => simp [hnone]
    exact congrArg Except.error hfailure

/-- Every lookup is replied to at once, and the service stops nothing. -/
structure Service.Immediate (service : Service) : Prop where
  delay : ∀ k query, (service k query).delay = some .zero
  calm : ∀ k query, (service k query).stops = false ∧ (service k query).stopsWhenShown = false

theorem Service.immediate_ofDatedRegistry (r : Registry) (dates : Nat → Int64) :
    (ofDatedRegistry r dates).Immediate :=
  ⟨fun _ _ => rfl, fun _ _ => ⟨rfl, rfl⟩⟩

namespace World

/-- A step makes no lookup but the one that is due, at the present moment. -/
theorem forall_lookups_step {w : World} {acc : List CallId} {P : Query × Instant → Prop}
    (hd : Delivers plan acc w) (hold : ∀ lookup ∈ w.lookups, P lookup)
    (hask : ∀ remaining, P (queryOf plan remaining, w.now)) (a : Action) :
    ∀ lookup ∈ (w.step plan a).lookups, P lookup := by
  cases step_lookupMove hd a with
  | keep _ _ hl | count _ _ _ hl | drop _ _ _ _ _ hl => rwa [hl]
  | @ask attempt remaining _ _ _ _ _ hl =>
    rw [hl]
    intro lookup hmem
    rcases List.mem_append.mp hmem with hmem | hmem
    · exact hold lookup hmem
    · rw [List.mem_singleton.mp hmem]
      exact hask remaining

/-- The task asks for the target of the plan at its backends. -/
theorem lookup_eq_queryOf (plan : Plan) (actions : List Action) :
    ∀ lookup ∈ (World.run plan {} actions).lookups, ∃ remaining, lookup.1 = queryOf plan remaining := by
  induction actions using List.reverseRecOn with
  | nil => simp [run, lookups]
  | append_singleton actions a ih =>
    have hd := Delivers.run plan actions
    rw [run_concat]
    exact forall_lookups_step hd ih (fun remaining => ⟨remaining, rfl⟩) a

/-- An attempt that cannot be counted would have been due in time. -/
theorem overflowed_inTime (plan : Plan) (actions : List Action)
    (ht : (World.run plan {} actions).task = .overflowed) :
    (World.run plan {} actions).tick plan (World.run plan {} actions).shared.attempts <
      ((World.run plan {} actions).deadline plan).nanos := by
  induction actions using List.reverseRecOn with
  | nil => cases ht
  | append_singleton actions a ih =>
    have hd := Delivers.run plan actions
    have hk := Keeps.run plan actions
    have hp := Paced.run plan actions
    rw [run_concat] at ht ⊢
    generalize World.run plan {} actions = w at ih hd hk hp ht ⊢
    by_cases hover : w.task = .overflowed
    case pos =>
      have hbegun := hk.begun_step hd (by rw [hover]; rfl) a
      have hattempts : (w.step plan a).shared.attempts = w.shared.attempts := by
        cases step_lookupMove hd a with
        | keep _ hn => exact hn
        | count hb => simp [hover] at hb
        | ask hq => simp [hover] at hq
        | drop due => simp [hover, Task.isDue] at due
      rw [tick, deadline_eq, hbegun, hattempts]
      exact ih hover
    case neg =>
      have hm := step_move plan w a
      generalize w.step plan a = after at hm ht
      cases hm with
      | start | stop | noCall | unasked | advance => exact absurd ht hover
      | replyAtOnce | reply => cases ht
      | call hc split hs move =>
        cases move with
        | launch => cases ht
        | accept | refuse | refused | signal | late | cancel | stopped => exact absurd ht hover
      | task move =>
        cases move with
        | wait => exact absurd ht hover
        | overflow hb uncountable =>
          have hlimit : 1 < attemptLimit := by decide +kernel
          exact (hp.beginning hb).2.resolve_left (by omega)
        | _ => cases ht

/-- Attempts that can be counted are not given up for their number. -/
theorem ne_overflowed (plan : Plan) (actions : List Action)
    (interval : .zero < plan.request.retryInterval)
    (countable : (budget plan (World.run plan {} actions).begun).nanos ⌈/⌉
      plan.request.retryInterval.nanos < attemptLimit) :
    (World.run plan {} actions).task ≠ .overflowed := by
  intro ht
  have hlt := overflowed_inTime plan actions ht
  have hlimit := (Keeps.run plan actions).overflowed ht
  generalize World.run plan {} actions = w at countable hlt hlimit
  rw [deadline_eq, Arbitration.deadline, tick, Duration.nanos_add, Nat.add_lt_add_iff_left] at hlt
  have hpos : 0 < plan.request.retryInterval.nanos := interval
  have hmany : (budget plan w.begun).nanos ⌈/⌉ plan.request.retryInterval.nanos ≤
      w.shared.attempts := by omega
  rw [ceilDiv_le_iff_le_mul hpos, Nat.mul_comm] at hmany
  exact absurd hlt (Nat.not_lt_of_le hmany)

end World

namespace Clocked

open World

theorem asked_isWhole {actions : List Action} (timely : Timely { plan, service } actions) :
    ∀ lookup ∈ (World.run plan {} actions).lookups, lookup.2.IsWhole := by
  induction actions using List.reverseRecOn with
  | nil => simp [World.run, World.lookups]
  | append_singleton actions a ih =>
    rw [timely_concat] at timely
    have hd := Delivers.run plan actions
    have hwhole := (Follows.run timely.1).whole
    rw [Clocked.run_world] at hwhole
    rw [World.run_concat]
    exact forall_lookups_step hd (ih timely.1) (fun _ => hwhole) a

theorem mem_exchanges {s : Clocked} {x : Exchange} (hx : x ∈ s.exchanges) :
    ∃ k lookup, k < s.world.lookups.length ∧ lookup ∈ s.world.lookups ∧
      x = { query := lookup.1, asked := lookup.2, answer := s.service k lookup.1 } := by
  obtain ⟨k, hk, rfl⟩ := List.mem_mapIdx.mp hx
  exact ⟨k, s.world.lookups[k], hk, List.getElem_mem hk, rfl⟩

/-- What comes at once comes in time. -/
theorem inTime_of_immediate (immediate : service.Immediate) {actions : List Action}
    (timely : Timely { plan, service } actions) :
    ∀ x ∈ (Clocked.run { plan, service } actions).exchanges,
      x.inTime ((Clocked.run { plan, service } actions).world.deadline plan) := by
  intro x hx
  have hasked := (Follows.run timely).asked x hx
  have hwhole := asked_isWhole timely
  obtain ⟨k, lookup, -, hmem, rfl⟩ := mem_exchanges hx
  rw [Clocked.run_world] at hmem
  rw [run_plan] at hasked
  refine Exchange.inTime_iff.mpr ⟨lookup.2, ?_, hasked⟩
  have hzero : lookup.2 + .zero = lookup.2 := by
    rw [Duration.eq_iff, Duration.nanos_add]
    rfl
  rw [Exchange.arrival?, run_service, immediate.delay, Option.map_some, hzero]
  exact congrArg some (hwhole lookup hmem)

/-- Where the first reply is decisive, it is the only one that is asked for. -/
theorem DecidedBy.length_eq_one {limit : Instant} {s : Clocked} {outcome : Outcome}
    (h : DecidedBy plan limit s outcome) {x : Exchange} {later : List Exchange}
    (hxs : s.exchanges = x :: later) (hin : x.inTime limit)
    (decisive : (decision? plan x.reply).isSome) : s.exchanges.length = 1 := by
  have hlead : Leads plan limit s.exchanges 0 x.reply :=
    ⟨[], x, later, hxs, rfl, hin, rfl, List.forall_mem_nil _⟩
  obtain ⟨decision, hdecision⟩ := Option.isSome_iff_exists.mp decisive
  rcases decision with failure | e
  · obtain ⟨code, hcode, hfatal, -⟩ := decision?_eq_error_iff.mp hdecision
    exact ((h.fatal 0).mpr ⟨code, hcode ▸ hlead, hfatal⟩).2
  · obtain ⟨es, hes, hselect⟩ := decision?_eq_ok_iff.mp hdecision
    exact (h.winner 0 es e (hes ▸ hlead) hselect).2.2.2

/-- Of a timely run with steady replies that nobody stops, the caller is told what the reply
concludes, as soon as the task is done. A decisive reply is asked for once. -/
theorem steady_of_finished (immediate : service.Immediate) {actions : List Action}
    (timeout : .zero < plan.request.timeout) (interval : plan.request.retryInterval.IsWhole)
    (timely : Timely { plan, service } actions) (unstopped : ∀ runtime, .stop runtime ∉ actions)
    (finished : (World.run plan {} actions).task = .finished)
    (steady : ∀ x ∈ (Clocked.run { plan, service } actions).exchanges, x.reply = reply) :
    ∃ id, accepted plan {} actions = [id] ∧
      (World.run plan {} actions).answersTo id = [conclude plan [reply]] ∧
      0 < (World.run plan {} actions).lookups.length ∧
      ((decision? plan reply).isSome → (World.run plan {} actions).lookups.length = 1) := by
  have hinTime := inTime_of_immediate immediate timely
  have hworld : (Clocked.run { plan, service } actions).world = World.run plan {} actions :=
    run_world _ actions
  have hpos : 0 < (World.run plan {} actions).lookups.length := by
    rw [← attempts_eq_lookups timeout interval timely unstopped (by rw [finished]; rfl)]
    exact (attempts_pos plan actions (by rw [finished]; rfl)).resolve_left (by simp [finished])
  obtain ⟨start, id, outcome, hstart, hid, htold, hdecided⟩ :=
    decided_of_finished timely unstopped (hworld ▸ finished)
  have hlength : (Clocked.run { plan, service } actions).exchanges.length =
      (World.run plan {} actions).lookups.length := by
    rw [exchanges, List.length_mapIdx, hworld]
  have hlimit : (Clocked.run { plan, service } actions).world.deadline plan =
      Arbitration.deadline plan start := by
    rw [deadline_eq, begun, hstart, Option.getD_some]
  rw [hlimit] at hinTime
  rw [hworld] at htold
  generalize Clocked.run { plan, service } actions = s at steady hinTime hdecided hlength
  obtain ⟨x, later, hxs⟩ := List.exists_cons_of_length_pos (hlength ▸ hpos)
  refine ⟨id, hid, ?_, hpos, fun decisive => ?_⟩
  · have hreplies : ∀ r ∈ s.exchanges.map Exchange.reply, r = reply := by
      intro r hr
      obtain ⟨y, hy, rfl⟩ := List.mem_map.mp hr
      exact steady y hy
    rw [htold, hdecided.concluded, List.filter_eq_self.mpr hinTime,
      conclude_of_same (by simp [hxs]) hreplies]
  · have hx : x ∈ s.exchanges := by simp [hxs]
    rw [← hlength]
    exact hdecided.length_eq_one hxs (hinTime x hx) (by rwa [steady x hx])

end Clocked

namespace Session

open World

theorem budget_zero_le (plan : Plan) : budget plan .zero ≤ plan.request.timeout := by
  unfold budget
  split_ifs with hrepresentable
  · exact le_refl _
  · have hlimit : farFuture ≤ clockLimit := by decide +kernel
    have hzero : Duration.zero + plan.request.timeout = plan.request.timeout := by
      rw [Duration.eq_iff, Duration.nanos_add]
      exact Nat.zero_add _
    rw [hzero] at hrepresentable
    exact le_trans hlimit (not_lt.mp hrepresentable)

theorem begun_opening (plan : Plan) (time : Nat) (more : List Action) :
    (World.run plan {} (opening time ++ more)).begun = .ofMillis time := by
  induction more using List.reverseRecOn with
  | nil =>
    rw [Duration.eq_iff]
    exact Nat.zero_add _
  | append_singleton more a ih =>
    have hacc : accepted plan {} (opening time ++ more) ≠ [] :=
      List.ne_nil_of_mem (mem_accepted_opening plan time more)
    rw [← List.append_assoc, run_concat,
      (Keeps.run plan _).begun_step_of_accepted (.run plan _) hacc, ih]

theorem unstopped_opening
    (calm : ∀ k query, (service k query).stops = false ∧ (service k query).stopsWhenShown = false)
    (time : Nat) {more : List Action}
    (hstop : (∃ runtime, .stop runtime ∈ more) → MayStop service none) :
    ∀ runtime, .stop runtime ∉ opening time ++ more := by
  intro runtime hmem
  rcases List.mem_append.mp hmem with hmem | hmem
  · simp [opening] at hmem
  · rcases hstop ⟨runtime, hmem⟩ with hnone | ⟨k, query, hstops⟩
    · exact hnone rfl
    · simp [(calm k query).1, (calm k query).2] at hstops

/-- Played through from the start of the clock, with steady replies, an arbitration that nobody stops
results in what the reply concludes. -/
theorem arbitrate_steady (immediate : service.Immediate)
    (timeout : .zero < plan.request.timeout) (positive : .zero < plan.request.retryInterval)
    (interval : plan.request.retryInterval.IsWhole)
    (countable : plan.request.timeout.nanos ⌈/⌉ plan.request.retryInterval.nanos < attemptLimit)
    (steady : ∀ x ∈ ((fresh plan service 0).arbitrate none).1.exchanges, x.reply = reply) :
    let result := (fresh plan service 0).arbitrate none
    result.2 = some (conclude plan [reply]) ∧ 0 < result.1.world.lookups.length ∧
      ((decision? plan reply).isSome → result.1.world.lookups.length = 1) := by
  obtain ⟨more, timely, hstop, hs, hend⟩ := arbitrate_ends plan service 0 none
  generalize (fresh plan service 0).arbitrate none = result at steady hs hend
  have hworld : result.1.world = World.run plan {} (opening 0 ++ more) := by
    rw [hs, Clocked.run_world]
  have hpositive : 0 < plan.request.retryInterval.nanos := positive
  have hbudget : (budget plan .zero).nanos ⌈/⌉ plan.request.retryInterval.nanos ≤
      plan.request.timeout.nanos ⌈/⌉ plan.request.retryInterval.nanos := by
    rw [ceilDiv_le_iff_le_mul hpositive]
    exact le_trans (budget_zero_le plan) ((ceilDiv_le_iff_le_mul hpositive).mp (le_refl _))
  have hcounted : result.1.world.task ≠ .overflowed := by
    rw [hworld]
    refine ne_overflowed plan _ positive ?_
    rw [begun_opening]
    exact lt_of_le_of_lt hbudget countable
  obtain ⟨finished, outcome, houtcome, hans⟩ := hend.resolve_left hcounted
  have unstopped := unstopped_opening immediate.calm 0 hstop
  obtain ⟨id, hid, htold, hpos, hone⟩ := Clocked.steady_of_finished immediate timeout interval timely
    unstopped (hworld ▸ finished) (hs ▸ steady)
  obtain rfl : 0 = id := by simpa [hid] using mem_accepted_opening plan 0 more
  dsimp only
  rw [hworld] at hans ⊢
  obtain rfl : outcome = conclude plan [reply] := by simpa [hans] using htold
  exact ⟨houtcome, hpos, hone⟩

end Session

end Arbiter.Arbitration
