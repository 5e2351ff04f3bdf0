import Arbiter.Proofs.Arbitration.GivingUp
import Arbiter.Proofs.Arbitration.Playing
import Arbiter.Proofs.Policy

/-!
The first decisive reply decides an arbitration that nobody stops, if it comes before the deadline,
and nothing else does.
-/

namespace Arbiter.Arbitration

open Discovery

/-- The replies after which an attempt is to be repeated. -/
inductive Undecided (plan : Plan) : Reply → Prop where
  | empty : Undecided plan (.ok [])
  | incompatible {es} (none : ∀ e ∈ es, e.version.serves plan.required = false) :
    Undecided plan (.ok es)
  | noWinner {es} (none : plan.policy.select (compatibleEntries plan.required es) = none) :
    Undecided plan (.ok es)
  | retryable {code : ErrorCode} (retryable : code.isRetryable) :
    Undecided plan (.error (.application code))
  | runtime (text : String) : Undecided plan (.error (.runtime text))

variable {plan : Plan} {reply : Reply} {es : List Entry} {e : Entry}

theorem decision?_ok (plan : Plan) (es : List Entry) :
    decision? plan (.ok es) =
      (plan.policy.select (compatibleEntries plan.required es)).map Except.ok := by
  simp only [decision?, judge, judgeEntries, List.isEmpty_iff]
  split_ifs with hes hc
  · rw [hes, compatibleEntries, List.filter_nil, Policy.select_nil]
    rfl
  · rw [hc, Policy.select_nil]
    rfl
  · cases plan.policy.select (compatibleEntries plan.required es) <;> rfl

theorem decision?_application (plan : Plan) (code : ErrorCode) :
    decision? plan (.error (.application code)) =
      if code.isRetryable then none
      else some (.error (.lookupFailed (givingUp (codeFailure plan code)))) := by
  simp only [decision?, judge]
  split_ifs <;> rfl

theorem undecided_iff : Undecided plan reply ↔ decision? plan reply = none := by
  constructor
  · intro h
    cases h with
    | empty => rw [decision?_ok, compatibleEntries, List.filter_nil, Policy.select_nil, Option.map_none]
    | @incompatible es hnone =>
      have hc : compatibleEntries plan.required es = [] :=
        List.filter_eq_nil_iff.mpr fun e he => by simp [hnone e he]
      rw [decision?_ok, hc, Policy.select_nil, Option.map_none]
    | noWinner hnone => rw [decision?_ok, hnone, Option.map_none]
    | retryable hr => rw [decision?_application, if_pos hr]
    | runtime => rfl
  · intro h
    rcases reply with (code | text) | es
    · rw [decision?_application] at h
      split_ifs at h with hr
      exact .retryable hr
    · exact .runtime text
    · rw [decision?_ok, Option.map_eq_none_iff] at h
      exact .noWinner h

theorem decision?_eq_ok_iff : decision? plan reply = some (.ok e) ↔
    ∃ es, reply = .ok es ∧ plan.policy.select (compatibleEntries plan.required es) = some e := by
  rcases reply with (code | text) | es
  · rw [decision?_application]
    split_ifs <;> simp
  · simp [decision?, judge]
  · rw [decision?_ok]
    simp

theorem decision?_eq_error_iff {failure : Failure} :
    decision? plan reply = some (.error failure) ↔
      ∃ code : ErrorCode, reply = .error (.application code) ∧ code.isRetryable = false ∧
        failure = .lookupFailed (givingUp (codeFailure plan code)) := by
  rcases reply with (code | text) | es
  · rw [decision?_application]
    constructor
    · intro h
      split_ifs at h with hr
      obtain rfl : _ = failure := by simpa using h
      exact ⟨code, rfl, by simpa using hr, rfl⟩
    · rintro ⟨code, ⟨rfl⟩, hr, rfl⟩
      rw [hr, if_neg Bool.false_ne_true]
  · simp [decision?, judge]
  · rw [decision?_ok]
    simp

theorem failureOf_ne_givingUp (replies : List Reply) (text : String) :
    failureOf plan replies ≠ .lookupFailed (givingUp text) := by
  unfold failureOf
  cases replies.getLast? with
  | none => simp
  | some last =>
    dsimp only
    split_ifs
    · simp
    · rcases last with (code | cause) | es <;> simp [(givingUp_ne_continuing _ _).symm]

/-- The reply to the lookup of the given number comes in time, and every one before is undecided. -/
def Leads (plan : Plan) (limit : Instant) (xs : List Exchange) (k : Nat) (reply : Reply) : Prop :=
  ∃ earlier x later, xs = earlier ++ x :: later ∧ earlier.length = k ∧ x.inTime limit ∧
    x.reply = reply ∧ ∀ y ∈ earlier, Undecided plan y.reply

namespace Ended

variable {limit : Instant} {attempts : Nat} {xs : List Exchange} {rs : List Reply}
  {outcome : Outcome}

theorem last_of_leads (h : Ended plan limit attempts xs rs) {k : Nat} (hk : Leads plan limit xs k reply)
    (hd : decision? plan reply = some outcome) : xs.length = k + 1 ∧ attempts = k + 1 := by
  obtain ⟨earlier, x, later, rfl, rfl, hin, rfl, -⟩ := hk
  have hlater : later = [] := by
    by_contra hne
    have hx : x ∈ (earlier ++ x :: later).dropLast := by
      rw [List.dropLast_append_of_ne_nil (List.cons_ne_nil x later),
        List.dropLast_cons_of_ne_nil hne]
      simp
    simp [h.undecided x hx] at hd
  subst hlater
  have hlen : (earlier ++ [x]).length = earlier.length + 1 := List.length_append
  refine ⟨hlen, ?_⟩
  rcases h.attempts with hn | hu
  · rw [hn, hlen]
  · have hmem : x.reply ∈ rs := by
      rw [h.replies]
      exact List.mem_map_of_mem (List.mem_filter.mpr ⟨by simp, hin⟩)
    simp [hu x.reply hmem] at hd

theorem findSome?_iff (h : Ended plan limit attempts xs rs) :
    rs.findSome? (decision? plan) = some outcome ↔
      ∃ k reply, Leads plan limit xs k reply ∧ decision? plan reply = some outcome := by
  constructor
  · intro hf
    obtain ⟨reply, hr, hd⟩ := List.exists_of_findSome?_eq_some hf
    rw [h.replies] at hr
    obtain ⟨x, hx, rfl⟩ := List.mem_map.mp hr
    obtain ⟨hx, hin⟩ := List.mem_filter.mp hx
    obtain ⟨last, hlast⟩ : ∃ last, xs = xs.dropLast ++ [last] :=
      ⟨_, (List.dropLast_append_getLast (List.ne_nil_of_mem hx)).symm⟩
    have hu := h.undecided
    generalize xs.dropLast = earlier at hlast hu
    rw [hlast] at hx
    rcases List.mem_append.mp hx with hx | hx
    · simp [hu x hx] at hd
    · obtain rfl := List.mem_singleton.mp hx
      exact ⟨earlier.length, x.reply,
        ⟨earlier, x, [], hlast, rfl, hin, rfl, fun y hy => undecided_iff.mpr (hu y hy)⟩, hd⟩
  · rintro ⟨k, reply, ⟨earlier, x, later, hxs, -, hin, rfl, hu⟩, hd⟩
    have hnone : ((earlier.filter (Exchange.inTime limit)).map Exchange.reply).findSome?
        (decision? plan) = none := by
      refine List.findSome?_eq_none_iff.mpr fun r hr => ?_
      obtain ⟨y, hy, rfl⟩ := List.mem_map.mp hr
      exact undecided_iff.mp (hu y (List.mem_filter.mp hy).1)
    rw [h.replies, hxs, List.filter_append, List.map_append, List.findSome?_append, hnone]
    simp [hin, hd]

theorem conclude_eq_ok_iff (h : Ended plan limit attempts xs rs) :
    conclude plan rs = .ok e ↔ ∃ k es, Leads plan limit xs k (.ok es) ∧
      plan.policy.select (compatibleEntries plan.required es) = some e := by
  have hf : conclude plan rs = .ok e ↔ rs.findSome? (decision? plan) = some (.ok e) := by
    unfold conclude
    cases rs.findSome? (decision? plan) <;> simp
  rw [hf, h.findSome?_iff]
  simp only [decision?_eq_ok_iff]
  constructor
  · rintro ⟨k, _, hk, es, rfl, hs⟩
    exact ⟨k, es, hk, hs⟩
  · rintro ⟨k, es, hk, hs⟩
    exact ⟨k, _, hk, es, rfl, hs⟩

theorem conclude_eq_givingUp_iff (h : Ended plan limit attempts xs rs) :
    (∃ text, conclude plan rs = .error (.lookupFailed (givingUp text))) ↔
      ∃ k code, Leads plan limit xs k (.error (.application code)) ∧ code.isRetryable = false := by
  have hf (text : String) : conclude plan rs = .error (.lookupFailed (givingUp text)) ↔
      rs.findSome? (decision? plan) = some (.error (.lookupFailed (givingUp text))) := by
    unfold conclude
    cases rs.findSome? (decision? plan) with
    | none => simp [failureOf_ne_givingUp]
    | some decision => simp
  simp only [hf, h.findSome?_iff, decision?_eq_error_iff]
  constructor
  · rintro ⟨text, k, _, hk, code, rfl, hcode, -⟩
    exact ⟨k, code, hk, hcode⟩
  · rintro ⟨k, code, hk, hcode⟩
    exact ⟨codeFailure plan code, k, _, hk, code, rfl, hcode, rfl⟩

end Ended

namespace World

variable {w : World}

/-- Nobody has called for a stop. -/
structure Unstopped (w : World) : Prop where
  calls : ∀ c ∈ w.calls, c.isStop = false
  signal : w.shared.stopSignalled = false
  phase : w.shared.phase ≠ .cancelled

namespace Unstopped

theorem step (h : Unstopped w) {a : Action} (ha : ∀ runtime, a ≠ .stop runtime) :
    Unstopped (w.step plan a) := by
  have hm := step_move plan w a
  generalize w.step plan a = after at hm
  cases hm with
  | stop runtime => exact absurd rfl (ha runtime)
  | start runtime =>
    refine ⟨fun c hc => ?_, h.signal, h.phase⟩
    rcases List.mem_append.mp hc with hc | hc
    · exact h.calls c hc
    · rw [List.mem_singleton.mp hc]
      rfl
  | noCall | replyAtOnce | reply | unasked | advance => exact ⟨h.calls, h.signal, h.phase⟩
  | task move =>
    cases move with
    | @close outcome => exact ⟨h.calls, h.signal, by cases outcome <;> simp [endPhase]⟩
    | _ => exact ⟨h.calls, h.signal, h.phase⟩
  | @call i c earlier later after left hc split hs move =>
    have hcall := h.calls c (List.mem_of_getElem? hc)
    have hleft (hl : ∀ rest ∈ left, rest.isStop = false) :
        ∀ c ∈ earlier ++ left.toList ++ later, c.isStop = false := by
      intro c hc
      simp only [List.mem_append, Option.mem_toList] at hc
      rcases hc with (hc | hc) | hc
      · exact h.calls c (by simp [split, hc])
      · exact hl c hc
      · exact h.calls c (by simp [split, hc])
    cases move with
    | accept id => exact ⟨hleft (by simp [Call.isStop]), h.signal, by simp⟩
    | refuse | refused | launch => exact ⟨hleft (by simp [Call.isStop]), h.signal, h.phase⟩
    | signal | late | cancel | stopped => simp [Call.isStop] at hcall

/-- What was not stopped has succeeded or failed when it is over. -/
theorem ended_of_terminal (h : Unstopped w) (hterm : w.shared.phase.isTerminal) :
    w.shared.phase = .succeeded ∨ w.shared.phase = .failed := by
  cases hp : w.shared.phase with
  | succeeded => exact Or.inl rfl
  | failed => exact Or.inr rfl
  | cancelled => exact absurd hp h.phase
  | idle | attempting => simp [hp, Phase.isTerminal] at hterm

theorem init : Unstopped {} := ⟨by simp, rfl, by simp⟩

theorem run (plan : Plan) {actions : List Action} (ha : ∀ runtime, .stop runtime ∉ actions) :
    Unstopped (World.run plan {} actions) := by
  induction actions using List.reverseRecOn with
  | nil => exact init
  | append_singleton actions a ih =>
    rw [run_concat]
    refine (ih fun runtime hr => ha runtime (by simp [hr])).step ?_
    rintro runtime rfl
    exact ha runtime (by simp)

end Unstopped

theorem exists_select_of_conclude {replies : List Reply} (h : conclude plan replies = .ok e) :
    ∃ es, .ok es ∈ replies ∧ plan.policy.select (compatibleEntries plan.required es) = some e := by
  unfold conclude at h
  cases hf : replies.findSome? (decision? plan) with
  | none => simp [hf] at h
  | some decision =>
    obtain rfl : decision = .ok e := by simpa [hf] using h
    obtain ⟨reply, hmem, hdecision⟩ := List.exists_of_findSome?_eq_some hf
    obtain ⟨es, rfl, hselect⟩ := decision?_eq_ok_iff.mp hdecision
    exact ⟨es, hmem, hselect⟩

/-- Whoever is told of a provider is told of one that the policy chose from a list on which the task
acted. -/
theorem selected_of_told (plan : Plan) (actions : List Action) {id : CallId}
    (ho : (id, .ok e) ∈ (World.run plan {} actions).told) :
    ∃ es, .ok es ∈ judged plan {} actions ∧
      plan.policy.select (compatibleEntries plan.required es) = some e := by
  induction actions using List.reverseRecOn with
  | nil => cases ho
  | append_singleton actions a ih =>
    have hreached := (Concludes.run plan actions).reached
    have hkeep (hold : (id, .ok e) ∈ (World.run plan {} actions).told) :
        ∃ es, .ok es ∈ judged plan {} (actions ++ [a]) ∧
          plan.policy.select (compatibleEntries plan.required es) = some e := by
      obtain ⟨es, hmem, hselect⟩ := ih hold
      exact ⟨es, by rw [judged, gather_concat]; exact List.mem_append_left _ hmem, hselect⟩
    rw [run_concat] at ho
    have hm := step_move plan (World.run plan {} actions) a
    generalize (World.run plan {} actions).step plan a = after at hm ho
    cases hm with
    | start | stop | noCall | replyAtOnce | reply | unasked | advance => exact hkeep ho
    | call hc split hs move =>
      cases move with
      | accept | refuse | refused | launch | signal | late | cancel | stopped =>
        exact hkeep (by simpa using ho)
    | task move =>
      cases move with
      | @deliver before outcome ht =>
        rw [told_deliver, List.mem_append] at ho
        rcases ho with ho | ho
        · obtain rfl : outcome = .ok e := by
            obtain ⟨_, -, heq⟩ := List.mem_map.mp ho
            exact (Prod.mk.inj heq).2
          obtain ⟨es, hmem, hselect⟩ :=
            exists_select_of_conclude (hreached (.ok e) (by rw [ht]; rfl)).symm
          exact ⟨es, by rw [judged, gather_concat]; exact List.mem_append_left _ hmem, hselect⟩
        · exact hkeep ho
      | _ => exact hkeep (by simpa using ho)

end World

namespace Clocked

open World

/-- The outcome is what the replies that came before the limit conclude. The first decisive one
decides, and is the last that is asked for. -/
structure DecidedBy (plan : Plan) (limit : Instant) (s : Clocked) (outcome : Outcome) : Prop where
  selected : ∀ e, outcome = .ok e ↔ ∃ k es, Leads plan limit s.exchanges k (.ok es) ∧
    plan.policy.select (compatibleEntries plan.required es) = some e
  winner : ∀ k es e, Leads plan limit s.exchanges k (.ok es) →
    plan.policy.select (compatibleEntries plan.required es) = some e →
    e ∈ es ∧ e.version.serves plan.required ∧
      s.world.shared.attempts = k + 1 ∧ s.exchanges.length = k + 1
  fatal : ∀ k, (∃ text, outcome = .error (.lookupFailed (givingUp text))) ∧
      s.exchanges.length = k + 1 ↔
    ∃ code : ErrorCode, Leads plan limit s.exchanges k (.error (.application code)) ∧
      code.isRetryable = false
  concluded : outcome = conclude plan ((s.exchanges.filter (Exchange.inTime limit)).map
    Exchange.reply)

theorem decidedBy_of_ended {plan : Plan} {limit : Instant} {s : Clocked} {rs : List Reply}
    (h : Ended plan limit s.world.shared.attempts s.exchanges rs) :
    DecidedBy plan limit s (conclude plan rs) where
  selected _ := h.conclude_eq_ok_iff
  winner k es e hlead hs := by
    obtain ⟨hmem, hserves⟩ := Policy.mem_of_select_compatible hs
    obtain ⟨hlen, hattempts⟩ := h.last_of_leads hlead (decision?_eq_ok_iff.mpr ⟨es, rfl, hs⟩)
    exact ⟨hmem, hserves, hattempts, hlen⟩
  fatal k := by
    rw [h.conclude_eq_givingUp_iff]
    have hlast {j : Nat} {code : ErrorCode}
        (hlead : Leads plan limit s.exchanges j (.error (.application code)))
        (hcode : code.isRetryable = false) : s.exchanges.length = j + 1 :=
      (h.last_of_leads hlead (decision?_eq_error_iff.mpr ⟨code, rfl, hcode, rfl⟩)).1
    constructor
    · rintro ⟨⟨j, code, hlead, hcode⟩, hlen⟩
      have hj := hlast hlead hcode
      obtain rfl : j = k := by omega
      exact ⟨code, hlead, hcode⟩
    · rintro ⟨code, hlead, hcode⟩
      exact ⟨⟨k, code, hlead, hcode⟩, hlast hlead hcode⟩
  concluded := congrArg (conclude plan) h.replies

/-- In a timely run that nobody stops, the caller of the accepted start is told what the replies
conclude, as soon as the task is done. -/
theorem decided_of_finished {plan : Plan} {service : Service} {actions : List Action}
    (timely : Timely { plan, service } actions) (unstopped : ∀ runtime, .stop runtime ∉ actions)
    (finished : (Clocked.run { plan, service } actions).world.task = .finished) :
    let s := Clocked.run { plan, service } actions
    ∃ start id outcome, s.world.shared.startedAt = some start ∧
      accepted plan {} actions = [id] ∧ s.world.answersTo id = [outcome] ∧
      DecidedBy plan (Arbitration.deadline plan start) s outcome := by
  intro s
  have hworld : s.world = World.run plan {} actions := run_world _ actions
  rw [hworld] at finished
  have hu := Unstopped.run plan unstopped
  have hterm := ((Keeps.run plan actions).left finished).resolve_right (by simp [hu.signal])
  obtain ⟨start, id, hstart, hid, hans, hended⟩ :=
    told_of_settled timely (hu.ended_of_terminal hterm) (by simp [finished])
  exact ⟨start, id, _, hstart, hid, hans, decidedBy_of_ended hended⟩

/-- The first decisive reply decides every arbitration that nobody stops, and nothing else does. -/
theorem first_decisive_reply_decides (plan : Plan) (service : Service) :
    (∀ actions, Timely { plan, service } actions → (∀ runtime, .stop runtime ∉ actions) →
      let s := Clocked.run { plan, service } actions
      s.world.task = .finished → ∃ start id outcome, s.world.shared.startedAt = some start ∧
        accepted plan {} actions = [id] ∧ s.world.answersTo id = [outcome] ∧
        DecidedBy plan (Arbitration.deadline plan start) s outcome) ∧
    -- Played through, an arbitration ends that way as long as its attempts can be counted.
    ∀ time, (∀ k query, ¬(service k query).stops ∧ ¬(service k query).stopsWhenShown) →
      let result := (Session.fresh plan service time).arbitrate none
      result.1.world.task = .overflowed ∨ ∃ start outcome,
        result.1.world.shared.startedAt = some start ∧ result.2 = some outcome ∧
        DecidedBy plan (Arbitration.deadline plan start) result.1.toClocked outcome := by
  constructor
  · intro actions timely unstopped s finished
    exact decided_of_finished timely unstopped finished
  · intro time calm
    have hends := Session.arbitrate_ends plan service time none
    generalize (Session.fresh plan service time).arbitrate none = result at hends ⊢
    obtain ⟨more, timely, hstop, hs, hend⟩ := hends
    refine hend.imp_right ?_
    rintro ⟨ht, outcome, houtcome, hans⟩
    have unstopped : ∀ runtime, .stop runtime ∉ Session.opening time ++ more := by
      intro runtime hmem
      rcases List.mem_append.mp hmem with hmem | hmem
      · simp [Session.opening] at hmem
      · obtain hnone | ⟨k, query, hstops⟩ := hstop ⟨runtime, hmem⟩
        · exact hnone rfl
        · exact hstops.elim (calm k query).1 (calm k query).2
    obtain ⟨start, id, told, hstart, hid, htold, hdecided⟩ :=
      decided_of_finished timely unstopped (by rwa [← hs])
    have h0 : 0 ∈ accepted plan {} (Session.opening time ++ more) := by
      rw [accepted, gather_append]
      exact List.mem_append_left _ (by rw [← accepted, Session.accepted_opening]; simp)
    obtain rfl : 0 = id := by simpa [hid] using h0
    rw [← hs] at hstart htold hdecided
    obtain rfl : outcome = told := by simpa [hans] using htold
    exact ⟨start, outcome, hstart, houtcome, hdecided⟩

/-- A service that knows of nothing at first, and takes its time after that. -/
def lateRadio : Service := fun k _ =>
  if k = 0 then { reply := .ok [] } else { reply := .ok [radio], delay := some (.ofMillis 20) }

/-- The second attempt succeeds, twenty milliseconds after it began. -/
def secondAttempt : List Action :=
  [.start true, .call 0, .call 0, .task, .task, .reply (.ok []), .task, .task,
   .advance (.ofMillis 100), .task, .task, .task, .task, .advance (.ofMillis 20),
   .reply (.ok [radio]), .task, .task, .task, .task, .task]

theorem second_reply_decides :
    (Clocked.run { plan := twoAttempts, service := lateRadio } secondAttempt).world.answersTo 0 =
      [.ok radio] := by
  have timely : Timely { plan := twoAttempts, service := lateRadio } secondAttempt := by
    decide +kernel
  have unstopped : ∀ runtime, .stop runtime ∉ secondAttempt := by
    simp [secondAttempt]
  have finished : (Clocked.run { plan := twoAttempts, service := lateRadio }
      secondAttempt).world.task = .finished := by rfl
  obtain ⟨start, id, outcome, hstart, hid, hans, hdecided⟩ :=
    (first_decisive_reply_decides twoAttempts lateRadio).1 secondAttempt timely unstopped finished
  obtain rfl : 0 = id := by
    have haccepted : accepted twoAttempts {} secondAttempt = [0] := by rfl
    simpa [haccepted] using hid
  obtain rfl : .zero = start := Option.some.inj hstart
  obtain ⟨x, y, hxs, hx, hin, hy⟩ : ∃ x y,
      (Clocked.run { plan := twoAttempts, service := lateRadio } secondAttempt).exchanges = [x, y] ∧
        x.reply = .ok [] ∧ y.inTime (Arbitration.deadline twoAttempts .zero) ∧
        y.reply = .ok [radio] :=
    ⟨_, _, rfl, rfl, by decide +kernel, rfl⟩
  have hlead : Leads twoAttempts (Arbitration.deadline twoAttempts .zero) [x, y] 1 (.ok [radio]) :=
    ⟨[x], y, [], rfl, rfl, hin, hy, by simpa [hx] using .empty⟩
  rw [hans, (hdecided.selected radio).mpr ⟨1, [radio], hxs ▸ hlead, by rfl⟩]

end Clocked

end Arbiter.Arbitration
