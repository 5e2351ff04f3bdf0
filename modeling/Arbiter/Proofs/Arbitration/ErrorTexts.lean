import Arbiter.Proofs.Arbitration.Decisive

/-!
Error codes are sent as texts. Two texts say that a later lookup may fare better; any other, known or
not, ends the arbitration at once.
-/

namespace Arbiter

namespace Discovery.ErrorCode

/-- The texts of the errors after which another attempt is made. -/
def retryableTexts : List String := ["NO_ENTRY_FOR_PARTICIPANT", "NO_ENTRY_FOR_SELECTED_BACKENDS"]

theorem toString_ofText (text : String) : (ofText text).toString = text := by
  unfold ofText
  split <;> rfl

theorem isRetryable_ofText (text : String) :
    (ofText text).isRetryable ↔ text ∈ retryableTexts := by
  simp only [retryableTexts, List.mem_cons, List.not_mem_nil, or_false]
  unfold ofText
  split
  case h_6 hparticipant hbackends _ _ _ =>
    exact iff_of_false Bool.false_ne_true (not_or.mpr ⟨hparticipant, hbackends⟩)
  all_goals simp [isRetryable]

end Discovery.ErrorCode

namespace Arbitration

open Discovery

/-- What is told when a lookup failed with a code of that text that is not to be retried. -/
def abortMessage (plan : Plan) (text : String) : String :=
  "Unable to lookup provider (" ++ plan.target.toString ++ ", gbids: [" ++
    Text.join ", " plan.gbids ++ "]) from discovery. Error: " ++ "DiscoveryError: " ++ text ++
    ", giving up."

theorem givingUp_codeFailure (plan : Plan) (text : String) :
    givingUp (codeFailure plan (.ofText text)) = abortMessage plan text := by
  have hassoc (front : String) :
      front ++ "DiscoveryError: " ++ text = front ++ ("DiscoveryError: " ++ text) :=
    String.append_assoc
  unfold givingUp codeFailure lookupFailure abortMessage
  rw [ErrorCode.toString_ofText, hassoc]

/-- The reply to the lookup of that number comes at that time, which is before the deadline. -/
def RepliedAt (plan : Plan) (service : Service) (w : World) (k : Nat) (reply : Reply)
    (time : Instant) : Prop :=
  ∃ query asked delay, w.lookups[k]? = some (query, asked) ∧
    (service k query).delay = some delay ∧ (service k query).reply = reply ∧
    (asked + delay).ceilMillis = time ∧ time < w.deadline plan

/-- No lookup is made after the one of that number, and once the arbitration is over, the accepted
start was told of the failure when the reply came. -/
structure AbortedAt (plan : Plan) (acc : List CallId) (w : World) (k : Nat) (time : Instant)
    (text : String) : Prop where
  last : w.lookups.length = k + 1
  told : w.IsOver → ∃ id, acc = [id] ∧
    w.toldAt id = [(.error (.lookupFailed (abortMessage plan text)), some time)]

/-- The next lookup was made a retry interval after the reply, if that was before the deadline, and
otherwise the time ran out. -/
structure RetriedAt (plan : Plan) (acc : List CallId) (w : World) (k : Nat) (time : Instant) :
    Prop where
  again : (time + plan.request.retryInterval).ceilMillis < w.deadline plan →
    ∃ query, w.lookups[k + 1]? = some (query, (time + plan.request.retryInterval).ceilMillis)
  ranOut : w.deadline plan ≤ (time + plan.request.retryInterval).ceilMillis →
    w.lookups.length = k + 1 ∧ ∃ id failure moment, acc = [id] ∧
      w.toldAt id = [(.error failure, some moment)] ∧ GaveUp plan failure

namespace Clocked

open World

section Replied

variable {s : Clocked} {acc : List CallId} {k : Nat} {time : Instant} {code : ErrorCode}
  (h : OnTimetable acc s)
  (replied : RepliedAt s.plan s.service s.world k (.error (.application code)) time)
include h replied

/-- The attempt that was replied to, on the timetable. -/
theorem exchange_of_repliedAt : ∃ t, s.timetable.attempt? k = some t ∧ k < s.world.lookups.length ∧
    (s.timetable.exchange k t).arrival? = some time ∧ time < s.timetable.limit ∧
    (s.timetable.exchange k t).reply = .error (.application code) := by
  obtain ⟨query, asked, delay, hlookup, hdelay, hreply, harrival, inTime⟩ := replied
  obtain ⟨begun, hquery⟩ := h.attempt?_of_lookup hlookup
  have hanswer : (s.timetable.exchange k asked).answer = s.service k query :=
    congrArg (s.service k) hquery.symm
  refine ⟨asked, begun, (List.getElem?_eq_some_iff.mp hlookup).1, ?_, inTime, ?_⟩
  · rw [Exchange.arrival?, hanswer, hdelay, Option.map_some]
    exact congrArg some harrival
  · rw [Exchange.reply, hanswer, hreply]

theorem decides_of_fatal (fatal : code.isRetryable = false) : s.timetable.Decides k time
    (.error (.lookupFailed (givingUp (codeFailure s.plan code)))) := by
  obtain ⟨t, begun, hasked, arrived, inTime, hreply⟩ := exchange_of_repliedAt h replied
  refine ⟨t, begun, Nat.lt_of_le_of_lt hasked h.few, arrived, inTime, ?_⟩
  rw [hreply, decision?_application, fatal, if_neg Bool.false_ne_true]
  rfl

/-- A code that is not to be retried ends the arbitration with its reply. -/
theorem aborted_of_fatal (fatal : code.isRetryable = false) :
    s.world.lookups.length = k + 1 ∧ (Resolution acc s → ∃ id, acc = [id] ∧
      s.world.toldAt id = [(.error (.lookupFailed (givingUp (codeFailure s.plan code))),
        some time)]) := by
  have hd := decides_of_fatal h replied fatal
  obtain ⟨t, begun, hasked, -⟩ := exchange_of_repliedAt h replied
  constructor
  · refine Nat.le_antisymm (Nat.le_of_not_lt fun hlater => ?_) hasked
    obtain ⟨begun', -⟩ := h.attempt?_of_lookup (List.getElem?_eq_getElem hlater)
    cases hd.no_attempt_after.symm.trans begun'
  · intro ends
    cases ends with
    | decided accepted decides _ told =>
      obtain ⟨-, rfl, rfl⟩ := decides.unique hd
      exact ⟨_, accepted, told⟩
    | gaveUp _ _ undecided => exact absurd hd (undecided _ _ _)
    | uncountable ends => cases (ends.unique hd.ends).2

section Retryable

variable (retryable : code.isRetryable)
include retryable

theorem undecided_of_retryable {t : Instant} (begun : s.timetable.attempt? k = some t) :
    decision? s.plan (s.timetable.exchange k t).reply = none := by
  obtain ⟨t', begun', -, -, -, hreply⟩ := exchange_of_repliedAt h replied
  obtain rfl := Option.some.inj (begun'.symm.trans begun)
  rw [hreply, decision?_application, if_pos retryable]

theorem attempt_after_retryable : s.timetable.attempt? (k + 1) =
    if s.plan.request.retryInterval < s.timetable.limit - time then
      some (time + s.plan.request.retryInterval).ceilMillis
    else none := by
  obtain ⟨t, begun, -, arrived, inTime, -⟩ := exchange_of_repliedAt h replied
  have undecided := undecided_of_retryable h replied retryable begun
  rw [Timetable.attempt?, begun, Option.bind_some, Exchange.following?, arrived, Option.bind_some]
  refine if_congr ?_ rfl rfl
  exact ⟨fun hcond => hcond.2.2, fun hlt => ⟨inTime, undecided, hlt⟩⟩

theorem asks_after_retryable_iff (countable : k + 2 < attemptLimit) :
    s.timetable.Asks (k + 1) ↔
      (time + s.plan.request.retryInterval).ceilMillis < s.timetable.limit := by
  have hattempt := attempt_after_retryable h replied retryable
  constructor
  · rintro ⟨t, begun, inTime, -⟩
    rw [hattempt] at begun
    split_ifs at begun
    exact Option.some.inj begun ▸ inTime
  · intro inTime
    have htime : s.plan.request.retryInterval < s.timetable.limit - time :=
      Duration.lt_sub_of_add_lt (lt_of_le_of_lt (Duration.le_ceilMillis _) inTime)
    rw [if_pos htime] at hattempt
    exact ⟨_, hattempt, inTime, countable⟩

/-- After a code that is to be retried, the next lookup is made if it comes before the deadline, and
the time runs out otherwise. -/
theorem retried_of_retryable (resolution : Resolution acc s) (countable : k + 2 < attemptLimit) :
    RetriedAt s.plan acc s.world k time := by
  obtain ⟨_, -, hasked, -⟩ := exchange_of_repliedAt h replied
  obtain ⟨_, ends⟩ := resolution.ends
  have hasks := asks_after_retryable_iff h replied retryable countable
  rw [ends.asks_iff] at hasks
  constructor
  · intro inTime
    have hlookup := List.getElem?_eq_getElem (hasks.mpr inTime)
    obtain ⟨begun', -⟩ := h.attempt?_of_lookup hlookup
    rw [attempt_after_retryable h replied retryable] at begun'
    split_ifs at begun'
    exact ⟨_, hlookup.trans (congrArg some (Prod.ext rfl (Option.some.inj begun').symm))⟩
  · intro late
    have hlength : s.world.lookups.length = k + 1 :=
      Nat.le_antisymm (Nat.le_of_not_lt fun hlt => not_lt_of_ge late (hasks.mp hlt)) hasked
    refine ⟨hlength, ?_⟩
    cases resolution with
    | decided _ decides count =>
      obtain rfl := Nat.succ.inj (hlength.symm.trans count)
      obtain ⟨t, begun, -, -, -, decided⟩ := decides
      cases (undecided_of_retryable h replied retryable begun).symm.trans decided
    | gaveUp accepted _ _ told failed => exact ⟨_, _, _, accepted, told, failed⟩
    | uncountable ends =>
      rw [hlength] at ends
      cases ends with
      | uncountable _ all => omega

end Retryable

end Replied

/-- The text of an error decides in every timely run that nobody stops. -/
theorem run_decided_by_text {plan : Plan} {service : Service} {actions : List Action}
    (timely : Timely { plan, service } actions) (unstopped : ∀ runtime, .stop runtime ∉ actions)
    {k : Nat} {time : Instant} {text : String}
    (replied : RepliedAt plan service (World.run plan {} actions) k
      (.error (.application (.ofText text))) time) :
    (text ∈ ErrorCode.retryableTexts → k + 2 < attemptLimit → (World.run plan {} actions).IsOver →
      RetriedAt plan (accepted plan {} actions) (World.run plan {} actions) k time) ∧
    (text ∉ ErrorCode.retryableTexts →
      AbortedAt plan (accepted plan {} actions) (World.run plan {} actions) k time text) := by
  have hworld : (Clocked.run { plan, service } actions).world = World.run plan {} actions :=
    run_world _ actions
  have hplan : (Clocked.run { plan, service } actions).plan = plan := run_plan _ actions
  have hservice : (Clocked.run { plan, service } actions).service = service := run_service _ actions
  have h := OnTimetable.run timely unstopped
  have hends := resolution_of_over timely unstopped
  have hretryable := ErrorCode.isRetryable_ofText text
  rw [← hworld] at replied ⊢
  generalize Clocked.run { plan, service } actions = s at h hends hplan hservice replied ⊢
  subst hplan hservice
  constructor
  · intro hmem countable hover
    exact retried_of_retryable h replied (hretryable.mpr hmem) (hends hover) countable
  · intro hmem
    have fatal : (ErrorCode.ofText text).isRetryable = false :=
      Bool.eq_false_iff.mpr (hretryable.not.mpr hmem)
    obtain ⟨last, told⟩ := aborted_of_fatal h replied fatal
    rw [givingUp_codeFailure] at told
    exact ⟨last, fun hover => told (hends hover)⟩

/-- The text of an error decides whether an attempt is repeated. After two texts it is, a retry
interval later, and any other ends the arbitration at the reply. -/
theorem error_text_decides_retry (plan : Plan) (service : Service) (text : String) :
    (ErrorCode.ofText text).toString = text ∧
    ((ErrorCode.ofText text).isRetryable ↔
      text = "NO_ENTRY_FOR_PARTICIPANT" ∨ text = "NO_ENTRY_FOR_SELECTED_BACKENDS") ∧
    -- The retry is left out if the time runs out before.
    (∀ actions, Timely { plan, service } actions → (∀ runtime, .stop runtime ∉ actions) →
      let w := World.run plan {} actions
      ∀ k time, RepliedAt plan service w k (.error (.application (.ofText text))) time →
        (text ∈ ErrorCode.retryableTexts → k + 2 < attemptLimit → w.IsOver →
          RetriedAt plan (accepted plan {} actions) w k time) ∧
        (text ∉ ErrorCode.retryableTexts →
          AbortedAt plan (accepted plan {} actions) w k time text)) ∧
    ∀ start, (∀ k query, (service k query).stops = false ∧ (service k query).stopsWhenShown = false) →
      let result := (Session.fresh plan service start).arbitrate none
      ∀ k time, RepliedAt plan service result.1.world k (.error (.application (.ofText text))) time →
        (text ∈ ErrorCode.retryableTexts → k + 2 < attemptLimit →
          RetriedAt plan [0] result.1.world k time) ∧
        (text ∉ ErrorCode.retryableTexts →
          AbortedAt plan [0] result.1.world k time text ∧
            result.2 = some (.error (.lookupFailed (abortMessage plan text)))) := by
  refine ⟨ErrorCode.toString_ofText text, ?_, ?_, ?_⟩
  · rw [ErrorCode.isRetryable_ofText, ErrorCode.retryableTexts, List.mem_pair]
  · intro actions timely unstopped w k time replied
    exact run_decided_by_text timely unstopped replied
  · intro start calm
    have hplayed := Session.arbitrate_over plan start calm
    generalize (Session.fresh plan service start).arbitrate none = result at hplayed ⊢
    obtain ⟨actions, timely, unstopped, hworld, -, hacc, hover, houtcome⟩ := hplayed
    intro _ k time replied
    rw [hworld] at replied
    obtain ⟨retried, aborted⟩ := run_decided_by_text timely unstopped replied
    rw [hacc, ← hworld] at retried aborted
    rw [← hworld] at hover
    refine ⟨fun hmem countable => retried hmem countable hover, fun hmem => ⟨aborted hmem, ?_⟩⟩
    obtain ⟨id, hid, told⟩ := (aborted hmem).told hover
    obtain rfl := List.singleton_inj.mp hid
    exact houtcome _ _ told

/-- A service that knows of no such participant, and puts a blank before its code from the second
lookup on. -/
def blankBeforeCode : Service := fun k _ =>
  let text := if k = 0 then "NO_ENTRY_FOR_PARTICIPANT" else " NO_ENTRY_FOR_PARTICIPANT"
  { reply := .error (.application (.ofText text)) }

/-- The code as it should be is retried, and with the blank it is not. -/
theorem blankBeforeCode_aborts :
    let result := (Session.fresh twoAttempts blankBeforeCode 0).arbitrate none
    RetriedAt twoAttempts [0] result.1.world 0 .zero ∧
      AbortedAt twoAttempts [0] result.1.world 1 (.ofMillis 100) " NO_ENTRY_FOR_PARTICIPANT" ∧
      result.2 = some (.error (.lookupFailed
        (abortMessage twoAttempts " NO_ENTRY_FOR_PARTICIPANT"))) := by
  intro result
  have calm : ∀ k query, (blankBeforeCode k query).stops = false ∧
      (blankBeforeCode k query).stopsWhenShown = false := fun _ _ => ⟨rfl, rfl⟩
  have first : RepliedAt twoAttempts blankBeforeCode result.1.world 0
      (.error (.application (.ofText "NO_ENTRY_FOR_PARTICIPANT"))) .zero :=
    ⟨queryOf twoAttempts (.ofMillis 150), .zero, .zero, by decide +kernel, rfl, rfl, rfl,
      by decide +kernel⟩
  have second : RepliedAt twoAttempts blankBeforeCode result.1.world 1
      (.error (.application (.ofText " NO_ENTRY_FOR_PARTICIPANT"))) (.ofMillis 100) :=
    ⟨queryOf twoAttempts (.ofMillis 50), .ofMillis 100, .zero, by decide +kernel, rfl, rfl, rfl,
      by decide +kernel⟩
  obtain ⟨-, -, -, hretryable⟩ :=
    error_text_decides_retry twoAttempts blankBeforeCode "NO_ENTRY_FOR_PARTICIPANT"
  obtain ⟨-, -, -, hother⟩ :=
    error_text_decides_retry twoAttempts blankBeforeCode " NO_ENTRY_FOR_PARTICIPANT"
  have few : 0 + 2 < attemptLimit := by decide +kernel
  exact ⟨(hretryable 0 calm 0 .zero first).1 (by decide) few,
    (hother 0 calm 1 (.ofMillis 100) second).2 (by decide)⟩

end Clocked

end Arbitration

end Arbiter
