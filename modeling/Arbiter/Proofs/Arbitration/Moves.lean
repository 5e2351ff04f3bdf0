import Arbiter.Arbitration.World
import Mathlib.Data.List.Induction

/-!
What one step can do to a world, said once for all invariants: each kind of step, with its guards and
the world it leaves.
-/

namespace Arbiter.Arbitration

open Discovery

/-- Whether the task leaves its work at this place once a stop is signalled. -/
def Task.heedsStops : Task → Bool
  | polling .. | checking .. | pausing _ => true
  | _ => false

namespace World

variable {plan : Plan} {w : World}

/-- The next step of a call, with the world and what is left of the call afterwards. -/
inductive CallMove (plan : Plan) (w : World) : Call → World → Option Call → Prop where
  | accept (id : CallId) (idle : w.shared.phase = .idle) :
    CallMove plan w (.starting id true)
      { w with shared := { w.shared with
          phase := .attempting, answerTo := some id, startedAt := some w.now } }
      (some (.accepted id))
  | refuse (id : CallId) (runtime : Bool) (reason : Failure)
      (refusal : runtime = false ∧ reason = .noRuntime ∨
        w.shared.phase = .cancelled ∧ reason = .cancelled plan.target.interface ∨
        w.shared.phase ≠ .idle ∧ w.shared.phase ≠ .cancelled ∧ reason = .alreadyStarted) :
    CallMove plan w (.starting id runtime) w (some (.refused id reason runtime))
  | refused (id : CallId) (reason : Failure) (runtime : Bool) :
    CallMove plan w (.refused id reason runtime)
      (w.emit (w.answer (some id) (.error reason) runtime)) none
  | launch (id : CallId) :
    CallMove plan w (.accepted id)
      ({ w with task := .beginning }.emit
        [.event (.started plan.target.toString (strategyWord plan) plan.required.toString
            plan.request.timeout.millis),
         .counted (.started (strategyWord plan))]) none
  | signal (runtime : Bool) :
    CallMove plan w (.stopping runtime)
      { w with shared := { w.shared with stopSignalled := true } } (some (.signalled runtime))
  | late (runtime : Bool) (ended : w.shared.phase.isTerminal) :
    CallMove plan w (.signalled runtime) w none
  | cancel (runtime : Bool) (going : w.shared.phase.isTerminal = false) :
    CallMove plan w (.signalled runtime)
      { w with shared := { w.shared with phase := .cancelled, answerTo := none } }
      (some (.stopped w.shared runtime))
  | stopped (before : Shared) (runtime : Bool) :
    CallMove plan w (.stopped before runtime)
      (w.emit
        ([.event (.cancelled plan.target.interface before.attempts)] ++
         (if before.startedAt.isSome then countOutcome "cancelled" else []) ++
         w.answer before.answerTo (.error (.cancelled plan.target.interface)) runtime)) none

theorem callStep_move (plan : Plan) (w : World) (c : Call) :
    CallMove plan w c (w.callStep plan c).1 (w.callStep plan c).2 := by
  cases c with
  | starting id runtime =>
    cases runtime with
    | false => exact .refuse id false .noRuntime (Or.inl ⟨rfl, rfl⟩)
    | true =>
      cases hp : w.shared.phase with
      | idle =>
        have hm : CallMove plan w (.starting id true) _ _ := .accept id hp
        simpa [callStep, Shared.start, hp] using hm
      | cancelled =>
        have hm : CallMove plan w (.starting id true) _ _ :=
          .refuse id true _ (Or.inr (Or.inl ⟨hp, rfl⟩))
        simpa [callStep, Shared.start, hp] using hm
      | attempting | succeeded | failed =>
        have hm : CallMove plan w (.starting id true) _ _ :=
          .refuse id true .alreadyStarted (Or.inr (Or.inr ⟨by simp [hp], by simp [hp], rfl⟩))
        simpa [callStep, Shared.start, hp] using hm
  | refused id reason runtime => exact .refused id reason runtime
  | accepted id => exact .launch id
  | stopping runtime => exact .signal runtime
  | signalled runtime =>
    cases ht : w.shared.phase.isTerminal with
    | true =>
      have hm : CallMove plan w (.signalled runtime) _ _ := .late runtime ht
      simpa [callStep, Shared.stop, ht] using hm
    | false =>
      have hm : CallMove plan w (.signalled runtime) _ _ := .cancel runtime ht
      simpa [callStep, Shared.stop, ht] using hm
  | stopped before runtime => exact .stopped before runtime

inductive TaskMove (plan : Plan) (w : World) : World → Prop where
  | wait (early : ∀ due ∈ w.taskDue plan, w.now < due) : TaskMove plan w w
  | begin (ht : w.task = .beginning) (countable : w.shared.attempts + 1 < attemptLimit) :
    TaskMove plan w
      ({ w with
        shared := { w.shared with attempts := w.shared.attempts + 1 }
        task := .polling (w.shared.attempts + 1) (.due (w.remaining plan)) }.emit
        [.counted (.attempts (strategyWord plan))])
  | overflow (ht : w.task = .beginning) (uncountable : attemptLimit ≤ w.shared.attempts + 1) :
    TaskMove plan w { w with task := .overflowed }
  | leave (heeding : w.task.heedsStops) (stopped : w.shared.stopSignalled) :
    TaskMove plan w { w with task := .finished }
  | expire {attempt lookup} (ht : w.task = .polling attempt lookup)
      (unstopped : w.shared.stopSignalled = false) (elapsed : w.deadline plan ≤ w.now) :
    TaskMove plan w { w with task := .closing (.error (giveUp plan w.shared)) }
  | ask {attempt remaining} (ht : w.task = .polling attempt (.due remaining))
      (unstopped : w.shared.stopSignalled = false) (inTime : w.now < w.deadline plan) :
    TaskMove plan w
      ({ w with
        task := .asking attempt
          { target := plan.target, qos := plan.request.lookupQos remaining, gbids := plan.gbids }
        }.emit
        [.lookup
          { target := plan.target, qos := plan.request.lookupQos remaining, gbids := plan.gbids }
          w.now])
  | pend {attempt query} (ht : w.task = .asking attempt query) :
    TaskMove plan w { w with task := .polling attempt .outstanding }
  | take {attempt reply} (ht : w.task = .polling attempt (.replied reply))
      (unstopped : w.shared.stopSignalled = false) (inTime : w.now < w.deadline plan) :
    TaskMove plan w { w with task := .checking attempt reply }
  | check {attempt reply} (ht : w.task = .checking attempt reply)
      (unstopped : w.shared.stopSignalled = false) :
    TaskMove plan w { w with task := .judging attempt reply }
  | select {attempt reply e} (ht : w.task = .judging attempt reply)
      (hj : Arbitration.judge plan reply = .selected e) :
    TaskMove plan w
      { w with
        shared := { w.shared with incompatible := remember plan reply w.shared.incompatible }
        task := .closing (.ok e) }
  | abort {attempt reply text} (ht : w.task = .judging attempt reply)
      (hj : Arbitration.judge plan reply = .fatal text) :
    TaskMove plan w
      ({ w with
        shared := { w.shared with incompatible := remember plan reply w.shared.incompatible }
        task := .closing (.error (.lookupFailed text)) }.emit
        [.event (.attemptFailed attempt text false)])
  | retry {attempt reply cause} (ht : w.task = .judging attempt reply)
      (hj : Arbitration.judge plan reply = .retry cause)
      (hr : plan.request.retryInterval < w.remaining plan) :
    TaskMove plan w
      ({ w with
        shared := { w.shared with
          incompatible := remember plan reply w.shared.incompatible, lastCause := some cause }
        task := .pausing (w.now + plan.request.retryInterval) }.emit
        [.event (.attemptFailed attempt (causeText plan cause) true)])
  | abandon {attempt reply cause} (ht : w.task = .judging attempt reply)
      (hj : Arbitration.judge plan reply = .retry cause)
      (hr : w.remaining plan ≤ plan.request.retryInterval) :
    TaskMove plan w
      ({ w with
        shared := { w.shared with
          incompatible := remember plan reply w.shared.incompatible, lastCause := some cause }
        task := .closing (.error (giveUp plan { w.shared with
          incompatible := remember plan reply w.shared.incompatible, lastCause := some cause }))
        }.emit
        [.event (.attemptFailed attempt (causeText plan cause) true)])
  | wake {time} (ht : w.task = .pausing time) (unstopped : w.shared.stopSignalled = false)
      (elapsed : time ≤ w.now) :
    TaskMove plan w { w with task := .beginning }
  | late {outcome} (ht : w.task = .closing outcome) (ended : w.shared.phase.isTerminal) :
    TaskMove plan w { w with task := .finished }
  | close {outcome} (ht : w.task = .closing outcome)
      (going : w.shared.phase.isTerminal = false) :
    TaskMove plan w
      { w with
        shared := { w.shared with phase := endPhase outcome, answerTo := none }
        task := .delivering w.shared outcome }
  | deliver {before outcome} (ht : w.task = .delivering before outcome) :
    TaskMove plan w (w.deliver before outcome)

theorem poll_move {attempt : Nat} {lookup : Lookup} (ht : w.task = .polling attempt lookup) :
    TaskMove plan w (w.poll plan attempt lookup) := by
  unfold poll
  split_ifs with hs hd
  · exact .leave (by simp [ht, Task.heedsStops]) hs
  · exact .expire ht (by simpa using hs) hd
  · have unstopped : w.shared.stopSignalled = false := by simpa using hs
    have inTime : w.now < w.deadline plan := Nat.lt_of_not_le hd
    cases lookup with
    | due remaining => exact .ask ht unstopped inTime
    | outstanding =>
      refine .wait fun due hdue => ?_
      have : w.deadline plan = due := by simpa [taskDue, ht, unstopped] using hdue
      exact this ▸ inTime
    | replied reply => exact .take ht unstopped inTime

theorem judge_move {attempt : Nat} {reply : Reply} (ht : w.task = .judging attempt reply) :
    TaskMove plan w (w.judge plan attempt reply) := by
  unfold judge
  cases hj : Arbitration.judge plan reply with
  | selected e => exact .select ht hj
  | fatal text => exact .abort ht hj
  | retry cause =>
    dsimp only
    unfold pauseOrGiveUp
    split_ifs with hr
    · exact .abandon ht hj hr
    · exact .retry ht hj (Nat.lt_of_not_le hr)

theorem taskStep_move (plan : Plan) (w : World) : TaskMove plan w (w.taskStep plan) := by
  unfold taskStep
  cases ht : w.task with
  | absent | finished | overflowed => exact .wait (by simp [taskDue, ht])
  | beginning =>
    dsimp only [beginAttempt]
    split_ifs with hc
    · exact .begin ht hc
    · exact .overflow ht (Nat.le_of_not_lt hc)
  | polling attempt lookup => exact poll_move ht
  | asking attempt query => exact .pend ht
  | checking attempt reply =>
    dsimp only
    split_ifs with hs
    · exact .leave (by simp [ht, Task.heedsStops]) hs
    · exact .check ht (by simpa using hs)
  | judging attempt reply => exact judge_move ht
  | pausing time =>
    dsimp only
    split_ifs with hs hw
    · exact .leave (by simp [ht, Task.heedsStops]) hs
    · exact .wake ht (by simpa using hs) hw
    · refine .wait fun due hdue => ?_
      have : time = due := by simpa [taskDue, ht, hs] using hdue
      exact this ▸ Nat.lt_of_not_le hw
  | closing outcome =>
    cases he : w.shared.phase.isTerminal with
    | true => simpa [Shared.finish, he] using TaskMove.late ht he
    | false =>
      have hm : TaskMove plan w _ := .close ht he
      simpa [Shared.finish, he] using hm
  | delivering before outcome => exact .deliver ht

/-- The task neither makes time pass nor answers for any call, and the start stays. -/
theorem TaskMove.frame {after : World} (hm : TaskMove plan w after) :
    after.now = w.now ∧ after.calls = w.calls ∧ after.shared.startedAt = w.shared.startedAt := by
  cases hm <;> exact ⟨rfl, rfl, rfl⟩

/-- Where the task waits for nothing, it does nothing. -/
theorem TaskMove.eq_self {after : World} (hm : TaskMove plan w after)
    (hdue : w.taskDue plan = none) : after = w := by
  cases hm with
  | wait => rfl
  | leave heeding stopped =>
    cases ht : w.task with
    | polling attempt lookup => cases lookup <;> simp [taskDue, ht, stopped] at hdue
    | checking | pausing => simp [taskDue, ht, stopped] at hdue
    | _ => simp [ht, Task.heedsStops] at heeding
  | @expire attempt lookup ht unstopped =>
    cases lookup <;> simp [taskDue, ht, unstopped] at hdue
  | wake ht unstopped => simp [taskDue, ht, unstopped] at hdue
  | begin ht | overflow ht | ask ht | pend ht | take ht | check ht | select ht | abort ht
  | retry ht | abandon ht | late ht | close ht | deliver ht => simp [taskDue, ht] at hdue

inductive Move (plan : Plan) (w : World) : Action → World → Prop where
  | start (runtime : Bool) :
    Move plan w (.start runtime)
      { w with calls := w.calls ++ [.starting w.starts runtime], starts := w.starts + 1 }
  | stop (runtime : Bool) :
    Move plan w (.stop runtime) { w with calls := w.calls ++ [.stopping runtime] }
  | call {i c earlier later after left} (hc : w.calls[i]? = some c)
      (split : w.calls = earlier ++ c :: later) (step : w.callStep plan c = (after, left))
      (move : CallMove plan w c after left) :
    Move plan w (.call i) { after with calls := earlier ++ left.toList ++ later }
  | noCall {i} (hc : w.calls[i]? = none) : Move plan w (.call i) w
  | task {after} (move : TaskMove plan w after) : Move plan w .task after
  | replyAtOnce {attempt query} (reply : Reply) (ht : w.task = .asking attempt query) :
    Move plan w (.reply reply) { w with task := .checking attempt reply }
  | reply {attempt} (reply : Reply) (ht : w.task = .polling attempt .outstanding) :
    Move plan w (.reply reply) { w with task := .polling attempt (.replied reply) }
  | unasked (reply : Reply) (ha : ∀ attempt query, w.task ≠ .asking attempt query)
      (ho : ∀ attempt, w.task ≠ .polling attempt .outstanding) : Move plan w (.reply reply) w
  | advance (d : Duration) : Move plan w (.advance d) { w with now := w.now + d }

theorem step_call {i : Nat} {c : Call} (hc : w.calls[i]? = some c) :
    w.step plan (.call i) =
      { (w.callStep plan c).1 with
        calls := match (w.callStep plan c).2 with
          | none => w.calls.eraseIdx i
          | some left => w.calls.set i left } := by
  rw [step, hc]
  dsimp only
  cases (w.callStep plan c).2 <;> rfl

theorem step_move (plan : Plan) (w : World) (a : Action) : Move plan w a (w.step plan a) := by
  cases a with
  | start runtime => exact .start runtime
  | stop runtime => exact .stop runtime
  | task => exact .task (taskStep_move plan w)
  | advance d => exact .advance d
  | reply r =>
    cases ht : w.task with
    | asking attempt query => simpa [step, ht] using Move.replyAtOnce r ht
    | polling attempt lookup =>
      cases lookup with
      | outstanding => simpa [step, ht] using Move.reply r ht
      | _ => simpa [step, ht] using Move.unasked r (by simp [ht]) (by simp [ht])
    | _ => simpa [step, ht] using Move.unasked r (by simp [ht]) (by simp [ht])
  | call i =>
    cases hc : w.calls[i]? with
    | none => simpa [step, hc] using Move.noCall hc
    | some c =>
      obtain ⟨hi, hget⟩ := List.getElem?_eq_some_iff.mp hc
      have split : w.calls = w.calls.take i ++ c :: w.calls.drop (i + 1) := by
        rw [← hget, List.getElem_cons_drop, List.take_append_drop]
      have hm := callStep_move plan w c
      rw [step_call hc]
      obtain ⟨⟨after, left⟩, hs⟩ : ∃ r, w.callStep plan c = r := ⟨_, rfl⟩
      rw [hs] at hm ⊢
      have hcall := Move.call hc split hs hm
      cases left with
      | none => simpa [List.eraseIdx_eq_take_drop_succ] using hcall
      | some left => simpa [List.set_eq_take_append_cons_drop, hi] using hcall

end World

end Arbiter.Arbitration
