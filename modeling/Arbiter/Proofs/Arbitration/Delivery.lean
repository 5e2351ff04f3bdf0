import Arbiter.Proofs.Arbitration.History
import Mathlib.Data.List.Nodup

/-!
Every outcome is delivered exactly once. The continuation of each start is at any time in one place
only: with a call, stored, with the task, or used up.
-/

namespace Arbiter.Arbitration

open Discovery

/-- The steps of a phase: forward only, and none out of a terminal phase. -/
inductive Phase.Moves : Phase → Phase → Prop where
  | start : Moves .idle .attempting
  | neverStart : Moves .idle .cancelled
  | succeed : Moves .attempting .succeeded
  | fail : Moves .attempting .failed
  | cancel : Moves .attempting .cancelled

/-- Whether an outcome is what a terminal phase stands for. -/
def Phase.Reports (interface : String) : Phase → Outcome → Prop
  | .succeeded, outcome => ∃ e, outcome = .ok e
  | .failed, outcome => ∃ failure : Failure, outcome = .error failure ∧ failure.isCancelled = false
  | .cancelled, outcome => outcome = .error (.cancelled interface)
  | _, _ => False

theorem Phase.Reports.iffs {interface : String} {phase : Phase} {outcome : Outcome}
    (h : phase.Reports interface outcome) :
    (phase = .succeeded ↔ ∃ e, outcome = .ok e) ∧
      (phase = .cancelled ↔ outcome = .error (.cancelled interface)) ∧
      (phase = .failed ↔
        ∃ failure : Failure, outcome = .error failure ∧ failure.isCancelled = false) := by
  cases phase with
  | idle | attempting => exact h.elim
  | succeeded =>
    obtain ⟨e, rfl⟩ := h
    simp
  | failed =>
    obtain ⟨failure, rfl, hf⟩ := h
    cases failure <;> simp_all [Failure.isCancelled]
  | cancelled =>
    obtain rfl : outcome = _ := h
    simp [Failure.isCancelled]

/-- The starts whose continuations a call has. -/
def Call.held : Call → List CallId
  | starting id _ | refused id _ _ => [id]
  | stopped before _ => before.answerTo.toList
  | _ => []

def Call.isAccepted : Call → Bool
  | accepted _ => true
  | _ => false

def Call.isStop : Call → Bool
  | stopping _ | signalled _ | stopped .. => true
  | _ => false

/-- The start whose continuation the task has. -/
def Task.held : Task → List CallId
  | delivering before _ => before.answerTo.toList
  | _ => []

def Task.reached : Task → Option Outcome
  | closing outcome | delivering _ outcome => some outcome
  | _ => none

def Task.isLaunched : Task → Bool
  | absent => false
  | _ => true

theorem Task.eq_absent {task : Task} (h : ¬task.isLaunched) : task = .absent := by
  cases task with
  | absent => rfl
  | _ => exact absurd rfl h

theorem Task.undecided_of_heedsStops {task : Task} (h : task.heedsStops) :
    task.held = [] ∧ task.reached = none ∧ task.isLaunched := by
  cases task <;> first | exact ⟨rfl, rfl, rfl⟩ | simp [heedsStops] at h

namespace World

variable {plan : Plan} {w : World} {acc : List CallId}

/-- The starts by the places where their continuations are. -/
def inventory (w : World) : List CallId :=
  w.calls.flatMap Call.held ++ w.shared.answerTo.toList ++ w.task.held ++ w.told.map (·.1)

/-- The outcome is on its way to an accepted start, or was told it. -/
def OnItsWay (plan : Plan) (w : World) (id : CallId) : Prop :=
  (∃ before runtime, .stopped before runtime ∈ w.calls ∧ before.answerTo = some id ∧
    w.shared.phase = .cancelled) ∨
  (∃ before outcome, w.task = .delivering before outcome ∧ before.answerTo = some id ∧
    w.shared.phase = endPhase outcome) ∨
  ∃ outcome, (id, outcome) ∈ w.told ∧ w.shared.phase.Reports plan.target.interface outcome

/-- What holds between the steps of every run in which the given starts were accepted. -/
structure Delivers (plan : Plan) (acc : List CallId) (w : World) : Prop where
  eachOnce : w.inventory.Perm (List.range w.starts)
  launched : w.calls.countP Call.isAccepted + w.task.isLaunched.toNat = acc.length
  idle : w.shared.phase = .idle → acc = [] ∧ w.shared.answerTo = none
  attempting : w.shared.phase = .attempting → ∃ id, acc = [id] ∧ w.shared.answerTo = some id
  terminal : w.shared.phase.isTerminal → acc.length ≤ 1 ∧ w.shared.answerTo = none
  reached : ∀ outcome ∈ w.task.reached, (endPhase outcome).Reports plan.target.interface outcome
  ended : w.shared.phase.isTerminal → ∀ id ∈ acc, OnItsWay plan w id

namespace Delivers

theorem length_le_one (h : Delivers plan acc w) : acc.length ≤ 1 := by
  cases hp : w.shared.phase with
  | idle => simp [(h.idle hp).1]
  | attempting =>
    obtain ⟨id, hid, _⟩ := h.attempting hp
    simp [hid]
  | succeeded | failed | cancelled => exact (h.terminal (by simp [hp, Phase.isTerminal])).1

/-- The task is set to work only once. -/
theorem absent_of_accepted (h : Delivers plan acc w) {id : CallId} (hc : .accepted id ∈ w.calls) :
    w.task = .absent := by
  have hpos : 0 < w.calls.countP Call.isAccepted := List.countP_pos_iff.mpr ⟨_, hc, rfl⟩
  have hl := h.launched
  have h1 := h.length_le_one
  cases ht : w.task with
  | absent => rfl
  | _ => simp [ht, Task.isLaunched] at hl; omega

theorem absent_of_idle (h : Delivers plan acc w) (hp : w.shared.phase = .idle) :
    w.task = .absent := by
  have hl := h.launched
  rw [(h.idle hp).1] at hl
  cases ht : w.task with
  | absent => rfl
  | _ => simp [ht, Task.isLaunched] at hl

/-- An accepted start sets the task to work before its call returns. -/
theorem launched_of_accepted (h : Delivers plan acc w) (hne : acc ≠ []) (calls : w.calls = []) :
    w.task.isLaunched := by
  have hl := h.launched
  have hpos := List.length_pos_of_ne_nil hne
  cases ht : w.task.isLaunched with
  | true => rfl
  | false =>
    simp [ht, calls] at hl
    omega

theorem attempting_of_launched (h : Delivers plan acc w) (ht : w.task.isLaunched)
    (going : w.shared.phase.isTerminal = false) : w.shared.phase = .attempting := by
  cases hp : w.shared.phase with
  | idle => simp [h.absent_of_idle hp, Task.isLaunched] at ht
  | attempting => rfl
  | succeeded | failed | cancelled => simp [hp, Phase.isTerminal] at going

end Delivers

theorem giveUp_reports (plan : Plan) (s : Shared) :
    Phase.failed.Reports plan.target.interface (.error (giveUp plan s)) := by
  refine ⟨_, rfl, ?_⟩
  unfold giveUp
  repeat' split
  all_goals rfl

/-- What a step can do to the phase, with what it does to the stored continuation. -/
inductive PhaseMove (w after : World) : List CallId → Prop where
  | keep (hp : after.shared.phase = w.shared.phase)
      (ha : after.shared.answerTo = w.shared.answerTo) : PhaseMove w after []
  | start (id : CallId) (idle : w.shared.phase = .idle)
      (hp : after.shared.phase = .attempting) (ha : after.shared.answerTo = some id) :
    PhaseMove w after [id]
  | cancel (going : w.shared.phase.isTerminal = false)
      (hp : after.shared.phase = .cancelled) (ha : after.shared.answerTo = none) :
    PhaseMove w after []
  | close {outcome} (ht : w.task = .closing outcome) (going : w.shared.phase.isTerminal = false)
      (hp : after.shared.phase = endPhase outcome) (ha : after.shared.answerTo = none) :
    PhaseMove w after []

theorem step_phaseMove (plan : Plan) (w : World) (a : Action) :
    PhaseMove w (w.step plan a) (acceptedIn plan w a) := by
  have hm := step_move plan w a
  generalize w.step plan a = after at hm
  cases hm with
  | call hc split hs move =>
    simp only [acceptedIn, hc, hs, Option.map_some]
    cases move with
    | accept id idle => exact .start id idle rfl rfl
    | cancel runtime going => exact .cancel going rfl rfl
    | refuse | refused | launch | signal | late | stopped => exact .keep rfl rfl
  | noCall hc =>
    simp only [acceptedIn, hc, Option.map_none]
    exact .keep rfl rfl
  | task move =>
    cases move with
    | close ht going => exact .close ht going rfl rfl
    | _ => exact .keep rfl rfl
  | _ => exact .keep rfl rfl

namespace Delivers

/-- A step passes continuations on and neither loses nor copies one. -/
theorem inventory_step (h : Delivers plan acc w) (a : Action) :
    (w.step plan a).inventory.Perm (List.range (w.step plan a).starts) := by
  have hi := h.eachOnce
  have hm := step_move plan w a
  generalize w.step plan a = after at hm
  -- Continuations move from place to place, so only how often each occurs is compared.
  rw [List.perm_iff_count] at hi ⊢
  intro x
  have hx := hi x
  cases hm with
  | start runtime =>
    simp [inventory, Call.held, List.range_succ, List.count_cons] at hx ⊢
    omega
  | stop runtime => simpa [inventory, Call.held] using hx
  | noCall | unasked | advance => exact hx
  | replyAtOnce _ ht | reply _ ht => simpa [inventory, ht, Task.held] using hx
  | call hc split hs move =>
    simp only [inventory, split] at hx
    cases move with
    | accept id idle =>
      simp [inventory, Call.held, (h.idle idle).2, List.count_cons] at hx ⊢
      omega
    | refused id reason runtime =>
      simp [inventory, Call.held, List.count_cons] at hx ⊢
      omega
    | launch id =>
      have ht := h.absent_of_accepted (List.mem_of_getElem? hc)
      simpa [inventory, Call.held, ht, Task.held] using hx
    | refuse | signal | late => simpa [inventory, Call.held] using hx
    | cancel runtime going =>
      simp [inventory, Call.held] at hx ⊢
      omega
    | stopped before runtime =>
      simp [inventory, Call.held, Function.comp_def] at hx ⊢
      omega
  | task move =>
    cases move with
    | wait early => exact hx
    | leave heeding hs =>
      rw [inventory, (Task.undecided_of_heedsStops heeding).1] at hx
      simpa [inventory, Task.held] using hx
    | begin ht | overflow ht | expire ht | ask ht | pend ht | take ht | check ht | select ht
    | abort ht | retry ht | abandon ht | wake ht | late ht | close ht =>
      simpa [inventory, ht, Task.held] using hx
    | deliver ht =>
      simp [inventory, ht, Task.held, Function.comp_def] at hx ⊢
      omega

theorem launched_step (h : Delivers plan acc w) (a : Action) :
    (w.step plan a).calls.countP Call.isAccepted + (w.step plan a).task.isLaunched.toNat =
      (acc ++ acceptedIn plan w a).length := by
  have hl := h.launched
  have hm := step_move plan w a
  generalize w.step plan a = after at hm
  cases hm with
  | start | stop => simpa [acceptedIn, Call.isAccepted] using hl
  | noCall hc => simpa [acceptedIn, hc] using hl
  | unasked | advance => simpa [acceptedIn] using hl
  | replyAtOnce _ ht | reply _ ht => simpa [acceptedIn, ht, Task.isLaunched] using hl
  | call hc split hs move =>
    rw [split] at hl
    simp only [acceptedIn, hc, hs, Option.map_some]
    cases move with
    | accept id idle =>
      simp [Call.isAccepted, List.countP_cons] at hl ⊢
      omega
    | launch id =>
      have ht := h.absent_of_accepted (List.mem_of_getElem? hc)
      simp [Call.isAccepted, ht, Task.isLaunched, List.countP_cons] at hl ⊢
      omega
    | refuse | refused | signal | late | cancel | stopped =>
      simpa [Call.isAccepted, List.countP_cons] using hl
  | task move =>
    cases move with
    | wait early => simpa [acceptedIn] using hl
    | leave heeding hs =>
      rw [(Task.undecided_of_heedsStops heeding).2.2] at hl
      simpa [acceptedIn, Task.isLaunched] using hl
    | begin ht | overflow ht | expire ht | ask ht | pend ht | take ht | check ht | select ht
    | abort ht | retry ht | abandon ht | wake ht | late ht | close ht | deliver ht =>
      simpa [acceptedIn, ht, Task.isLaunched] using hl

theorem phase_step (h : Delivers plan acc w) (a : Action) :
    (w.step plan a).shared.phase = w.shared.phase ∨
      w.shared.phase.Moves (w.step plan a).shared.phase := by
  have hm := step_phaseMove plan w a
  generalize w.step plan a = after, acceptedIn plan w a = new at hm
  cases hm with
  | keep hp ha => exact Or.inl hp
  | start id idle hp ha =>
    rw [idle, hp]
    exact Or.inr .start
  | cancel going hp ha =>
    right
    rw [hp]
    cases h0 : w.shared.phase with
    | idle => exact .neverStart
    | attempting => exact .cancel
    | succeeded | failed | cancelled => simp [h0, Phase.isTerminal] at going
  | close ht going hp ha =>
    right
    rw [hp, h.attempting_of_launched (by simp [ht, Task.isLaunched]) going]
    rename_i outcome
    cases outcome with
    | ok e => exact .succeed
    | error failure => exact .fail

theorem phase_step_of_terminal (h : Delivers plan acc w) (ht : w.shared.phase.isTerminal)
    (a : Action) : (w.step plan a).shared.phase = w.shared.phase := by
  rcases h.phase_step a with hp | hm
  · exact hp
  · generalize w.shared.phase = before, (w.step plan a).shared.phase = after at ht hm
    cases hm <;> simp [Phase.isTerminal] at ht

theorem reached_step (h : Delivers plan acc w) (a : Action) :
    ∀ outcome ∈ (w.step plan a).task.reached,
      (endPhase outcome).Reports plan.target.interface outcome := by
  intro outcome ho
  have hr := h.reached
  have hm := step_move plan w a
  generalize w.step plan a = after at hm ho
  cases hm with
  | start | stop | noCall | unasked | advance => exact hr outcome ho
  | replyAtOnce | reply => simp [Task.reached] at ho
  | call hc split hs move =>
    cases move with
    | launch => simp [Task.reached] at ho
    | accept | refuse | refused | signal | late | cancel | stopped => exact hr outcome ho
  | task move =>
    cases move with
    | wait => exact hr outcome ho
    | select =>
      obtain rfl : _ = outcome := by simpa [Task.reached] using ho
      exact ⟨_, rfl⟩
    | expire | abandon =>
      obtain rfl : _ = outcome := by simpa [Task.reached] using ho
      exact giveUp_reports plan _
    | abort =>
      obtain rfl : _ = outcome := by simpa [Task.reached] using ho
      exact ⟨_, rfl, rfl⟩
    | close hk => exact hr outcome (by simpa [hk, Task.reached] using ho)
    | begin | overflow | leave | ask | pend | take | check | retry | wake | late | deliver =>
      simp [Task.reached] at ho

/-- An outcome on its way stays so in a step that keeps the phase, unless it arrives. -/
theorem onItsWay_of_keep (h : Delivers plan acc w) {after : World} {id : CallId}
    (way : OnItsWay plan w id) (hp : after.shared.phase = w.shared.phase)
    (calls : ∀ before runtime, .stopped before runtime ∈ w.calls → before.answerTo = some id →
      .stopped before runtime ∈ after.calls ∨
        (id, .error (.cancelled plan.target.interface)) ∈ after.told)
    (task : ∀ before outcome, w.task = .delivering before outcome → before.answerTo = some id →
      after.task = .delivering before outcome ∨ (id, outcome) ∈ after.told)
    (told : ∀ outcome, (id, outcome) ∈ w.told → (id, outcome) ∈ after.told) :
    OnItsWay plan after id := by
  rcases way with ⟨before, runtime, hc, hid, hph⟩ | ⟨before, outcome, ht, hid, hph⟩ |
    ⟨outcome, ho, hr⟩
  · rcases calls before runtime hc hid with hc' | ho
    · exact Or.inl ⟨before, runtime, hc', hid, hp.trans hph⟩
    · refine Or.inr (Or.inr ⟨_, ho, ?_⟩)
      rw [hp, hph]
      rfl
  · rcases task before outcome ht hid with ht' | ho
    · exact Or.inr (Or.inl ⟨before, outcome, ht', hid, hp.trans hph⟩)
    · refine Or.inr (Or.inr ⟨outcome, ho, ?_⟩)
      rw [hp, hph]
      exact h.reached outcome (by simp [ht, Task.reached])
  · exact Or.inr (Or.inr ⟨outcome, told outcome ho, by rwa [hp]⟩)

theorem ended_step (h : Delivers plan acc w) (a : Action)
    (ht : (w.step plan a).shared.phase.isTerminal) :
    ∀ id ∈ acc ++ acceptedIn plan w a, OnItsWay plan (w.step plan a) id := by
  intro id hid
  have hm := step_move plan w a
  generalize w.step plan a = after at hm ht
  cases hm with
  | start runtime =>
    refine h.onItsWay_of_keep (h.ended ht id (by simpa [acceptedIn] using hid)) rfl ?_ ?_ ?_ <;>
      simp +contextual
  | stop runtime =>
    refine h.onItsWay_of_keep (h.ended ht id (by simpa [acceptedIn] using hid)) rfl ?_ ?_ ?_ <;>
      simp +contextual
  | noCall hc => exact h.ended ht id (by simpa [acceptedIn, hc] using hid)
  | unasked reply ha ho => exact h.ended ht id (by simpa [acceptedIn] using hid)
  | advance d =>
    refine h.onItsWay_of_keep (h.ended ht id (by simpa [acceptedIn] using hid)) rfl ?_ ?_ ?_ <;>
      simp +contextual
  | replyAtOnce reply hask =>
    refine h.onItsWay_of_keep (h.ended ht id (by simpa [acceptedIn] using hid)) rfl ?_ ?_ ?_ <;>
      simp +contextual [hask]
  | reply reply hask =>
    refine h.onItsWay_of_keep (h.ended ht id (by simpa [acceptedIn] using hid)) rfl ?_ ?_ ?_ <;>
      simp +contextual [hask]
  | call hc split hs move =>
    simp only [acceptedIn, hc, hs, Option.map_some] at hid
    cases move with
    | accept id' idle => simp [Phase.isTerminal] at ht
    | cancel runtime going =>
      rw [List.append_nil] at hid
      cases hp : w.shared.phase with
      | idle => simp [(h.idle hp).1] at hid
      | attempting =>
        obtain ⟨id', rfl, hid'⟩ := h.attempting hp
        obtain rfl := List.mem_singleton.mp hid
        exact Or.inl ⟨w.shared, runtime, by simp, hid', rfl⟩
      | succeeded | failed | cancelled => simp [hp, Phase.isTerminal] at going
    | launch id' =>
      have habsent := h.absent_of_accepted (List.mem_of_getElem? hc)
      refine h.onItsWay_of_keep (h.ended ht id (by simpa using hid)) rfl ?_ ?_ ?_ <;>
        simp +contextual [split, habsent]
    | stopped before runtime =>
      refine h.onItsWay_of_keep (h.ended ht id (by simpa using hid)) rfl ?_ ?_ ?_
      · intro before' runtime' hb hid'
        rw [split, List.mem_append, List.mem_cons] at hb
        rcases hb with hb | hb | hb
        · exact Or.inl (by simp [hb])
        · right
          injection hb with hb
          simp [← hb, hid']
        · exact Or.inl (by simp [hb])
      · simp +contextual
      · simp +contextual
    | refuse | refused | signal | late =>
      refine h.onItsWay_of_keep (h.ended ht id (by simpa using hid)) rfl ?_ ?_ ?_ <;>
        simp +contextual [split]
  | task move =>
    have hid : id ∈ acc := by simpa [acceptedIn] using hid
    cases move with
    | wait early => exact h.ended ht id hid
    | close hc going =>
      have hp := h.attempting_of_launched (by simp [hc, Task.isLaunched]) going
      obtain ⟨id', rfl, hid'⟩ := h.attempting hp
      obtain rfl := List.mem_singleton.mp hid
      exact Or.inr (Or.inl ⟨w.shared, _, rfl, hid', rfl⟩)
    | leave heeding hs =>
      have hheld := (Task.undecided_of_heedsStops heeding).1
      refine h.onItsWay_of_keep (h.ended ht id hid) rfl (by simp +contextual) ?_
        (by simp +contextual)
      intro before outcome hb hid'
      simp [hb, Task.held, hid'] at hheld
    | deliver hd =>
      refine h.onItsWay_of_keep (h.ended ht id hid) rfl (by simp +contextual) ?_
        (by simp +contextual)
      intro before outcome hb hid'
      obtain ⟨rfl, rfl⟩ := Task.delivering.inj (hd.symm.trans hb)
      exact Or.inr (by simp [hid'])
    | begin hk | overflow hk | expire hk | ask hk | pend hk | take hk | check hk | select hk
    | abort hk | retry hk | abandon hk | wake hk | late hk =>
      refine h.onItsWay_of_keep (h.ended ht id hid) rfl ?_ ?_ ?_ <;> simp +contextual [hk]

theorem idle_step (h : Delivers plan acc w) (a : Action)
    (hidle : (w.step plan a).shared.phase = .idle) :
    acc ++ acceptedIn plan w a = [] ∧ (w.step plan a).shared.answerTo = none := by
  have hm := step_phaseMove plan w a
  generalize w.step plan a = after, acceptedIn plan w a = new at hm hidle
  cases hm with
  | keep hp ha => simpa [ha] using h.idle (hp.symm.trans hidle)
  | start id idle hp ha => simp [hp] at hidle
  | cancel going hp ha => simp [hp] at hidle
  | @close outcome ht going hp ha => cases outcome <;> simp [hp, endPhase] at hidle

theorem attempting_step (h : Delivers plan acc w) (a : Action)
    (hat : (w.step plan a).shared.phase = .attempting) :
    ∃ id, acc ++ acceptedIn plan w a = [id] ∧ (w.step plan a).shared.answerTo = some id := by
  have hm := step_phaseMove plan w a
  generalize w.step plan a = after, acceptedIn plan w a = new at hm hat
  cases hm with
  | keep hp ha => simpa [ha] using h.attempting (hp.symm.trans hat)
  | start id idle hp ha => exact ⟨id, by simp [(h.idle idle).1], ha⟩
  | cancel going hp ha => simp [hp] at hat
  | @close outcome ht going hp ha => cases outcome <;> simp [hp, endPhase] at hat

theorem terminal_step (h : Delivers plan acc w) (a : Action)
    (hterm : (w.step plan a).shared.phase.isTerminal) :
    (acc ++ acceptedIn plan w a).length ≤ 1 ∧ (w.step plan a).shared.answerTo = none := by
  have hm := step_phaseMove plan w a
  generalize w.step plan a = after, acceptedIn plan w a = new at hm hterm
  cases hm with
  | keep hp ha => simpa [ha] using h.terminal (by rwa [← hp])
  | start id idle hp ha => simp [hp, Phase.isTerminal] at hterm
  | cancel going hp ha => exact ⟨by simpa using h.length_le_one, ha⟩
  | close ht going hp ha => exact ⟨by simpa using h.length_le_one, ha⟩

theorem step (h : Delivers plan acc w) (a : Action) :
    Delivers plan (acc ++ acceptedIn plan w a) (w.step plan a) where
  eachOnce := h.inventory_step a
  launched := h.launched_step a
  idle := h.idle_step a
  attempting := h.attempting_step a
  terminal := h.terminal_step a
  reached := h.reached_step a
  ended := h.ended_step a

theorem init (plan : Plan) : Delivers plan [] {} where
  eachOnce := .refl _
  launched := rfl
  idle _ := ⟨rfl, rfl⟩
  attempting h := by cases h
  terminal h := by cases h
  reached _ h := by cases h
  ended h := by cases h

theorem run (plan : Plan) (actions : List Action) :
    Delivers plan (accepted plan {} actions) (World.run plan {} actions) := by
  induction actions using List.reverseRecOn with
  | nil => exact init plan
  | append_singleton actions a ih =>
    rw [accepted, gather_concat, run_concat]
    exact ih.step a

theorem acceptedIn_eq_nil (h : Delivers plan acc w) (hne : acc ≠ []) (a : Action) :
    acceptedIn plan w a = [] := by
  have hlen := (h.step a).length_le_one
  have hpos := List.length_pos_of_ne_nil hne
  rw [List.length_append] at hlen
  exact List.eq_nil_of_length_eq_zero (by omega)

theorem overflowed_stays (h : Delivers plan acc w) (ht : w.task = .overflowed) (a : Action) :
    (w.step plan a).task = .overflowed := by
  have hm := step_move plan w a
  generalize w.step plan a = after at hm
  cases hm with
  | start | stop | noCall | unasked | advance => exact ht
  | replyAtOnce _ hr | reply _ hr => simp [ht] at hr
  | call hc split hs move =>
    cases move with
    | launch id => simp [h.absent_of_accepted (List.mem_of_getElem? hc)] at ht
    | accept | refuse | refused | signal | late | cancel | stopped => exact ht
  | task move =>
    rw [move.eq_self (by rw [taskDue, ht])]
    exact ht

theorem answersTo_length_le_one (h : Delivers plan acc w) (id : CallId) :
    (w.answersTo id).length ≤ 1 := by
  have hnodup : (w.told.map (·.1)).Nodup := by
    have hall : w.inventory.Nodup := h.eachOnce.nodup_iff.mpr List.nodup_range
    exact (List.nodup_append.mp hall).2.1
  have hcount := List.nodup_iff_count_le_one.mp hnodup id
  rw [answersTo, List.length_map, ← List.countP_eq_length_filter]
  rwa [List.count, List.countP_map] at hcount

theorem answersTo_eq (h : Delivers plan acc w) {id : CallId} {outcome : Outcome}
    (ho : (id, outcome) ∈ w.told) : w.answersTo id = [outcome] := by
  have hmem : outcome ∈ w.answersTo id :=
    List.mem_map.mpr ⟨(id, outcome), List.mem_filter.mpr ⟨ho, by simp⟩, rfl⟩
  have hlen := h.answersTo_length_le_one id
  match hl : w.answersTo id with
  | [] => simp [hl] at hmem
  | [o] => simpa [hl, eq_comm] using hmem
  | _ :: _ :: _ => simp [hl] at hlen

/-- Once nobody has the outcome any more, the accepted start was told what the phase stands for. -/
theorem answersTo_of_ended (h : Delivers plan acc w) (ht : w.shared.phase.isTerminal)
    (calls : w.shared.phase = .cancelled → w.calls = [])
    (task : ∀ before outcome, w.task ≠ .delivering before outcome) {id : CallId} (hid : id ∈ acc) :
    ∃ outcome, w.answersTo id = [outcome] ∧
      w.shared.phase.Reports plan.target.interface outcome := by
  rcases h.ended ht id hid with ⟨before, runtime, hc, _, hp⟩ | ⟨before, outcome, hd, _⟩ |
    ⟨outcome, ho, hr⟩
  · simp [calls hp] at hc
  · exact absurd hd (task before outcome)
  · exact ⟨outcome, h.answersTo_eq ho, hr⟩

end Delivers

theorem phase_run_of_terminal (ht : w.shared.phase.isTerminal) (h : Delivers plan acc w)
    (more : List Action) : (w.run plan more).shared.phase = w.shared.phase := by
  induction more generalizing w acc with
  | nil => rfl
  | cons a more ih =>
    have hp := h.phase_step_of_terminal ht a
    exact (ih (by rwa [hp]) (h.step a)).trans hp

/-- No call is in progress, and the task is not about to tell an outcome. -/
def Settled (w : World) : Prop :=
  w.calls = [] ∧ ∀ before outcome, w.task ≠ .delivering before outcome

/-- Each caller is told at most one outcome, and the accepted start exactly that for which the
terminal phase stands, once everyone is done. The phase never goes back. -/
theorem outcome_delivered_exactly_once (plan : Plan) (actions : List Action) :
    let w := World.run plan {} actions
    let accepted := accepted plan {} actions
    (∀ id, (w.answersTo id).length ≤ 1) ∧ accepted.length ≤ 1 ∧
      (w.shared.phase.isTerminal → w.Settled → ∀ id ∈ accepted, ∃ outcome,
        w.answersTo id = [outcome] ∧
          (w.shared.phase = .succeeded ↔ ∃ e, outcome = .ok e) ∧
          (w.shared.phase = .cancelled ↔ outcome = .error (.cancelled plan.target.interface)) ∧
          (w.shared.phase = .failed ↔
            ∃ failure : Failure, outcome = .error failure ∧ failure.isCancelled = false)) ∧
      (∀ a, (w.step plan a).shared.phase = w.shared.phase ∨
        w.shared.phase.Moves (w.step plan a).shared.phase) ∧
      ∀ more, w.shared.phase.isTerminal → (w.run plan more).shared.phase = w.shared.phase := by
  intro w accepted
  have h : Delivers plan accepted w := .run plan actions
  refine ⟨h.answersTo_length_le_one, h.length_le_one, ?_, h.phase_step, ?_⟩
  · intro ht hs id hid
    obtain ⟨outcome, ho, hr⟩ := h.answersTo_of_ended ht (fun _ => hs.1) hs.2 hid
    exact ⟨outcome, ho, Phase.Reports.iffs hr⟩
  · exact fun more ht => phase_run_of_terminal ht h more

end World

end Arbiter.Arbitration
