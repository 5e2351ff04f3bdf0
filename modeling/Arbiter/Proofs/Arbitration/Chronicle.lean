import Arbiter.Proofs.Arbitration.Progress

/-!
The records of an arbitration's life as a log: an opening record, one for each attempt that came to
nothing, in order, and one closing record that fits the outcome.
-/

namespace Arbiter.Arbitration

open Discovery

/-- Whether a call has cancelled the arbitration and is about to tell of it. -/
def Call.isTelling : Call → Bool
  | stopped .. => true
  | _ => false

@[simp] theorem endPhase_isTerminal (outcome : Outcome) : (endPhase outcome).isTerminal := by
  cases outcome <;> rfl

@[simp] theorem endRecord_isClosing (outcome : Outcome) (attempts elapsed : Nat) :
    (World.endRecord outcome attempts elapsed).isClosing := by
  cases outcome <;> rfl

/-- The task ends an arbitration with the closing record of its outcome: it does not cancel. -/
theorem closing_eq_endRecord {interface : String} {outcome : Outcome}
    (h : (endPhase outcome).Reports interface outcome) (attempts elapsed : Nat) :
    closing outcome attempts elapsed = World.endRecord outcome attempts elapsed := by
  rcases outcome with failure | e
  · obtain ⟨failure', heq, huncancelled⟩ := h
    obtain rfl : failure = failure' := Except.error.inj heq
    cases failure with
    | cancelled => cases huncancelled
    | _ => rfl
  · rfl

@[simp] theorem closing_isClosing (outcome : Outcome) (attempts elapsed : Nat) :
    (closing outcome attempts elapsed).isClosing := by
  unfold closing
  split
  · rfl
  · exact endRecord_isClosing _ _ _

namespace World

variable {plan : Plan} {w : World} {acc : List CallId} {ns : List Note} {cut : List Nat}

/-- How many closing records there are, or are about to be written. -/
def closings (w : World) : Nat :=
  w.events.countP Log.Event.isClosing + w.calls.countP Call.isTelling + w.task.isTelling.toNat

/-- An arbitration that has ended has exactly one closing record, and one that goes on has none. -/
theorem closings_run (plan : Plan) (actions : List Action) :
    (World.run plan {} actions).closings =
      (World.run plan {} actions).shared.phase.isTerminal.toNat := by
  induction actions using List.reverseRecOn with
  | nil => rfl
  | append_singleton actions a ih =>
    have hd := Delivers.run plan actions
    rw [run_concat]
    generalize World.run plan {} actions = w at ih hd ⊢
    have hm := step_move plan w a
    generalize w.step plan a = after at hm
    cases hm with
    | start | stop => simpa [closings, Call.isTelling] using ih
    | noCall | unasked | advance => exact ih
    | replyAtOnce _ ht | reply _ ht => simpa [closings, ht, Task.isTelling] using ih
    | call hc split hs move =>
      simp only [closings, split] at ih ⊢
      cases move with
      | accept id idle => simpa [Call.isTelling, idle, Phase.isTerminal, List.countP_cons] using ih
      | launch id =>
        have ht := hd.absent_of_accepted (List.mem_of_getElem? hc)
        simpa [Call.isTelling, Log.Event.isClosing, ht, Task.isTelling, List.countP_cons] using ih
      | cancel runtime going =>
        rw [going, Bool.toNat_false] at ih
        simp only [List.countP_append, List.countP_cons, Option.toList_some, List.countP_nil,
          Call.isTelling, Phase.isTerminal, events_mk, Bool.toNat_true, Bool.false_eq_true, if_false,
          if_true] at ih ⊢
        omega
      | stopped before runtime =>
        simp [Call.isTelling, Log.Event.isClosing, List.countP_cons] at ih ⊢
        omega
      | refuse | refused | signal | late => simpa [Call.isTelling, List.countP_cons] using ih
    | task move =>
      simp only [closings] at ih ⊢
      cases move with
      | wait => exact ih
      | leave heeding =>
        cases ht : w.task <;> simp [ht, Task.heedsStops] at heeding <;>
          simpa [ht, Task.isTelling] using ih
      | close ht going =>
        rw [going, ht] at ih
        simpa [Task.isTelling] using ih
      | deliver ht =>
        rw [ht] at ih
        simp [Task.isTelling] at ih ⊢
        omega
      | begin ht | overflow ht | expire ht | ask ht | pend ht | take ht | check ht | select ht
      | abort ht | retry ht | abandon ht | wake ht | late ht =>
        simpa [ht, Task.isTelling, Log.Event.isClosing] using ih

/-- What a step can do to the records. -/
inductive RecordMove (plan : Plan) (w : World) (a : Action) (after : World) : Prop where
  | keep (he : after.events = w.events) (hn : notedIn plan w a = [])
      (hl : after.task.isLaunched = w.task.isLaunched)
  | opening {id} (hc : .accepted id ∈ w.calls) (hn : notedIn plan w a = [])
      (he : after.events = w.events ++ [opening plan]) (hl : after.task.isLaunched)
  | note {attempt reply n} (ht : w.task = .judging attempt reply) (hn : notedIn plan w a = [n])
      (he : after.events = w.events ++ [.attemptFailed attempt n.cause n.willRetry])
      (hl : after.task.isLaunched)
  | cancelled {before runtime} (hc : .stopped before runtime ∈ w.calls)
      (hn : notedIn plan w a = [])
      (he : after.events = w.events ++ [.cancelled plan.target.interface before.attempts])
      (hl : after.task.isLaunched = w.task.isLaunched)
      (told : ∀ id ∈ before.answerTo, (id, .error (.cancelled plan.target.interface)) ∈ after.told)
  | ended {before outcome elapsed} (ht : w.task = .delivering before outcome)
      (hn : notedIn plan w a = [])
      (he : after.events = w.events ++ [endRecord outcome before.attempts elapsed])
      (hl : after.task.isLaunched) (told : ∀ id ∈ before.answerTo, (id, outcome) ∈ after.told)

theorem step_recordMove (plan : Plan) (w : World) (a : Action) :
    RecordMove plan w a (w.step plan a) := by
  have hm := step_move plan w a
  generalize w.step plan a = after at hm
  cases hm with
  | start | stop | noCall | unasked | advance => exact .keep rfl (notedIn_of_ne_task nofun) rfl
  | replyAtOnce _ ht | reply _ ht =>
    exact .keep rfl (notedIn_of_ne_task nofun) (by rw [ht]; rfl)
  | @call i _ _ _ _ _ hc split hs move =>
    have hn : notedIn plan w (.call i) = [] := notedIn_of_ne_task nofun
    cases move with
    | launch => exact .opening (List.mem_of_getElem? hc) hn (by simp [opening]) rfl
    | stopped before runtime =>
      refine .cancelled (List.mem_of_getElem? hc) hn (by simp) rfl fun id hid => ?_
      simp [Option.mem_def.mp hid]
    | accept | refuse | refused | signal | late | cancel => exact .keep (by simp) hn rfl
  | task move =>
    cases move with
    | wait early => exact .keep rfl (by rw [notedIn, judgedIn_of_wait early]; rfl) rfl
    | leave heeding =>
      refine .keep rfl (notedIn_eq_nil ?_ _) ?_
      · intro _ _ ht
        simp [ht, Task.heedsStops] at heeding
      · rw [(Task.undecided_of_heedsStops heeding).2.2]
        rfl
    | select ht hj => exact .keep rfl (by rw [notedIn_judging ht, note?, hj]; rfl) (by rw [ht]; rfl)
    | abort ht hj => exact .note ht (by rw [notedIn_judging ht, note?, hj]; rfl) (by simp) rfl
    | retry ht hj | abandon ht hj => exact .note ht (notedIn_retry ht hj) (by simp) rfl
    | deliver ht =>
      refine .ended ht (notedIn_eq_nil (by simp [ht]) _) (events_deliver _ _) rfl fun id hid => ?_
      simp [Option.mem_def.mp hid]
    | begin ht | overflow ht | expire ht | ask ht | pend ht | take ht | check ht | wake ht
    | late ht | close ht =>
      exact .keep (by simp) (notedIn_eq_nil (by simp [ht]) _) (by rw [ht]; rfl)

/-- The records so far. -/
inductive Chronicle (plan : Plan) (acc : List CallId) (ns : List Note) (cut : List Nat)
    (w : World) : Prop where
  | unopened (ht : w.task.isLaunched = false)
      (fresh : ∀ e ∈ w.events, e = .cancelled plan.target.interface 0)
      (hacc : acc ≠ [] → w.events = [])
  | opened (ht : w.task.isLaunched) (he : w.events = opening plan :: failures ns)
  | closed {outcome attempts elapsed} (ht : w.task.isLaunched) (id : CallId) (hid : acc = [id])
      (he : w.events = opening plan :: failures ns ++ [closing outcome attempts elapsed])
      (account : Account plan ns attempts cut outcome) (told : (id, outcome) ∈ w.told)

/-- What holds between the steps of an unbroken run with the given accepted starts, notes and
attempts that were cut off. -/
structure Recounts (plan : Plan) (acc : List CallId) (ns : List Note) (cut : List Nat)
    (w : World) : Prop where
  closings : w.closings = w.shared.phase.isTerminal.toNat
  progress : Progress plan ns cut w.task w.shared
  stopped : ∀ before runtime, .stopped before runtime ∈ w.calls →
    (acc = [] → before.attempts = 0) ∧ (acc ≠ [] →
      Account plan ns before.attempts cut (.error (.cancelled plan.target.interface)))
  log : Chronicle plan acc ns cut w

/-- The deadline cuts an attempt off only if nobody has stopped the arbitration. -/
theorem cutOffIn_eq_nil_or (plan : Plan) (w : World) (a : Action) :
    cutOffIn plan w a = [] ∨
      ∃ attempt lookup, w.task = .polling attempt lookup ∧ w.shared.stopSignalled = false := by
  by_cases ha : a = .task
  case neg => exact .inl (cutOffIn_of_ne_task ha)
  subst ha
  unfold cutOffIn
  have hm : TaskMove plan w (w.step plan .task) := taskStep_move plan w
  generalize w.step plan .task = after at hm
  cases hm with
  | wait => exact .inl (by rw [cutOff?_self]; rfl)
  | leave => cases w.task <;> exact .inl rfl
  | expire ht unstopped => exact .inr ⟨_, _, ht, unstopped⟩
  | begin ht | overflow ht | ask ht | pend ht | take ht | check ht | select ht | abort ht
  | retry ht | abandon ht | wake ht | late ht | close ht | deliver ht =>
    exact .inl (by rw [ht]; rfl)

namespace Recounts

variable {replies : List Reply} {a : Action}

/-- Once the arbitration has ended, nothing is noted any more. -/
theorem frozen (h : Recounts plan acc ns cut w) (hd : Delivers plan acc w) (hk : Keeps acc w)
    (hc : Concludes plan acc replies w) (ended : w.shared.phase.isTerminal) (a : Action) :
    notedIn plan w a = [] ∧ cutOffIn plan w a = [] := by
  have hworking {attempt : Nat} (ht : w.task.attempt? = some attempt)
      (unstopped : w.shared.stopSignalled = false) : False := by
    have hp := attempting_of_unstopped hd hk hc
      (by cases hw : w.task <;> simp [hw, Task.attempt?] at ht <;> rfl)
      (by rintro _ _ hw; simp [hw, Task.attempt?] at ht)
      (by rintro hw; simp [hw, Task.attempt?] at ht) unstopped
    simp [hp, Phase.isTerminal] at ended
  constructor
  · refine notedIn_eq_nil (fun attempt reply ht => ?_) a
    have hattempt : w.task.attempt? = some attempt := by rw [ht]; rfl
    obtain ⟨-, -, -, -, unstopped⟩ := h.progress.of_attempt hattempt
    exact hworking hattempt (unstopped (by rw [ht]; rfl))
  · refine (cutOffIn_eq_nil_or plan w a).resolve_right ?_
    rintro ⟨attempt, lookup, ht, unstopped⟩
    exact hworking (by rw [ht]; rfl) unstopped

/-- The stop that cancels an arbitration finds the task still at work, or on its way out. -/
theorem account_of_cancel (h : Recounts plan acc ns cut w) (hk : Keeps acc w)
    (launched : w.task.isLaunched) (undecided : w.task.isDeciding = false)
    (going : w.shared.phase.isTerminal = false) :
    Account plan ns w.shared.attempts cut (.error (.cancelled plan.target.interface)) := by
  cases h.progress with
  | absent ht => simp [ht, Task.isLaunched] at launched
  | between _ retried hcut count => exact hcut ▸ .cancelled retried (.inl count)
  | within _ retried hcut count => exact hcut ▸ .cancelled retried (.inr count)
  | closing ht => simp [ht, Task.isDeciding] at undecided
  | delivering ht => simp [hk.delivering _ _ ht] at going
  | left _ retried hcut count => exact hcut ▸ .cancelled retried count
  | done _ ended => simp [ended] at going

theorem stopped_step (h : Recounts plan acc ns cut w) (hd : Delivers plan acc w)
    (hk : Keeps acc w) (hc : Concludes plan acc replies w) (ha : Attributes acc w)
    (unbroken : Uninterrupted w a) {before : Shared} {runtime : Bool}
    (hin : .stopped before runtime ∈ (w.step plan a).calls) :
    (acc ++ acceptedIn plan w a = [] → before.attempts = 0) ∧ (acc ++ acceptedIn plan w a ≠ [] →
      Account plan (ns ++ notedIn plan w a) before.attempts (cut ++ cutOffIn plan w a)
        (.error (.cancelled plan.target.interface))) := by
  -- The stop has its state from before, when the arbitration ended, or takes the lock in this step.
  rcases stopped_origin plan a hin with hin | ⟨rfl, going, i, rfl, hi⟩
  · have ended : w.shared.phase.isTerminal := by rw [(ha.stopped _ _ hin).2]; rfl
    obtain ⟨hn, hcut⟩ := h.frozen hd hk hc ended a
    rw [acceptedIn_of_terminal ended, hn, hcut]
    simpa using h.stopped before runtime hin
  · have hother : Action.call i ≠ .task := nofun
    have hnew : acceptedIn plan w (.call i) = [] := acceptedIn_signalled hi
    rw [hnew, notedIn_of_ne_task hother, cutOffIn_of_ne_task hother]
    simp only [List.append_nil]
    refine ⟨fun hnil => ?_, fun hne => ?_⟩
    · subst hnil
      exact (h.progress.of_absent hd.absent_of_nil).2.2
    · refine h.account_of_cancel hk ?_ (by simpa [Action.isTask] using unbroken.1) going
      by_contra hlaunched
      -- A start that was accepted would go on now, and not a stop.
      obtain ⟨j, id, hj⟩ := hd.exists_accepted hne (by simpa using hlaunched)
      obtain rfl : i = j := Action.call.inj (unbroken.eq_call hj)
      simp [hi] at hj

/-- An accepted start whose turn it is sets the task to work. -/
theorem launched_step (hd : Delivers plan acc w) (hne : acc ≠ [])
    (ht : w.task.isLaunched = false) (unbroken : Uninterrupted w a) :
    (w.step plan a).task.isLaunched := by
  obtain ⟨i, id, hi⟩ := hd.exists_accepted hne ht
  obtain rfl := unbroken.eq_call hi
  rw [step_call hi]
  rfl

theorem log_step_of_unopened (h : Recounts plan acc ns cut w) (hd : Delivers plan acc w)
    (ha : Attributes acc w) (unbroken : Uninterrupted w a) (ht : w.task.isLaunched = false)
    (fresh : ∀ e ∈ w.events, e = .cancelled plan.target.interface 0)
    (hacc : acc ≠ [] → w.events = []) :
    Chronicle plan (acc ++ acceptedIn plan w a) (ns ++ notedIn plan w a) (cut ++ cutOffIn plan w a)
      (w.step plan a) := by
  have hlaunched := fun hne => launched_step hd hne ht unbroken
  obtain ⟨rfl, rfl, -⟩ := h.progress.of_absent (Task.eq_absent (by simp [ht]))
  have hm := step_recordMove plan w a
  have hphase := step_phaseMove plan w a
  generalize w.step plan a = after at hm hlaunched hphase ⊢
  cases hm with
  | keep he hn hl =>
    refine .unopened (hl.trans ht) (he ▸ fresh) fun hne => ?_
    rw [he]
    generalize acceptedIn plan w a = new at hphase hne
    cases hphase with
    | start id idle =>
      -- Only closing records are there so far, and an idle arbitration has none of them.
      have hnone : w.closings = 0 := by rw [h.closings, idle]; rfl
      refine List.eq_nil_iff_forall_not_mem.mpr fun e hmem => ?_
      have hpos : 0 < w.events.countP Log.Event.isClosing :=
        List.countP_pos_iff.mpr ⟨e, hmem, by rw [fresh e hmem]; rfl⟩
      unfold World.closings at hnone
      omega
    | keep | cancel | close => exact hacc (by simpa using hne)
  | opening hc hn he hl =>
    refine .opened hl ?_
    rw [he, hacc (hd.ne_nil_of_accepted hc), hn]
    rfl
  | @cancelled before runtime hc hn he hl =>
    have hnil : acc = [] := by
      by_contra hne
      simp [hlaunched hne, ht] at hl
    have hnew : acceptedIn plan w a = [] :=
      acceptedIn_of_terminal (by rw [(ha.stopped before runtime hc).2]; rfl) a
    refine .unopened (hl.trans ht) ?_ (by simp [hnil, hnew])
    intro e hmem
    rw [he, List.mem_append, List.mem_singleton] at hmem
    rcases hmem with hmem | rfl
    · exact fresh e hmem
    · rw [(h.stopped before runtime hc).1 hnil]
  | note hw | ended hw => simp [hw, Task.isLaunched] at ht

/-- An arbitration that has come to its closing record has nothing more to tell. -/
theorem silent_of_closed (h : Recounts plan acc ns cut w) {e : Log.Event} (hmem : e ∈ w.events)
    (hclosing : e.isClosing) :
    w.shared.phase.isTerminal ∧ (∀ c ∈ w.calls, c.isTelling = false) ∧
      w.task.isTelling = false := by
  have hpos : 0 < w.events.countP Log.Event.isClosing := List.countP_pos_iff.mpr ⟨e, hmem, hclosing⟩
  have hall := h.closings
  unfold World.closings at hall
  have hle := Bool.toNat_le w.shared.phase.isTerminal
  refine ⟨?_, fun c hc => ?_, ?_⟩
  · cases hp : w.shared.phase.isTerminal with
    | true => rfl
    | false =>
      rw [hp, Bool.toNat_false] at hall
      omega
  · have hnone : w.calls.countP Call.isTelling = 0 := by omega
    simpa using List.countP_eq_zero.mp hnone c hc
  · cases ht : w.task.isTelling with
    | false => rfl
    | true =>
      rw [ht, Bool.toNat_true] at hall
      omega

theorem log_step_of_opened (h : Recounts plan acc ns cut w) (hd : Delivers plan acc w)
    (hk : Keeps acc w) (hc : Concludes plan acc replies w) (ha : Attributes acc w)
    (ht : w.task.isLaunched) (he : w.events = opening plan :: failures ns) (a : Action) :
    Chronicle plan (acc ++ acceptedIn plan w a) (ns ++ notedIn plan w a) (cut ++ cutOffIn plan w a)
      (w.step plan a) := by
  obtain ⟨id, rfl⟩ := hd.eq_singleton (hd.ne_nil_of_launched ht)
  rw [hd.acceptedIn_eq_nil (List.cons_ne_nil _ _), List.append_nil]
  have hfrozen := fun ended => h.frozen hd hk hc ended a
  have hm := step_recordMove plan w a
  generalize w.step plan a = after at hm
  cases hm with
  | keep he' hn hl => exact .opened (hl.trans ht) (by rw [he', he, hn, List.append_nil])
  | opening hc => simp [hd.absent_of_accepted hc, Task.isLaunched] at ht
  | note hw hn he' hl =>
    refine .opened hl ?_
    obtain ⟨rfl, -, -, count, -⟩ := h.progress.of_attempt (by rw [hw]; rfl)
    rw [he', he, hn, failures_concat, count]
    rfl
  | @cancelled before runtime hc _ he' hl told =>
    obtain ⟨hnames, hp⟩ := ha.stopped before runtime hc
    obtain ⟨hn, hcut⟩ := hfrozen (by rw [hp]; rfl)
    rw [hn, hcut, List.append_nil, List.append_nil]
    have hlog : after.events = opening plan :: failures ns ++
        [closing (.error (.cancelled plan.target.interface)) before.attempts 0] := by
      rw [he', he]
      rfl
    have account := (h.stopped before runtime hc).2 (List.cons_ne_nil _ _)
    exact .closed (hl.trans ht) id rfl hlog account (told id hnames.answerTo)
  | @ended before outcome elapsed hw _ he' hl told =>
    obtain ⟨hnames, -⟩ := ha.delivering before outcome hw
    obtain ⟨hn, hcut⟩ := hfrozen (hk.delivering before outcome hw)
    rw [hn, hcut, List.append_nil, List.append_nil]
    have hrecord : closing outcome before.attempts elapsed = _ :=
      closing_eq_endRecord (hd.reached outcome (by rw [hw]; rfl)) before.attempts elapsed
    exact .closed hl id rfl (by rw [he', he, hrecord]) (h.progress.of_delivering hw)
      (told id hnames.answerTo)

theorem log_step (h : Recounts plan acc ns cut w) (hd : Delivers plan acc w)
    (hk : Keeps acc w) (hc : Concludes plan acc replies w) (ha : Attributes acc w)
    (unbroken : Uninterrupted w a) :
    Chronicle plan (acc ++ acceptedIn plan w a) (ns ++ notedIn plan w a) (cut ++ cutOffIn plan w a)
      (w.step plan a) := by
  cases h.log with
  | unopened ht fresh hacc => exact h.log_step_of_unopened hd ha unbroken ht fresh hacc
  | opened ht he => exact h.log_step_of_opened hd hk hc ha ht he a
  | @closed outcome attempts elapsed ht id hid he account told =>
    obtain ⟨ended, hcalls, htask⟩ := h.silent_of_closed
      (e := closing outcome attempts elapsed) (by simp [he]) (closing_isClosing _ _ _)
    obtain ⟨hn, hcut⟩ := h.frozen hd hk hc ended a
    rw [acceptedIn_of_terminal ended, hn, hcut]
    simp only [List.append_nil]
    have htold := (told_suffix plan w a).subset told
    have hm := step_recordMove plan w a
    generalize w.step plan a = after at hm htold
    cases hm with
    | keep he' _ hl => exact .closed (hl.trans ht) id hid (he'.trans he) account htold
    | opening hc => simp [hd.absent_of_accepted hc, Task.isLaunched] at ht
    | note hw hn' => simp [hn] at hn'
    | cancelled hc => cases hcalls _ hc
    | ended hw => simp [hw, Task.isTelling] at htask

theorem step (h : Recounts plan acc ns cut w) (hd : Delivers plan acc w) (hk : Keeps acc w)
    (hc : Concludes plan acc replies w) (ha : Attributes acc w) (unbroken : Uninterrupted w a)
    (hclosings : (w.step plan a).closings = (w.step plan a).shared.phase.isTerminal.toNat) :
    Recounts plan (acc ++ acceptedIn plan w a) (ns ++ notedIn plan w a) (cut ++ cutOffIn plan w a)
      (w.step plan a) where
  closings := hclosings
  progress := progress_step h.progress hd hk unbroken
  stopped _ _ hin := h.stopped_step hd hk hc ha unbroken hin
  log := h.log_step hd hk hc ha unbroken

theorem init (plan : Plan) : Recounts plan [] [] [] {} where
  closings := rfl
  progress := .absent rfl rfl rfl rfl
  stopped _ _ h := by cases h
  log := .unopened rfl (by simp [World.events]) (by simp)

theorem run (plan : Plan) {actions : List Action} (unbroken : Unbroken plan {} actions) :
    Recounts plan (accepted plan {} actions) (notes plan (judged plan {} actions))
      (cutOff plan {} actions) (World.run plan {} actions) := by
  induction actions using List.reverseRecOn with
  | nil => exact init plan
  | append_singleton actions a ih =>
    obtain ⟨hearlier, ha⟩ := unbroken_concat.mp unbroken
    have hclosings := closings_run plan (actions ++ [a])
    rw [run_concat] at hclosings ⊢
    rw [accepted, judged, cutOff, gather_concat, gather_concat, gather_concat, notes_append]
    exact (ih hearlier).step (.run plan actions) (.run plan actions) (.run plan actions)
      (.run plan actions) ha hclosings

end Recounts

/-- As long as there is no closing record, the accepted start was not told anything. -/
theorem answersTo_of_open (hd : Delivers plan acc w) (ha : Attributes acc w)
    (hclosings : w.closings = w.shared.phase.isTerminal.toNat)
    (hopen : ∀ e ∈ w.events, e.isClosing = false) {id : CallId} (hid : id ∈ acc) :
    w.answersTo id = [] := by
  obtain ⟨id', rfl⟩ := hd.eq_singleton (List.ne_nil_of_mem hid)
  obtain rfl := List.mem_singleton.mp hid
  have hnone : w.events.countP Log.Event.isClosing = 0 :=
    List.countP_eq_zero.mpr fun e he => by simp [hopen e he]
  unfold closings at hclosings
  cases ht : w.shared.phase.isTerminal with
  | false =>
    have hp : w.shared.phase = .attempting := by
      cases hp : w.shared.phase with
      | idle => cases (hd.idle hp).1
      | attempting => rfl
      | succeeded | failed | cancelled => simp [hp, Phase.isTerminal] at ht
    exact answersTo_of_attempting hd hp hid
  | true =>
    rw [ht, hnone, Bool.toNat_true] at hclosings
    cases htask : w.task.isTelling with
    | true =>
      cases hw : w.task with
      | delivering before outcome =>
        exact answersTo_of_delivering hd hw (ha.delivering before outcome hw).1.answerTo
      | _ => simp [hw, Task.isTelling] at htask
    | false =>
      rw [htask, Bool.toNat_false] at hclosings
      obtain ⟨c, hc, htelling⟩ : ∃ c ∈ w.calls, c.isTelling :=
        List.countP_pos_iff.mp (by omega)
      cases c with
      | stopped before runtime =>
        exact answersTo_of_stopped hd hc (ha.stopped before runtime hc).1.answerTo
      | _ => cases htelling

theorem failures_isClosing {e : Log.Event} (he : e ∈ failures ns) : e.isClosing = false := by
  obtain ⟨i, -, rfl⟩ := List.mem_mapIdx.mp he
  rfl

/-- In an open log an attempt is marked as the last one only if the task is about to say so. -/
theorem Recounts.marked_of_open (h : Recounts plan acc ns cut w) (hne : acc ≠ [])
    (hopen : ∀ e ∈ w.events, e.isClosing = false) :
    Marked ns (∃ outcome ∈ w.task.reached, ∃ text, outcome.GivesUp text) := by
  have hundecided {ns : List Note} (retried : ∀ n ∈ ns, n.willRetry) (hr : w.task.reached = none) :
      Marked ns (∃ outcome ∈ w.task.reached, ∃ text, outcome.GivesUp text) :=
    marked_of_retried retried (by simp [hr])
  cases h.progress with
  | absent ht hns => exact hundecided (by simp [hns]) (by rw [ht]; rfl)
  | between ht retried =>
    exact hundecided retried (by rcases ht with ht | ht | ⟨_, ht⟩ <;> rw [ht] <;> rfl)
  | within ht retried =>
    exact hundecided retried (by cases hw : w.task <;> simp [hw, Task.attempt?, Task.reached] at ht ⊢)
  | closing ht account => simpa [ht, Task.reached] using account.tallies.marked
  | delivering ht account => simpa [ht, Task.reached] using account.tallies.marked
  | left ht retried => exact hundecided retried (by rw [ht]; rfl)
  | done ht ended =>
    -- Nothing but a stop that has cancelled the arbitration can still have the closing record.
    have hclosings := h.closings
    have hnone : w.events.countP Log.Event.isClosing = 0 :=
      List.countP_eq_zero.mpr fun e he => by simp [hopen e he]
    unfold World.closings at hclosings
    rw [ended, hnone, ht] at hclosings
    obtain ⟨c, hc, htelling⟩ : ∃ c ∈ w.calls, c.isTelling :=
      List.countP_pos_iff.mp (by simp [Task.isTelling] at hclosings; omega)
    cases c with
    | stopped before runtime =>
      have marked := ((h.stopped before runtime hc).2 hne).tallies.marked
      simpa [ht, Task.reached, Outcome.GivesUp] using marked
    | _ => cases htelling

/-- The records of an arbitration are a log that agrees with its outcome, as far as it got: the
opening, one for each attempt that came to nothing, and the closing one of the outcome. -/
theorem records_form_a_log (plan : Plan) (actions : List Action)
    (unbroken : Unbroken plan {} actions) :
    let w := World.run plan {} actions
    let ns := notes plan (judged plan {} actions)
    -- Stopped before any start, it leaves at most the record of that.
    (accepted plan {} actions = [] →
      w.events = [] ∨ w.events = [.cancelled plan.target.interface 0]) ∧
    ∀ id ∈ accepted plan {} actions,
      w.answersTo id = [] ∧ (w.events = [] ∨ w.events = opening plan :: failures ns ∧
        Marked ns (∃ outcome ∈ w.task.reached, ∃ text, outcome.GivesUp text)) ∨
      ∃ outcome attempts elapsed, w.answersTo id = [outcome] ∧
        w.events = opening plan :: failures ns ++ [closing outcome attempts elapsed] ∧
        Tallies plan ns (cutOff plan {} actions) attempts outcome := by
  intro w ns
  have hd : Delivers plan (accepted plan {} actions) w := .run plan actions
  have ha : Attributes (accepted plan {} actions) w := .run plan actions
  have h : Recounts plan (accepted plan {} actions) ns (cutOff plan {} actions) w := .run plan unbroken
  generalize accepted plan {} actions = acc at hd ha h
  constructor
  · rintro rfl
    cases h.log with
    | unopened ht fresh =>
      have hone : w.events.countP Log.Event.isClosing ≤ 1 := by
        have hle := Bool.toNat_le w.shared.phase.isTerminal
        have hclosings := h.closings
        unfold World.closings at hclosings
        omega
      have hall : w.events.countP Log.Event.isClosing = w.events.length :=
        List.countP_eq_length.mpr fun e he => by rw [fresh e he]; rfl
      match he : w.events with
      | [] => exact .inl rfl
      | [e] => exact .inr (by rw [fresh e (by simp [he])])
      | _ :: _ :: _ =>
        simp only [he, List.length_cons] at hall hone
        omega
    | opened ht => simp [hd.absent_of_nil, Task.isLaunched] at ht
    | closed ht => simp [hd.absent_of_nil, Task.isLaunched] at ht
  · intro id hid
    have hne := List.ne_nil_of_mem hid
    cases h.log with
    | unopened ht _ hacc =>
      have hnone := hacc hne
      exact .inl ⟨answersTo_of_open hd ha h.closings (by simp [hnone]) hid, .inl hnone⟩
    | opened ht he =>
      have hopen : ∀ e ∈ w.events, e.isClosing = false := by
        rw [he]
        exact List.forall_mem_cons.mpr ⟨rfl, fun e => failures_isClosing⟩
      exact .inl ⟨answersTo_of_open hd ha h.closings hopen hid,
        .inr ⟨he, h.marked_of_open hne hopen⟩⟩
    | @closed outcome attempts elapsed ht id' hid' he account told =>
      obtain rfl : id = id' := by simpa [hid'] using hid
      exact .inr ⟨outcome, attempts, elapsed, hd.answersTo_eq told, he, account.tallies⟩

/-- Both attempts of an outage are in its log, and the record of the failure counts two. -/
theorem log_of_outage :
    ∃ elapsed, (World.run twoAttempts {} outage).events =
      [opening twoAttempts,
       .attemptFailed 1 "No compatible provider version" true,
       .attemptFailed 2 (continuing (lookupFailure twoAttempts "connection refused")) true,
       .failed (Failure.noCompatibleProvider twoAttempts.target [{ major := 2 }]).message 2
         elapsed] := by
  have unbroken : Unbroken twoAttempts {} outage := by decide +kernel
  have haccepted : accepted twoAttempts {} outage = [0] := by rfl
  have htold : (World.run twoAttempts {} outage).answersTo 0 =
      [.error (.noCompatibleProvider twoAttempts.target [{ major := 2 }])] := by decide +kernel
  have hnotes : notes twoAttempts (judged twoAttempts {} outage) =
      [{ cause := "No compatible provider version", willRetry := true },
       { cause := continuing (lookupFailure twoAttempts "connection refused"),
         willRetry := true }] := by decide +kernel
  have hcut : cutOff twoAttempts {} outage = [] := by rfl
  obtain ⟨-, hlog⟩ := records_form_a_log twoAttempts outage unbroken
  obtain ⟨hnone, -⟩ | ⟨outcome, attempts, elapsed, houtcome, hevents, htallies⟩ :=
    hlog 0 (by rw [haccepted]; exact List.mem_singleton_self 0)
  · simp [htold] at hnone
  · obtain rfl := List.singleton_inj.mp (htold.symm.trans houtcome)
    obtain ⟨-, hcount⟩ | ⟨hcut', -⟩ := htallies.ranOut _ rfl rfl nofun
    · rw [hnotes] at hcount hevents
      obtain rfl : 2 = attempts := hcount
      exact ⟨elapsed, hevents⟩
    · simp [hcut] at hcut'

end World

end Arbiter.Arbitration
