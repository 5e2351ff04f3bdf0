import Arbiter.Proofs.Arbitration.Lookups

/-!
What an arbitration records, and who is behind a record: the state from which a stop cancelled the
arbitration, or from which the task ended it, names the accepted start and no other.
-/

namespace Arbiter.Arbitration

namespace World

variable {plan : Plan} {w : World} {acc : List CallId}

/-- The records of the arbitration's life, in order. -/
def events (w : World) : List Log.Event :=
  w.trace.reverse.filterMap Happening.event?

/-- What was counted, in order. -/
def counted (w : World) : List Metrics.Series :=
  w.trace.reverse.filterMap Happening.counted?

@[simp] theorem events_mk (now : Instant) (shared : Shared) (calls : List Call) (task : Task)
    (starts : Nat) : events ⟨now, shared, calls, task, starts, w.trace⟩ = w.events := rfl

@[simp] theorem counted_mk (now : Instant) (shared : Shared) (calls : List Call) (task : Task)
    (starts : Nat) : counted ⟨now, shared, calls, task, starts, w.trace⟩ = w.counted := rfl

@[simp] theorem events_emit (hs : List Happening) :
    (w.emit hs).events = w.events ++ hs.filterMap Happening.event? := by
  simp [events, emit, List.filterMap_append]

@[simp] theorem counted_emit (hs : List Happening) :
    (w.emit hs).counted = w.counted ++ hs.filterMap Happening.counted? := by
  simp [counted, emit, List.filterMap_append]

section Read

variable (hs : List Happening)

@[simp] theorem event_event (e : Log.Event) :
    (Happening.event e :: hs).filterMap Happening.event? =
      e :: hs.filterMap Happening.event? := rfl

@[simp] theorem event_counted (s : Metrics.Series) :
    (Happening.counted s :: hs).filterMap Happening.event? = hs.filterMap Happening.event? := rfl

@[simp] theorem event_lookup (query : Discovery.Query) (time : Instant) :
    (Happening.lookup query time :: hs).filterMap Happening.event? =
      hs.filterMap Happening.event? := rfl

@[simp] theorem counted_event (e : Log.Event) :
    (Happening.event e :: hs).filterMap Happening.counted? = hs.filterMap Happening.counted? := rfl

@[simp] theorem counted_counted (s : Metrics.Series) :
    (Happening.counted s :: hs).filterMap Happening.counted? =
      s :: hs.filterMap Happening.counted? := rfl

@[simp] theorem counted_lookup (query : Discovery.Query) (time : Instant) :
    (Happening.lookup query time :: hs).filterMap Happening.counted? =
      hs.filterMap Happening.counted? := rfl

end Read

@[simp] theorem event_answer (call : Option CallId) (outcome : Outcome) (runtime : Bool) :
    (w.answer call outcome runtime).filterMap Happening.event? = [] := by
  cases call <;> rfl

@[simp] theorem counted_answer (call : Option CallId) (outcome : Outcome) (runtime : Bool) :
    (w.answer call outcome runtime).filterMap Happening.counted? = [] := by
  cases call <;> rfl

@[simp] theorem event_countOutcome (label : String) :
    (countOutcome label).filterMap Happening.event? = [] := rfl

@[simp] theorem counted_countOutcome (label : String) :
    (countOutcome label).filterMap Happening.counted? = Metrics.outcome label := rfl

@[simp] theorem event_countOutcome_if (c : Prop) [Decidable c] (label : String) :
    (if c then countOutcome label else []).filterMap Happening.event? = [] := by
  split_ifs <;> rfl

@[simp] theorem counted_countOutcome_if (c : Prop) [Decidable c] (label : String) :
    (if c then countOutcome label else []).filterMap Happening.counted? =
      if c then Metrics.outcome label else [] := by
  split_ifs <;> rfl

/-- The record with which the task ends an arbitration. -/
def endRecord (outcome : Outcome) (attempts elapsed : Nat) : Log.Event :=
  match outcome with
  | .ok e => .succeeded e.participant e.version.toString attempts elapsed
  | .error failure => .failed failure.message attempts elapsed

section Deliver

variable (before : Shared) (outcome : Outcome)

@[simp] theorem events_deliver :
    (w.deliver before outcome).events =
      w.events ++ [endRecord outcome before.attempts (before.elapsed w.now).millis] := by
  unfold deliver
  cases outcome <;> simp [endRecord]

@[simp] theorem counted_deliver :
    (w.deliver before outcome).counted = w.counted ++ Metrics.outcome (label outcome) := by
  unfold deliver
  simp

end Deliver

namespace Delivers

theorem absent_of_nil (h : Delivers plan [] w) : w.task = .absent := by
  have hl := h.launched
  refine Task.eq_absent fun ht => ?_
  simp [ht] at hl

theorem eq_singleton (h : Delivers plan acc w) (hne : acc ≠ []) : ∃ id, acc = [id] :=
  List.length_eq_one_iff.mp (Nat.le_antisymm h.length_le_one (List.length_pos_of_ne_nil hne))

theorem ne_nil_of_launched (h : Delivers plan acc w) (ht : w.task.isLaunched) :
    acc ≠ [] := by
  rintro rfl
  simp [h.absent_of_nil, Task.isLaunched] at ht

theorem ne_nil_of_accepted (h : Delivers plan acc w) {id : CallId}
    (hc : .accepted id ∈ w.calls) : acc ≠ [] := by
  rintro rfl
  have hl := h.launched
  have hpos : 0 < w.calls.countP Call.isAccepted := List.countP_pos_iff.mpr ⟨_, hc, rfl⟩
  rw [List.length_nil] at hl
  omega

/-- A start that was accepted and has not set the task to work is still to do so. -/
theorem exists_accepted (h : Delivers plan acc w) (hne : acc ≠ [])
    (ht : w.task.isLaunched = false) :
    ∃ (i : Nat) (id : CallId), w.calls[i]? = some (.accepted id) := by
  have hl := h.launched
  have hpos := List.length_pos_of_ne_nil hne
  obtain ⟨c, hmem, hc⟩ : ∃ c ∈ w.calls, c.isAccepted :=
    List.countP_pos_iff.mp (by rw [ht, Bool.toNat_false] at hl; omega)
  obtain ⟨i, hi⟩ := List.getElem?_of_mem hmem
  cases c with
  | accepted id => exact ⟨i, id, hi⟩
  | _ => cases hc

end Delivers

/-- Whose continuation a state that was left behind holds. -/
structure Names (acc : List CallId) (before : Shared) : Prop where
  answerTo : before.answerTo = acc.head?
  startedAt : before.startedAt.isSome = acc.head?.isSome

/-- What holds between the steps of every run in which the given starts were accepted. -/
structure Attributes (acc : List CallId) (w : World) : Prop where
  unstarted : acc = [] → w.shared.startedAt = none
  stopped : ∀ before runtime, .stopped before runtime ∈ w.calls →
    Names acc before ∧ w.shared.phase = .cancelled
  delivering : ∀ before outcome, w.task = .delivering before outcome →
    Names acc before ∧ acc ≠ []

/-- A stop that is about to tell of it was so before the step, or cancels the arbitration in it. -/
theorem stopped_origin (plan : Plan) (a : Action) {before : Shared} {runtime : Bool}
    (hc : .stopped before runtime ∈ (w.step plan a).calls) :
    .stopped before runtime ∈ w.calls ∨ before = w.shared ∧
      w.shared.phase.isTerminal = false ∧ ∃ i, a = .call i ∧
        w.calls[i]? = some (.signalled runtime) := by
  have hm := step_move plan w a
  generalize w.step plan a = after at hm hc
  cases hm with
  | start | stop => exact .inl (by simpa using hc)
  | noCall | replyAtOnce | reply | unasked | advance => exact .inl hc
  | task move =>
    obtain ⟨-, hcalls, -⟩ := move.frame
    exact .inl (hcalls ▸ hc)
  | call hi split hs move =>
    rw [split] at hi ⊢
    cases move with
    | cancel runtime' going =>
      simp only [List.mem_append, Option.toList_some, List.mem_singleton] at hc
      rcases hc with (hc | hc) | hc
      · exact .inl (by simp [hc])
      · obtain ⟨rfl, rfl⟩ := Call.stopped.inj hc
        exact .inr ⟨rfl, going, _, rfl, hi⟩
      · exact .inl (by simp [hc])
    | accept | refuse | refused | launch | signal | late | stopped =>
      exact .inl (by simp at hc ⊢; tauto)

/-- A step that finds the arbitration ended accepts no start. -/
theorem acceptedIn_of_terminal (ht : w.shared.phase.isTerminal) (a : Action) :
    acceptedIn plan w a = [] := by
  have hm := step_phaseMove plan w a
  generalize w.step plan a = after, acceptedIn plan w a = new at hm
  cases hm with
  | start id idle => simp [idle, Phase.isTerminal] at ht
  | keep | cancel | close => rfl

theorem acceptedIn_signalled {i : Nat} {runtime : Bool}
    (hc : w.calls[i]? = some (.signalled runtime)) : acceptedIn plan w (.call i) = [] := by
  cases hp : w.shared.phase.isTerminal <;> simp [acceptedIn, hc, callStep, Shared.stop, hp]

theorem phase_of_cancel {i : Nat} {runtime : Bool} (going : w.shared.phase.isTerminal = false)
    (hc : w.calls[i]? = some (.signalled runtime)) :
    (w.step plan (.call i)).shared.phase = .cancelled := by
  simp [step_call hc, callStep, Shared.stop, going]

namespace Attributes

theorem names_shared (h : Attributes acc w) (hd : Delivers plan acc w) (hk : Keeps acc w)
    (going : w.shared.phase.isTerminal = false) : Names acc w.shared := by
  cases hp : w.shared.phase with
  | idle =>
    obtain ⟨rfl, hanswer⟩ := hd.idle hp
    exact ⟨hanswer, by rw [h.unstarted rfl]; rfl⟩
  | attempting =>
    obtain ⟨id, rfl, hanswer⟩ := hd.attempting hp
    exact ⟨hanswer, hk.started (List.cons_ne_nil _ _)⟩
  | succeeded | failed | cancelled => simp [hp, Phase.isTerminal] at going

theorem unstarted_step (h : Attributes acc w) (a : Action) (ha : acc ++ acceptedIn plan w a = []) :
    (w.step plan a).shared.startedAt = none := by
  have hu := h.unstarted (List.append_eq_nil_iff.mp ha).1
  have hm := step_move plan w a
  generalize w.step plan a = after at hm
  cases hm with
  | call hc split hs move =>
    simp only [acceptedIn, hc, hs, Option.map_some] at ha
    cases move with
    | accept => simp at ha
    | refuse | refused | launch | signal | late | cancel | stopped => exact hu
  | task move =>
    obtain ⟨-, -, hstart⟩ := move.frame
    rw [hstart, hu]
  | start | stop | noCall | replyAtOnce | reply | unasked | advance => exact hu

theorem stopped_step (h : Attributes acc w) (hd : Delivers plan acc w) (hk : Keeps acc w)
    (a : Action) {before : Shared} {runtime : Bool}
    (hc : .stopped before runtime ∈ (w.step plan a).calls) :
    Names (acc ++ acceptedIn plan w a) before ∧ (w.step plan a).shared.phase = .cancelled := by
  rcases stopped_origin plan a hc with hin | ⟨rfl, going, i, rfl, hi⟩
  · obtain ⟨hnames, hp⟩ := h.stopped before runtime hin
    have ht : w.shared.phase.isTerminal := by rw [hp]; rfl
    rw [acceptedIn_of_terminal ht, List.append_nil, hd.phase_step_of_terminal ht]
    exact ⟨hnames, hp⟩
  · rw [acceptedIn_signalled hi, List.append_nil]
    exact ⟨h.names_shared hd hk going, phase_of_cancel going hi⟩

theorem delivering_step (h : Attributes acc w) (hd : Delivers plan acc w) (hk : Keeps acc w)
    (a : Action) {before : Shared} {outcome : Outcome}
    (ht : (w.step plan a).task = .delivering before outcome) :
    Names (acc ++ acceptedIn plan w a) before ∧ acc ++ acceptedIn plan w a ≠ [] := by
  have hstays (hdel : w.task = .delivering before outcome) :
      Names (acc ++ acceptedIn plan w a) before ∧ acc ++ acceptedIn plan w a ≠ [] := by
    obtain ⟨hnames, hne⟩ := h.delivering before outcome hdel
    rw [hd.acceptedIn_eq_nil hne, List.append_nil]
    exact ⟨hnames, hne⟩
  have hm := step_move plan w a
  generalize w.step plan a = after at hm ht
  cases hm with
  | start | stop | noCall | unasked | advance => exact hstays ht
  | replyAtOnce | reply => cases ht
  | call hc split hs move =>
    cases move with
    | launch => cases ht
    | accept | refuse | refused | signal | late | cancel | stopped => exact hstays ht
  | task move =>
    cases move with
    | wait => exact hstays ht
    | close hclosing going =>
      cases ht
      obtain ⟨id, hid, -⟩ :=
        hd.attempting (hd.attempting_of_launched (by rw [hclosing]; rfl) going)
      exact ⟨by simpa [acceptedIn] using h.names_shared hd hk going, by simp [hid]⟩
    | _ => cases ht

theorem step (h : Attributes acc w) (hd : Delivers plan acc w) (hk : Keeps acc w) (a : Action) :
    Attributes (acc ++ acceptedIn plan w a) (w.step plan a) where
  unstarted := h.unstarted_step a
  stopped _ _ := h.stopped_step hd hk a
  delivering _ _ := h.delivering_step hd hk a

theorem init : Attributes [] {} where
  unstarted _ := rfl
  stopped _ _ h := by cases h
  delivering _ _ h := by cases h

theorem run (plan : Plan) (actions : List Action) :
    Attributes (accepted plan {} actions) (World.run plan {} actions) := by
  induction actions using List.reverseRecOn with
  | nil => exact init
  | append_singleton actions a ih =>
    rw [accepted, gather_concat, run_concat]
    exact ih.step (.run plan actions) (.run plan actions) a

end Attributes

/-- Whose continuation is in any other place was not told yet. -/
theorem answersTo_of_held (hd : Delivers plan acc w) {id : CallId}
    (hid : id ∈ w.calls.flatMap Call.held ++ w.shared.answerTo.toList ++ w.task.held) :
    w.answersTo id = [] := by
  have hnodup : w.inventory.Nodup := hd.eachOnce.nodup_iff.mpr List.nodup_range
  obtain ⟨-, -, hdisjoint⟩ := List.nodup_append.mp hnodup
  rw [answersTo, List.map_eq_nil_iff, List.filter_eq_nil_iff]
  intro told htold heq
  exact hdisjoint id hid told.1 (List.mem_map_of_mem htold) (beq_iff_eq.mp heq).symm

theorem answersTo_of_attempting (hd : Delivers plan acc w) (hp : w.shared.phase = .attempting)
    {id : CallId} (hid : id ∈ acc) : w.answersTo id = [] := by
  obtain ⟨id', hid', hanswer⟩ := hd.attempting hp
  obtain rfl : id = id' := by simpa [hid'] using hid
  exact answersTo_of_held hd (by simp [hanswer])

theorem answersTo_of_stopped (hd : Delivers plan acc w) {before : Shared} {runtime : Bool}
    (hc : .stopped before runtime ∈ w.calls) {id : CallId} (hid : before.answerTo = some id) :
    w.answersTo id = [] := by
  refine answersTo_of_held hd (List.mem_append_left _ (List.mem_append_left _ ?_))
  exact List.mem_flatMap.mpr ⟨_, hc, by simp [Call.held, hid]⟩

theorem answersTo_of_delivering (hd : Delivers plan acc w) {before : Shared} {outcome : Outcome}
    (ht : w.task = .delivering before outcome) {id : CallId} (hid : before.answerTo = some id) :
    w.answersTo id = [] :=
  answersTo_of_held hd (by simp [ht, Task.held, hid])

/-- As long as no stop is signalled, the task works on an arbitration that is going on. -/
theorem attempting_of_unstopped {replies : List Discovery.Reply} (hd : Delivers plan acc w)
    (hk : Keeps acc w) (hc : Concludes plan acc replies w) (ht : w.task.isLaunched)
    (hdelivering : ∀ before outcome, w.task ≠ .delivering before outcome)
    (hfinished : w.task ≠ .finished) (unstopped : w.shared.stopSignalled = false) :
    w.shared.phase = .attempting := by
  refine hd.attempting_of_launched ht ?_
  have hended (hp : w.shared.phase = .succeeded ∨ w.shared.phase = .failed) : False := by
    obtain ⟨id, -, ⟨before, hb, -⟩ | ⟨hf, -⟩⟩ := hc.ended hp
    · exact hdelivering _ _ hb
    · exact hfinished hf
  cases hp : w.shared.phase with
  | idle | attempting => rfl
  | succeeded => exact (hended (.inl hp)).elim
  | failed => exact (hended (.inr hp)).elim
  | cancelled => simp [hk.stopped (.inl hp)] at unstopped

end World

end Arbiter.Arbitration
