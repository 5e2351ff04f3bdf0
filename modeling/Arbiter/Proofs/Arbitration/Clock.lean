import Arbiter.Arbitration.Clocked
import Arbiter.Proofs.Arbitration.Delivery
import Arbiter.Proofs.Duration

/-!
Runs on the clock. A run of an arbitration with its discovery service is a run of its world, and in a
timely run no timer and no reply is missed.
-/

namespace Arbiter.Arbitration

open Discovery

namespace Clocked

variable {s : Clocked} {a : Action} {actions : List Action}

@[simp] theorem goOn_world (s : Clocked) (w : World) : (s.goOn w).world = w := by
  unfold goOn
  split <;> rfl

@[simp] theorem goOn_plan (s : Clocked) (w : World) : (s.goOn w).plan = s.plan := by
  unfold goOn
  split <;> rfl

@[simp] theorem goOn_service (s : Clocked) (w : World) : (s.goOn w).service = s.service := by
  unfold goOn
  split <;> rfl

@[simp] theorem step_world (s : Clocked) (a : Action) :
    (s.step a).world = s.world.step s.plan a := by
  cases a <;> simp [step]

@[simp] theorem step_plan (s : Clocked) (a : Action) : (s.step a).plan = s.plan := by
  cases a <;> simp [step]

@[simp] theorem step_service (s : Clocked) (a : Action) : (s.step a).service = s.service := by
  cases a <;> simp [step]

theorem run_append (s : Clocked) (earlier later : List Action) :
    s.run (earlier ++ later) = (s.run earlier).run later :=
  List.foldl_append

@[simp] theorem run_concat (s : Clocked) (actions : List Action) (a : Action) :
    s.run (actions ++ [a]) = (s.run actions).step a :=
  run_append s actions [a]

@[simp] theorem run_plan (s : Clocked) (actions : List Action) : (s.run actions).plan = s.plan := by
  induction actions using List.reverseRecOn with
  | nil => rfl
  | append_singleton actions a ih => rw [run_concat, step_plan, ih]

@[simp] theorem run_service (s : Clocked) (actions : List Action) :
    (s.run actions).service = s.service := by
  induction actions using List.reverseRecOn with
  | nil => rfl
  | append_singleton actions a ih => rw [run_concat, step_service, ih]

@[simp] theorem run_world (s : Clocked) (actions : List Action) :
    (s.run actions).world = s.world.run s.plan actions := by
  induction actions using List.reverseRecOn with
  | nil => rfl
  | append_singleton actions a ih =>
    rw [run_concat, step_world, World.run_concat, ih, run_plan]

theorem timely_append (s : Clocked) (earlier later : List Action) :
    s.Timely (earlier ++ later) ↔ s.Timely earlier ∧ (s.run earlier).Timely later := by
  induction earlier generalizing s with
  | nil => simp [Timely, run]
  | cons b rest ih => simp [Timely, ih, and_assoc, run]

@[simp] theorem timely_concat (s : Clocked) (actions : List Action) (a : Action) :
    s.Timely (actions ++ [a]) ↔ s.Timely actions ∧ (s.run actions).Allows a := by
  rw [timely_append]
  simp [Timely]

instance (s : Clocked) (a : Action) : Decidable (s.Allows a) :=
  match a with
  | .reply r =>
    inferInstanceAs (Decidable (∃ arrival ∈ s.arrival, arrival.2 = r ∧ arrival.1 ≤ s.world.now))
  | .advance d =>
    inferInstanceAs (Decidable (s.world.calls = [] ∧
      (s.world.now + d).ceilMillis = s.world.now + d ∧
        ∀ due ∈ s.dues, s.world.now < due ∧ s.world.now + d ≤ due.ceilMillis))
  | .start _ | .stop _ | .call _ | .task => inferInstanceAs (Decidable True)

instance decidableTimely : (s : Clocked) → (actions : List Action) → Decidable (s.Timely actions)
  | _, [] => inferInstanceAs (Decidable True)
  | s, a :: rest =>
    have := decidableTimely (s.step a) rest
    inferInstanceAs (Decidable (s.Allows a ∧ (s.step a).Timely rest))

end Clocked

namespace World

variable {plan : Plan} {w : World} {acc : List CallId}

/-- When the arbitration was started; the present, as long as it was not. -/
def begun (w : World) : Instant := w.shared.startedAt.getD w.now

theorem deadline_eq (plan : Plan) (w : World) :
    w.deadline plan = Arbitration.deadline plan w.begun := rfl

/-- Where the task may be while the clock goes on. -/
inductive Rests (w : World) : Prop where
  | absent (ht : w.task = .absent)
  | finished (ht : w.task = .finished)
  | overflowed (ht : w.task = .overflowed)
  | outstanding {attempt} (ht : w.task = .polling attempt .outstanding)
      (unstopped : w.shared.stopSignalled = false)
  | pausing {wake} (ht : w.task = .pausing wake) (unstopped : w.shared.stopSignalled = false)

theorem taskDue_ne_now (later : ∀ due ∈ w.taskDue plan, w.now < due) :
    w.taskDue plan ≠ some w.now :=
  fun hnow => lt_irrefl _ (later w.now hnow)

theorem rests_of_later (later : ∀ due ∈ w.taskDue plan, w.now < due) : w.Rests := by
  have hbusy := taskDue_ne_now later
  have unstopped (hs : w.shared.stopSignalled → w.taskDue plan = some w.now) :
      w.shared.stopSignalled = false := by
    by_contra hne
    exact hbusy (hs (by simpa using hne))
  cases ht : w.task with
  | absent => exact .absent ht
  | finished => exact .finished ht
  | overflowed => exact .overflowed ht
  | polling attempt lookup =>
    cases lookup with
    | outstanding => exact .outstanding ht (unstopped fun hs => by simp [taskDue, ht, hs])
    | due | replied => exact absurd (by simp [taskDue, ht]) hbusy
  | pausing wake => exact .pausing ht (unstopped fun hs => by simp [taskDue, ht, hs])
  | beginning | asking | checking | judging | closing | delivering =>
    exact absurd (by simp [taskDue, ht]) hbusy

/-- What every run in which the given starts were accepted keeps about its start and about stops. -/
structure Keeps (acc : List CallId) (w : World) : Prop where
  started : acc ≠ [] → w.shared.startedAt.isSome
  begun_le : w.begun ≤ w.now
  fresh : w.task = .absent → w.shared.attempts = 0 ∧ w.lookups = []
  signalled : w.shared.stopSignalled →
    w.shared.phase.isTerminal ∨ ∃ runtime, .signalled runtime ∈ w.calls
  stopped : w.shared.phase = .cancelled ∨ (∃ runtime, .signalled runtime ∈ w.calls) →
    w.shared.stopSignalled
  left : w.task = .finished → w.shared.phase.isTerminal ∨ w.shared.stopSignalled
  delivering : ∀ before outcome, w.task = .delivering before outcome → w.shared.phase.isTerminal
  overflowed : w.task = .overflowed → attemptLimit ≤ w.shared.attempts + 1

namespace Keeps

theorem started_step (h : Keeps acc w) (a : Action) (ha : acc ++ acceptedIn plan w a ≠ []) :
    (w.step plan a).shared.startedAt.isSome := by
  have hs := h.started
  have hm := step_move plan w a
  generalize w.step plan a = after at hm
  cases hm with
  | start | stop | replyAtOnce | reply | unasked | advance =>
    exact hs (by simpa [acceptedIn] using ha)
  | noCall hc => exact hs (by simpa [acceptedIn, hc] using ha)
  | call hc split hcs move =>
    simp only [acceptedIn, hc, hcs, Option.map_some] at ha
    cases move with
    | accept id idle => rfl
    | refuse | refused | launch | signal | late | cancel | stopped => exact hs (by simpa using ha)
  | task move =>
    obtain ⟨-, -, hstart⟩ := move.frame
    rw [hstart]
    exact hs (by simpa [acceptedIn] using ha)

theorem begun_le_step (h : Keeps acc w) (a : Action) :
    (w.step plan a).begun ≤ (w.step plan a).now := by
  have hb := h.begun_le
  have hm := step_move plan w a
  generalize w.step plan a = after at hm
  cases hm with
  | start | stop | noCall | replyAtOnce | reply | unasked => exact hb
  | advance d =>
    rw [begun] at hb ⊢
    cases hs : w.shared.startedAt with
    | none => exact Nat.le_refl _
    | some start =>
      rw [hs] at hb
      exact Nat.le_trans hb (Nat.le_add_right _ _)
  | call hc split hcs move =>
    cases move with
    | accept id idle => exact Nat.le_refl _
    | refuse | refused | launch | signal | late | cancel | stopped => exact hb
  | task move =>
    obtain ⟨hnow, -, hstart⟩ := move.frame
    rwa [begun, hstart, hnow]

theorem fresh_step (h : Keeps acc w) (a : Action) (ht : (w.step plan a).task = .absent) :
    (w.step plan a).shared.attempts = 0 ∧ (w.step plan a).lookups = [] := by
  have hf := h.fresh
  have hm := step_move plan w a
  generalize w.step plan a = after at hm ht
  cases hm with
  | start | stop | noCall | unasked | advance => exact hf ht
  | replyAtOnce | reply => cases ht
  | call hc split hcs move =>
    cases move with
    | launch => cases ht
    | accept | refuse | signal | late | cancel => exact hf ht
    | refused | stopped => simpa using hf ht
  | task move =>
    cases move with
    | wait => exact hf ht
    | _ => cases ht

theorem signalled_step (h : Keeps acc w) (hd : Delivers plan acc w) (a : Action)
    (hs : (w.step plan a).shared.stopSignalled) :
    (w.step plan a).shared.phase.isTerminal ∨
      ∃ runtime, .signalled runtime ∈ (w.step plan a).calls := by
  cases hterm : w.shared.phase.isTerminal with
  | true => exact Or.inl (by rw [hd.phase_step_of_terminal hterm a, hterm])
  | false =>
    have hsig : w.shared.stopSignalled → ∃ runtime, .signalled runtime ∈ w.calls := by
      simpa [hterm] using h.signalled
    have hm := step_move plan w a
    generalize w.step plan a = after at hm hs
    cases hm with
    | start | stop =>
      obtain ⟨runtime, hr⟩ := hsig hs
      exact Or.inr ⟨runtime, by simp [hr]⟩
    | noCall | replyAtOnce | reply | unasked | advance => exact Or.inr (hsig hs)
    | call hc split hcs move =>
      rw [split] at hsig
      cases move with
      | signal runtime => exact Or.inr ⟨runtime, by simp⟩
      | late runtime ended => simp [hterm] at ended
      | cancel => exact Or.inl rfl
      | accept | refuse | refused | launch | stopped =>
        obtain ⟨runtime, hr⟩ := hsig hs
        exact Or.inr ⟨runtime, by simpa using hr⟩
    | task move =>
      cases move with
      | close ht going => cases ‹Outcome› <;> exact Or.inl rfl
      | _ => exact Or.inr (hsig hs)

theorem stopped_step (h : Keeps acc w) (a : Action)
    (hs : (w.step plan a).shared.phase = .cancelled ∨
      ∃ runtime, .signalled runtime ∈ (w.step plan a).calls) :
    (w.step plan a).shared.stopSignalled := by
  have hstop := h.stopped
  have hm := step_move plan w a
  generalize w.step plan a = after at hm hs
  cases hm with
  | start | stop => exact hstop (by simpa using hs)
  | noCall | replyAtOnce | reply | unasked | advance => exact hstop hs
  | call hc split hcs move =>
    rw [split] at hstop
    cases move with
    | signal => rfl
    | late runtime | cancel runtime => exact hstop (Or.inr ⟨runtime, by simp⟩)
    | accept | refuse | refused | launch | stopped =>
      refine hstop (hs.imp (fun hp => ?_) fun ⟨runtime, hr⟩ => ⟨runtime, by simpa using hr⟩)
      first | exact hp | cases hp
  | task move =>
    cases move with
    | @close outcome =>
      refine hstop (hs.imp (fun hp => ?_) id)
      cases outcome <;> cases hp
    | _ => exact hstop hs

theorem left_step (h : Keeps acc w) (hd : Delivers plan acc w) (a : Action)
    (ht : (w.step plan a).task = .finished) :
    (w.step plan a).shared.phase.isTerminal ∨ (w.step plan a).shared.stopSignalled := by
  cases hterm : w.shared.phase.isTerminal with
  | true => exact Or.inl (by rw [hd.phase_step_of_terminal hterm a, hterm])
  | false =>
    have hleft : w.task = .finished → w.shared.stopSignalled := by simpa [hterm] using h.left
    have hm := step_move plan w a
    generalize w.step plan a = after at hm ht
    cases hm with
    | start | stop | noCall | unasked | advance => exact Or.inr (hleft ht)
    | replyAtOnce | reply => cases ht
    | call hc split hcs move =>
      cases move with
      | launch => cases ht
      | signal => exact Or.inr rfl
      | cancel => exact Or.inl rfl
      | accept | refuse | refused | late | stopped => exact Or.inr (hleft ht)
    | task move =>
      cases move with
      | wait => exact Or.inr (hleft ht)
      | leave heeding stopped => exact Or.inr stopped
      | late hk ended => simp [hterm] at ended
      | deliver hk => simp [h.delivering _ _ hk] at hterm
      | _ => cases ht

theorem delivering_step (h : Keeps acc w) (hd : Delivers plan acc w) (a : Action)
    (before : Shared) (outcome : Outcome) (ht : (w.step plan a).task = .delivering before outcome) :
    (w.step plan a).shared.phase.isTerminal := by
  cases hterm : w.shared.phase.isTerminal with
  | true => rw [hd.phase_step_of_terminal hterm a, hterm]
  | false =>
    have hm := step_move plan w a
    generalize w.step plan a = after at hm ht
    have hdel : w.task ≠ .delivering before outcome := fun hk => by
      simp [h.delivering _ _ hk] at hterm
    cases hm with
    | start | stop | noCall | unasked | advance => exact absurd ht hdel
    | replyAtOnce | reply => cases ht
    | call hc split hcs move =>
      cases move with
      | launch => cases ht
      | accept | refuse | refused | signal | late | cancel | stopped => exact absurd ht hdel
    | task move =>
      cases move with
      | wait => exact absurd ht hdel
      | close hk going => cases ‹Outcome› <;> rfl
      | _ => cases ht

theorem overflowed_step (h : Keeps acc w) (a : Action)
    (ht : (w.step plan a).task = .overflowed) :
    attemptLimit ≤ (w.step plan a).shared.attempts + 1 := by
  have ho := h.overflowed
  have hm := step_move plan w a
  generalize w.step plan a = after at hm ht
  cases hm with
  | start | stop | noCall | unasked | advance => exact ho ht
  | replyAtOnce | reply => cases ht
  | call hc split hcs move =>
    cases move with
    | launch => cases ht
    | accept | refuse | refused | signal | late | cancel | stopped => exact ho ht
  | task move =>
    cases move with
    | wait => exact ho ht
    | overflow hk uncountable => exact uncountable
    | _ => cases ht

theorem step (h : Keeps acc w) (hd : Delivers plan acc w) (a : Action) :
    Keeps (acc ++ acceptedIn plan w a) (w.step plan a) where
  started := h.started_step a
  begun_le := h.begun_le_step a
  fresh := h.fresh_step a
  signalled := h.signalled_step hd a
  stopped := h.stopped_step a
  left := h.left_step hd a
  delivering := h.delivering_step hd a
  overflowed := h.overflowed_step a

theorem init : Keeps [] {} where
  started h := absurd rfl h
  begun_le := Nat.le_refl _
  fresh _ := ⟨rfl, rfl⟩
  signalled h := by cases h
  stopped h := by simp at h
  left h := by cases h
  delivering _ _ h := by cases h
  overflowed h := by cases h

theorem run (plan : Plan) (actions : List Action) :
    Keeps (accepted plan {} actions) (World.run plan {} actions) := by
  induction actions using List.reverseRecOn with
  | nil => exact init
  | append_singleton actions a ih =>
    rw [accepted, gather_concat, run_concat]
    exact ih.step (.run plan actions) a

theorem terminal_of_finished (h : Keeps acc w) (calls : w.calls = []) (ht : w.task = .finished) :
    w.shared.phase.isTerminal := by
  rcases h.left ht with hp | hs
  · exact hp
  · rcases h.signalled hs with hp | ⟨runtime, hc⟩
    · exact hp
    · simp [calls] at hc

/-- Once a start was accepted, the start of the arbitration stays. -/
theorem begun_step_of_accepted (h : Keeps acc w) (hd : Delivers plan acc w) (hne : acc ≠ [])
    (a : Action) : (w.step plan a).begun = w.begun := by
  obtain ⟨start, hs⟩ := Option.isSome_iff_exists.mp (h.started hne)
  have hm := step_move plan w a
  generalize w.step plan a = after at hm
  have hsame : after.shared.startedAt = w.shared.startedAt := by
    cases hm with
    | call hc split hcs move =>
      cases move with
      | accept id idle => exact absurd (hd.idle idle).1 hne
      | _ => rfl
    | task move =>
      obtain ⟨-, -, hstart⟩ := move.frame
      exact hstart
    | _ => rfl
  rw [begun, begun, hsame, hs, Option.getD_some, Option.getD_some]

theorem begun_step (h : Keeps acc w) (hd : Delivers plan acc w) (ht : w.task.isLaunched)
    (a : Action) : (w.step plan a).begun = w.begun := by
  refine h.begun_step_of_accepted hd ?_ a
  rintro rfl
  simpa [ht] using hd.launched

end Keeps

end World

end Arbiter.Arbitration
