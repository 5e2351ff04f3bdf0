import Arbiter.Proofs.Arbitration.Moves
import Mathlib.Data.List.Basic

/-!
Runs, and what is read off them step by step: which starts were accepted, and which replies the task
acted on.
-/

namespace Arbiter.Arbitration

open Discovery

/-- What the caller of one start was told. -/
def Happening.toldTo? (id : CallId) : Happening → Option Outcome
  | answered caller outcome _ _ => if caller = id then some outcome else none
  | _ => none

namespace World

variable {α : Type} {plan : Plan} {w : World}

theorem run_append (plan : Plan) (w : World) (earlier later : List Action) :
    w.run plan (earlier ++ later) = (w.run plan earlier).run plan later :=
  List.foldl_append

@[simp] theorem run_concat (plan : Plan) (w : World) (actions : List Action) (a : Action) :
    w.run plan (actions ++ [a]) = (w.run plan actions).step plan a :=
  run_append plan w actions [a]

/-- What is read off the steps of a run, in order. -/
def gather (plan : Plan) (read : World → Action → List α) : World → List Action → List α
  | _, [] => []
  | w, a :: rest => read w a ++ gather plan read (w.step plan a) rest

theorem gather_append (read : World → Action → List α) (earlier later : List Action) :
    gather plan read w (earlier ++ later) =
      gather plan read w earlier ++ gather plan read (w.run plan earlier) later := by
  induction earlier generalizing w with
  | nil => rfl
  | cons a rest ih =>
    rw [List.cons_append, gather, gather, ih, List.append_assoc]
    rfl

@[simp] theorem gather_concat (read : World → Action → List α) (actions : List Action) (a : Action) :
    gather plan read w (actions ++ [a]) =
      gather plan read w actions ++ read (w.run plan actions) a := by
  rw [gather_append, gather, gather, List.append_nil]

/-- The start that is accepted in a step. -/
def acceptedIn (plan : Plan) (w : World) : Action → List CallId
  | .call i =>
    match (w.calls[i]?).map fun c => (w.callStep plan c).2 with
    | some (some (.accepted id)) => [id]
    | _ => []
  | _ => []

def accepted (plan : Plan) (w : World) (actions : List Action) : List CallId :=
  gather plan (acceptedIn plan) w actions

/-- The reply that the task acts on in a step. -/
def judgedIn (w : World) : Action → List Reply
  | .task =>
    match w.task with
    | .judging _ reply => [reply]
    | _ => []
  | _ => []

@[simp] theorem judgedIn_call (i : Nat) : judgedIn w (.call i) = [] := rfl

theorem judgedIn_of_ne_task {a : Action} (h : a ≠ .task) : judgedIn w a = [] := by
  cases a with
  | task => exact absurd rfl h
  | _ => rfl

/-- The task does not wait with a reply in hand. -/
theorem judgedIn_of_wait (early : ∀ due ∈ w.taskDue plan, w.now < due) :
    judgedIn w .task = [] := by
  cases ht : w.task with
  | judging attempt reply => exact absurd (early w.now (by simp [taskDue, ht])) (Nat.lt_irrefl _)
  | _ => simp [judgedIn, ht]

/-- The replies that the task acted on: those of the attempts that were completed. -/
def judged (plan : Plan) (w : World) (actions : List Action) : List Reply :=
  gather plan judgedIn w actions

@[simp] theorem emit_now (hs : List Happening) : (w.emit hs).now = w.now := rfl
@[simp] theorem emit_shared (hs : List Happening) : (w.emit hs).shared = w.shared := rfl
@[simp] theorem emit_calls (hs : List Happening) : (w.emit hs).calls = w.calls := rfl
@[simp] theorem emit_task (hs : List Happening) : (w.emit hs).task = w.task := rfl
@[simp] theorem emit_starts (hs : List Happening) : (w.emit hs).starts = w.starts := rfl

/-- What was told hangs on the trace alone. -/
@[simp] theorem told_mk (now : Instant) (shared : Shared) (calls : List Call) (task : Task)
    (starts : Nat) : told ⟨now, shared, calls, task, starts, w.trace⟩ = w.told := rfl

@[simp] theorem lookups_mk (now : Instant) (shared : Shared) (calls : List Call) (task : Task)
    (starts : Nat) : lookups ⟨now, shared, calls, task, starts, w.trace⟩ = w.lookups := rfl

@[simp] theorem told_emit (hs : List Happening) :
    (w.emit hs).told = (hs.filterMap Happening.answered?).reverse ++ w.told := by
  simp [told, emit, List.filterMap_append, List.filterMap_reverse]

@[simp] theorem lookups_emit (hs : List Happening) :
    (w.emit hs).lookups = w.lookups ++ hs.filterMap Happening.lookup? := by
  simp [lookups, emit, List.filterMap_append]

section Read

variable (hs : List Happening)

@[simp] theorem answered_event (e : Log.Event) :
    (Happening.event e :: hs).filterMap Happening.answered? = hs.filterMap Happening.answered? := rfl

@[simp] theorem answered_counted (s : Metrics.Series) :
    (Happening.counted s :: hs).filterMap Happening.answered? =
      hs.filterMap Happening.answered? := rfl

@[simp] theorem answered_lookup (query : Query) (time : Instant) :
    (Happening.lookup query time :: hs).filterMap Happening.answered? =
      hs.filterMap Happening.answered? := rfl

@[simp] theorem lookup_event (e : Log.Event) :
    (Happening.event e :: hs).filterMap Happening.lookup? = hs.filterMap Happening.lookup? := rfl

@[simp] theorem lookup_counted (s : Metrics.Series) :
    (Happening.counted s :: hs).filterMap Happening.lookup? = hs.filterMap Happening.lookup? := rfl

@[simp] theorem lookup_lookup (query : Query) (time : Instant) :
    (Happening.lookup query time :: hs).filterMap Happening.lookup? =
      (query, time) :: hs.filterMap Happening.lookup? := rfl

end Read

@[simp] theorem answered_answer (call : Option CallId) (outcome : Outcome) (runtime : Bool) :
    (w.answer call outcome runtime).filterMap Happening.answered? =
      call.toList.map fun id => (id, outcome) := by
  cases call <;> simp [answer, Happening.answered?]

@[simp] theorem lookup_answer (call : Option CallId) (outcome : Outcome) (runtime : Bool) :
    (w.answer call outcome runtime).filterMap Happening.lookup? = [] := by
  cases call <;> simp [answer, Happening.lookup?]

@[simp] theorem answered_countOutcome (label : String) :
    (countOutcome label).filterMap Happening.answered? = [] := rfl

@[simp] theorem lookup_countOutcome (label : String) :
    (countOutcome label).filterMap Happening.lookup? = [] := rfl

@[simp] theorem answered_countOutcome_if (c : Prop) [Decidable c] (label : String) :
    (if c then countOutcome label else []).filterMap Happening.answered? = [] := by
  split_ifs <;> rfl

@[simp] theorem lookup_countOutcome_if (c : Prop) [Decidable c] (label : String) :
    (if c then countOutcome label else []).filterMap Happening.lookup? = [] := by
  split_ifs <;> rfl

section Deliver

variable (before : Shared) (outcome : Outcome)

@[simp] theorem deliver_now : (w.deliver before outcome).now = w.now := rfl
@[simp] theorem deliver_shared : (w.deliver before outcome).shared = w.shared := rfl
@[simp] theorem deliver_calls : (w.deliver before outcome).calls = w.calls := rfl
@[simp] theorem deliver_task : (w.deliver before outcome).task = .finished := rfl
@[simp] theorem deliver_starts : (w.deliver before outcome).starts = w.starts := rfl

@[simp] theorem told_deliver :
    (w.deliver before outcome).told = before.answerTo.toList.map (·, outcome) ++ w.told := by
  unfold deliver
  cases before.answerTo <;> simp

@[simp] theorem lookups_deliver : (w.deliver before outcome).lookups = w.lookups := by
  unfold deliver
  simp

end Deliver

theorem answersTo_eq_filterMap (w : World) (id : CallId) :
    w.answersTo id = w.trace.filterMap (Happening.toldTo? id) := by
  rw [answersTo, told, ← List.filterMap_eq_map, ← List.filterMap_eq_filter,
    List.filterMap_filterMap, List.filterMap_filterMap]
  refine List.filterMap_congr fun happening _ => ?_
  cases happening with
  | answered caller outcome seen time =>
    by_cases h : caller = id <;> simp [Happening.answered?, Happening.toldTo?, h]
  | lookup | event | counted => rfl

theorem now_step (plan : Plan) (w : World) {a : Action} (ha : ∀ d, a ≠ .advance d) :
    (w.step plan a).now = w.now := by
  have hm := step_move plan w a
  generalize w.step plan a = after at hm
  cases hm with
  | advance d => exact absurd rfl (ha d)
  | call hc split hs move => cases move <;> rfl
  | task move =>
    obtain ⟨hnow, -, -⟩ := move.frame
    exact hnow
  | _ => rfl

/-- What happened is not forgotten. -/
theorem trace_suffix (plan : Plan) (w : World) (a : Action) :
    w.trace <:+ (w.step plan a).trace := by
  have hm := step_move plan w a
  generalize w.step plan a = after at hm
  cases hm with
  | start | stop | noCall | replyAtOnce | reply | unasked | advance => exact List.suffix_refl _
  | call hc split hs move =>
    cases move with
    | refused | launch | stopped => exact List.suffix_append _ _
    | accept | refuse | signal | late | cancel => exact List.suffix_refl _
  | task move =>
    cases move with
    | begin | ask | abort | retry | abandon | deliver => exact List.suffix_append _ _
    | wait | overflow | leave | expire | pend | take | check | select | wake | late | close =>
      exact List.suffix_refl _

theorem told_suffix (plan : Plan) (w : World) (a : Action) : w.told <:+ (w.step plan a).told :=
  (trace_suffix plan w a).filterMap _

end World

end Arbiter.Arbitration
