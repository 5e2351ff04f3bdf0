import Arbiter.Proofs.Arbitration.Records
import Arbiter.Proofs.Arbitration.Stop

/-!
How far the task has come: what it noted of the attempts that came to nothing, how many it counted,
and how the outcome came about. This needs that nobody breaks in on a start that was accepted, or on
the task when it has made up its mind.
-/

namespace Arbiter.Arbitration

open Discovery

/-- What an attempt that came to nothing leaves in the records. -/
structure Note where
  cause : String
  willRetry : Bool
  deriving DecidableEq, Repr

def note? (plan : Plan) (reply : Reply) : Option Note :=
  match judge plan reply with
  | .selected _ => none
  | .fatal text => some { cause := text, willRetry := false }
  | .retry cause => some { cause := causeText plan cause, willRetry := true }

/-- The notes of the attempts with these replies. -/
def notes (plan : Plan) (replies : List Reply) : List Note :=
  replies.filterMap (note? plan)

/-- The records of attempts that came to nothing, numbered from one. -/
def failures (ns : List Note) : List Log.Event :=
  ns.mapIdx fun i n => .attemptFailed (i + 1) n.cause n.willRetry

@[simp] theorem failures_concat (ns : List Note) (n : Note) :
    failures (ns ++ [n]) = failures ns ++ [.attemptFailed (ns.length + 1) n.cause n.willRetry] :=
  List.mapIdx_concat

theorem notes_append (plan : Plan) (replies more : List Reply) :
    notes plan (replies ++ more) = notes plan replies ++ notes plan more :=
  List.filterMap_append

/-- The record with which an arbitration begins. -/
def opening (plan : Plan) : Log.Event :=
  .started plan.target.toString (strategyWord plan) plan.required.toString
    plan.request.timeout.millis

/-- The record with which an arbitration of this outcome ends. -/
def closing (outcome : Outcome) (attempts elapsed : Nat) : Log.Event :=
  match outcome with
  | .error (.cancelled interface) => .cancelled interface attempts
  | outcome => World.endRecord outcome attempts elapsed

/-- A failure that a single reply brought about. -/
def Outcome.GivesUp (outcome : Outcome) (text : String) : Prop :=
  outcome = .error (.lookupFailed (givingUp text))

/-- A fatal reply is noted as one, and only such a reply. -/
theorem judge_fatal {plan : Plan} {reply : Reply} {text : String}
    (h : judge plan reply = .fatal text) : ∃ cause, text = givingUp cause := by
  rcases reply with (code | error) | es
  · simp only [judge] at h
    split_ifs at h
    exact ⟨_, (Judgement.fatal.inj h).symm⟩
  · cases h
  · simp only [judge, judgeEntries] at h
    split_ifs at h
    split at h <;> cases h

theorem giveUp_ne_givingUp (plan : Plan) (s : Shared) (text : String) :
    giveUp plan s ≠ .lookupFailed (givingUp text) := by
  intro h
  unfold giveUp at h
  split at h
  · cases h
  · split_ifs at h
    split at h
    · exact givingUp_ne_continuing text _ (Failure.lookupFailed.inj h).symm
    · cases h

theorem giveUp_isCancelled (plan : Plan) (s : Shared) : (giveUp plan s).isCancelled = false := by
  obtain ⟨failure, hfailure, hcancelled⟩ := World.giveUp_reports plan s
  rwa [Except.error.inj hfailure]

/-- How an outcome came about after these notes: how many attempts were counted then, and which of
them the deadline cut off. -/
inductive Account (plan : Plan) (ns : List Note) (attempts : Nat) : List Nat → Outcome → Prop where
  | selected (e : Entry) (retried : ∀ n ∈ ns, n.willRetry) (count : ns.length + 1 = attempts) :
    Account plan ns attempts [] (.ok e)
  | fatal {earlier : List Note} {text : String}
      (last : ns = earlier ++ [{ cause := givingUp text, willRetry := false }])
      (retried : ∀ n ∈ earlier, n.willRetry) (count : ns.length = attempts) :
    Account plan ns attempts [] (.error (.lookupFailed (givingUp text)))
  | gaveUp (s : Shared) (retried : ∀ n ∈ ns, n.willRetry) (count : ns.length = attempts) :
    Account plan ns attempts [] (.error (giveUp plan s))
  | cutOff (s : Shared) (retried : ∀ n ∈ ns, n.willRetry) (count : ns.length + 1 = attempts) :
    Account plan ns attempts [attempts] (.error (giveUp plan s))
  | cancelled (retried : ∀ n ∈ ns, n.willRetry)
      (count : ns.length = attempts ∨ ns.length + 1 = attempts) :
    Account plan ns attempts [] (.error (.cancelled plan.target.interface))

/-- Of all attempts only the last is marked as one that is not repeated, and only if that is so. -/
def Marked (ns : List Note) (givenUp : Prop) : Prop :=
  ∀ i n, ns[i]? = some n → (n.willRetry = false ↔ i + 1 = ns.length ∧ givenUp)

section Marked

variable {ns earlier : List Note} {cause : String} {givenUp : Prop}

theorem marked_of_retried (retried : ∀ n ∈ ns, n.willRetry) (hopes : ¬givenUp) :
    Marked ns givenUp := by
  intro i n hi
  simp [retried n (List.mem_of_getElem? hi), hopes]

theorem marked_of_last (retried : ∀ n ∈ earlier, n.willRetry) (hgiven : givenUp) :
    Marked (earlier ++ [{ cause, willRetry := false }]) givenUp := by
  intro i n hi
  rw [List.length_append, List.length_singleton]
  rcases Nat.lt_trichotomy i earlier.length with hlt | rfl | hgt
  · rw [List.getElem?_append_left hlt] at hi
    simp [retried n (List.mem_of_getElem? hi)]
    omega
  · obtain rfl : _ = n := by simpa using hi
    simp [hgiven]
  · rw [List.getElem?_eq_none (by simp; omega)] at hi
    cases hi

end Marked

/-- How an outcome fits the attempts that came to nothing before it, with the attempts that the
deadline cut off and the number that was counted. -/
structure Tallies (plan : Plan) (ns : List Note) (cut : List Nat) (attempts : Nat)
    (outcome : Outcome) : Prop where
  succeeded : ∀ e, outcome = .ok e → ns.length + 1 = attempts
  gaveUp : ∀ text, outcome.GivesUp text → ns.length = attempts ∧
    ns.getLast? = some { cause := givingUp text, willRetry := false }
  ranOut : ∀ failure : Failure, outcome = .error failure → failure.isCancelled = false →
    (∀ text, ¬outcome.GivesUp text) →
      cut = [] ∧ ns.length = attempts ∨ cut = [attempts] ∧ ns.length + 1 = attempts
  cancelled : ∀ interface, outcome = .error (.cancelled interface) →
    interface = plan.target.interface ∧ (ns.length = attempts ∨ ns.length + 1 = attempts)
  marked : Marked ns (∃ text, outcome.GivesUp text)

section Tallies

variable {plan : Plan} {ns : List Note} {cut : List Nat} {attempts : Nat} {outcome : Outcome}

theorem not_givesUp_giveUp (plan : Plan) (s : Shared) (text : String) :
    ¬Outcome.GivesUp (.error (giveUp plan s)) text :=
  fun h => giveUp_ne_givingUp plan s text (Except.error.inj h)

theorem Tallies.of_giveUp (s : Shared) (retried : ∀ n ∈ ns, n.willRetry)
    (count : cut = [] ∧ ns.length = attempts ∨ cut = [attempts] ∧ ns.length + 1 = attempts) :
    Tallies plan ns cut attempts (.error (giveUp plan s)) where
  succeeded := nofun
  gaveUp text h := absurd h (not_givesUp_giveUp plan s text)
  ranOut _ _ _ _ := count
  cancelled interface h := by
    have huncancelled := giveUp_isCancelled plan s
    rw [Except.error.inj h] at huncancelled
    cases huncancelled
  marked := marked_of_retried retried fun ⟨text, h⟩ => not_givesUp_giveUp plan s text h

theorem Account.tallies (h : Account plan ns attempts cut outcome) :
    Tallies plan ns cut attempts outcome := by
  cases h with
  | selected e retried count =>
    exact ⟨fun _ _ => count, nofun, nofun, nofun, marked_of_retried retried nofun⟩
  | @fatal earlier text last retried count =>
    refine ⟨nofun, fun text' h => ⟨count, ?_⟩, fun _ _ _ h => absurd rfl (h text), nofun, ?_⟩
    · rw [last, List.getLast?_concat, Failure.lookupFailed.inj (Except.error.inj h)]
    · rw [last]
      exact marked_of_last retried ⟨text, rfl⟩
  | gaveUp s retried count => exact .of_giveUp s retried (.inl ⟨rfl, count⟩)
  | cutOff s retried count => exact .of_giveUp s retried (.inr ⟨rfl, count⟩)
  | cancelled retried count =>
    refine ⟨nofun, nofun, fun _ h hf => ?_, fun _ h => ?_, marked_of_retried retried nofun⟩
    · rw [← Except.error.inj h] at hf
      cases hf
    · obtain rfl := Failure.cancelled.inj (Except.error.inj h)
      exact ⟨rfl, count⟩

end Tallies

/-- The attempt in which the task is. -/
def Task.attempt? : Task → Option Nat
  | polling attempt _ | asking attempt _ | checking attempt _ | judging attempt _ => some attempt
  | _ => none

/-- Whether the task has made up its mind, or is about to, and is not suspended before it has acted
accordingly. -/
def Task.isDeciding : Task → Bool
  | judging .. | closing _ => true
  | _ => false

def Action.isCall (i : Nat) : Action → Bool
  | call j => i == j
  | _ => false

/-- What was noted so far, by the place where the task is. -/
inductive Progress (plan : Plan) (ns : List Note) (cut : List Nat) (task : Task) (s : Shared) :
    Prop where
  | absent (ht : task = .absent) (hns : ns = []) (hcut : cut = []) (count : s.attempts = 0)
  | between (ht : task = .beginning ∨ task = .overflowed ∨ ∃ wake, task = .pausing wake)
      (retried : ∀ n ∈ ns, n.willRetry) (hcut : cut = []) (count : ns.length = s.attempts)
  | within (ht : task.attempt? = some s.attempts) (retried : ∀ n ∈ ns, n.willRetry)
      (hcut : cut = []) (count : ns.length + 1 = s.attempts)
      (unstopped : task.isDeciding → s.stopSignalled = false)
  | closing {outcome : Outcome} (ht : task = .closing outcome)
      (account : Account plan ns s.attempts cut outcome) (unstopped : s.stopSignalled = false)
  | delivering {before : Shared} {outcome : Outcome} (ht : task = .delivering before outcome)
      (account : Account plan ns before.attempts cut outcome)
  | left (ht : task = .finished) (retried : ∀ n ∈ ns, n.willRetry) (hcut : cut = [])
      (count : ns.length = s.attempts ∨ ns.length + 1 = s.attempts)
  | done (ht : task = .finished) (ended : s.phase.isTerminal)

/-- The attempt that the deadline cuts off when the task goes from one place to another. -/
def cutOff? : Task → Task → Option Nat
  | .polling attempt _, .closing _ => some attempt
  | _, _ => none

namespace Progress

variable {plan : Plan} {ns : List Note} {cut : List Nat} {task : Task} {s t : Shared}

/-- Progress is kept where the attempts are, and the task does not notice what else is changed. -/
theorem of_shared (h : Progress plan ns cut task s) (hattempts : t.attempts = s.attempts)
    (hstop : task.isDeciding → t.stopSignalled = s.stopSignalled)
    (hterminal : s.phase.isTerminal → t.phase.isTerminal) : Progress plan ns cut task t := by
  cases h with
  | absent ht hns hcut count => exact .absent ht hns hcut (hattempts.trans count)
  | between ht retried hcut count => exact .between ht retried hcut (count.trans hattempts.symm)
  | within ht retried hcut count unstopped =>
    rw [← hattempts] at ht count
    exact .within ht retried hcut count fun hd => (hstop hd).trans (unstopped hd)
  | closing ht account unstopped =>
    rw [← hattempts] at account
    exact .closing ht account ((hstop (by rw [ht]; rfl)).trans unstopped)
  | delivering ht account => exact .delivering ht account
  | left ht retried hcut count =>
    rw [← hattempts] at count
    exact .left ht retried hcut count
  | done ht ended => exact .done ht (hterminal ended)

theorem of_absent (h : Progress plan ns cut task s) (ht : task = .absent) :
    ns = [] ∧ cut = [] ∧ s.attempts = 0 := by
  cases h with
  | absent _ hns hcut count => exact ⟨hns, hcut, count⟩
  | between hw => rcases hw with rfl | rfl | ⟨_, rfl⟩ <;> cases ht
  | within hw => simp [ht, Task.attempt?] at hw
  | closing hw | delivering hw | left hw | done hw => cases hw.symm.trans ht

theorem of_beginning (h : Progress plan ns cut task s)
    (ht : task = .beginning ∨ task = .overflowed ∨ ∃ wake, task = .pausing wake) :
    (∀ n ∈ ns, n.willRetry) ∧ cut = [] ∧ ns.length = s.attempts := by
  cases h with
  | between _ retried hcut count => exact ⟨retried, hcut, count⟩
  | within hw => rcases ht with rfl | rfl | ⟨_, rfl⟩ <;> simp [Task.attempt?] at hw
  | absent hw | closing hw | delivering hw | left hw | done hw =>
    rcases ht with rfl | rfl | ⟨_, rfl⟩ <;> cases hw

theorem of_attempt (h : Progress plan ns cut task s) {attempt : Nat}
    (ht : task.attempt? = some attempt) :
    attempt = s.attempts ∧ (∀ n ∈ ns, n.willRetry) ∧ cut = [] ∧ ns.length + 1 = s.attempts ∧
      (task.isDeciding → s.stopSignalled = false) := by
  cases h with
  | within hw retried hcut count unstopped =>
    exact ⟨Option.some.inj (ht.symm.trans hw), retried, hcut, count, unstopped⟩
  | between hw => rcases hw with rfl | rfl | ⟨_, rfl⟩ <;> simp [Task.attempt?] at ht
  | absent hw | closing hw | delivering hw | left hw | done hw => simp [hw, Task.attempt?] at ht

theorem of_closing (h : Progress plan ns cut task s) {outcome : Outcome}
    (ht : task = .closing outcome) :
    Account plan ns s.attempts cut outcome ∧ s.stopSignalled = false := by
  cases h with
  | closing hw account unstopped =>
    cases hw.symm.trans ht
    exact ⟨account, unstopped⟩
  | between hw => rcases hw with rfl | rfl | ⟨_, rfl⟩ <;> cases ht
  | within hw => simp [ht, Task.attempt?] at hw
  | absent hw | delivering hw | left hw | done hw => cases hw.symm.trans ht

theorem of_delivering (h : Progress plan ns cut task s) {before : Shared} {outcome : Outcome}
    (ht : task = .delivering before outcome) : Account plan ns before.attempts cut outcome := by
  cases h with
  | delivering hw account =>
    cases hw.symm.trans ht
    exact account
  | between hw => rcases hw with rfl | rfl | ⟨_, rfl⟩ <;> cases ht
  | within hw => simp [ht, Task.attempt?] at hw
  | absent hw | closing hw | left hw | done hw => cases hw.symm.trans ht

end Progress

namespace World

variable {plan : Plan} {w : World} {acc : List CallId} {ns : List Note} {cut : List Nat}

/-- The notes of the reply that the task acts on in a step. -/
def notedIn (plan : Plan) (w : World) (a : Action) : List Note :=
  notes plan (judgedIn w a)

def cutOffIn (plan : Plan) (w : World) (a : Action) : List Nat :=
  (cutOff? w.task (w.step plan a).task).toList

/-- The attempts that the deadline cut off. -/
def cutOff (plan : Plan) (w : World) (actions : List Action) : List Nat :=
  gather plan (cutOffIn plan) w actions

theorem notedIn_eq_nil (h : ∀ attempt reply, w.task ≠ .judging attempt reply) (a : Action) :
    notedIn plan w a = [] := by
  cases a with
  | task =>
    cases ht : w.task with
    | judging attempt reply => exact absurd ht (h attempt reply)
    | _ => simp [notedIn, notes, judgedIn, ht]
  | _ => rfl

theorem notedIn_judging {attempt : Nat} {reply : Reply} (ht : w.task = .judging attempt reply) :
    notedIn plan w .task = (note? plan reply).toList := by
  simp only [notedIn, notes, judgedIn, ht]
  cases h : note? plan reply <;> simp [h]

theorem notedIn_retry {attempt : Nat} {reply : Reply} {cause : Cause}
    (ht : w.task = .judging attempt reply) (hj : Arbitration.judge plan reply = .retry cause) :
    notedIn plan w .task = [{ cause := causeText plan cause, willRetry := true }] := by
  rw [notedIn_judging ht, note?, hj]
  rfl

theorem retried_concat {cause : String} (h : ∀ n ∈ ns, n.willRetry) :
    ∀ n ∈ ns ++ [{ cause, willRetry := true }], n.willRetry := by
  intro n hn
  rcases List.mem_append.mp hn with hn | hn
  · exact h n hn
  · rw [List.mem_singleton.mp hn]

theorem cutOff?_self (task : Task) : cutOff? task task = none := by
  cases task <;> rfl

/-- What a turn of the task adds to its progress. -/
theorem progress_task (h : Progress plan ns cut w.task w.shared) (hk : Keeps acc w) {after : World}
    (move : TaskMove plan w after) :
    Progress plan (ns ++ notedIn plan w .task) (cut ++ (cutOff? w.task after.task).toList)
      after.task after.shared := by
  -- Each move tells where the task comes from, which leaves one case of the progress so far.
  cases move with
  | wait early =>
    rw [notedIn, judgedIn_of_wait early, cutOff?_self]
    simpa [notes] using h
  | begin ht =>
    obtain ⟨retried, rfl, count⟩ := h.of_beginning (.inl ht)
    rw [notedIn_eq_nil (by simp [ht]), List.append_nil, ht]
    exact .within rfl retried rfl (by rw [count]; rfl) (by simp [Task.isDeciding])
  | overflow ht =>
    obtain ⟨retried, rfl, count⟩ := h.of_beginning (.inl ht)
    rw [notedIn_eq_nil (by simp [ht]), List.append_nil, ht]
    exact .between (.inr (.inl rfl)) retried rfl count
  | leave heeding stopped =>
    rw [notedIn_eq_nil (by intro _ _ ht; simp [ht, Task.heedsStops] at heeding), List.append_nil]
    cases ht : w.task with
    | polling attempt lookup =>
      obtain ⟨rfl, retried, rfl, count, -⟩ := h.of_attempt (by rw [ht]; rfl)
      exact .left rfl retried rfl (.inr count)
    | checking attempt reply =>
      obtain ⟨rfl, retried, rfl, count, -⟩ := h.of_attempt (by rw [ht]; rfl)
      exact .left rfl retried rfl (.inr count)
    | pausing wake =>
      obtain ⟨retried, rfl, count⟩ := h.of_beginning (.inr (.inr ⟨wake, ht⟩))
      exact .left rfl retried rfl (.inl count)
    | _ => simp [ht, Task.heedsStops] at heeding
  | expire ht unstopped elapsed =>
    obtain ⟨rfl, retried, rfl, count, -⟩ := h.of_attempt (by rw [ht]; rfl)
    rw [notedIn_eq_nil (by simp [ht]), List.append_nil, ht]
    exact .closing rfl (.cutOff w.shared retried count) unstopped
  | ask ht | pend ht | take ht =>
    obtain ⟨rfl, retried, rfl, count, -⟩ := h.of_attempt (by rw [ht]; rfl)
    rw [notedIn_eq_nil (by simp [ht]), List.append_nil, ht]
    exact .within rfl retried rfl count (by simp [Task.isDeciding])
  | check ht unstopped =>
    obtain ⟨rfl, retried, rfl, count, -⟩ := h.of_attempt (by rw [ht]; rfl)
    rw [notedIn_eq_nil (by simp [ht]), List.append_nil, ht]
    exact .within rfl retried rfl count fun _ => unstopped
  | @select _ _ e ht hj =>
    obtain ⟨rfl, retried, rfl, count, unstopped⟩ := h.of_attempt (by rw [ht]; rfl)
    have hnote : notedIn plan w .task = [] := by rw [notedIn_judging ht, note?, hj]; rfl
    rw [hnote, List.append_nil, ht]
    exact .closing rfl (.selected e retried count) (unstopped (by rw [ht]; rfl))
  | abort ht hj =>
    obtain ⟨rfl, retried, rfl, count, unstopped⟩ := h.of_attempt (by rw [ht]; rfl)
    obtain ⟨cause, rfl⟩ := judge_fatal hj
    have hnote : notedIn plan w .task = [{ cause := givingUp cause, willRetry := false }] := by
      rw [notedIn_judging ht, note?, hj]
      rfl
    rw [hnote, ht]
    exact .closing rfl (.fatal rfl retried (by simp [count])) (unstopped (by rw [ht]; rfl))
  | retry ht hj hr =>
    obtain ⟨rfl, retried, rfl, count, -⟩ := h.of_attempt (by rw [ht]; rfl)
    rw [notedIn_retry ht hj, ht]
    exact .between (.inr (.inr ⟨_, rfl⟩)) (retried_concat retried) rfl (by simp [count])
  | abandon ht hj hr =>
    obtain ⟨rfl, retried, rfl, count, unstopped⟩ := h.of_attempt (by rw [ht]; rfl)
    rw [notedIn_retry ht hj, ht]
    exact .closing rfl (.gaveUp _ (retried_concat retried) (by simp [count]))
      (unstopped (by rw [ht]; rfl))
  | wake ht unstopped elapsed =>
    obtain ⟨retried, rfl, count⟩ := h.of_beginning (.inr (.inr ⟨_, ht⟩))
    rw [notedIn_eq_nil (by simp [ht]), List.append_nil, ht]
    exact .between (.inl rfl) retried rfl count
  | late ht ended =>
    rw [notedIn_eq_nil (by simp [ht]), List.append_nil, ht]
    exact .done rfl ended
  | close ht going =>
    rw [notedIn_eq_nil (by simp [ht]), List.append_nil, ht]
    obtain ⟨account, -⟩ := h.of_closing ht
    simpa [cutOff?] using Progress.delivering rfl account
  | deliver ht =>
    rw [notedIn_eq_nil (by simp [ht]), List.append_nil, ht]
    exact .done rfl (hk.delivering _ _ ht)

/-- A step does not break in on the task where it is deciding, nor on a start that was accepted. -/
def Uninterrupted (w : World) (a : Action) : Prop :=
  (w.task.isDeciding → a.isTask) ∧
    ∀ i < w.calls.length, (w.calls[i]?).any Call.isAccepted → a.isCall i

/-- The task acts at once on what it has decided, and an accepted start sets it to work at once. -/
def Unbroken (plan : Plan) (w : World) : List Action → Prop
  | [] => True
  | a :: rest => Uninterrupted w a ∧ Unbroken plan (w.step plan a) rest

instance (w : World) (a : Action) : Decidable (Uninterrupted w a) :=
  inferInstanceAs (Decidable (_ ∧ _))

instance decidableUnbroken (plan : Plan) :
    (w : World) → (actions : List Action) → Decidable (Unbroken plan w actions)
  | _, [] => inferInstanceAs (Decidable True)
  | w, a :: rest =>
    have := decidableUnbroken plan (w.step plan a) rest
    inferInstanceAs (Decidable (Uninterrupted w a ∧ Unbroken plan (w.step plan a) rest))

theorem unbroken_concat {earlier : List Action} {a : Action} :
    Unbroken plan w (earlier ++ [a]) ↔
      Unbroken plan w earlier ∧ Uninterrupted (w.run plan earlier) a := by
  induction earlier generalizing w with
  | nil => simp [Unbroken, run]
  | cons b rest ih => simp [Unbroken, ih, and_assoc, run]

/-- A start that was accepted goes on before anything else happens. -/
theorem Uninterrupted.eq_call {a : Action} (h : Uninterrupted w a) {i : Nat} {id : CallId}
    (hc : w.calls[i]? = some (.accepted id)) : a = .call i := by
  obtain ⟨hlt, -⟩ := List.getElem?_eq_some_iff.mp hc
  have hcall := h.2 i hlt (by simp [hc, Call.isAccepted])
  cases a with
  | call j =>
    obtain rfl : i = j := by simpa [Action.isCall] using hcall
    rfl
  | _ => cases hcall

theorem notedIn_of_ne_task {a : Action} (ha : a ≠ .task) : notedIn plan w a = [] := by
  rw [notedIn, judgedIn_of_ne_task ha, notes, List.filterMap_nil]

theorem cutOffIn_of_ne_task {a : Action} (ha : a ≠ .task) : cutOffIn plan w a = [] := by
  unfold cutOffIn
  have hm := step_move plan w a
  generalize w.step plan a = after at hm
  cases hm with
  | task => exact absurd rfl ha
  | start | stop | noCall | unasked | advance => rw [cutOff?_self]; rfl
  | replyAtOnce _ ht | reply _ ht => rw [ht]; rfl
  | call hc split hs move =>
    cases move with
    | launch => cases w.task <;> rfl
    | accept | refuse | refused | signal | late | cancel | stopped => simp [cutOff?_self]

/-- A step of another is unnoticed by the task, unless it launches the task or brings a reply. -/
theorem progress_step (h : Progress plan ns cut w.task w.shared) (hd : Delivers plan acc w)
    (hk : Keeps acc w) {a : Action} (unbroken : Uninterrupted w a) :
    Progress plan (ns ++ notedIn plan w a) (cut ++ cutOffIn plan w a) (w.step plan a).task
      (w.step plan a).shared := by
  by_cases ha : a = .task
  case pos =>
    subst ha
    exact progress_task h hk (taskStep_move plan w)
  -- Where the task is not deciding, a stop that is signalled now does no harm to what it noted.
  have hdeciding : ¬w.task.isDeciding := by
    intro hdeciding
    cases a with
    | task => exact ha rfl
    | _ => cases unbroken.1 hdeciding
  rw [notedIn_of_ne_task ha, cutOffIn_of_ne_task ha, List.append_nil, List.append_nil]
  have hm := step_move plan w a
  generalize w.step plan a = after at hm
  cases hm with
  | task => exact absurd rfl ha
  | start | stop | noCall | unasked | advance => exact h
  | replyAtOnce _ ht | reply _ ht =>
    obtain ⟨rfl, retried, rfl, count, -⟩ := h.of_attempt (by rw [ht]; rfl)
    exact .within rfl retried rfl count (by simp [Task.isDeciding])
  | call hc split hs move =>
    cases move with
    | launch =>
      obtain ⟨rfl, rfl, count⟩ := h.of_absent (hd.absent_of_accepted (List.mem_of_getElem? hc))
      exact .between (.inl rfl) (by simp) rfl count.symm
    | accept id idle =>
      exact h.of_shared rfl (fun hw => absurd hw hdeciding) (by simp [idle, Phase.isTerminal])
    | signal => exact h.of_shared rfl (fun hw => absurd hw hdeciding) id
    | cancel => exact h.of_shared rfl (fun hw => absurd hw hdeciding) fun _ => rfl
    | refuse | refused | late | stopped => exact h

end World

end Arbiter.Arbitration
