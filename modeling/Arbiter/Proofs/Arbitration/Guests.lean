import Arbiter.Proofs.Arbitration.Records
import Arbiter.Proofs.Arbitration.Stop

/-!
An arbitration with guests: callers whose starts are refused, and whose stops come when it has ended.
The same run without them is one of its own, in which the other starts have other numbers and the other
calls other places.
-/

namespace Arbiter.Arbitration

open Discovery

/-- Whether the next step of a call refuses a start, or signals a stop of what has ended. -/
def Call.comesToNothing (s : Shared) : Call → Bool
  | starting _ runtime => !runtime || s.phase != .idle
  | stopping _ => s.phase.isTerminal
  | _ => true

/-- A step, and whether the call that is made in it, if any, is that of a guest. -/
structure Turn where
  action : Action
  guest : Bool := false

/-- An arbitration with guests, and what is to be known of it without them. -/
structure Party where
  world : World := {}
  /-- Which of the calls that have not returned are those of guests. -/
  marks : List Bool := []
  /-- The starts of others, by the numbers that they have without guests. -/
  hosts : List CallId := []
  /-- The steps of others. -/
  own : List Action := []

namespace Party

/-- The place of a call among those that are not of guests. Where there is no call, there is none
without guests. -/
def place (marks : List Bool) (i : Nat) : Nat := (marks.take i).count false + (i - marks.length)

/-- The step without guests, if it is there. -/
def ownAction? (p : Party) (t : Turn) : Option Action :=
  match t.action with
  | .start _ | .stop _ => if t.guest then none else some t.action
  | .call i => if p.marks.getD i false then none else some (.call (place p.marks i))
  | a => some a

def marksAfter (plan : Plan) (p : Party) (t : Turn) : List Bool :=
  match t.action with
  | .start _ | .stop _ => p.marks ++ [t.guest]
  | .call i =>
    match (p.world.calls[i]?).map fun c => (p.world.callStep plan c).2 with
    | some none => p.marks.eraseIdx i
    | _ => p.marks
  | _ => p.marks

def hostsAfter (p : Party) (t : Turn) : List CallId :=
  match t.action with
  | .start _ => if t.guest then p.hosts else p.hosts ++ [p.world.starts]
  | _ => p.hosts

def step (plan : Plan) (p : Party) (t : Turn) : Party where
  world := p.world.step plan t.action
  marks := p.marksAfter plan t
  hosts := p.hostsAfter t
  own := p.own ++ (p.ownAction? t).toList

def run (plan : Plan) (turns : List Turn) : Party := turns.foldl (step plan) {}

/-- A guest may only do what comes to nothing. -/
def admits (p : Party) (t : Turn) : Bool :=
  match t.action with
  | .call i => !(p.marks.getD i false) || (p.world.calls[i]?).all (·.comesToNothing p.world.shared)
  | _ => true

/-- All that the guests do comes to nothing. -/
def Discreet (plan : Plan) (p : Party) : List Turn → Prop
  | [] => True
  | t :: rest => p.admits t ∧ Discreet plan (p.step plan t) rest

instance decidableDiscreet (plan : Plan) :
    (p : Party) → (turns : List Turn) → Decidable (Discreet plan p turns)
  | _, [] => inferInstanceAs (Decidable True)
  | p, t :: rest =>
    have := decidableDiscreet plan (p.step plan t) rest
    inferInstanceAs (Decidable (p.admits t ∧ Discreet plan (p.step plan t) rest))

@[simp] theorem run_concat (plan : Plan) (turns : List Turn) (t : Turn) :
    run plan (turns ++ [t]) = (run plan turns).step plan t := by
  simp [run]

theorem discreet_append {plan : Plan} {p : Party} {turns rest : List Turn} :
    Discreet plan p (turns ++ rest) ↔
      Discreet plan p turns ∧ Discreet plan (turns.foldl (step plan) p) rest := by
  induction turns generalizing p with
  | nil => simp [Discreet]
  | cons t turns ih => simp [Discreet, ih, and_assoc]

theorem discreet_concat {plan : Plan} {p : Party} {turns : List Turn} {t : Turn} :
    Discreet plan p (turns ++ [t]) ↔
      Discreet plan p turns ∧ (turns.foldl (step plan) p).admits t := by
  simp [discreet_append, Discreet]

theorem exists_place (marks : List Bool) (k : Nat) :
    ∃ i, marks.getD i false = false ∧ place marks i = k := by
  induction marks generalizing k with
  | nil => exact ⟨k, rfl, by simp [place]⟩
  | cons m marks ih =>
    cases m with
    | true =>
      obtain ⟨i, hmark, hplace⟩ := ih k
      exact ⟨i + 1, hmark, by simpa [place] using hplace⟩
    | false =>
      cases k with
      | zero => exact ⟨0, rfl, by simp [place]⟩
      | succ k =>
        obtain ⟨i, hmark, hplace⟩ := ih k
        refine ⟨i + 1, hmark, ?_⟩
        rw [← hplace]
        simp only [place, List.take_succ_cons, List.count_cons_self, List.length_cons,
          Nat.add_sub_add_right]
        omega

theorem exists_turn (p : Party) (a : Action) : ∃ t, p.ownAction? t = some a ∧ p.admits t := by
  cases a with
  | call k =>
    obtain ⟨i, hmark, hplace⟩ := exists_place p.marks k
    refine ⟨{ action := .call i }, ?_, ?_⟩
    · simp only [ownAction?, hmark, hplace, Bool.false_eq_true, if_false]
    · simp only [admits, hmark, Bool.not_false, Bool.true_or]
  | start runtime => exact ⟨{ action := .start runtime }, rfl, rfl⟩
  | stop runtime => exact ⟨{ action := .stop runtime }, rfl, rfl⟩
  | task => exact ⟨{ action := .task }, rfl, rfl⟩
  | reply r => exact ⟨{ action := .reply r }, rfl, rfl⟩
  | advance d => exact ⟨{ action := .advance d }, rfl, rfl⟩

/-- Whatever comes next without guests can come next among them, no matter what they did before. -/
theorem exists_rest (plan : Plan) (p : Party) (actions : List Action) :
    ∃ turns, Discreet plan p turns ∧ (turns.foldl (step plan) p).own = p.own ++ actions := by
  induction actions generalizing p with
  | nil => exact ⟨[], trivial, (List.append_nil p.own).symm⟩
  | cons a actions ih =>
    obtain ⟨t, hown, hadmits⟩ := p.exists_turn a
    obtain ⟨turns, discreet, hrest⟩ := ih (p.step plan t)
    refine ⟨t :: turns, ⟨hadmits, discreet⟩, ?_⟩
    rw [List.foldl_cons, hrest, step, hown, List.append_assoc]
    rfl

/-- With its guests, this is a run like any other. -/
theorem run_world (plan : Plan) (turns : List Turn) :
    (run plan turns).world = World.run plan {} (turns.map Turn.action) := by
  induction turns using List.reverseRecOn with
  | nil => rfl
  | append_singleton turns t ih =>
    rw [run_concat, List.map_append, List.map_singleton, World.run_concat, ← ih]
    rfl

end Party

/-- What can be observed without guests, where the other starts have other numbers. -/
def Happening.without (hosts : List CallId) : Happening → Option Happening
  | answered id outcome seen time => (hosts.idxOf? id).map (answered · outcome seen time)
  | h => some h

/-- The start with this number has that one without guests. -/
def Serves (hosts : List CallId) (id k : CallId) : Prop := hosts.idxOf? id = some k

/-- Two states that differ in the number of the start whose continuation they hold, and perhaps in a
stop that was signalled. -/
inductive StatePair (hosts : List CallId) : Shared → Shared → Prop where
  | mk (t : Shared) (answerTo : Option CallId) (stopSignalled : Bool)
      (h : Option.Rel (Serves hosts) answerTo t.answerTo) :
    StatePair hosts { t with answerTo, stopSignalled } t

/-- A call with guests and without. -/
inductive CallPair (hosts : List CallId) : Call → Call → Prop where
  | starting {id k} (h : Serves hosts id k) (runtime : Bool) :
    CallPair hosts (.starting id runtime) (.starting k runtime)
  | refused {id k} (h : Serves hosts id k) (reason : Failure) (runtime : Bool) :
    CallPair hosts (.refused id reason runtime) (.refused k reason runtime)
  | accepted {id k} (h : Serves hosts id k) : CallPair hosts (.accepted id) (.accepted k)
  | stopping (runtime : Bool) : CallPair hosts (.stopping runtime) (.stopping runtime)
  | signalled (runtime : Bool) : CallPair hosts (.signalled runtime) (.signalled runtime)
  | stopped {before before'} (h : StatePair hosts before before') (runtime : Bool) :
    CallPair hosts (.stopped before runtime) (.stopped before' runtime)

/-- A call of a guest that has only done what comes to nothing. -/
inductive GuestCall (hosts : List CallId) (ended : Bool) : Call → Prop where
  | starting {id} (h : id ∉ hosts) (runtime : Bool) : GuestCall hosts ended (.starting id runtime)
  | refused {id} (h : id ∉ hosts) (reason : Failure) (runtime : Bool) :
    GuestCall hosts ended (.refused id reason runtime)
  | stopping (runtime : Bool) : GuestCall hosts ended (.stopping runtime)
  | signalled (h : ended) (runtime : Bool) : GuestCall hosts ended (.signalled runtime)

inductive TaskPair (hosts : List CallId) : Task → Task → Prop where
  | same {task} (quiet : task.isTelling = false) : TaskPair hosts task task
  | delivering {before before'} (h : StatePair hosts before before') (outcome : Outcome) :
    TaskPair hosts (.delivering before outcome) (.delivering before' outcome)

/-- The calls with guests and without. -/
inductive CallsPair (hosts : List CallId) (ended : Bool) :
    List Bool → List Call → List Call → Prop where
  | nil : CallsPair hosts ended [] [] []
  | own {c d ms cs ds} (h : CallPair hosts c d) (rest : CallsPair hosts ended ms cs ds) :
    CallsPair hosts ended (false :: ms) (c :: cs) (d :: ds)
  | guest {c ms cs ds} (h : GuestCall hosts ended c) (rest : CallsPair hosts ended ms cs ds) :
    CallsPair hosts ended (true :: ms) (c :: cs) ds

section Pairs

variable {hosts : List CallId} {ended : Bool}

theorem Serves.concat {id k : CallId} (h : Serves hosts id k) (fresh : CallId) :
    Serves (hosts ++ [fresh]) id k := by
  unfold Serves at h ⊢
  rw [List.idxOf?, List.findIdx?_append, ← List.idxOf?, h]
  rfl

theorem idxOf?_concat_of_ne {id fresh : CallId} (h : id ≠ fresh) :
    (hosts ++ [fresh]).idxOf? id = hosts.idxOf? id := by
  rw [List.idxOf?, List.findIdx?_append, ← List.idxOf?]
  have hne : (fresh == id) = false := by simpa using h.symm
  simp [hne]

theorem serves_concat_self {fresh : CallId} (h : fresh ∉ hosts) :
    Serves (hosts ++ [fresh]) fresh hosts.length := by
  unfold Serves
  rw [List.idxOf?, List.findIdx?_append, ← List.idxOf?, List.idxOf?_eq_none_iff.mpr h]
  simp

theorem rel_concat {s t : Option CallId}
    (h : Option.Rel (Serves hosts) s t) (fresh : CallId) :
    Option.Rel (Serves (hosts ++ [fresh])) s t := by
  cases h with
  | some h => exact .some (h.concat fresh)
  | none => exact .none

namespace StatePair

variable {s t : Shared}

theorem concat (h : StatePair hosts s t) (fresh : CallId) : StatePair (hosts ++ [fresh]) s t := by
  obtain ⟨_, answerTo, stopSignalled, hrel⟩ := h
  exact .mk t answerTo stopSignalled (rel_concat hrel fresh)

theorem phase_eq (h : StatePair hosts s t) : s.phase = t.phase := by
  cases h
  rfl

theorem attempts_eq (h : StatePair hosts s t) : s.attempts = t.attempts := by
  cases h
  rfl

theorem startedAt_eq (h : StatePair hosts s t) : s.startedAt = t.startedAt := by
  cases h
  rfl

theorem answerTo_rel (h : StatePair hosts s t) :
    Option.Rel (Serves hosts) s.answerTo t.answerTo := by
  cases h
  assumption

theorem giveUp_eq (h : StatePair hosts s t) (plan : Plan) : giveUp plan s = giveUp plan t := by
  cases h
  rfl

theorem start (h : StatePair hosts s t) {id k : CallId} (hid : Serves hosts id k)
    (now : Instant) :
    StatePair hosts { s with phase := .attempting, answerTo := some id, startedAt := some now }
      { t with phase := .attempting, answerTo := some k, startedAt := some now } := by
  obtain ⟨_, answerTo, stopSignalled, -⟩ := h
  exact .mk { t with phase := .attempting, answerTo := some k, startedAt := some now } (some id)
    stopSignalled (.some hid)

theorem signal (h : StatePair hosts s t) :
    StatePair hosts { s with stopSignalled := true } { t with stopSignalled := true } := by
  obtain ⟨_, answerTo, stopSignalled, hrel⟩ := h
  exact .mk { t with stopSignalled := true } answerTo true hrel

/-- A stop that only guests have signalled. -/
theorem overhear (h : StatePair hosts s t) : StatePair hosts { s with stopSignalled := true } t := by
  obtain ⟨_, answerTo, stopSignalled, hrel⟩ := h
  exact .mk t answerTo true hrel

theorem finish (h : StatePair hosts s t) (phase : Phase) :
    StatePair hosts { s with phase, answerTo := none } { t with phase, answerTo := none } := by
  obtain ⟨_, answerTo, stopSignalled, -⟩ := h
  exact .mk { t with phase, answerTo := none } none stopSignalled .none

theorem count (h : StatePair hosts s t) :
    StatePair hosts { s with attempts := s.attempts + 1 } { t with attempts := t.attempts + 1 } := by
  obtain ⟨_, answerTo, stopSignalled, hrel⟩ := h
  exact .mk { t with attempts := t.attempts + 1 } answerTo stopSignalled hrel

theorem heed (h : StatePair hosts s t) (plan : Plan) (reply : Reply) :
    StatePair hosts { s with incompatible := remember plan reply s.incompatible }
      { t with incompatible := remember plan reply t.incompatible } := by
  obtain ⟨_, answerTo, stopSignalled, hrel⟩ := h
  exact .mk { t with incompatible := remember plan reply t.incompatible } answerTo stopSignalled hrel

theorem blame (h : StatePair hosts s t) (cause : Cause) :
    StatePair hosts { s with lastCause := some cause } { t with lastCause := some cause } := by
  obtain ⟨_, answerTo, stopSignalled, hrel⟩ := h
  exact .mk { t with lastCause := some cause } answerTo stopSignalled hrel

end StatePair

theorem CallPair.concat {c d : Call} (h : CallPair hosts c d) (fresh : CallId) :
    CallPair (hosts ++ [fresh]) c d := by
  cases h with
  | starting h runtime => exact .starting (h.concat fresh) runtime
  | refused h reason runtime => exact .refused (h.concat fresh) reason runtime
  | accepted h => exact .accepted (h.concat fresh)
  | stopping runtime => exact .stopping runtime
  | signalled runtime => exact .signalled runtime
  | stopped h runtime => exact .stopped (h.concat fresh) runtime

theorem TaskPair.concat {task task' : Task} (h : TaskPair hosts task task') (fresh : CallId) :
    TaskPair (hosts ++ [fresh]) task task' := by
  cases h with
  | same quiet => exact .same quiet
  | delivering h outcome => exact .delivering (h.concat fresh) outcome

theorem GuestCall.concat {c : Call} {fresh : CallId} (h : GuestCall hosts ended c)
    (hne : ∀ id ∈ c.held, id ≠ fresh) : GuestCall (hosts ++ [fresh]) ended c := by
  cases h with
  | starting h runtime => exact .starting (by simpa [h] using hne _ List.mem_cons_self) runtime
  | refused h reason runtime =>
    exact .refused (by simpa [h] using hne _ List.mem_cons_self) reason runtime
  | stopping runtime => exact .stopping runtime
  | signalled h runtime => exact .signalled h runtime

theorem GuestCall.mono {c : Call} {ended' : Bool} (h : GuestCall hosts ended c)
    (hended : ended → ended') : GuestCall hosts ended' c := by
  cases h with
  | starting h runtime => exact .starting h runtime
  | refused h reason runtime => exact .refused h reason runtime
  | stopping runtime => exact .stopping runtime
  | signalled h runtime => exact .signalled (hended h) runtime

namespace CallsPair

variable {ms ms' : List Bool} {cs cs' ds ds' : List Call}

theorem append (h : CallsPair hosts ended ms cs ds) (h' : CallsPair hosts ended ms' cs' ds') :
    CallsPair hosts ended (ms ++ ms') (cs ++ cs') (ds ++ ds') := by
  induction h with
  | nil => exact h'
  | own hc _ ih => exact .own hc ih
  | guest hc _ ih => exact .guest hc ih

theorem length_eq (h : CallsPair hosts ended ms cs ds) :
    ms.length = cs.length ∧ ms.count false = ds.length := by
  induction h with
  | nil => exact ⟨rfl, rfl⟩
  | own _ _ ih => simp [ih.1, ih.2]
  | guest _ _ ih => simp [ih.1, ih.2]

/-- The calls around one. -/
theorem split {c : Call} (h : CallsPair hosts ended ms (cs ++ c :: cs') ds) :
    ∃ ms₁ ms₂ ds₁ ds₂, ms = ms₁ ++ ms₂ ∧ ds = ds₁ ++ ds₂ ∧ CallsPair hosts ended ms₁ cs ds₁ ∧
      CallsPair hosts ended ms₂ (c :: cs') ds₂ := by
  induction cs generalizing ms ds with
  | nil => exact ⟨[], ms, [], ds, rfl, rfl, .nil, h⟩
  | cons b cs ih =>
    cases h with
    | own hb rest =>
      obtain ⟨ms₁, ms₂, ds₁, ds₂, rfl, rfl, h₁, h₂⟩ := ih rest
      exact ⟨_, ms₂, _, ds₂, rfl, rfl, .own hb h₁, h₂⟩
    | guest hb rest =>
      obtain ⟨ms₁, ms₂, ds₁, ds₂, rfl, rfl, h₁, h₂⟩ := ih rest
      exact ⟨_, ms₂, ds₁, ds₂, rfl, rfl, .guest hb h₁, h₂⟩

theorem concat {fresh : CallId} (h : CallsPair hosts ended ms cs ds)
    (hne : ∀ c ∈ cs, ∀ id ∈ c.held, id ≠ fresh) :
    CallsPair (hosts ++ [fresh]) ended ms cs ds := by
  induction h with
  | nil => exact .nil
  | own hc _ ih => exact .own (hc.concat fresh) (ih fun c hmem => hne c (List.mem_cons_of_mem _ hmem))
  | guest hc _ ih =>
    exact .guest (hc.concat (hne _ List.mem_cons_self))
      (ih fun c hmem => hne c (List.mem_cons_of_mem _ hmem))

theorem mono {ended' : Bool} (h : CallsPair hosts ended ms cs ds) (hended : ended → ended') :
    CallsPair hosts ended' ms cs ds := by
  induction h with
  | nil => exact .nil
  | own hc _ ih => exact .own hc ih
  | guest hc _ ih => exact .guest (hc.mono hended) ih

end CallsPair

end Pairs

namespace World

variable {plan : Plan} {hosts : List CallId} {v w : World}

/-- What the same steps make of a world with guests and without. The calls are left out. -/
structure Twins (hosts : List CallId) (v w : World) : Prop where
  now : v.now = w.now
  state : StatePair hosts v.shared w.shared
  signal : v.shared.stopSignalled = w.shared.stopSignalled ∨ w.shared.phase.isTerminal
  task : TaskPair hosts v.task w.task
  trace : v.trace.filterMap (Happening.without hosts) = w.trace

theorem without_answer {call call' : Option CallId} (hnow : v.now = w.now)
    (hphase : v.shared.phase = w.shared.phase)
    (hcall : Option.Rel (Serves hosts) call call') (outcome : Outcome)
    (runtime : Bool) :
    (v.answer call outcome runtime).filterMap (Happening.without hosts) =
      w.answer call' outcome runtime := by
  cases hcall with
  | none => rfl
  | some h =>
    unfold Serves at h
    simp [answer, Happening.without, h, hnow, hphase]

namespace Twins

theorem emit (h : Twins hosts v w) {hs ks : List Happening}
    (hseen : hs.filterMap (Happening.without hosts) = ks) : Twins hosts (v.emit hs) (w.emit ks) where
  now := h.now
  state := h.state
  signal := h.signal
  task := h.task
  trace := by
    rw [World.emit, World.emit, List.filterMap_append, h.trace, List.filterMap_reverse, hseen]

theorem withTask (h : Twins hosts v w) {task task' : Task} (ht : TaskPair hosts task task') :
    Twins hosts { v with task } { w with task := task' } :=
  ⟨h.now, h.state, h.signal, ht, h.trace⟩

theorem withShared (h : Twins hosts v w) {s t : Shared} (hstate : StatePair hosts s t)
    (signal : s.stopSignalled = t.stopSignalled ∨ t.phase.isTerminal) :
    Twins hosts { v with shared := s } { w with shared := t } :=
  ⟨h.now, hstate, signal, h.task, h.trace⟩

theorem callStep (h : Twins hosts v w) (plan : Plan) {c d : Call} (hcall : CallPair hosts c d) :
    Twins hosts (v.callStep plan c).1 (w.callStep plan d).1 ∧
      Option.Rel (CallPair hosts) (v.callStep plan c).2 (w.callStep plan d).2 := by
  have hphase := h.state.phase_eq
  cases hcall with
  | @starting id k hid runtime =>
    cases runtime with
    | false => exact ⟨h, .some (.refused hid _ _)⟩
    | true =>
      simp only [World.callStep, Shared.start, if_true, hphase]
      cases hp : w.shared.phase with
      | idle =>
        -- The arbitration has not ended, so no guest has signalled a stop so far.
        have hsignal := h.signal.resolve_right (by simp [hp, Phase.isTerminal])
        exact ⟨h.withShared (h.now ▸ h.state.start hid v.now) (.inl hsignal), .some (.accepted hid)⟩
      | attempting | succeeded | failed | cancelled => exact ⟨h, .some (.refused hid _ _)⟩
  | refused hid reason runtime =>
    exact ⟨h.emit (without_answer h.now hphase (.some hid) _ _), .none⟩
  | accepted hid => exact ⟨(h.withTask (.same rfl)).emit rfl, .none⟩
  | stopping runtime =>
    exact ⟨h.withShared h.state.signal (.inl rfl), .some (.signalled runtime)⟩
  | signalled runtime =>
    simp only [World.callStep, Shared.stop, hphase]
    cases hp : w.shared.phase.isTerminal with
    | true => exact ⟨h, .none⟩
    | false =>
      have hsignal := h.signal.resolve_right (by simp [hp])
      exact ⟨h.withShared (h.state.finish .cancelled) (.inl hsignal), .some (.stopped h.state runtime)⟩
  | @stopped before before' hbefore runtime =>
    refine ⟨h.emit ?_, .none⟩
    rw [List.filterMap_append, List.filterMap_append,
      without_answer h.now hphase hbefore.answerTo_rel, hbefore.attempts_eq, hbefore.startedAt_eq]
    cases before'.startedAt.isSome <;> rfl

theorem deadline_eq (h : Twins hosts v w) (plan : Plan) : v.deadline plan = w.deadline plan := by
  rw [World.deadline, World.deadline, h.state.startedAt_eq, h.now]

theorem remaining_eq (h : Twins hosts v w) (plan : Plan) :
    v.remaining plan = w.remaining plan := by
  rw [World.remaining, World.remaining, h.deadline_eq, h.now]

theorem withOutcome (h : Twins hosts v w) (outcome : Outcome) :
    Twins hosts { v with task := .closing outcome } { w with task := .closing outcome } :=
  h.withTask (.same rfl)

theorem beginAttempt (h : Twins hosts v w) :
    Twins hosts (v.beginAttempt plan) (w.beginAttempt plan) := by
  unfold World.beginAttempt
  rw [h.remaining_eq, h.state.attempts_eq]
  dsimp only
  split_ifs
  · have hstate := h.state.count
    rw [h.state.attempts_eq] at hstate
    exact ((h.withShared hstate h.signal).withTask (.same rfl)).emit rfl
  · exact h.withTask (.same rfl)

theorem poll (h : Twins hosts v w) (hstop : v.shared.stopSignalled = w.shared.stopSignalled)
    (attempt : Nat) (lookup : Lookup) :
    Twins hosts (v.poll plan attempt lookup) (w.poll plan attempt lookup) := by
  have hdeadline := h.deadline_eq plan
  have hgiveUp := h.state.giveUp_eq plan
  obtain ⟨now, shared, calls, task, starts, trace⟩ := v
  obtain rfl : now = w.now := h.now
  unfold World.poll
  rw [hstop, hdeadline, hgiveUp]
  dsimp only
  split_ifs
  · exact h.withTask (.same rfl)
  · exact h.withOutcome _
  · cases lookup with
    | due remaining => exact (h.withTask (.same rfl)).emit rfl
    | outstanding => exact h
    | replied reply => exact h.withTask (.same rfl)

theorem pauseOrGiveUp (h : Twins hosts v w) :
    Twins hosts (v.pauseOrGiveUp plan) (w.pauseOrGiveUp plan) := by
  have hremaining := h.remaining_eq plan
  have hgiveUp := h.state.giveUp_eq plan
  obtain ⟨now, shared, calls, task, starts, trace⟩ := v
  obtain rfl : now = w.now := h.now
  unfold World.pauseOrGiveUp
  rw [hremaining, hgiveUp]
  dsimp only
  split_ifs
  · exact h.withOutcome _
  · exact h.withTask (.same rfl)

theorem judge (h : Twins hosts v w) (attempt : Nat) (reply : Reply) :
    Twins hosts (v.judge plan attempt reply) (w.judge plan attempt reply) := by
  have hheeds := h.withShared (h.state.heed plan reply) h.signal
  unfold World.judge
  cases Arbitration.judge plan reply with
  | selected e => exact hheeds.withOutcome _
  | fatal text => exact (hheeds.withOutcome _).emit rfl
  | retry cause =>
    have hrecord : [.event (.attemptFailed attempt (causeText plan cause) true)].filterMap
        (Happening.without hosts) = [.event (.attemptFailed attempt (causeText plan cause) true)] :=
      rfl
    have hemits := hheeds.emit hrecord
    exact (hemits.withShared (hemits.state.blame cause) hemits.signal).pauseOrGiveUp

theorem deliver (h : Twins hosts v w) {before before' : Shared}
    (hbefore : StatePair hosts before before') (outcome : Outcome) :
    Twins hosts (v.deliver before outcome) (w.deliver before' outcome) := by
  have helapsed : before.elapsed v.now = before'.elapsed w.now := by
    rw [Shared.elapsed, Shared.elapsed, hbefore.startedAt_eq, h.now]
  unfold World.deliver
  rw [helapsed, hbefore.attempts_eq]
  refine (h.withTask (.same rfl)).emit ?_
  rw [List.filterMap_append, without_answer h.now h.state.phase_eq hbefore.answerTo_rel]
  rfl

/-- The task takes the same step with guests and without, as long as a stop that only guests have
signalled is of no matter to it. -/
theorem taskStep (h : Twins hosts v w)
    (heard : v.shared.stopSignalled = w.shared.stopSignalled ∨ w.task.isTelling ∨
      w.task = .finished) : Twins hosts (v.taskStep plan) (w.taskStep plan) := by
  have htask := h.task
  unfold World.taskStep
  -- The task asks whether a stop was signalled in three places, and tells no outcome in any of them.
  generalize hv : v.task = task, hw : w.task = task' at htask heard
  cases htask with
  | delivering hbefore outcome => exact h.deliver hbefore outcome
  | same quiet =>
    cases task with
    | absent | finished | overflowed => exact h
    | beginning => exact h.beginAttempt
    | asking attempt query => exact h.withTask (.same rfl)
    | judging attempt reply => exact h.judge attempt reply
    | delivering => cases quiet
    | polling attempt lookup =>
      have hstop := heard.resolve_right (by simp [Task.isTelling])
      exact h.poll hstop attempt lookup
    | checking attempt reply =>
      have hstop := heard.resolve_right (by simp [Task.isTelling])
      dsimp only
      rw [hstop]
      split_ifs
      · exact h.withTask (.same rfl)
      · exact h.withTask (.same rfl)
    | pausing wake =>
      have hstop := heard.resolve_right (by simp [Task.isTelling])
      have hdue : wake ≤ v.now ↔ wake ≤ w.now := by rw [h.now]
      simp only [hstop, hdue]
      split_ifs
      · exact h.withTask (.same rfl)
      · exact h.withTask (.same rfl)
      · exact h
    | closing outcome =>
      simp only [Shared.finish, h.state.phase_eq]
      cases hp : w.shared.phase.isTerminal with
      | true => exact h.withTask (.same rfl)
      | false =>
        have hsignal := h.signal.resolve_right (by simp [hp])
        exact (h.withShared (h.state.finish (endPhase outcome)) (.inl hsignal)).withTask
          (.delivering h.state outcome)

end Twins

end World

end Arbiter.Arbitration
