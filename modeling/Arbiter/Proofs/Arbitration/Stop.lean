import Arbiter.Proofs.Arbitration.Lookups

/-!
A stop is final. Once one has returned, nothing more is looked up, and neither a reply nor the
deadline tells anyone anything. Whoever is told because of the stop is told before it returns.
-/

namespace Arbiter.Arbitration

/-- Whether the task has ended the arbitration and is about to tell the outcome. -/
def Task.isTelling : Task → Bool
  | delivering .. => true
  | _ => false

def Action.isTask : Action → Bool
  | task => true
  | _ => false

namespace World

variable {plan : Plan} {w : World} {acc : List CallId}

/-- The task is not suspended between its end of the arbitration and its telling of the outcome: no
other step comes in between. -/
def TellsAtOnce (plan : Plan) (w : World) : List Action → Prop
  | [] => True
  | a :: rest => (w.task.isTelling → a.isTask) ∧ TellsAtOnce plan (w.step plan a) rest

instance decidableTellsAtOnce (plan : Plan) :
    (w : World) → (actions : List Action) → Decidable (TellsAtOnce plan w actions)
  | _, [] => inferInstanceAs (Decidable True)
  | w, a :: rest =>
    have := decidableTellsAtOnce plan (w.step plan a) rest
    inferInstanceAs (Decidable ((w.task.isTelling → a.isTask) ∧ TellsAtOnce plan (w.step plan a) rest))

theorem TellsAtOnce.untelling {earlier : List Action} {a : Action}
    (h : TellsAtOnce plan w (earlier ++ [a])) (ha : a.isTask = false) :
    (w.run plan earlier).task.isTelling = false := by
  induction earlier generalizing w with
  | nil =>
    have htelling : w.task.isTelling → a.isTask := h.1
    simpa [ha, run] using htelling
  | cons b rest ih => exact ih h.2

/-- Where the task is not about to tell an outcome, only calls tell anything. -/
theorem told_step_of_ne_call (plan : Plan)
    (quiet : ∀ before outcome, w.task ≠ .delivering before outcome) {a : Action}
    (ha : ∀ i, a ≠ .call i) : (w.step plan a).told = w.told := by
  have hm := step_move plan w a
  generalize w.step plan a = after at hm
  cases hm with
  | start | stop | noCall | replyAtOnce | reply | unasked | advance => rfl
  | call => exact absurd rfl (ha _)
  | task move =>
    cases move with
    | deliver ht => exact absurd ht (quiet _ _)
    | _ => simp

/-- A call stays among those that have not returned until it takes a step. -/
theorem mem_calls_step (plan : Plan) {c : Call} (hc : c ∈ w.calls) (a : Action) :
    c ∈ (w.step plan a).calls ∨ ∃ i, a = .call i ∧ w.calls[i]? = some c := by
  have hm := step_move plan w a
  generalize w.step plan a = after at hm
  cases hm with
  | start | stop => exact Or.inl (List.mem_append_left _ hc)
  | noCall | replyAtOnce | reply | unasked | advance => exact Or.inl hc
  | call hi split hs move =>
    rw [split, List.mem_append, List.mem_cons] at hc
    rcases hc with hc | rfl | hc
    · exact Or.inl (by simp [hc])
    · exact Or.inr ⟨_, rfl, hi⟩
    · exact Or.inl (by simp [hc])
  | task move =>
    obtain ⟨-, hcalls, -⟩ := move.frame
    exact Or.inl (hcalls ▸ hc)

/-- If calls of a kind go on to calls of that kind until a caller is told, no step comes in between
that makes the caller go without. -/
theorem owed_step {id : CallId} {outcome : Outcome} {Owes : Call → Prop}
    (goOn : ∀ c, Owes c → (∃ rest, (w.callStep plan c).2 = some rest ∧ Owes rest) ∨
      (id, outcome) ∈ (w.callStep plan c).1.told)
    (h : (∃ c ∈ w.calls, Owes c) ∨ (id, outcome) ∈ w.told) (a : Action) :
    (∃ c ∈ (w.step plan a).calls, Owes c) ∨ (id, outcome) ∈ (w.step plan a).told := by
  rcases h with ⟨c, hc, howes⟩ | ho
  · rcases mem_calls_step plan hc a with hstays | ⟨i, rfl, hi⟩
    · exact Or.inl ⟨c, hstays, howes⟩
    · rw [step_call hi]
      refine (goOn c howes).imp_left ?_
      rintro ⟨rest, hrest, howes⟩
      obtain ⟨hlt, -⟩ := List.getElem?_eq_some_iff.mp hi
      exact ⟨rest, by rw [hrest]; exact List.mem_set hlt rest, howes⟩
  · exact Or.inr ((told_suffix plan w a).subset ho)

/-- The arbitration has ended, and the task is to hear of a stop. -/
structure Halted (w : World) : Prop where
  signalled : w.shared.stopSignalled
  terminal : w.shared.phase.isTerminal

namespace Halted

theorem phase_step (h : Halted w) (plan : Plan) (a : Action) :
    (w.step plan a).shared.phase = w.shared.phase := by
  have ht := h.terminal
  have hm := step_phaseMove plan w a
  generalize w.step plan a = after, acceptedIn plan w a = new at hm
  cases hm with
  | keep hp => exact hp
  | start id idle => simp [idle, Phase.isTerminal] at ht
  | cancel going | close _ going => simp [ht] at going

theorem lookups_step (h : Halted w) (hd : Delivers plan acc w) (a : Action) :
    (w.step plan a).lookups = w.lookups := by
  cases step_lookupMove hd a with
  | ask ht unstopped => simp [h.signalled] at unstopped
  | keep _ _ hl | count _ _ _ hl | drop _ _ _ _ _ hl => exact hl

theorem step (h : Halted w) (plan : Plan) (a : Action) : Halted (w.step plan a) where
  signalled := by
    have hs := h.signalled
    have hm := step_move plan w a
    generalize w.step plan a = after at hm
    cases hm with
    | start | stop | noCall | replyAtOnce | reply | unasked | advance => exact hs
    | call hc split hstep move =>
      cases move with
      | signal => rfl
      | accept | refuse | refused | launch | late | cancel | stopped => exact hs
    | task move => cases move <;> exact hs
  terminal := by rw [h.phase_step]; exact h.terminal

/-- Nobody is about to be told an outcome by the task, and nobody will be. -/
theorem quiet_step (h : Halted w) (quiet : ∀ before outcome, w.task ≠ .delivering before outcome)
    (plan : Plan) (a : Action) :
    ∀ before outcome, (w.step plan a).task ≠ .delivering before outcome := by
  have ht := h.terminal
  have hm := step_move plan w a
  generalize w.step plan a = after at hm
  cases hm with
  | start | stop | noCall | unasked | advance => exact quiet
  | replyAtOnce | reply => simp
  | call hc split hs move =>
    cases move with
    | launch => simp
    | accept | refuse | refused | signal | late | cancel | stopped => exact quiet
  | task move =>
    cases move with
    | wait => exact quiet
    | close _ going => simp [ht] at going
    | _ => simp

theorem run (h : Halted w) (plan : Plan) (more : List Action) :
    Halted (w.run plan more) ∧ (w.run plan more).shared.phase = w.shared.phase := by
  induction more using List.reverseRecOn with
  | nil => exact ⟨h, rfl⟩
  | append_singleton more a ih =>
    rw [run_concat]
    exact ⟨ih.1.step plan a, (ih.1.phase_step plan a).trans ih.2⟩

theorem lookups_run (h : Halted w) (hd : Delivers plan acc w) (more : List Action) :
    (w.run plan more).lookups = w.lookups := by
  induction more generalizing w acc with
  | nil => rfl
  | cons a more ih => exact (ih (h.step plan a) (hd.step a)).trans (h.lookups_step hd a)

theorem quiet_run (h : Halted w) (quiet : ∀ before outcome, w.task ≠ .delivering before outcome)
    (plan : Plan) (more : List Action) :
    ∀ before outcome, (w.run plan more).task ≠ .delivering before outcome := by
  induction more using List.reverseRecOn with
  | nil => exact quiet
  | append_singleton more a ih =>
    rw [run_concat]
    exact (h.run plan more).1.quiet_step ih plan a

end Halted

/-- The call at this place is a stop, and its next step is the last. -/
def StopReturns (plan : Plan) (w : World) (i : Nat) : Prop :=
  ∃ c, w.calls[i]? = some c ∧ c.isStop ∧ (w.callStep plan c).2 = none

/-- A stop only has something to tell in an arbitration that it cancelled. -/
theorem cancelled_of_stopped (plan : Plan) (actions : List Action) {before : Shared} {runtime : Bool}
    (hc : .stopped before runtime ∈ (World.run plan {} actions).calls) :
    (World.run plan {} actions).shared.phase = .cancelled := by
  induction actions using List.reverseRecOn with
  | nil => cases hc
  | append_singleton actions a ih =>
    have hd := Delivers.run plan actions
    rw [run_concat] at hc ⊢
    generalize World.run plan {} actions = w at hc hd ih ⊢
    have hkeep (hin : .stopped before runtime ∈ w.calls) :
        (w.step plan a).shared.phase = .cancelled := by
      have hp := ih hin
      rw [hd.phase_step_of_terminal (by rw [hp]; rfl), hp]
    have hm := step_move plan w a
    generalize w.step plan a = after at hm hc hkeep
    cases hm with
    | start | stop => exact hkeep (by simpa using hc)
    | noCall | replyAtOnce | reply | unasked | advance => exact hkeep hc
    | call hi split hs move =>
      rw [split] at hkeep
      cases move with
      | cancel => rfl
      | stopped => exact hkeep (by simp at hc ⊢; tauto)
      | accept | refuse | refused | launch | signal | late => exact hkeep (by simpa using hc)
    | task move =>
      obtain ⟨-, hcalls, -⟩ := move.frame
      exact hkeep (hcalls ▸ hc)

/-- The task does not notice the return of a stop. -/
theorem task_of_stopReturns {i : Nat} (h : StopReturns plan w i) :
    (w.step plan (.call i)).task = w.task := by
  obtain ⟨c, hc, hstop, -⟩ := h
  rw [step_call hc]
  have hm := callStep_move plan w c
  generalize w.callStep plan c = r at hm
  obtain ⟨after, left⟩ := r
  cases hm with
  | accept | refuse | refused | launch => cases hstop
  | signal | late | cancel | stopped => rfl

theorem halted_of_stopReturns (plan : Plan) (earlier : List Action) {i : Nat}
    (h : StopReturns plan (World.run plan {} earlier) i) :
    Halted ((World.run plan {} earlier).step plan (.call i)) := by
  obtain ⟨c, hc, hstop, hlast⟩ := h
  have hmem := List.mem_of_getElem? hc
  have hk := Keeps.run plan earlier
  have hcancelled : ∀ before runtime, c = .stopped before runtime →
      (World.run plan {} earlier).shared.phase = .cancelled :=
    fun before runtime heq => cancelled_of_stopped plan earlier (heq ▸ hmem)
  generalize World.run plan {} earlier = w at hc hlast hmem hk hcancelled ⊢
  rw [step_call hc]
  cases c with
  | starting | refused | accepted => cases hstop
  | stopping => cases hlast
  | signalled runtime =>
    have hm := callStep_move plan w (.signalled runtime)
    generalize w.callStep plan (.signalled runtime) = r at hm hlast
    obtain ⟨after, left⟩ := r
    cases hm with
    | late _ ended => exact ⟨hk.stopped (Or.inr ⟨runtime, hmem⟩), ended⟩
    | cancel => cases hlast
  | stopped before runtime =>
    have hp := hcancelled before runtime rfl
    exact ⟨hk.stopped (Or.inl hp), by simp [callStep, hp, Phase.isTerminal]⟩

/-- Whatever comes after it, the arbitration neither looks anything up nor leaves its phase, and
further stops change nothing. -/
structure Final (plan : Plan) (w : World) : Prop where
  terminal : w.shared.phase.isTerminal
  phase : ∀ more, (w.run plan more).shared.phase = w.shared.phase
  lookups : ∀ more, (w.run plan more).lookups = w.lookups
  signal : ∀ more i runtime, (w.run plan more).calls[i]? = some (.stopping runtime) →
    (w.run plan more).step plan (.call i) =
      { w.run plan more with calls := (w.run plan more).calls.set i (.signalled runtime) }
  leave : ∀ more i runtime, (w.run plan more).calls[i]? = some (.signalled runtime) →
    (w.run plan more).step plan (.call i) =
      { w.run plan more with calls := (w.run plan more).calls.eraseIdx i }

theorem Halted.final (h : Halted w) (hd : Delivers plan acc w) : Final plan w where
  terminal := h.terminal
  phase more := (h.run plan more).2
  lookups more := h.lookups_run hd more
  signal more i runtime hi := by
    have hs := (h.run plan more).1.signalled
    generalize w.run plan more = later at hi hs ⊢
    rw [step_call hi]
    obtain ⟨now, shared, calls, task, starts, trace⟩ := later
    obtain ⟨phase, answerTo, incompatible, lastCause, attempts, startedAt, stopSignalled⟩ := shared
    obtain rfl : stopSignalled = true := hs
    rfl
  leave more i runtime hi := by
    have ht := (h.run plan more).1.terminal
    generalize w.run plan more = later at hi ht ⊢
    rw [step_call hi]
    simp [callStep, Shared.stop, ht]

/-- The call that has the continuation of a start stays until it has told it of the stop. -/
theorem stopped_or_told (plan : Plan) {before : Shared} {runtime : Bool} {id : CallId}
    (hc : .stopped before runtime ∈ w.calls) (hid : before.answerTo = some id)
    (more : List Action) :
    .stopped before runtime ∈ (w.run plan more).calls ∨
      (id, .error (.cancelled plan.target.interface)) ∈ (w.run plan more).told := by
  have howed : (∃ c ∈ (w.run plan more).calls, c = .stopped before runtime) ∨
      (id, .error (.cancelled plan.target.interface)) ∈ (w.run plan more).told := by
    induction more using List.reverseRecOn with
    | nil => exact Or.inl ⟨_, hc, rfl⟩
    | append_singleton more a ih =>
      rw [run_concat]
      refine owed_step ?_ ih a
      rintro c rfl
      exact Or.inr (by simp [callStep, hid])
  simpa using howed

/-- A start that is under way in a cancelled arbitration is refused for that reason, and stays until
it has told so. -/
theorem refused_or_told (h : Halted w) (hp : w.shared.phase = .cancelled) {id : CallId}
    (hc : .starting id true ∈ w.calls) (plan : Plan) (rest : List Action) :
    .starting id true ∈ (w.run plan rest).calls ∨
      .refused id (.cancelled plan.target.interface) true ∈ (w.run plan rest).calls ∨
      (id, .error (.cancelled plan.target.interface)) ∈ (w.run plan rest).told := by
  have howed : (∃ c ∈ (w.run plan rest).calls,
        c = .starting id true ∨ c = .refused id (.cancelled plan.target.interface) true) ∨
      (id, .error (.cancelled plan.target.interface)) ∈ (w.run plan rest).told := by
    induction rest using List.reverseRecOn with
    | nil => exact Or.inl ⟨_, hc, Or.inl rfl⟩
    | append_singleton rest a ih =>
      have hcancelled := (h.run plan rest).2.trans hp
      rw [run_concat]
      refine owed_step ?_ ih a
      rintro c (rfl | rfl)
      · exact Or.inl ⟨_, by simp [callStep, Shared.start, hcancelled], Or.inr rfl⟩
      · exact Or.inr (by simp [callStep])
  rcases howed with ⟨c, hmem, rfl | rfl⟩ | ho
  · exact Or.inl hmem
  · exact Or.inr (Or.inl hmem)
  · exact Or.inr (Or.inr ho)

theorem halted_of_lock (plan : Plan) (earlier : List Action) {i : Nat} {runtime : Bool}
    (hc : (World.run plan {} earlier).calls[i]? = some (.signalled runtime))
    (going : (World.run plan {} earlier).shared.phase.isTerminal = false) :
    let w := World.run plan {} earlier
    let locked := w.step plan (.call i)
    Halted locked ∧ locked.shared.phase = .cancelled ∧
      .stopped w.shared runtime ∈ locked.calls := by
  have hs := (Keeps.run plan earlier).stopped (Or.inr ⟨runtime, List.mem_of_getElem? hc⟩)
  generalize World.run plan {} earlier = w at hc going hs ⊢
  obtain ⟨hlt, -⟩ := List.getElem?_eq_some_iff.mp hc
  have hlocked : w.step plan (.call i) = { w with
      shared := { w.shared with phase := .cancelled, answerTo := none }
      calls := w.calls.set i (.stopped w.shared runtime) } := by
    rw [step_call hc]
    simp [callStep, Shared.stop, going]
  dsimp only
  rw [hlocked]
  exact ⟨⟨hs, rfl⟩, rfl, List.mem_set hlt _⟩

/-- The caller of this start was told that the arbitration was cancelled, and nothing else. -/
def ToldCancelled (plan : Plan) (w : World) (id : CallId) : Prop :=
  w.answersTo id = [.error (.cancelled plan.target.interface)]

/-- Two steps are all that a start takes to be refused and to tell so. -/
theorem refused_at_once (plan : Plan) (hp : w.shared.phase = .cancelled) {i : Nat} {id : CallId}
    (hc : w.calls[i]? = some (.starting id true)) :
    (id, .error (.cancelled plan.target.interface)) ∈ (w.run plan [.call i, .call i]).told := by
  obtain ⟨hlt, -⟩ := List.getElem?_eq_some_iff.mp hc
  have hrefused : w.step plan (.call i) =
      { w with calls := w.calls.set i (.refused id (.cancelled plan.target.interface) true) } := by
    rw [step_call hc]
    simp [callStep, Shared.start, hp]
  have hnext : (w.step plan (.call i)).calls[i]? =
      some (.refused id (.cancelled plan.target.interface) true) := by
    rw [hrefused]
    exact List.getElem?_set_self hlt
  rw [run, List.foldl_cons, List.foldl_cons, List.foldl_nil, step_call hnext]
  simp [callStep]

theorem toldCancelled_of_told (plan : Plan) (actions : List Action) {id : CallId}
    (ho : (id, .error (.cancelled plan.target.interface)) ∈ (World.run plan {} actions).told) :
    ToldCancelled plan (World.run plan {} actions) id :=
  (Delivers.run plan actions).answersTo_eq ho

/-- After a stop has returned, nobody is told anything but by a call. -/
theorem told_of_stopReturns (plan : Plan) (earlier : List Action) {i : Nat}
    (hret : StopReturns plan (World.run plan {} earlier) i)
    (atOnce : TellsAtOnce plan {} (earlier ++ [.call i])) (more : List Action) {a : Action}
    (ha : ∀ j, a ≠ .call j) :
    let returned := (World.run plan {} earlier).step plan (.call i)
    (returned.run plan (more ++ [a])).told = (returned.run plan more).told := by
  intro returned
  have hh : Halted returned := halted_of_stopReturns plan earlier hret
  have huntelling : (World.run plan {} earlier).task.isTelling = false := atOnce.untelling rfl
  have quiet : ∀ before outcome, returned.task ≠ .delivering before outcome := by
    intro before outcome ht
    simp [(task_of_stopReturns hret).symm.trans ht, Task.isTelling] at huntelling
  rw [run_concat]
  exact told_step_of_ne_call plan (hh.quiet_run quiet plan more) ha

/-- No call makes a lookup before an arbitration begins. -/
theorem lookups_of_idle (plan : Plan) (earlier : List Action)
    (hp : (World.run plan {} earlier).shared.phase = .idle) (i : Nat) :
    ((World.run plan {} earlier).step plan (.call i)).lookups = [] := by
  have hd := Delivers.run plan earlier
  have habsent := hd.absent_of_idle hp
  cases step_lookupMove hd (.call i) with
  | ask ht => simp [habsent] at ht
  | keep _ _ hl | count _ _ _ hl | drop _ _ _ _ _ hl =>
    exact hl.trans ((Keeps.run plan earlier).fresh habsent).2

/-- A stop is final. Once one has returned, no lookup is made, the phase stays as it is, and neither
the task, nor a reply, nor the clock tells anyone anything. -/
theorem stop_is_final (plan : Plan) (earlier : List Action) :
    let w := World.run plan {} earlier
    (∀ i, StopReturns plan w i → Final plan (w.step plan (.call i)) ∧
      (TellsAtOnce plan {} (earlier ++ [.call i]) → ∀ more a, (∀ j, a ≠ .call j) →
        ((w.step plan (.call i)).run plan (more ++ [a])).told =
          ((w.step plan (.call i)).run plan more).told)) ∧
    ∀ i runtime, w.calls[i]? = some (.signalled runtime) →
      -- A stop while the arbitration is going on has told the accepted start when it returns.
      (w.shared.phase = .attempting → ∃ id, accepted plan {} earlier = [id] ∧ ∀ more,
        let later := (w.step plan (.call i)).run plan more
        .stopped w.shared runtime ∈ later.calls ∨ ToldCancelled plan later id) ∧
      -- After one before any start, each start is told of it before it returns.
      (w.shared.phase = .idle → ∀ more,
        let later := (w.step plan (.call i)).run plan more
        later.lookups = [] ∧ ∀ j id, later.calls[j]? = some (.starting id true) →
          ToldCancelled plan (later.run plan [.call j, .call j]) id ∧ ∀ rest,
            let last := later.run plan rest
            .starting id true ∈ last.calls ∨
              .refused id (.cancelled plan.target.interface) true ∈ last.calls ∨
              ToldCancelled plan last id) := by
  intro w
  have hd : Delivers plan (accepted plan {} earlier) w := .run plan earlier
  refine ⟨fun i hret => ⟨?_, ?_⟩, fun i runtime hc => ⟨fun hp => ?_, fun hp more => ?_⟩⟩
  · exact (halted_of_stopReturns plan earlier hret).final (hd.step _)
  · intro atOnce more a ha
    exact told_of_stopReturns plan earlier hret atOnce more ha
  · obtain ⟨id, hid, hanswer⟩ := hd.attempting hp
    obtain ⟨-, -, hmem⟩ := halted_of_lock plan earlier hc (by rw [hp]; rfl)
    refine ⟨id, hid, fun more => (stopped_or_told plan hmem hanswer more).imp_right fun ho => ?_⟩
    rw [← run_concat, ← run_append] at ho ⊢
    exact toldCancelled_of_told plan _ ho
  · obtain ⟨hlocked, hcancelled, -⟩ := halted_of_lock plan earlier hc (by rw [hp]; rfl)
    obtain ⟨hh, hsame⟩ := hlocked.run plan more
    have hp' := hsame.trans hcancelled
    have htold (rest : List Action) {id : CallId}
        (ho : (id, .error (.cancelled plan.target.interface)) ∈
          (((w.step plan (.call i)).run plan more).run plan rest).told) :
        ToldCancelled plan (((w.step plan (.call i)).run plan more).run plan rest) id := by
      rw [← run_concat, ← run_append, ← run_append] at ho ⊢
      exact toldCancelled_of_told plan _ ho
    refine ⟨?_, fun j id hj => ⟨?_, fun rest => ?_⟩⟩
    · rw [hlocked.lookups_run (hd.step _), lookups_of_idle plan earlier hp]
    · exact htold _ (refused_at_once plan hp' hj)
    · have hmem := List.mem_of_getElem? hj
      exact (refused_or_told hh hp' hmem plan rest).imp_right (Or.imp_right (htold rest))

/-- A stop comes while the only lookup is outstanding. It has been signalled, and is about to take
the lock. -/
def stopInLookup : List Action :=
  [.start true, .call 0, .call 0, .task, .task, .task, .stop true, .call 0]

/-- A reply that would have decided the arbitration comes too late once the stop has returned. -/
theorem stop_outlasts_reply :
    let returned := (World.run twoAttempts {} (stopInLookup ++ [.call 0])).step twoAttempts (.call 0)
    let late : List Action :=
      [.reply (.ok [{ version := { major := 1, minor := 3 }, domain := "vehicle",
                      interface := "radio", participant := "radio-1" }]),
       .task, .advance (.ofMillis 150)]
    (returned.run twoAttempts late).lookups = returned.lookups ∧
      (returned.run twoAttempts late).shared.phase = .cancelled ∧
      (returned.run twoAttempts (late ++ [.task])).told = (returned.run twoAttempts late).told ∧
      ToldCancelled twoAttempts (returned.run twoAttempts late) 0 := by
  intro returned late
  obtain ⟨hreturn, -⟩ := stop_is_final twoAttempts (stopInLookup ++ [.call 0])
  obtain ⟨hfinal, hquiet⟩ := hreturn 0 ⟨_, rfl, rfl, rfl⟩
  have atOnce : TellsAtOnce twoAttempts {} (stopInLookup ++ [.call 0] ++ [.call 0]) := by
    decide +kernel
  obtain ⟨-, hlock⟩ := stop_is_final twoAttempts stopInLookup
  obtain ⟨id, hid, htold⟩ := (hlock 0 true rfl).1 rfl
  obtain rfl : 0 = id := by
    have haccepted : accepted twoAttempts {} stopInLookup = [0] := by rfl
    simpa [haccepted] using hid
  refine ⟨hfinal.lookups late, hfinal.phase late, hquiet atOnce late .task nofun, ?_⟩
  refine (htold (.call 0 :: late)).resolve_left ?_
  have hcalls : (((World.run twoAttempts {} stopInLookup).step twoAttempts (.call 0)).run
      twoAttempts (.call 0 :: late)).calls = [] := by rfl
  simp [hcalls]

end World

end Arbiter.Arbitration
