import Arbiter.Proofs.Arbitration.Records
import Arbiter.Proofs.Metrics

/-!
What an arbitration counts of its life: that it started, as often as a start sets the task to work, and
its end, as often as an accepted start is told of it.
-/

namespace Arbiter.Arbitration

open Discovery Metrics

/-- The labels under which an arbitration that was started can end. -/
def endLabels : List String :=
  ["succeeded", "no_entries", "no_compatible_provider", "lookup_failed", "timed_out", "cancelled"]

theorem label_conclude_mem (plan : Plan) (replies : List Reply) :
    label (conclude plan replies) ∈ endLabels := by
  unfold conclude
  cases hf : replies.findSome? (decision? plan) with
  | some decision =>
    obtain ⟨reply, -, hd⟩ := List.exists_of_findSome?_eq_some hf
    unfold decision? at hd
    split at hd <;> cases hd <;> simp [label, Failure.label, endLabels]
  | none =>
    unfold failureOf
    split
    · simp [label, Failure.label, endLabels]
    · split_ifs
      · simp [label, Failure.label, endLabels]
      · split <;> simp [label, Failure.label, endLabels]

namespace World

variable {plan : Plan} {w : World} {acc : List CallId} {replies : List Reply}

/-- Of all calls only a stop can have the continuation of a start that was accepted. -/
theorem stopped_of_held (hd : Delivers plan acc w) {c : Call} (hc : c ∈ w.calls) {id : CallId}
    (hid : id ∈ acc) (hheld : id ∈ c.held) : ∃ before runtime, c = .stopped before runtime := by
  have hnodup : w.inventory.Nodup := hd.eachOnce.nodup_iff.mpr List.nodup_range
  obtain ⟨hplaces, -, htold⟩ := List.nodup_append.mp hnodup
  obtain ⟨hshared, -, htask⟩ := List.nodup_append.mp hplaces
  obtain ⟨hcalls, -, hstored⟩ := List.nodup_append.mp hshared
  have hmem : id ∈ w.calls.flatMap Call.held := List.mem_flatMap.mpr ⟨c, hc, hheld⟩
  have hway : OnItsWay plan w id := by
    cases hp : w.shared.phase with
    | idle => simp [(hd.idle hp).1] at hid
    | attempting =>
      obtain ⟨id', rfl, hanswer⟩ := hd.attempting hp
      obtain rfl := List.mem_singleton.mp hid
      exact absurd rfl (hstored id hmem id (by simp [hanswer]))
    | succeeded | failed | cancelled => exact hd.ended (by rw [hp]; rfl) id hid
  rcases hway with ⟨before, runtime, hb, hanswer, -⟩ | ⟨before, outcome, ht, hanswer, -⟩ |
    ⟨outcome, ho, -⟩
  · refine ⟨before, runtime, ?_⟩
    by_contra hne
    have : Std.Symm (Function.onFun List.Disjoint Call.held) := ⟨fun _ _ h => h.symm⟩
    have hdisjoint := (List.nodup_flatMap.mp hcalls).2.forall hc hb hne
    exact hdisjoint hheld (by simp [Call.held, hanswer])
  · exact absurd rfl (htask id (List.mem_append_left _ hmem) id (by simp [ht, Task.held, hanswer]))
  · exact absurd rfl (htold id (List.mem_append_left _ (List.mem_append_left _ hmem)) id
      (List.mem_map_of_mem ho))

/-- What a step can add to what was counted, and who is told an outcome in it. -/
inductive CountMove (plan : Plan) (w : World) (a : Action) (after : World) : Prop where
  | keep (hc : after.counted = w.counted) (ho : after.told = w.told)
      (hl : after.task.isLaunched = w.task.isLaunched)
  | launch (hn : w.task.isLaunched = false)
      (hc : after.counted = w.counted ++ [.started (strategyWord plan)]) (ho : after.told = w.told)
      (hl : after.task.isLaunched)
  | attempt (hc : after.counted = w.counted ++ [.attempts (strategyWord plan)])
      (ho : after.told = w.told) (hl : after.task.isLaunched = w.task.isLaunched)
  | refused {id reason runtime} (hin : .refused id reason runtime ∈ w.calls)
      (hc : after.counted = w.counted) (ho : after.told = (id, .error reason) :: w.told)
      (hl : after.task.isLaunched = w.task.isLaunched)
  | stopped {before runtime} (hin : .stopped before runtime ∈ w.calls)
      (hc : after.counted = w.counted ++
        if before.startedAt.isSome then Metrics.outcome "cancelled" else [])
      (ho : after.told =
        before.answerTo.toList.map (·, .error (.cancelled plan.target.interface)) ++ w.told)
      (hl : after.task.isLaunched = w.task.isLaunched)
  | delivered {before outcome} (ht : w.task = .delivering before outcome)
      (hc : after.counted = w.counted ++ Metrics.outcome (label outcome))
      (ho : after.told = before.answerTo.toList.map (·, outcome) ++ w.told)
      (hl : after.task.isLaunched)

theorem step_countMove (hd : Delivers plan acc w) (a : Action) :
    CountMove plan w a (w.step plan a) := by
  have hm := step_move plan w a
  generalize w.step plan a = after at hm
  cases hm with
  | start | stop | noCall | unasked | advance => exact .keep rfl rfl rfl
  | replyAtOnce _ ht | reply _ ht => exact .keep rfl rfl (by rw [ht]; rfl)
  | call hc split hs move =>
    have hin := List.mem_of_getElem? hc
    cases move with
    | launch =>
      exact .launch (by rw [hd.absent_of_accepted hin]; rfl) (by simp) (by simp) rfl
    | refused => exact .refused hin (by simp) (by simp) rfl
    | stopped before =>
      exact .stopped hin (by simp) (by cases before.answerTo <;> simp) rfl
    | accept | refuse | signal | late | cancel => exact .keep rfl rfl rfl
  | task move =>
    cases move with
    | wait => exact .keep rfl rfl rfl
    | leave heeding =>
      exact .keep rfl rfl (by rw [(Task.undecided_of_heedsStops heeding).2.2]; rfl)
    | begin ht => exact .attempt (by simp) (by simp) (by rw [ht]; rfl)
    | deliver ht => exact .delivered ht (by simp) (by simp) rfl
    | overflow ht | expire ht | ask ht | pend ht | take ht | check ht | select ht | abort ht
    | retry ht | abandon ht | wake ht | late ht | close ht =>
      exact .keep (by simp) (by simp) (by rw [ht]; rfl)

theorem answersTo_of_told_eq {after : World} (h : after.told = w.told) (id : CallId) :
    after.answersTo id = w.answersTo id := by
  rw [answersTo, answersTo, h]

theorem answersTo_of_told_append {after : World} {told : List (CallId × Outcome)}
    (h : after.told = told ++ w.told) (id : CallId) :
    after.answersTo id = (told.filter (·.1 == id)).map (·.2) ++ w.answersTo id := by
  rw [answersTo, answersTo, h, List.filter_append, List.map_append]

/-- What the accepted start was told. -/
def heard (acc : List CallId) (w : World) : List Outcome := acc.flatMap w.answersTo

/-- What a step adds to the ends that were counted, and to what the accepted start was told. -/
inductive EndMove (plan : Plan) (acc acc' : List CallId) (w after : World) : Prop where
  | keep (hc : after.counted.filter Series.isEnd = w.counted.filter Series.isEnd)
      (ho : heard acc' after = heard acc w)
  | tell {outcome} (hlabel : label outcome ∈ endLabels)
      (hc : after.counted.filter Series.isEnd =
        w.counted.filter Series.isEnd ++ Metrics.outcome (label outcome))
      (ho : heard acc' after = heard acc w ++ [outcome])

/-- Whoever starts an arbitration in a step has not been told anything yet. -/
theorem heard_of_fresh (hd : Delivers plan [] w) (a : Action) :
    heard (acceptedIn plan w a) (w.step plan a) = [] := by
  have hd' := hd.step a
  have hphase := step_phaseMove plan w a
  generalize w.step plan a = after, acceptedIn plan w a = new at hd' hphase
  cases hphase with
  | start id idle hp =>
    simpa [heard] using answersTo_of_attempting hd' hp (List.mem_singleton_self id)
  | keep | cancel | close => rfl

theorem endMove_of_fresh (hd : Delivers plan [] w) (ha : Attributes [] w) (a : Action) :
    EndMove plan [] (acceptedIn plan w a) w (w.step plan a) := by
  have hheard := heard_of_fresh hd a
  have hm := step_countMove hd a
  generalize w.step plan a = after at hm hheard
  cases hm with
  | keep hc => exact .keep (by rw [hc]) hheard
  | launch _ hc | attempt hc => exact .keep (by rw [hc]; simp [Series.isEnd]) hheard
  | refused _ hc => exact .keep (by rw [hc]) hheard
  | @stopped before runtime hin hc =>
    have hunstarted : before.startedAt.isSome = false := (ha.stopped before runtime hin).1.startedAt
    exact .keep (by rw [hc]; simp [hunstarted]) hheard
  | delivered ht => simp [hd.absent_of_nil] at ht

theorem heard_singleton (id : CallId) (w : World) : heard [id] w = w.answersTo id := by
  simp [heard]

theorem endMove_of_started {id : CallId} (hd : Delivers plan [id] w) (ha : Attributes [id] w)
    (hc : Concludes plan [id] replies w) (a : Action) :
    EndMove plan [id] [id] w (w.step plan a) := by
  have hid := List.mem_singleton_self id
  have hm := step_countMove hd a
  generalize w.step plan a = after at hm
  -- The continuation of the start is where it is told, so it was not told before.
  have htell {before : Shared} {outcome : Outcome} (hanswer : before.answerTo = some id)
      (ho : after.told = before.answerTo.toList.map (·, outcome) ++ w.told)
      (huntold : w.answersTo id = []) : heard [id] after = heard [id] w ++ [outcome] := by
    rw [heard_singleton, heard_singleton, answersTo_of_told_append ho, huntold, hanswer]
    simp
  cases hm with
  | keep hcounted ho =>
    exact .keep (by rw [hcounted]) (by simp only [heard_singleton, answersTo_of_told_eq ho])
  | launch _ hcounted ho | attempt hcounted ho =>
    exact .keep (by rw [hcounted]; simp [Series.isEnd])
      (by simp only [heard_singleton, answersTo_of_told_eq ho])
  | @refused id' reason runtime hin hcounted ho =>
    have hne : id' ≠ id := by
      rintro rfl
      obtain ⟨before, runtime', heq⟩ := stopped_of_held hd hin hid (List.mem_singleton_self id')
      cases heq
    refine .keep (by rw [hcounted]) ?_
    have htold : after.told = [(id', .error reason)] ++ w.told := ho
    rw [heard_singleton, heard_singleton, answersTo_of_told_append htold]
    simp [hne]
  | @stopped before runtime hin hcounted ho =>
    obtain ⟨hnames, -⟩ := ha.stopped before runtime hin
    have hstarted : before.startedAt.isSome = true := hnames.startedAt
    refine .tell (by simp [label, Failure.label, endLabels]) ?_
      (htell hnames.answerTo ho (answersTo_of_stopped hd hin hnames.answerTo))
    rw [hcounted, if_pos hstarted, List.filter_append]
    rfl
  | @delivered before outcome ht hcounted ho =>
    obtain ⟨hnames, -⟩ := ha.delivering before outcome ht
    have hconcluded := hc.reached outcome (by rw [ht]; rfl)
    refine .tell (hconcluded ▸ label_conclude_mem plan replies) ?_
      (htell hnames.answerTo ho (answersTo_of_delivering hd ht hnames.answerTo))
    rw [hcounted, List.filter_append]
    rfl

/-- What holds between the steps of every run in which the given starts were accepted. -/
structure Metered (plan : Plan) (acc : List CallId) (w : World) : Prop where
  started : w.counted.filter Series.isStarted =
    if w.task.isLaunched then [.started (strategyWord plan)] else []
  ended : w.counted.filter Series.isEnd = ((heard acc w).map label).flatMap Metrics.outcome
  labels : ∀ outcome ∈ heard acc w, label outcome ∈ endLabels

namespace Metered

theorem started_step (h : Metered plan acc w) (hd : Delivers plan acc w) (a : Action) :
    (w.step plan a).counted.filter Series.isStarted =
      if (w.step plan a).task.isLaunched then [.started (strategyWord plan)] else [] := by
  have hs := h.started
  have hm := step_countMove hd a
  generalize w.step plan a = after at hm
  cases hm with
  | keep hc _ hl | refused _ hc _ hl => rw [hc, hl, hs]
  | launch hn hc _ hl =>
    rw [hc, hl, List.filter_append, hs, hn]
    rfl
  | attempt hc _ hl =>
    rw [hc, hl, List.filter_append, hs]
    simp [Series.isStarted]
  | @stopped before _ _ hc _ hl =>
    rw [hc, hl, List.filter_append, hs]
    cases before.startedAt <;> simp [Metrics.outcome, Series.isStarted]
  | delivered ht hc _ hl =>
    rw [hc, hl, List.filter_append, hs, ht]
    rfl

theorem endMove (hd : Delivers plan acc w) (ha : Attributes acc w)
    (hc : Concludes plan acc replies w) (a : Action) :
    EndMove plan acc (acc ++ acceptedIn plan w a) w (w.step plan a) := by
  by_cases hne : acc = []
  · subst hne
    exact endMove_of_fresh hd ha a
  · obtain ⟨id, rfl⟩ := hd.eq_singleton hne
    rw [hd.acceptedIn_eq_nil hne, List.append_nil]
    exact endMove_of_started hd ha hc a

theorem step (h : Metered plan acc w) (hd : Delivers plan acc w) (ha : Attributes acc w)
    (hc : Concludes plan acc replies w) (a : Action) :
    Metered plan (acc ++ acceptedIn plan w a) (w.step plan a) where
  started := h.started_step hd a
  ended := by
    cases endMove hd ha hc a with
    | keep hcounted ho => rw [hcounted, ho, h.ended]
    | tell _ hcounted ho =>
      rw [hcounted, ho, h.ended, List.map_append, List.flatMap_append]
      simp
  labels := by
    cases endMove hd ha hc a with
    | keep _ ho => exact ho ▸ h.labels
    | tell hlabel _ ho =>
      rw [ho]
      intro outcome hmem
      rcases List.mem_append.mp hmem with hmem | hmem
      · exact h.labels outcome hmem
      · rwa [List.mem_singleton.mp hmem]

theorem init (plan : Plan) : Metered plan [] {} where
  started := rfl
  ended := rfl
  labels := by simp [heard]

theorem run (plan : Plan) (actions : List Action) :
    Metered plan (accepted plan {} actions) (World.run plan {} actions) := by
  induction actions using List.reverseRecOn with
  | nil => exact init plan
  | append_singleton actions a ih =>
    rw [accepted, gather_concat, run_concat]
    exact ih.step (.run plan actions) (.run plan actions) (.run plan actions) a

end Metered

end World

end Arbiter.Arbitration
