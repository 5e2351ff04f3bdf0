import Arbiter.Proofs.Arbitration.Delivery
import Arbiter.Proofs.VersionSet

/-!
What an arbitration concludes is a function of the replies on which the task acted, in order: the
first that is decisive decides, and if none is, the failure follows from the latest list of entries
and the latest reply.
-/

namespace Arbiter.Arbitration

open Discovery

variable {plan : Plan} {replies : List Reply}

/-- The outcome that a reply brings about by itself. -/
def decision? (plan : Plan) (reply : Reply) : Option Outcome :=
  match judge plan reply with
  | .selected e => some (.ok e)
  | .fatal text => some (.error (.lookupFailed text))
  | .retry _ => none

/-- Why an attempt with this reply is to be repeated, if it is. -/
def retryCause? (plan : Plan) (reply : Reply) : Option Cause :=
  match judge plan reply with
  | .retry cause => some cause
  | _ => none

/-- The latest list of entries among replies, empty if there is none. -/
def latestEntries (replies : List Reply) : List Entry :=
  (replies.reverse.findSome? Except.toOption).getD []

/-- The versions in the latest list of entries, if none of them would do. -/
def rejectedVersions (plan : Plan) (replies : List Reply) : VersionSet :=
  if (latestEntries replies).all fun e => !e.version.serves plan.required then
    VersionSet.ofList ((latestEntries replies).map (·.version))
  else []

/-- The failure that follows from replies none of which was decisive. -/
def failureOf (plan : Plan) (replies : List Reply) : Failure :=
  match replies.getLast? with
  | none => .timedOut
  | some last =>
    if rejectedVersions plan replies ≠ [] then
      .noCompatibleProvider plan.target (rejectedVersions plan replies)
    else match last with
      | .error (.application code) => .lookupFailed (continuing (codeFailure plan code))
      | .error (.runtime text) => .lookupFailed (continuing (lookupFailure plan text))
      | .ok _ => .noEntries plan.target

def conclude (plan : Plan) (replies : List Reply) : Outcome :=
  (replies.findSome? (decision? plan)).getD (.error (failureOf plan replies))

/-- No reply is a code that ends the arbitration at once. -/
def Unfatal (replies : List Reply) : Prop :=
  ∀ code, .error (.application code) ∈ replies → code.isRetryable

theorem givingUp_ne_continuing (s t : String) : givingUp s ≠ continuing t := by
  intro h
  have hend : (givingUp s).toList.reverse.take 2 = (continuing t).toList.reverse.take 2 := by rw [h]
  simp [givingUp, continuing] at hend

theorem mem_rejectedVersions {v : Version} :
    v ∈ rejectedVersions plan replies ↔
      (∀ e ∈ latestEntries replies, e.version.serves plan.required = false) ∧
        ∃ e ∈ latestEntries replies, e.version = v := by
  have hnone : ((latestEntries replies).all fun e => !e.version.serves plan.required) = true ↔
      ∀ e ∈ latestEntries replies, e.version.serves plan.required = false := by
    simp only [List.all_eq_true, Bool.not_eq_eq_eq_not, Bool.not_true]
  unfold rejectedVersions
  split_ifs with h
  · rw [VersionSet.mem_ofList, List.mem_map]
    exact (and_iff_right (hnone.mp h)).symm
  · refine iff_of_false (List.not_mem_nil) ?_
    rintro ⟨hall, -⟩
    exact h (hnone.mpr hall)

theorem pairwise_rejectedVersions (plan : Plan) (replies : List Reply) :
    (rejectedVersions plan replies).Pairwise fun v w => v.before w := by
  unfold rejectedVersions
  split_ifs
  · exact VersionSet.pairwise_ofList _
  · exact .nil

@[simp] theorem latestEntries_concat_ok (replies : List Reply) (es : List Entry) :
    latestEntries (replies ++ [.ok es]) = es := by
  simp [latestEntries, List.findSome?_cons, Except.toOption]

@[simp] theorem latestEntries_concat_error (replies : List Reply) (error : LookupError) :
    latestEntries (replies ++ [.error error]) = latestEntries replies := by
  simp [latestEntries, List.findSome?_cons, Except.toOption]

theorem compatibleEntries_isEmpty {required : Version} {es : List Entry} :
    (compatibleEntries required es).isEmpty ↔ ∀ e ∈ es, e.version.serves required = false := by
  simp [compatibleEntries, List.filter_eq_nil_iff]

theorem rejectedVersions_concat (plan : Plan) (replies : List Reply) (reply : Reply) :
    rejectedVersions plan (replies ++ [reply]) =
      remember plan reply (rejectedVersions plan replies) := by
  cases reply with
  | error error => simp [rejectedVersions, remember]
  | ok es =>
    simp only [rejectedVersions, latestEntries_concat_ok, remember]
    by_cases h : ∀ e ∈ es, e.version.serves plan.required = false
    · have hf : es.filter (fun e => !e.version.serves plan.required) = es :=
        List.filter_eq_self.mpr (by simpa using h)
      rw [if_pos (by simpa using h), if_pos (compatibleEntries_isEmpty.mpr h),
        incompatibleVersions, hf]
    · rw [if_neg (by simpa using h), if_neg (compatibleEntries_isEmpty.not.mpr h)]

theorem retryCause?_ok {es : List Entry} (undecided : decision? plan (.ok es) = none) :
    retryCause? plan (.ok es) = some .noEntries ∨
      retryCause? plan (.ok es) = some .incompatible := by
  revert undecided
  simp only [decision?, retryCause?, judge, judgeEntries]
  cases plan.policy.select (compatibleEntries plan.required es) <;> split_ifs <;> simp

theorem retryCause?_application {code : ErrorCode}
    (undecided : decision? plan (.error (.application code)) = none) :
    retryCause? plan (.error (.application code)) = some (.lookupFailed (codeFailure plan code)) := by
  revert undecided
  simp only [decision?, retryCause?, judge]
  split_ifs <;> simp

/-- What the task keeps in mind about replies none of which was decisive. -/
structure Remembers (plan : Plan) (replies : List Reply) (s : Shared) : Prop where
  undecided : ∀ reply ∈ replies, decision? plan reply = none
  versions : s.incompatible = rejectedVersions plan replies
  cause : s.lastCause = replies.getLast?.bind (retryCause? plan)

theorem conclude_of_undecided (undecided : ∀ reply ∈ replies, decision? plan reply = none) :
    conclude plan replies = .error (failureOf plan replies) := by
  rw [conclude, List.findSome?_eq_none_iff.mpr undecided, Option.getD_none]

theorem conclude_concat (undecided : ∀ reply ∈ replies, decision? plan reply = none)
    {reply : Reply} {outcome : Outcome} (hd : decision? plan reply = some outcome) :
    conclude plan (replies ++ [reply]) = outcome := by
  rw [conclude, List.findSome?_append, List.findSome?_eq_none_iff.mpr undecided]
  simp [hd]

theorem fatal_of_decision? {reply : Reply} {failure : Failure}
    (h : decision? plan reply = some (.error failure)) :
    ∃ code : ErrorCode, reply = .error (.application code) ∧ code.isRetryable = false := by
  rcases reply with (code | text) | es
  · refine ⟨code, rfl, ?_⟩
    cases hc : code.isRetryable with
    | true => simp [decision?, judge, hc] at h
    | false => rfl
  · simp [decision?, judge] at h
  · revert h
    simp only [decision?, judge, judgeEntries]
    cases plan.policy.select (compatibleEntries plan.required es) <;> split_ifs <;> simp

/-- Without a fatal code, replies from which a failure follows were none of them decisive. -/
theorem Unfatal.undecided {failure : Failure} (h : Unfatal replies)
    (hc : conclude plan replies = .error failure) :
    ∀ reply ∈ replies, decision? plan reply = none := by
  refine List.findSome?_eq_none_iff.mp ?_
  cases hf : replies.findSome? (decision? plan) with
  | none => rfl
  | some decision =>
    obtain ⟨reply, hmem, hdec⟩ := List.exists_of_findSome?_eq_some hf
    rw [conclude, hf, Option.getD_some] at hc
    obtain ⟨code, rfl, hfatal⟩ := fatal_of_decision? (hc ▸ hdec)
    simp [h code hmem] at hfatal

namespace Remembers

variable {s : Shared}

/-- What is kept in mind is enough to report the failure. -/
theorem giveUp_eq (h : Remembers plan replies s) :
    (.error (giveUp plan s) : Outcome) = conclude plan replies := by
  rw [conclude_of_undecided h.undecided]
  unfold giveUp failureOf
  rw [h.versions, h.cause]
  cases hlast : replies.getLast? with
  | none => rfl
  | some last =>
    have hund := h.undecided last (List.mem_of_getLast? hlast)
    rw [Option.bind_some]
    rcases last with (code | text) | es
    · rw [retryCause?_application hund]
    · rfl
    · rcases retryCause?_ok hund with hc | hc <;> rw [hc]

theorem concat (h : Remembers plan replies s) {reply : Reply} {cause : Cause}
    (hj : judge plan reply = .retry cause) :
    Remembers plan (replies ++ [reply])
      { s with incompatible := remember plan reply s.incompatible, lastCause := some cause } where
  undecided r hr := by
    rcases List.mem_append.mp hr with hr | hr
    · exact h.undecided r hr
    · rw [List.mem_singleton.mp hr, decision?, hj]
  versions := by rw [rejectedVersions_concat, ← h.versions]
  cause := by simp [retryCause?, hj]

end Remembers

/-- Whether the task has not reached an outcome yet, and still can. -/
def Task.isWorking : Task → Bool
  | closing _ | delivering .. | finished | overflowed => false
  | _ => true

namespace World

variable {w : World} {acc : List CallId}

/-- What holds between the steps of every run with the given accepted starts and replies. -/
structure Concludes (plan : Plan) (acc : List CallId) (replies : List Reply) (w : World) :
    Prop where
  working : w.task.isWorking → Remembers plan replies w.shared
  reached : ∀ outcome ∈ w.task.reached, outcome = conclude plan replies
  ended : w.shared.phase = .succeeded ∨ w.shared.phase = .failed → ∃ id, acc = [id] ∧
    ((∃ before, w.task = .delivering before (conclude plan replies) ∧ before.answerTo = some id) ∨
      w.task = .finished ∧ (id, conclude plan replies) ∈ w.told)

namespace Concludes

theorem working_step (h : Concludes plan acc replies w) (hd : Delivers plan acc w) (a : Action)
    (hw : (w.step plan a).task.isWorking) :
    Remembers plan (replies ++ judgedIn w a) (w.step plan a).shared := by
  have hm := step_move plan w a
  generalize w.step plan a = after at hm hw
  cases hm with
  | start | stop | noCall | unasked | advance => simpa [judgedIn] using h.working hw
  | replyAtOnce _ ht | reply _ ht => simpa [judgedIn] using h.working (by rw [ht]; rfl)
  | call hc split hs move =>
    rw [judgedIn_call, List.append_nil]
    cases move with
    | launch id =>
      have ht := hd.absent_of_accepted (List.mem_of_getElem? hc)
      exact h.working (by rw [ht]; rfl)
    | accept | signal | cancel =>
      have hr := h.working hw
      exact ⟨hr.undecided, hr.versions, hr.cause⟩
    | refuse | refused | late | stopped => exact h.working hw
  | task move =>
    cases move with
    | wait early =>
      rw [judgedIn_of_wait early, List.append_nil]
      exact h.working hw
    | begin ht =>
      have hr := h.working (by rw [ht]; rfl)
      rw [show judgedIn w .task = [] by simp [judgedIn, ht], List.append_nil]
      exact ⟨hr.undecided, hr.versions, hr.cause⟩
    | ask ht | pend ht | take ht | check ht | wake ht =>
      simpa [judgedIn, ht] using h.working (by rw [ht]; rfl)
    | retry ht hj =>
      simpa [judgedIn, ht] using (h.working (by rw [ht]; rfl)).concat hj
    | overflow | leave | expire | select | abort | abandon | late | close | deliver =>
      simp [Task.isWorking] at hw

theorem reached_step (h : Concludes plan acc replies w) (a : Action) :
    ∀ outcome ∈ (w.step plan a).task.reached,
      outcome = conclude plan (replies ++ judgedIn w a) := by
  intro outcome ho
  have hr := h.reached
  have hm := step_move plan w a
  generalize w.step plan a = after at hm ho
  cases hm with
  | start | stop | noCall | unasked | advance => simpa [judgedIn] using hr outcome ho
  | replyAtOnce | reply => simp [Task.reached] at ho
  | call hc split hs move =>
    rw [judgedIn_call, List.append_nil]
    cases move with
    | launch => simp [Task.reached] at ho
    | accept | refuse | refused | signal | late | cancel | stopped => exact hr outcome ho
  | task move =>
    cases move with
    | wait early =>
      rw [judgedIn_of_wait early, List.append_nil]
      exact hr outcome ho
    | expire ht =>
      obtain rfl : _ = outcome := by simpa [Task.reached] using ho
      simpa [judgedIn, ht] using (h.working (by rw [ht]; rfl)).giveUp_eq
    | abandon ht hj =>
      obtain rfl : _ = outcome := by simpa [Task.reached] using ho
      simpa [judgedIn, ht] using ((h.working (by rw [ht]; rfl)).concat hj).giveUp_eq
    | select ht hj | abort ht hj =>
      obtain rfl : _ = outcome := by simpa [Task.reached] using ho
      have hu := (h.working (by rw [ht]; rfl)).undecided
      simpa [judgedIn, ht] using (conclude_concat hu (by rw [decision?, hj])).symm
    | close ht => simpa [judgedIn, ht] using hr outcome (by simpa [ht, Task.reached] using ho)
    | begin | overflow | leave | ask | pend | take | check | retry | wake | late | deliver =>
      simp [Task.reached] at ho

theorem ended_step (h : Concludes plan acc replies w) (hd : Delivers plan acc w) (a : Action)
    (hp : (w.step plan a).shared.phase = .succeeded ∨ (w.step plan a).shared.phase = .failed) :
    ∃ id, acc ++ acceptedIn plan w a = [id] ∧
      ((∃ before, (w.step plan a).task = .delivering before (conclude plan (replies ++ judgedIn w a)) ∧
          before.answerTo = some id) ∨
        (w.step plan a).task = .finished ∧
          (id, conclude plan (replies ++ judgedIn w a)) ∈ (w.step plan a).told) := by
  have he := h.ended
  have hm := step_move plan w a
  generalize w.step plan a = after at hm hp
  cases hm with
  | start | stop | unasked | advance => simpa [judgedIn, acceptedIn] using he hp
  | noCall hc => simpa [judgedIn, acceptedIn, hc] using he hp
  | replyAtOnce _ ht | reply _ ht => simp [ht] at he; simp [he] at hp
  | call hc split hs move =>
    simp only [judgedIn_call, List.append_nil, acceptedIn, hc, hs, Option.map_some]
    cases move with
    | accept => simp at hp
    | cancel => simp at hp
    | launch id =>
      have ht := hd.absent_of_accepted (List.mem_of_getElem? hc)
      simp [ht] at he
      simp [he] at hp
    | refuse | refused | signal | late | stopped =>
      obtain ⟨id, hid, ⟨before, hb⟩ | ⟨ht, ho⟩⟩ := he hp
      · exact ⟨id, by simpa using hid, Or.inl ⟨before, hb⟩⟩
      · exact ⟨id, by simpa using hid, Or.inr ⟨ht, by simp [ho]⟩⟩
  | task move =>
    simp only [acceptedIn, List.append_nil]
    cases move with
    | wait early =>
      rw [judgedIn_of_wait early, List.append_nil]
      exact he hp
    | close ht going =>
      obtain ⟨id, hid, ha⟩ :=
        hd.attempting (hd.attempting_of_launched (by simp [ht, Task.isLaunched]) going)
      have ho := h.reached _ (by rw [ht]; rfl)
      refine ⟨id, hid, Or.inl ⟨w.shared, ?_, ha⟩⟩
      simp [judgedIn, ht, ho]
    | deliver ht =>
      obtain ⟨id, hid, ⟨before, hb, ha⟩ | ⟨hf, _⟩⟩ := he hp
      · obtain ⟨rfl, rfl⟩ := Task.delivering.inj (ht.symm.trans hb)
        exact ⟨id, hid, Or.inr ⟨rfl, by simp [judgedIn, ht, ha]⟩⟩
      · simp [ht] at hf
    | leave heeding =>
      obtain ⟨id, _, ⟨before, hb, _⟩ | ⟨hf, _⟩⟩ := he hp
      · simp [hb, Task.heedsStops] at heeding
      · simp [hf, Task.heedsStops] at heeding
    | begin ht | overflow ht | expire ht | ask ht | pend ht | take ht | check ht | select ht
    | abort ht | retry ht | abandon ht | wake ht | late ht =>
      simp [ht] at he
      simp [he] at hp

theorem step (h : Concludes plan acc replies w) (hd : Delivers plan acc w) (a : Action) :
    Concludes plan (acc ++ acceptedIn plan w a) (replies ++ judgedIn w a) (w.step plan a) where
  working := h.working_step hd a
  reached := h.reached_step a
  ended := h.ended_step hd a

theorem init (plan : Plan) : Concludes plan [] [] {} where
  working _ := ⟨by simp, by simp [rejectedVersions, latestEntries, VersionSet.ofList], rfl⟩
  reached _ h := by cases h
  ended h := by simp at h

theorem run (plan : Plan) (actions : List Action) :
    Concludes plan (accepted plan {} actions) (judged plan {} actions)
      (World.run plan {} actions) := by
  induction actions using List.reverseRecOn with
  | nil => exact init plan
  | append_singleton actions a ih =>
    rw [accepted, judged, gather_concat, gather_concat, run_concat]
    exact ih.step (.run plan actions) a

/-- Of an arbitration that succeeded or failed, the accepted start is told what its replies
conclude. -/
theorem answersTo_eq (h : Concludes plan acc replies w) (hd : Delivers plan acc w)
    (hp : w.shared.phase = .succeeded ∨ w.shared.phase = .failed)
    (task : ∀ before outcome, w.task ≠ .delivering before outcome) :
    ∃ id, acc = [id] ∧ w.answersTo id = [conclude plan replies] := by
  obtain ⟨id, hid, ⟨before, hb, _⟩ | ⟨_, ho⟩⟩ := h.ended hp
  · exact absurd hb (task _ _)
  · exact ⟨id, hid, hd.answersTo_eq ho⟩

end Concludes

/-- An arbitration that failed, and not by a fatal code, reports what the replies to its completed
attempts amount to. -/
theorem answersTo_of_failed (plan : Plan) (actions : List Action)
    (failed : (World.run plan {} actions).shared.phase = .failed)
    (done : ∀ before outcome, (World.run plan {} actions).task ≠ .delivering before outcome)
    (unfatal : Unfatal (judged plan {} actions)) :
    ∃ id, accepted plan {} actions = [id] ∧
      (World.run plan {} actions).answersTo id =
        [.error (failureOf plan (judged plan {} actions))] := by
  have hd := Delivers.run plan actions
  obtain ⟨id, hid, ha⟩ := (Concludes.run plan actions).answersTo_eq hd (Or.inr failed) done
  refine ⟨id, hid, ?_⟩
  obtain ⟨outcome, ho, hr⟩ := hd.answersTo_of_ended (by simp [failed, Phase.isTerminal])
    (by simp [failed]) done (show id ∈ accepted plan {} actions by simp [hid])
  obtain ⟨failure, rfl, _⟩ : Phase.failed.Reports plan.target.interface outcome := failed ▸ hr
  have hc : conclude plan (judged plan {} actions) = .error failure := by simpa [ha] using ho
  rw [ha, conclude_of_undecided (unfatal.undecided hc)]

/-- A plan with time for two attempts. -/
def twoAttempts : Plan where
  target := .provider ["vehicle"] "radio"
  required := { major := 1, minor := 2 }
  policy := .lastSeen
  request := { timeout := .ofMillis 150, retryInterval := .ofMillis 100 }

/-- The first attempt finds a version that will not do, and the second does not come through. -/
def outage : List Action :=
  [.start true, .call 0, .call 0, .task, .task,
   .reply (.ok [{ version := { major := 2 }, domain := "vehicle", interface := "radio",
                  participant := "radio-2" }]),
   .task, .task, .advance (.ofMillis 100), .task, .task, .task, .task,
   .reply (.error (.runtime "connection refused")), .task, .task, .task, .task, .task]

end World

end Arbiter.Arbitration
