import Arbiter.Proofs.Arbitration.Chronicle
import Arbiter.Proofs.Arbitration.Lookups
import Arbiter.Proofs.Duration
import Mathlib.Algebra.Order.Ring.Int

/-!
The time to try, as it is recorded at the start and as it is sent with a lookup that is made at
once. Both are numbers of milliseconds: the record keeps the low 64 bits, and what is sent is at
most the largest number of 64 bits with a sign. Every number that fits into those is recorded and
sent as it is; of one that goes beyond 64 bits, the record may say less than what is sent.
-/

namespace Arbiter

open Discovery

theorem Duration.toInt_clampedMillis (d : Duration) :
    d.clampedMillis.toInt = min d.millis (2 ^ 63 - 1) := by
  have hmax : Int64.maxValue.toInt = 2 ^ 63 - 1 := rfl
  unfold clampedMillis
  split_ifs with h
  · have hlt : d.millis < 2 ^ 63 := by omega
    rw [Int64.toInt_ofNat_of_lt hlt]
    omega
  · omega

/-- The value of the first field with that name. -/
def Log.Record.field? (r : Log.Record) (name : String) : Option Log.Value :=
  r.fields.lookup name

namespace Arbitration

/-- The time that is left for an attempt until it makes its lookup. -/
def Task.remaining? : Task → Option Duration
  | polling _ (.due remaining) => some remaining
  | _ => none

theorem Task.isLaunched_of_remaining? {task : Task} {remaining : Duration}
    (h : remaining ∈ task.remaining?) : task.isLaunched := by
  cases task with
  | absent => cases h
  | _ => rfl

theorem opening_timeout (plan : Plan) (arbitration : Option String) :
    ((opening plan).record arbitration).field? "timeout_ms" =
      some (.number (plan.request.timeout.millis % 2 ^ 64)) := by
  cases arbitration <;> rfl

namespace World

variable {plan : Plan} {w : World} {acc : List CallId}

/-- The values of a field in the records of one kind, in order, where the arbitration goes by that
name. -/
def recorded (w : World) (arbitration : Option String) (kind name : String) : List Log.Value :=
  (w.events.filter (·.kind == kind)).filterMap fun e => (e.record arbitration).field? name

theorem openings_run (plan : Plan) (actions : List Action) :
    (World.run plan {} actions).events.filter (·.kind == "arbitration_started") =
      if (World.run plan {} actions).task.isLaunched then [opening plan] else [] := by
  induction actions using List.reverseRecOn with
  | nil => rfl
  | append_singleton actions a ih =>
    have hd := Delivers.run plan actions
    rw [run_concat]
    generalize World.run plan {} actions = w at ih hd ⊢
    cases step_recordMove plan w a with
    | keep he _ hl => rw [he, hl, ih]
    | opening hc _ he hl =>
      rw [he, hl, List.filter_append, ih, hd.absent_of_accepted hc]
      rfl
    | note ht _ he hl =>
      rw [he, hl, List.filter_append, ih, ht]
      rfl
    | cancelled _ _ he hl =>
      rw [he, hl, List.filter_append, ih]
      exact List.append_nil _
    | @ended before outcome elapsed ht _ he hl =>
      rw [he, hl, List.filter_append, ih, ht]
      cases outcome <;> rfl

/-- The time to try is recorded once, when the task is set to work. -/
theorem recorded_timeout (plan : Plan) {actions : List Action} (arbitration : Option String)
    (launched : (World.run plan {} actions).task.isLaunched) :
    (World.run plan {} actions).recorded arbitration "arbitration_started" "timeout_ms" =
      [.number (plan.request.timeout.millis % 2 ^ 64)] := by
  rw [recorded, openings_run, if_pos launched, List.filterMap_cons, opening_timeout]
  rfl

/-- The time that is left for an attempt is taken when it begins. -/
theorem remaining?_step {a : Action} {remaining : Duration}
    (h : remaining ∈ (w.step plan a).task.remaining?) :
    remaining ∈ w.task.remaining? ∨ w.task = .beginning ∧ remaining = w.remaining plan := by
  have hm := step_move plan w a
  generalize w.step plan a = after at hm h
  cases hm with
  | start | stop | noCall | unasked | advance => exact Or.inl h
  | replyAtOnce | reply => cases h
  | call _ _ _ move =>
    cases move with
    | launch => cases h
    | accept | refuse | refused | signal | late | cancel | stopped => exact Or.inl h
  | task move =>
    cases move with
    | wait => exact Or.inl h
    | begin ht => exact Or.inr ⟨ht, (Option.some.inj h).symm⟩
    | _ => cases h

theorem isLaunched_of_lookup (hk : Keeps acc w) {lookup : Query × Instant}
    (h : lookup ∈ w.lookups) : w.task.isLaunched := by
  by_contra hl
  rw [(hk.fresh (Task.eq_absent hl)).2] at h
  cases h

theorem now_le_step (plan : Plan) (w : World) (a : Action) : w.now ≤ (w.step plan a).now := by
  by_cases h : ∃ d, a = .advance d
  case pos =>
    obtain ⟨d, rfl⟩ := h
    exact Duration.le_add w.now d
  case neg => exact le_of_eq (now_step plan w fun d hd => h ⟨d, hd⟩).symm

theorem deadline_step (hd : Delivers plan acc w) (hk : Keeps acc w) (launched : w.task.isLaunched)
    (a : Action) : (w.step plan a).deadline plan = w.deadline plan := by
  rw [deadline_eq, deadline_eq, hk.begun_step hd launched]

/-- What every run keeps about the time that is left for an attempt: it is counted from a moment
between the start and the lookup. -/
structure Measured (plan : Plan) (w : World) : Prop where
  due : ∀ remaining ∈ w.task.remaining?, ∃ t, w.begun ≤ t ∧ t ≤ w.now ∧
    remaining = w.deadline plan - t
  asked : ∀ lookup ∈ w.lookups, ∃ t, w.begun ≤ t ∧ t ≤ lookup.2 ∧
    lookup.1 = queryOf plan (w.deadline plan - t)

namespace Measured

theorem due_step (h : Measured plan w) (hd : Delivers plan acc w) (hk : Keeps acc w) (a : Action)
    {remaining : Duration} (hr : remaining ∈ (w.step plan a).task.remaining?) :
    ∃ t, (w.step plan a).begun ≤ t ∧ t ≤ (w.step plan a).now ∧
      remaining = (w.step plan a).deadline plan - t := by
  have later := now_le_step plan w a
  rcases remaining?_step hr with hold | ⟨ht, hnew⟩
  · obtain ⟨t, begun, now, rfl⟩ := h.due remaining hold
    have launched := Task.isLaunched_of_remaining? hold
    rw [hk.begun_step hd launched, deadline_step hd hk launched]
    exact ⟨t, begun, le_trans now later, rfl⟩
  · have launched : w.task.isLaunched := by rw [ht]; rfl
    rw [hk.begun_step hd launched, deadline_step hd hk launched]
    exact ⟨w.now, hk.begun_le, later, hnew⟩

theorem asked_step (h : Measured plan w) (hd : Delivers plan acc w) (hk : Keeps acc w) (a : Action)
    {lookup : Query × Instant} (hl : lookup ∈ (w.step plan a).lookups) :
    ∃ t, (w.step plan a).begun ≤ t ∧ t ≤ lookup.2 ∧
      lookup.1 = queryOf plan ((w.step plan a).deadline plan - t) := by
  have hold (hmem : lookup ∈ w.lookups) : ∃ t, (w.step plan a).begun ≤ t ∧ t ≤ lookup.2 ∧
      lookup.1 = queryOf plan ((w.step plan a).deadline plan - t) := by
    -- Nothing is asked before the task is set to work, and from then on the start stays.
    have launched := isLaunched_of_lookup hk hmem
    rw [hk.begun_step hd launched, deadline_step hd hk launched]
    exact h.asked lookup hmem
  cases step_lookupMove hd a with
  | keep _ _ heq | count _ _ _ heq | drop _ _ _ _ _ heq => exact hold (heq ▸ hl)
  | @ask attempt remaining ht _ _ _ _ heq =>
    rw [heq] at hl
    rcases List.mem_append.mp hl with hmem | hmem
    · exact hold hmem
    · obtain ⟨t, begun, now, rfl⟩ := h.due remaining (by rw [ht]; rfl)
      obtain rfl := List.mem_singleton.mp hmem
      have launched : w.task.isLaunched := by rw [ht]; rfl
      rw [hk.begun_step hd launched, deadline_step hd hk launched]
      exact ⟨t, begun, now, rfl⟩

theorem init (plan : Plan) : Measured plan {} := ⟨nofun, nofun⟩

theorem run (plan : Plan) (actions : List Action) : Measured plan (World.run plan {} actions) := by
  induction actions using List.reverseRecOn with
  | nil => exact init plan
  | append_singleton actions a ih =>
    have hd := Delivers.run plan actions
    have hk := Keeps.run plan actions
    rw [run_concat]
    exact ⟨fun _ => ih.due_step hd hk a, fun _ => ih.asked_step hd hk a⟩

end Measured

/-- A lookup that is made at the start asks with the whole time to try. -/
theorem query_of_prompt {actions : List Action} {start : Instant} {query : Query}
    (begun : (World.run plan {} actions).begun = start)
    (representable : start + plan.request.timeout < clockLimit)
    (prompt : (query, start) ∈ (World.run plan {} actions).lookups) :
    query = queryOf plan plan.request.timeout := by
  obtain ⟨t, hbegun, ht, hquery⟩ := (Measured.run plan actions).asked _ prompt
  rw [begun] at hbegun
  obtain rfl : start = t := le_antisymm hbegun ht
  have hleft : (World.run plan {} actions).deadline plan - start = plan.request.timeout := by
    rw [deadline_eq, begun, Arbitration.deadline, budget, if_pos representable, Duration.eq_iff,
      Duration.nanos_sub, Duration.nanos_add, Nat.add_sub_cancel_left]
  rw [hleft] at hquery
  exact hquery

/-- Where the first lookup is made at the start, the time to try is recorded as what is left of it
after rounds of 64 bits, and sent as the largest number with a sign if it is more. -/
theorem timeout_recorded_and_sent (plan : Plan) (actions : List Action) (start : Instant)
    (query : Query) (started : (World.run plan {} actions).shared.startedAt = some start)
    (representable : start + plan.request.timeout < clockLimit)
    (prompt : (World.run plan {} actions).lookups.head? = some (query, start)) :
    let millis := plan.request.timeout.millis
    ∃ logged, logged = millis % 2 ^ 64 ∧
      (∀ arbitration, (World.run plan {} actions).recorded arbitration "arbitration_started"
        "timeout_ms" = [.number logged]) ∧
      query.qos.timeout.toInt = min millis (2 ^ 63 - 1) ∧
      -- The record says less than what is sent only if a round was left out and too little remains.
      (query.qos.timeout.toInt ≤ logged ↔ millis < 2 ^ 64 ∨ 2 ^ 63 - 1 ≤ logged) ∧
      (query.qos.timeout.toInt = logged ↔ millis < 2 ^ 63 ∨ logged = 2 ^ 63 - 1) := by
  intro millis
  have hmem := List.mem_of_head? prompt
  have launched := isLaunched_of_lookup (Keeps.run plan actions) hmem
  have begun : (World.run plan {} actions).begun = start := by
    rw [World.begun, started, Option.getD_some]
  have hsent : query.qos.timeout.toInt = min millis (2 ^ 63 - 1) := by
    rw [query_of_prompt begun representable hmem]
    exact Duration.toInt_clampedMillis plan.request.timeout
  refine ⟨millis % 2 ^ 64, rfl, fun arbitration => recorded_timeout plan arbitration launched,
    hsent, ?_, ?_⟩
  · rw [hsent]
    omega
  · rw [hsent]
    omega

/-- The first lookup is made as soon as the arbitration is started. -/
def firstLookup : List Action :=
  [.start true, .call 0, .call 0, .task, .task]

def withTimeout (timeout : Duration) : Plan :=
  { twoAttempts with request := { twoAttempts.request with timeout } }

/-- The least number of milliseconds that does not fit into 64 bits with a sign. -/
def unsigned : Plan := withTimeout (.ofMillis (2 ^ 63))

/-- It is recorded as it is, and sent as the largest number that fits. -/
theorem unsigned_recorded_and_sent :
    (World.run unsigned {} firstLookup).shared.startedAt = some .zero ∧
      .zero + unsigned.request.timeout < clockLimit ∧
      (World.run unsigned {} firstLookup).lookups.head? =
        some (queryOf unsigned unsigned.request.timeout, .zero) ∧
      (World.run unsigned {} firstLookup).recorded none "arbitration_started" "timeout_ms" =
        [.number (2 ^ 63)] ∧
      (queryOf unsigned unsigned.request.timeout).qos.timeout.toInt = 2 ^ 63 - 1 := by
  have started : (World.run unsigned {} firstLookup).shared.startedAt = some .zero := by
    decide +kernel
  have representable : .zero + unsigned.request.timeout < clockLimit := by decide +kernel
  have prompt : (World.run unsigned {} firstLookup).lookups.head? =
      some (queryOf unsigned unsigned.request.timeout, .zero) := by decide +kernel
  have hmillis : unsigned.request.timeout.millis = 2 ^ 63 := by decide +kernel
  obtain ⟨logged, hlogged, hrecorded, hsent, -, -⟩ :=
    timeout_recorded_and_sent unsigned firstLookup .zero _ started representable prompt
  rw [hmillis] at hlogged hsent
  obtain rfl : logged = 2 ^ 63 := hlogged
  exact ⟨started, representable, prompt, hrecorded none, hsent⟩

/-- The least number of whole seconds that comes to more milliseconds than 64 bits can hold. -/
def endless : Plan := withTimeout (.ofSecs 18446744073709552 0)

/-- Less of it is recorded than is sent. -/
theorem endless_recorded_short :
    (World.run endless {} firstLookup).shared.startedAt = some .zero ∧
      .zero + endless.request.timeout < clockLimit ∧
      (World.run endless {} firstLookup).lookups.head? =
        some (queryOf endless endless.request.timeout, .zero) ∧
      (World.run endless {} firstLookup).recorded none "arbitration_started" "timeout_ms" =
        [.number 384] ∧
      (384 : Int) < (queryOf endless endless.request.timeout).qos.timeout.toInt := by
  decide +kernel

end World

end Arbitration

end Arbiter
