import Arbiter.Proofs.Arbitration.Metered

/-!
Any number of arbitrations side by side, counted together. Each has its own callers and its own task,
and a clock of its own, so time may pass for all of them alike. The counts know nothing of which
arbitration they come from.
-/

namespace Arbiter.Arbitration

open Metrics

/-- An arbitration, with what was done in it so far. -/
structure Member where
  plan : Plan
  past : List Action := []

namespace Member

def world (m : Member) : World := World.run m.plan {} m.past

/-- The starts that were accepted. -/
def accepted (m : Member) : List CallId := World.accepted m.plan {} m.past

def act (m : Member) (a : Action) : Member := { m with past := m.past ++ [a] }

def hasEnded (m : Member) : Bool := m.world.shared.phase.isTerminal

end Member

/-- Arbitrations, with what they counted together, in order. -/
structure Fleet where
  members : List Member
  counted : List Series := []

namespace Fleet

/-- The member at a place takes a step, and what it counts is added. -/
def step (f : Fleet) (k : Nat) (a : Action) : Fleet :=
  match f.members[k]? with
  | none => f
  | some m =>
    { members := f.members.set k (m.act a)
      counted := f.counted ++ (m.act a).world.counted.drop m.world.counted.length }

/-- Lets members take steps, in any order. -/
def run (plans : List Plan) (moves : List (Nat × Action)) : Fleet :=
  moves.foldl (fun f move => f.step move.1 move.2) { members := plans.map fun plan => { plan } }

theorem run_concat (plans : List Plan) (moves : List (Nat × Action)) (k : Nat) (a : Action) :
    run plans (moves ++ [(k, a)]) = (run plans moves).step k a := by
  simp [run]

end Fleet

namespace Member

variable {m : Member}

@[simp] theorem act_world (m : Member) (a : Action) :
    (m.act a).world = m.world.step m.plan a := World.run_concat _ _ _ _

/-- What was counted is never taken back. -/
theorem counted_prefix (m : Member) (a : Action) : m.world.counted <+: (m.act a).world.counted := by
  rw [act_world]
  cases World.step_countMove (.run m.plan m.past) a with
  | keep hc | refused _ hc => exact ⟨[], by rw [List.append_nil]; exact hc.symm⟩
  | launch _ hc | attempt hc | stopped _ hc | delivered _ hc => exact ⟨_, hc.symm⟩

end Member

namespace Member

theorem delivers (m : Member) : World.Delivers m.plan m.accepted m.world := .run m.plan m.past

theorem metered (m : Member) : World.Metered m.plan m.accepted m.world := .run m.plan m.past

/-- What the accepted start was told. -/
def heard (m : Member) : List Outcome := World.heard m.accepted m.world

theorem started_eq (m : Member) (settled : m.world.Settled) :
    m.world.counted.filter Series.isStarted =
      m.accepted.map fun _ => .started (strategyWord m.plan) := by
  have hd := m.delivers
  rw [m.metered.started]
  by_cases hne : m.accepted = []
  · rw [hne] at hd ⊢
    rw [hd.absent_of_nil]
    rfl
  · obtain ⟨id, hid⟩ := hd.eq_singleton hne
    rw [if_pos (hd.launched_of_accepted hne settled.1), hid]
    rfl

/-- Once everyone is done, an accepted start was told an outcome if the arbitration has ended. -/
theorem heard_of_settled (m : Member) (settled : m.world.Settled) :
    m.heard.length = if m.hasEnded then m.accepted.length else 0 := by
  have hd := m.delivers
  by_cases hne : m.accepted = []
  · simp [heard, World.heard, hne]
  obtain ⟨id, hid⟩ := hd.eq_singleton hne
  have hmem : id ∈ m.accepted := hid ▸ List.mem_singleton_self id
  rw [heard, hid, World.heard_singleton]
  cases hp : m.world.shared.phase with
  | idle => exact absurd (hd.idle hp).1 hne
  | attempting => simp [hasEnded, hp, Phase.isTerminal, World.answersTo_of_attempting hd hp hmem]
  | succeeded | failed | cancelled =>
    have ended : m.hasEnded = true := by rw [hasEnded, hp]; rfl
    obtain ⟨outcome, ho, -⟩ := hd.answersTo_of_ended ended (fun _ => settled.1) settled.2 hmem
    rw [ho, if_pos ended]
    rfl

/-- An action that has nothing to count: not one of the task, nor a call that sets it to work, nor a
stop that tells an accepted start of it. -/
def Unmetered (m : Member) : Action → Prop
  | .start _ | .stop _ | .reply _ | .advance _ => True
  | .call i => ∀ c, m.world.calls[i]? = some c → (∀ id, c ≠ .accepted id) ∧
      ∀ before runtime, c = .stopped before runtime → m.accepted = []
  | .task => False

theorem counted_of_unmetered (m : Member) {a : Action} (ha : m.Unmetered a) :
    (m.act a).world.counted = m.world.counted := by
  have hattributes : World.Attributes m.accepted m.world := .run m.plan m.past
  rw [act_world]
  have hm := World.step_move m.plan m.world a
  generalize m.world.step m.plan a = after at hm
  cases hm with
  | start | stop | noCall | replyAtOnce | reply | unasked | advance => rfl
  | task => exact ha.elim
  | call hc split hs move =>
    obtain ⟨launches, tells⟩ := ha _ hc
    cases move with
    | launch id => exact absurd rfl (launches id)
    | stopped before runtime =>
      have hnil := tells before runtime rfl
      obtain ⟨hnames, -⟩ := hattributes.stopped before runtime (List.mem_of_getElem? hc)
      have hunstarted : before.startedAt.isSome = false := by rw [hnames.startedAt, hnil]; rfl
      simp [hunstarted]
    | accept | refuse | refused | signal | late | cancel => simp

end Member

namespace Fleet

variable {f : Fleet} {plans : List Plan} {moves : List (Nat × Action)}

theorem step_of_none {k : Nat} (hk : f.members[k]? = none) (a : Action) : f.step k a = f := by
  rw [step, hk]

theorem step_of_some {k : Nat} {m : Member} (hk : f.members[k]? = some m) (a : Action) :
    f.step k a =
      { members := f.members.set k (m.act a)
        counted := f.counted ++ (m.act a).world.counted.drop m.world.counted.length } := by
  rw [step, hk]

/-- The counts are those of the members, in some order. -/
theorem counted_perm (plans : List Plan) (moves : List (Nat × Action)) :
    (run plans moves).counted.Perm ((run plans moves).members.flatMap fun m => m.world.counted) := by
  induction moves using List.reverseRecOn with
  | nil =>
    have hfresh : (plans.map fun plan => ({ plan } : Member)).flatMap
        (fun m => m.world.counted) = [] := by
      simp [List.flatMap_map, Member.world, World.run, World.counted]
    exact List.Perm.of_eq hfresh.symm
  | append_singleton moves move ih =>
    obtain ⟨k, a⟩ := move
    rw [run_concat]
    generalize run plans moves = f at ih
    cases hm : f.members[k]? with
    | none => rwa [step_of_none hm]
    | some m =>
      obtain ⟨more, hmore⟩ := m.counted_prefix a
      obtain ⟨hk, hget⟩ := List.getElem?_eq_some_iff.mp hm
      have split : f.members = f.members.take k ++ m :: f.members.drop (k + 1) := by
        rw [← hget, List.getElem_cons_drop, List.take_append_drop]
      rw [split, List.perm_iff_count] at ih
      rw [step_of_some hm, List.set_eq_take_append_cons_drop, if_pos hk, List.perm_iff_count]
      intro s
      have hs := ih s
      simp only [List.flatMap_append, List.flatMap_cons, List.count_append, ← hmore,
        List.drop_left] at hs ⊢
      omega

theorem filter_counted_perm (plans : List Plan) (moves : List (Nat × Action))
    (p : Series → Bool) : ((run plans moves).counted.filter p).Perm
      ((run plans moves).members.flatMap fun m => m.world.counted.filter p) := by
  have hperm := (counted_perm plans moves).filter p
  rwa [List.filter_flatMap] at hperm

/-- Each end that was counted is that of a start that was told of it. -/
theorem ends_perm (plans : List Plan) (moves : List (Nat × Action)) :
    ((run plans moves).counted.filter Series.isEnd).Perm
      (((run plans moves).members.flatMap fun m => m.heard.map label).flatMap Metrics.outcome) := by
  have hperm := filter_counted_perm plans moves Series.isEnd
  rw [List.flatMap_assoc]
  refine hperm.trans (List.Perm.of_eq ?_)
  exact List.flatMap_congr fun m _ => m.metered.ended

theorem length_heard {members : List Member} (settled : ∀ m ∈ members, m.world.Settled) :
    (members.flatMap fun m => m.heard.map label).length =
      ((members.filter Member.hasEnded).flatMap Member.accepted).length := by
  induction members with
  | nil => rfl
  | cons m rest ih =>
    have hrest := ih fun m hm => settled m (List.mem_cons_of_mem _ hm)
    have hm := m.heard_of_settled (settled m List.mem_cons_self)
    rw [List.flatMap_cons, List.length_append, List.length_map, hm, hrest]
    cases hended : m.hasEnded with
    | true => rw [List.filter_cons_of_pos hended, List.flatMap_cons, List.length_append, if_pos rfl]
    | false => rw [List.filter_cons_of_neg (by simp [hended])]; simp

theorem total_started (settled : ∀ m ∈ (run plans moves).members, m.world.Settled) :
    total startedName (run plans moves).counted =
      ((run plans moves).members.flatMap Member.accepted).length := by
  have hstarted := (filter_counted_perm plans moves Series.isStarted).length_eq
  rw [total_eq_countP, List.countP_congr fun s _ => by rw [metric_eq_startedName],
    List.countP_eq_length_filter, hstarted,
    List.flatMap_congr fun m hm => m.started_eq (settled m hm)]
  simp [List.length_flatMap]

theorem total_of_ends (settled : ∀ m ∈ (run plans moves).members, m.world.Settled)
    {metric : String} (hmetric : metric = outcomesName ∨ metric = durationName) :
    total metric (run plans moves).counted =
      (((run plans moves).members.filter Member.hasEnded).flatMap Member.accepted).length := by
  rw [total_eq_countP, ← countP_filter_isEnd _ hmetric, (ends_perm plans moves).countP_eq,
    ← length_heard settled]
  rcases hmetric with rfl | rfl
  · exact (countP_outcome _).1
  · exact (countP_outcome _).2

theorem label_mem_of_counted {word : String}
    (h : .outcomes word ∈ (run plans moves).counted ∨ .durations word ∈ (run plans moves).counted) :
    word ∈ endLabels := by
  obtain ⟨s, hs, hmem⟩ : ∃ s ∈ Metrics.outcome word, s ∈ (run plans moves).counted := by
    rcases h with h | h
    · exact ⟨_, List.mem_cons_self, h⟩
    · exact ⟨_, List.mem_cons_of_mem _ List.mem_cons_self, h⟩
  have hend : s ∈ (run plans moves).counted.filter Series.isEnd := by
    refine List.mem_filter.mpr ⟨hmem, ?_⟩
    obtain rfl | rfl : s = .outcomes word ∨ s = .durations word := by
      simpa [Metrics.outcome] using hs
    all_goals rfl
  obtain ⟨word', hword, hs'⟩ := List.mem_flatMap.mp ((ends_perm plans moves).mem_iff.mp hend)
  obtain ⟨m, -, hm⟩ := List.mem_flatMap.mp hword
  obtain ⟨outcome, ho, rfl⟩ := List.mem_map.mp hm
  have hmember := m.metered.labels outcome ho
  obtain rfl : label outcome = word := by
    simp only [Metrics.outcome, List.mem_cons, List.not_mem_nil, or_false] at hs hs'
    rcases hs with rfl | rfl <;> rcases hs' with h | h <;> cases h <;> rfl
  exact hmember

theorem counted_of_unmetered {k : Nat} {m : Member} {a : Action} (hm : f.members[k]? = some m)
    (ha : m.Unmetered a) : (f.step k a).counted = f.counted := by
  rw [step_of_some hm, m.counted_of_unmetered ha, List.drop_length, List.append_nil]

/-- The counts of any number of arbitrations are those of their accepted starts, and there is none
for a start that was refused, nor for a stop before the start or after another. -/
theorem metrics_conserved (plans : List Plan) (moves : List (Nat × Action)) :
    let f := run plans moves
    let starts := f.members.flatMap Member.accepted
    let ended := (f.members.filter Member.hasEnded).flatMap Member.accepted
    -- While nobody is about to tell an outcome, the totals are those of the starts and of the ends.
    ((∀ m ∈ f.members, m.world.Settled) →
      total startedName f.counted = starts.length ∧
        total outcomesName f.counted = ended.length ∧ total durationName f.counted = ended.length ∧
        ∀ m ∈ f.members, m.hasEnded → ∀ id ∈ m.accepted,
          ∃ outcome, m.world.answersTo id = [outcome]) ∧
      -- At any time each outcome that was told counts once, under its label.
      (f.counted.filter Series.isEnd).Perm (f.members.flatMap fun m => m.accepted.flatMap fun id =>
        (m.world.answersTo id).flatMap fun outcome => Metrics.outcome (label outcome)) ∧
      (∀ word, .outcomes word ∈ f.counted ∨ .durations word ∈ f.counted →
        word ∈ endLabels ∧ word ≠ "rejected") ∧
      ∀ k m a, f.members[k]? = some m → m.Unmetered a → (f.step k a).counted = f.counted := by
  intro f starts ended
  refine ⟨fun settled => ⟨?_, ?_, ?_, ?_⟩, ?_, fun word h => ?_, fun k m a => counted_of_unmetered⟩
  · exact total_started settled
  · exact total_of_ends settled (.inl rfl)
  · exact total_of_ends settled (.inr rfl)
  · intro m hm hended id hid
    obtain ⟨outcome, ho, -⟩ := m.delivers.answersTo_of_ended hended
      (fun _ => (settled m hm).1) (settled m hm).2 hid
    exact ⟨outcome, ho⟩
  · refine (ends_perm plans moves).trans (List.Perm.of_eq ?_)
    simp only [List.flatMap_assoc, List.flatMap_map, Member.heard, World.heard]
    rfl
  · have hmem := label_mem_of_counted h
    refine ⟨hmem, ?_⟩
    rintro rfl
    simp [endLabels] at hmem

/-- One member has an outage. The other is stopped, then started in vain, and stopped again. -/
def outageBesideStop : List (Nat × Action) :=
  [(1, .stop true), (1, .call 0), (1, .call 0), (1, .call 0), (1, .start true)] ++
    World.outage.map (Prod.mk 0) ++
    [(1, .call 0), (1, .call 0), (1, .stop false), (1, .call 0), (1, .call 0)]

theorem totals_of_outage :
    let f := run [World.twoAttempts, World.twoAttempts] outageBesideStop
    total startedName f.counted = 1 ∧ total outcomesName f.counted = 1 ∧
      total durationName f.counted = 1 := by
  obtain ⟨htotals, -⟩ := metrics_conserved [World.twoAttempts, World.twoAttempts] outageBesideStop
  intro f
  have hcalls : f.members.map (·.world.calls) = [[], []] := by rfl
  have htasks : f.members.map (·.world.task) = [.finished, .absent] := by rfl
  have settled : ∀ m ∈ f.members, m.world.Settled := by
    intro m hm
    have hcall : m.world.calls ∈ [[], []] := hcalls ▸ List.mem_map_of_mem hm
    have htask : m.world.task ∈ [.finished, .absent] := htasks ▸ List.mem_map_of_mem hm
    refine ⟨by simpa using hcall, fun before outcome ht => ?_⟩
    simp [ht] at htask
  obtain ⟨hstarted, hended, hdurations, -⟩ := htotals settled
  exact ⟨hstarted.trans (by rfl), hended.trans (by rfl), hdurations.trans (by rfl)⟩

end Fleet

end Arbiter.Arbitration
