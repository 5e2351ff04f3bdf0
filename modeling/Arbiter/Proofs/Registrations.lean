import Arbiter.Discovery.Clients
import Mathlib.Data.List.Induction
import Mathlib.Tactic.SplitIfs

/-!
What a registry holds after a history of registrations by the clients that share it. The last
operation on a participant decides what is held of it. Entries of participants that no operation was
about stay where they were, and the others follow them in the order of their last registration.
-/

namespace Arbiter.Discovery

/-- What a shared registry can go through, whichever of its clients asks for it. -/
inductive Operation where
  | register (e : Entry)
  | unregister (participant : String)
  /-- One more client comes to share the registry. -/
  | clone (client : Nat) (knownGbids : Option (List String))
  deriving Repr

namespace Operation

/-- Whether the operation is about the participant. -/
def concerns (participant : String) : Operation → Bool
  | register e => participant == e.participant
  | unregister id => participant == id
  | clone .. => false

/-- The latest of the operations on a participant. -/
def lastOn? (ops : List Operation) (participant : String) : Option Operation :=
  ops.reverse.find? (concerns participant)

/-- How many operations came after the latest on a participant. If there was none on it, all did. -/
def since (ops : List Operation) (participant : String) : Nat :=
  ops.reverse.findIdx (concerns participant)

/-- Whether no operation was about the participant of the entry. -/
def spare (ops : List Operation) (e : Entry) : Bool :=
  !ops.any (concerns e.participant)

/-- The entry that an operation puts into the registry, if it puts any. -/
def added : Operation → List Entry
  | register e => [e]
  | unregister _ | clone .. => []

variable {ops : List Operation} {op : Operation} {participant : String}

theorem lastOn?_concat :
    lastOn? (ops ++ [op]) participant =
      if op.concerns participant then some op else lastOn? ops participant := by
  unfold lastOn?
  rw [List.reverse_concat, List.find?_cons]
  cases op.concerns participant <;> rfl

theorem since_concat_of_concerns (h : op.concerns participant) :
    since (ops ++ [op]) participant = 0 := by
  unfold since
  rw [List.reverse_concat, List.findIdx_cons, h]
  rfl

theorem since_concat (h : op.concerns participant = false) :
    since (ops ++ [op]) participant = since ops participant + 1 := by
  unfold since
  rw [List.reverse_concat, List.findIdx_cons, h]
  rfl

theorem spare_concat (e : Entry) :
    spare (ops ++ [op]) e = (spare ops e && !op.concerns e.participant) := by
  unfold spare
  rw [List.any_append, List.any_cons, List.any_nil, Bool.or_false, Bool.not_or]

theorem concerns_of_mem_added {e : Entry} (h : e ∈ op.added) : op.concerns e.participant := by
  cases op with
  | register a =>
    obtain rfl := List.mem_singleton.mp h
    exact beq_self_eq_true _
  | unregister | clone => cases h

theorem pairwise_added {R : Entry → Entry → Prop} : op.added.Pairwise R := by
  cases op with
  | register e => exact List.pairwise_singleton R e
  | unregister | clone => exact .nil

end Operation

/-- A registry gets smaller by an unregistration just if it has an entry of the participant. -/
theorem Registry.holds_iff {r : Registry} {participant : String} :
    r.holds participant ↔ ∃ e ∈ r.entries, e.participant = participant := by
  have hsize : r.size = (r.unregister participant).size ↔
      ∀ e ∈ r.entries, e.participant != participant := by
    unfold size unregister
    rw [eq_comm]
    exact List.length_filter_eq_length_iff
  have hholds : r.holds participant ↔ ¬r.size = (r.unregister participant).size := bne_iff_ne
  rw [hholds, hsize]
  simp

namespace Clients

open Operation

def perform (c : Clients) : Operation → Clients
  | .register e => c.register e
  | .unregister participant => c.unregister participant
  | .clone client knownGbids => c.clone client knownGbids

def replay (c : Clients) (ops : List Operation) : Clients := ops.foldl perform c

/-- All that is held of a participant. -/
def entriesOf (c : Clients) (participant : String) : List Entry :=
  c.entries.filter (·.participant == participant)

variable {c : Clients} {ops : List Operation} {op : Operation} {participant : String}

@[simp] theorem replay_concat (c : Clients) (ops : List Operation) (op : Operation) :
    c.replay (ops ++ [op]) = (c.replay ops).perform op := by
  unfold replay
  rw [List.foldl_append]
  rfl

/-- An operation removes what is held of its participant, and what it adds comes last. -/
theorem entries_perform (c : Clients) (op : Operation) :
    (c.perform op).entries =
      c.entries.filter (fun e => !op.concerns e.participant) ++ op.added := by
  cases op with
  | register e => rfl
  | unregister id => exact (List.append_nil _).symm
  | clone client knownGbids =>
    have hall : c.entries.filter (fun _ => true) = c.entries :=
      List.filter_eq_self.mpr fun _ _ => rfl
    exact hall.symm.trans (List.append_nil _).symm

theorem filter_added (op : Operation) (participant : String) :
    op.added.filter (·.participant == participant) =
      if op.concerns participant then op.added else [] := by
  cases op with
  | unregister | clone => simp [added]
  | register e =>
    by_cases he : participant = e.participant
    · simp [added, concerns, he]
    · simp [added, concerns, he, Ne.symm he]

/-- An operation leaves everything that is held of the participants that it does not concern. -/
theorem entriesOf_perform (c : Clients) (op : Operation) (participant : String) :
    (c.perform op).entriesOf participant =
      if op.concerns participant then op.added else c.entriesOf participant := by
  unfold entriesOf
  rw [entries_perform, List.filter_append, List.filter_filter, filter_added]
  split_ifs with hop
  · have hnone : c.entries.filter
        (fun e => e.participant == participant && !op.concerns e.participant) = [] := by
      refine List.filter_eq_nil_iff.mpr fun e _ => ?_
      by_cases he : e.participant = participant
      · simp [he, hop]
      · simp [he]
    rw [hnone, List.nil_append]
  · rw [List.append_nil]
    refine List.filter_congr fun e _ => ?_
    by_cases he : e.participant = participant
    · simp [he, hop]
    · simp [he]

/-- The last operation on a participant decides what is held of it. -/
theorem entriesOf_replay (c : Clients) (ops : List Operation) (participant : String) :
    (c.replay ops).entriesOf participant =
      match lastOn? ops participant with
      | none => c.entriesOf participant
      | some op => op.added := by
  induction ops using List.reverseRecOn with
  | nil => rfl
  | append_singleton ops op ih =>
    rw [replay_concat, entriesOf_perform, lastOn?_concat]
    split_ifs with hop
    · rfl
    · exact ih

/-- The entries after a history, split where those that it brought in begin. -/
structure Ordered (before : List Entry) (ops : List Operation) (entries registered : List Entry) :
    Prop where
  split : entries = before.filter (spare ops) ++ registered
  named : ∀ e ∈ registered, spare ops e = false
  byAge : registered.Pairwise fun a b => since ops b.participant < since ops a.participant

namespace Ordered

variable {before entries registered : List Entry}

theorem init (before : List Entry) : Ordered before [] before [] where
  split := by
    have hall : before.filter (spare []) = before := List.filter_eq_self.mpr fun _ _ => rfl
    rw [hall, List.append_nil]
  named := List.forall_mem_nil _
  byAge := .nil

/-- What an operation removes leaves the order as it is, and what it adds is the youngest. -/
theorem concat (h : Ordered before ops entries registered) (op : Operation) :
    Ordered before (ops ++ [op]) (entries.filter (fun e => !op.concerns e.participant) ++ op.added)
      (registered.filter (fun e => !op.concerns e.participant) ++ op.added) where
  split := by
    have hspare : before.filter (spare (ops ++ [op])) =
        (before.filter (spare ops)).filter fun e => !op.concerns e.participant := by
      rw [List.filter_filter]
      exact List.filter_congr fun e _ => (spare_concat e).trans (Bool.and_comm _ _)
    rw [h.split, List.filter_append, hspare, List.append_assoc]
  named e he := by
    rw [spare_concat]
    rcases List.mem_append.mp he with he | he
    · rw [h.named e (List.mem_filter.mp he).1, Bool.false_and]
    · rw [concerns_of_mem_added he, Bool.not_true, Bool.and_false]
  byAge := by
    have hkept {e : Entry} (he : e ∈ registered.filter fun e => !op.concerns e.participant) :
        op.concerns e.participant = false := by
      simpa using (List.mem_filter.mp he).2
    refine List.pairwise_append.mpr ⟨?_, ?_, ?_⟩
    · refine (h.byAge.sublist List.filter_sublist).imp_of_mem fun ha hb hlt => ?_
      rw [since_concat (hkept ha), since_concat (hkept hb)]
      omega
    · exact pairwise_added
    · intro a ha b hb
      rw [since_concat (hkept ha), since_concat_of_concerns (concerns_of_mem_added hb)]
      omega

end Ordered

theorem ordered_replay (c : Clients) (ops : List Operation) :
    ∃ registered, Ordered c.entries ops (c.replay ops).entries registered := by
  induction ops using List.reverseRecOn with
  | nil => exact ⟨[], .init c.entries⟩
  | append_singleton ops op ih =>
    obtain ⟨registered, h⟩ := ih
    rw [replay_concat, entries_perform]
    exact ⟨_, h.concat op⟩

/-- What a client sees of the entries that it shares. -/
theorem entries_of_view? {client : Nat} {r : Registry} (h : c.view? client = some r) :
    r.entries = c.entries := by
  obtain ⟨knownGbids, -, rfl⟩ := Option.map_eq_some_iff.mp h
  rfl

/-- The last operation on a participant decides what a shared registry holds of it, for every
client. Entries of participants that no operation was about stay as they are. -/
theorem history_decides_entries (c : Clients) (ops : List Operation) :
    let after := c.replay ops
    -- Those come first, and the registered ones follow in the order of their last registration.
    (∃ registered, after.entries = c.entries.filter (spare ops) ++ registered ∧
      (∀ e ∈ registered, spare ops e = false) ∧
      registered.Pairwise fun a b => since ops b.participant < since ops a.participant) ∧
    (∀ participant, after.entriesOf participant =
      match lastOn? ops participant with
      | none => c.entriesOf participant
      | some (.register e) => [e]
      | some _ => []) ∧
    (∀ client, ∀ r ∈ after.view? client,
      r.size = after.entries.length ∧ (r.isEmpty ↔ r.size = 0) ∧
      ∀ participant, r.holds participant ↔ ∃ e ∈ after.entries, e.participant = participant) ∧
    -- A single operation touches nothing that is held of others.
    ∀ op participant, (after.perform op).entriesOf participant =
      if op.concerns participant then op.added else after.entriesOf participant := by
  intro after
  refine ⟨?_, ?_, ?_, ?_⟩
  · obtain ⟨registered, h⟩ := c.ordered_replay ops
    exact ⟨registered, h.split, h.named, h.byAge⟩
  · intro participant
    rw [entriesOf_replay]
    cases lastOn? ops participant with
    | none => rfl
    | some op => cases op <;> rfl
  · intro client r hr
    have hentries := entries_of_view? hr
    refine ⟨?_, ?_, fun participant => ?_⟩
    · rw [Registry.size, hentries]
    · rw [Registry.isEmpty, Registry.size, List.isEmpty_iff, List.length_eq_zero_iff]
    · rw [Registry.holds_iff, hentries]
  · exact after.entriesOf_perform

end Clients

end Arbiter.Discovery
