import Arbiter.Proofs.Registrations
import Arbiter.Proofs.Scopes

/-!
The lookup of one participant and that of a domain agree. Registrations replace each other, so that
there is one entry of a participant at most, and it makes no difference whether the scope is applied
to the first entry of the participant or the participant is looked for among the entries in the scope.
-/

namespace Arbiter

/-- The scope without a preference: what is local neither goes first nor hides what is not. -/
def DiscoveryScope.impartial : DiscoveryScope → DiscoveryScope
  | .localThenGlobal => .localAndGlobal
  | scope => scope

namespace Discovery

variable {scope : DiscoveryScope} {e : Entry} {es : List Entry}

/-- A scope without a preference leaves what may be an answer by itself. -/
theorem Registry.inScope_impartial (scope : DiscoveryScope) (es : List Entry) :
    inScope scope.impartial es = es.filter scope.allows := by
  cases scope with
  | localOnly | globalOnly => rfl
  | localThenGlobal | localAndGlobal => exact (List.filter_eq_self.mpr fun _ _ => rfl).symm

theorem answerOfFirst_eq_ok_of_length_le_one (h : es.length ≤ 1) :
    answerOfFirst scope es = .ok e ↔ es.filter scope.allows = [e] := by
  cases es with
  | nil => simp [answerOfFirst_nil]
  | cons first rest =>
    have hrest : rest = [] := by
      rw [List.length_cons] at h
      exact List.eq_nil_of_length_eq_zero (by omega)
    subst hrest
    rw [answerOfFirst_eq_ok_iff]
    by_cases hfirst : scope.allows first
    · rw [List.filter_cons_of_pos hfirst]
      simp [hfirst, eq_comm]
    · rw [List.filter_cons_of_neg hfirst]
      simp [hfirst]

namespace Clients

/-- Whatever registrations there were, one entry of a participant at most is left. -/
theorem length_entriesOf_le_one (knownGbids : Option (List String)) (ops : List Operation)
    (participant : String) :
    (((ofRegistry { knownGbids }).replay ops).entriesOf participant).length ≤ 1 := by
  rw [entriesOf_replay]
  cases Operation.lastOn? ops participant with
  | none => exact Nat.zero_le 1
  | some op =>
    cases op with
    | register e => exact Nat.le_refl 1
    | unregister | clone => exact Nat.zero_le 1

end Clients

namespace Registry

variable {r : Registry} {c : Clients} {client : Nat} {domains gbids : List String}
  {id interface : String} {now : Int64}

/-- Of the entries that are found in all domains, those of a participant are its registrations. -/
theorem filter_providers (covered : ∀ e ∈ r.entries, e.domain ∈ domains) :
    (r.providers domains interface now).filter (·.participant == id) =
      r.registrations id interface now := by
  unfold providers registrations
  rw [List.filter_filter]
  refine List.filter_congr fun e he => ?_
  simp [covered e he, Bool.and_assoc]

/-- It makes no difference whether the scope is applied before the participant is looked for. -/
theorem filter_inScope_providers (covered : ∀ e ∈ r.entries, e.domain ∈ domains) :
    (inScope scope.impartial (r.providers domains interface now)).filter (·.participant == id) =
      (r.registrations id interface now).filter scope.allows := by
  rw [inScope_impartial, ← filter_providers covered, List.filter_filter, List.filter_filter]
  exact List.filter_congr fun _ _ => Bool.and_comm _ _

theorem registrations_of_view? (seen : c.view? client = some r) :
    r.registrations id interface now =
      (c.entriesOf id).filter fun e => e.interface == interface && !e.expiredAt now := by
  unfold registrations Clients.entriesOf
  rw [Clients.entries_of_view? seen, List.filter_filter]
  refine List.filter_congr fun e _ => ?_
  rw [Bool.and_assoc, Bool.and_comm]

/-- In a registry that began empty, the two kinds of lookup agree, provided that the domains of all
entries are asked for. -/
theorem lookups_agree {knownGbids : Option (List String)} {ops : List Operation}
    (reached : ((Clients.ofRegistry { knownGbids }).replay ops).view? client = some r)
    (covered : ∀ e ∈ r.entries, e.domain ∈ domains) (id interface : String)
    (scope : DiscoveryScope) (gbids : List String) (now : Int64) :
    let all := fun scope => r.lookup domains interface scope gbids now
    let one := r.lookupParticipant id interface scope gbids now
    -- Where a backend cannot be asked, both fail with the same code.
    (∀ code, gbidsFault r.knownGbids gbids = some code →
      all scope = .error (.application code) ∧ one = .error (.application code)) ∧
    (gbidsFault r.knownGbids gbids = none → ∃ found, all scope.impartial = .ok found ∧
      -- An entry is the answer just if it is the one of the participant that the domains have.
      (∀ e, one = .ok e ↔ found.filter (·.participant == id) = [e]) ∧
      (one = .error (.application .noEntryForParticipant) ∨ ∃ e, one = .ok e)) := by
  intro all one
  refine ⟨fun code hcode => ?_, fun hgbids => ?_⟩
  · have hall : all scope = .error (.application code) := by
      dsimp only [all]
      rw [lookup, hcode]
    have hone : one = .error (.application code) := by
      dsimp only [one]
      rw [lookupParticipant, hcode]
    exact ⟨hall, hone⟩
  · have hfound : all scope.impartial =
        .ok (inScope scope.impartial (r.providers domains interface now)) := lookup_eq_ok hgbids
    have hone : one = answerOfFirst scope (r.registrations id interface now) :=
      lookupParticipant_eq hgbids
    refine ⟨_, hfound, fun e => ?_, ?_⟩
    · have hlength : (r.registrations id interface now).length ≤ 1 := by
        rw [registrations_of_view? reached]
        exact le_trans (List.length_filter_le _ _) (Clients.length_entriesOf_le_one knownGbids ops id)
      rw [hone, filter_inScope_providers covered, answerOfFirst_eq_ok_of_length_le_one hlength]
    · rw [hone]
      rcases answerOfFirst_sound with hnone | ⟨e, -, -, he⟩
      · exact Or.inl hnone
      · exact Or.inr ⟨e, he⟩

/-- A second radio, and a move of the first one to where it is local. -/
def radioMoved : List Operation :=
  [.register farRadio, .register { farRadio with participant := "radio-2" }, .register nearRadio]

def twoRadios : Registry where
  entries := [{ farRadio with participant := "radio-2" }, nearRadio]
  knownGbids := some ["cloud"]

theorem radioMoved_agrees :
    ((Clients.ofRegistry { knownGbids := some ["cloud"] }).replay radioMoved).view? 0 =
      some twoRadios ∧
    (∀ e ∈ twoRadios.entries, e.domain ∈ ["vehicle"]) ∧
    gbidsFault twoRadios.knownGbids ["cloud"] = none ∧
    twoRadios.lookupParticipant "radio-1" "radio" .localThenGlobal ["cloud"] 0 = .ok nearRadio := by
  have reached : ((Clients.ofRegistry { knownGbids := some ["cloud"] }).replay radioMoved).view? 0 =
      some twoRadios := by decide
  have covered : ∀ e ∈ twoRadios.entries, e.domain ∈ ["vehicle"] := by decide
  have hgbids : gbidsFault twoRadios.knownGbids ["cloud"] = none := by decide
  obtain ⟨-, hagree⟩ :=
    lookups_agree reached covered "radio-1" "radio" .localThenGlobal ["cloud"] 0
  obtain ⟨found, hfound, hiff, -⟩ := hagree hgbids
  have hall : twoRadios.lookup ["vehicle"] "radio" .localAndGlobal ["cloud"] 0 =
      .ok twoRadios.entries := by decide
  obtain rfl : twoRadios.entries = found := Except.ok.inj (hall.symm.trans hfound)
  exact ⟨reached, covered, hgbids, (hiff nearRadio).mpr (by decide)⟩

/-- Where local entries go first, a local one hides the others of its domain, but not from a lookup by
participant. -/
example :
    twoRadios.lookup ["vehicle"] "radio" .localThenGlobal [] 0 = .ok [nearRadio] ∧
    twoRadios.lookupParticipant "radio-2" "radio" .localThenGlobal [] 0 =
      .ok { farRadio with participant := "radio-2" } := by
  decide

end Registry

end Discovery

end Arbiter
