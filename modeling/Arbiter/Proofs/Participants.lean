import Arbiter.Proofs.Registry
import Mathlib.Data.List.Nodup

/-!
What the lookup of one participant finds where the participant has several registrations, as the
contents of a registry may give it. The scope is applied to the first registration only, so that
the others count for nothing, whatever the scope asks for.
-/

namespace Arbiter

namespace DiscoveryScope

/-- Whether a lookup with the scope may be answered with the entry. -/
def allows (scope : DiscoveryScope) (e : Entry) : Bool :=
  match scope with
  | .localOnly => e.isLocal
  | .globalOnly => !e.isLocal
  | .localThenGlobal | .localAndGlobal => true

/-- Whether the scope asks for such an entry wherever there is one. -/
def prefers (scope : DiscoveryScope) (e : Entry) : Bool :=
  match scope with
  | .localOnly | .localThenGlobal => e.isLocal
  | .globalOnly => !e.isLocal
  | .localAndGlobal => true

variable {scope : DiscoveryScope} {e : Entry}

theorem admits_self : scope.admits e.isLocal e = scope.allows e := by
  cases scope with
  | localThenGlobal => simp [admits, allows]
  | localOnly | globalOnly | localAndGlobal => rfl

/-- Only one scope allows what it does not prefer. -/
theorem allows_iff : scope.allows e ↔ scope.prefers e ∨ scope = .localThenGlobal := by
  cases scope <;> simp [allows, prefers]

end DiscoveryScope

namespace Discovery

/-- The answer to a lookup that finds what there is, given all the registrations that match it. -/
structure Finds (scope : DiscoveryScope) (registrations : List Entry)
    (answer : Except LookupError Entry) : Prop where
  found_iff : (∃ e, answer = .ok e) ↔ ∃ e ∈ registrations, scope.allows e
  missing : (¬∃ e ∈ registrations, scope.allows e) →
    answer = .error (.application .noEntryForParticipant)
  sound : ∀ e, answer = .ok e → e ∈ registrations ∧ scope.allows e
  local_first : ∀ e, answer = .ok e → scope = .localThenGlobal →
    (∃ other ∈ registrations, other.isLocal) → e.isLocal

/-- The answer if the first registration is the only one that counts. -/
def answerOfFirst (scope : DiscoveryScope) (registrations : List Entry) :
    Except LookupError Entry :=
  match registrations.head?.filter scope.allows with
  | some e => .ok e
  | none => .error (.application .noEntryForParticipant)

section First

variable {scope : DiscoveryScope} {first e : Entry} {rest registrations : List Entry}

theorem answerOfFirst_nil :
    answerOfFirst scope [] = .error (.application .noEntryForParticipant) := rfl

theorem answerOfFirst_of_allows (h : scope.allows first) :
    answerOfFirst scope (first :: rest) = .ok first := by
  simp [answerOfFirst, Option.filter, h]

theorem answerOfFirst_of_not_allows (h : ¬scope.allows first) :
    answerOfFirst scope (first :: rest) = .error (.application .noEntryForParticipant) := by
  simp [answerOfFirst, Option.filter, h]

/-- Without the first registration in the scope nothing is found. -/
theorem answerOfFirst_eq_ok_iff :
    answerOfFirst scope (first :: rest) = .ok e ↔ scope.allows first ∧ e = first := by
  by_cases h : scope.allows first
  case pos => rw [answerOfFirst_of_allows h]; simp [h, eq_comm]
  case neg => rw [answerOfFirst_of_not_allows h]; simp [h]

/-- Whatever is answered is a registration that the scope allows. -/
theorem answerOfFirst_sound :
    answerOfFirst scope registrations = .error (.application .noEntryForParticipant) ∨
      ∃ e ∈ registrations, scope.allows e ∧ answerOfFirst scope registrations = .ok e := by
  cases registrations with
  | nil => exact Or.inl answerOfFirst_nil
  | cons first rest =>
    by_cases h : scope.allows first
    case pos => exact Or.inr ⟨first, List.mem_cons_self, h, answerOfFirst_of_allows h⟩
    case neg => exact Or.inl (answerOfFirst_of_not_allows h)

/-- If all that there is was found, the first registration is preferred where one is. -/
theorem prefers_of_finds
    (hfinds : Finds scope (first :: rest) (answerOfFirst scope (first :: rest)))
    (hpreferred : ∃ e ∈ first :: rest, scope.prefers e) : scope.prefers first := by
  obtain ⟨e, he, hprefers⟩ := hpreferred
  have hallows : ∃ e ∈ first :: rest, scope.allows e :=
    ⟨e, he, DiscoveryScope.allows_iff.mpr (Or.inl hprefers)⟩
  obtain ⟨found, hfound⟩ := hfinds.found_iff.mpr hallows
  obtain ⟨hfirst, rfl⟩ := answerOfFirst_eq_ok_iff.mp hfound
  obtain hfirst | rfl := DiscoveryScope.allows_iff.mp hfirst
  · exact hfirst
  · exact hfinds.local_first found hfound rfl ⟨e, he, hprefers⟩

/-- A first registration that is preferred wherever one is stands for all of them. -/
theorem finds_of_prefers
    (hfirst : (∃ e ∈ first :: rest, scope.prefers e) → scope.prefers first) :
    Finds scope (first :: rest) (answerOfFirst scope (first :: rest)) := by
  have hallows : (∃ e ∈ first :: rest, scope.allows e) → scope.allows first := by
    rintro ⟨e, he, hallows⟩
    rw [DiscoveryScope.allows_iff] at hallows ⊢
    exact hallows.imp_left fun hprefers => hfirst ⟨e, he, hprefers⟩
  refine ⟨⟨?_, ?_⟩, ?_, ?_, ?_⟩
  · rintro ⟨e, he⟩
    exact ⟨first, List.mem_cons_self, (answerOfFirst_eq_ok_iff.mp he).1⟩
  · exact fun h => ⟨first, answerOfFirst_of_allows (hallows h)⟩
  · intro hnone
    exact answerOfFirst_of_not_allows fun h => hnone ⟨first, List.mem_cons_self, h⟩
  · intro e he
    obtain ⟨hallowed, rfl⟩ := answerOfFirst_eq_ok_iff.mp he
    exact ⟨List.mem_cons_self, hallowed⟩
  · rintro e he rfl hlocal
    obtain ⟨-, rfl⟩ := answerOfFirst_eq_ok_iff.mp he
    exact hfirst hlocal

theorem finds_nil : Finds scope [] (answerOfFirst scope []) := by
  rw [answerOfFirst_nil]
  constructor <;> simp

/-- All that there is was found if, and only if, the first registration is as good as any. -/
theorem finds_answerOfFirst_iff :
    Finds scope registrations (answerOfFirst scope registrations) ↔
      ∀ first ∈ registrations.head?,
        (∃ e ∈ registrations, scope.prefers e) → scope.prefers first := by
  cases registrations with
  | nil => simp [finds_nil]
  | cons first rest =>
    simp only [List.head?_cons, Option.mem_def, Option.some.injEq, forall_eq']
    exact ⟨prefers_of_finds, finds_of_prefers⟩

end First

namespace Registry

variable {r : Registry} {id interface : String} {scope : DiscoveryScope} {gbids : List String}
  {now : Int64}

/-- The valid entries of the participant and interface, in the order of the registry. -/
def registrations (r : Registry) (id interface : String) (now : Int64) : List Entry :=
  r.entries.filter fun e =>
    e.participant == id && e.interface == interface && !e.expiredAt now

theorem participant?_eq_head? (r : Registry) (id interface : String) (now : Int64) :
    r.participant? id interface now = (r.registrations id interface now).head? :=
  (List.head?_filter ..).symm

theorem lookupParticipant_eq (hgbids : gbidsFault r.knownGbids gbids = none) :
    r.lookupParticipant id interface scope gbids now =
      answerOfFirst scope (r.registrations id interface now) := by
  rw [lookupParticipant, hgbids, inScope_toList, participant?_eq_head?, answerOfFirst]
  simp only [DiscoveryScope.admits_self]
  cases (r.registrations id interface now).head?.filter scope.allows <;> rfl

/-- Where every participant is registered once, a lookup has one registration at most. -/
theorem registrations_eq_of_nodup (hnodup : (r.entries.map (·.participant)).Nodup)
    {a b : Entry} (ha : a ∈ r.registrations id interface now)
    (hb : b ∈ r.registrations id interface now) : a = b := by
  simp only [registrations, List.mem_filter, Bool.and_eq_true, beq_iff_eq] at ha hb
  exact List.inj_on_of_nodup_map hnodup ha.1 hb.1 (ha.2.1.1.trans hb.2.1.1.symm)

/-- The lookup of a participant finds all that there is to find exactly if its first registration is
preferred by the scope wherever one of them is. -/
theorem lookupParticipant_finds_iff (hgbids : gbidsFault r.knownGbids gbids = none) :
    let registrations := r.registrations id interface now
    let answer := r.lookupParticipant id interface scope gbids now
    (answer = .error (.application .noEntryForParticipant) ∨
      ∃ e ∈ registrations, scope.allows e ∧ answer = .ok e) ∧
    (Finds scope registrations answer ↔
      ∀ first ∈ registrations.head?,
        (∃ e ∈ registrations, scope.prefers e) → scope.prefers first) ∧
    -- This is so in a registry whose participants are all different.
    ((r.entries.map (·.participant)).Nodup → Finds scope registrations answer) := by
  intro registrations answer
  have hanswer : answer = answerOfFirst scope registrations := lookupParticipant_eq hgbids
  rw [hanswer]
  refine ⟨answerOfFirst_sound, finds_answerOfFirst_iff, fun hnodup => ?_⟩
  refine finds_answerOfFirst_iff.mpr ?_
  rintro first hfirst ⟨e, he, hprefers⟩
  rw [registrations_eq_of_nodup hnodup (List.mem_of_mem_head? hfirst) he]
  exact hprefers

/-- A radio in another place, and the same participant here. -/
def farRadio : Entry where
  version := { major := 1, minor := 3 }
  domain := "vehicle"
  interface := "radio"
  participant := "radio-1"

def nearRadio : Entry :=
  { farRadio with isLocal := true }

/-- The local registration is found where it is the first one. -/
theorem nearRadio_found :
    let r : Registry := { entries := [nearRadio, farRadio] }
    gbidsFault r.knownGbids [] = none ∧
    r.registrations "radio-1" "radio" 0 = [nearRadio, farRadio] ∧
    Finds .localOnly [nearRadio, farRadio]
      (r.lookupParticipant "radio-1" "radio" .localOnly [] 0) := by
  intro r
  have hgbids : gbidsFault r.knownGbids [] = none := by decide
  have hall : r.registrations "radio-1" "radio" 0 = [nearRadio, farRadio] := by decide
  have hfinds : Finds .localOnly (r.registrations "radio-1" "radio" 0)
      (r.lookupParticipant "radio-1" "radio" .localOnly [] 0) ↔ _ :=
    (lookupParticipant_finds_iff hgbids).2.1
  rw [hall] at hfinds
  exact ⟨hgbids, hall, hfinds.mpr (by decide)⟩

/-- The near radio is missed where the other one is the first, though a lookup of the domain with
the same scope finds it. -/
theorem nearRadio_missed :
    let r : Registry := { entries := [farRadio, nearRadio] }
    let answer := fun scope => r.lookupParticipant "radio-1" "radio" scope [] 0
    r.registrations "radio-1" "radio" 0 = [farRadio, nearRadio] ∧
    r.lookup ["vehicle"] "radio" .localOnly [] 0 = .ok [nearRadio] ∧
    answer .localOnly = .error (.application .noEntryForParticipant) ∧
    answer .localThenGlobal = .ok farRadio ∧
    ¬Finds .localOnly [farRadio, nearRadio] (answer .localOnly) ∧
    ¬Finds .localThenGlobal [farRadio, nearRadio] (answer .localThenGlobal) := by
  intro r answer
  have hnone : answer .localOnly = .error (.application .noEntryForParticipant) := by decide
  have hfar : answer .localThenGlobal = .ok farRadio := by decide
  refine ⟨by decide, by decide, hnone, hfar, fun hfinds => ?_, fun hfinds => ?_⟩
  · obtain ⟨e, he⟩ := hfinds.found_iff.mpr ⟨nearRadio, by simp, rfl⟩
    simp [hnone] at he
  · exact absurd (hfinds.local_first farRadio hfar rfl ⟨nearRadio, by simp, rfl⟩) (by decide)

end Registry

end Discovery

end Arbiter
