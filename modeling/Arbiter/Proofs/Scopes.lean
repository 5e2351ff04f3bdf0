import Arbiter.Proofs.Participants
import Mathlib.Data.List.Basic

/-!
What a lookup finds with each scope. All of it comes from the valid entries that match, which the
scopes divide into local and other ones; lookups of one registry are compared by scope, by domains
and by date.
-/

namespace Arbiter

/-- The third list has the entries of the other two and no more, those of each in their order. -/
inductive Interleaves {α : Type} : List α → List α → List α → Prop where
  | nil : Interleaves [] [] []
  | left {a : α} {xs ys merged : List α} (rest : Interleaves xs ys merged) :
    Interleaves (a :: xs) ys (a :: merged)
  | right {a : α} {xs ys merged : List α} (rest : Interleaves xs ys merged) :
    Interleaves xs (a :: ys) (a :: merged)

theorem interleaves_filter {α : Type} (p : α → Bool) (xs : List α) :
    Interleaves (xs.filter p) (xs.filter (!p ·)) xs := by
  induction xs with
  | nil => exact .nil
  | cons a rest ih =>
    by_cases h : p a
    · rw [List.filter_cons_of_pos h, List.filter_cons_of_neg (by simp [h])]
      exact .left ih
    · rw [List.filter_cons_of_neg h, List.filter_cons_of_pos (by simp [h])]
      exact .right ih

namespace Discovery.Registry

variable {r : Registry} {domains gbids : List String} {interface : String} {scope : DiscoveryScope}
  {now : Int64} {es : List Entry}

theorem lookup_eq_ok (hgbids : gbidsFault r.knownGbids gbids = none) :
    r.lookup domains interface scope gbids now =
      .ok (inScope scope (r.providers domains interface now)) := by
  rw [lookup, hgbids]

theorem providers_eq (r : Registry) (domains : List String) (interface : String) (now : Int64) :
    r.providers domains interface now = r.entries.filter fun e =>
      e.interface = interface ∧ e.domain ∈ domains ∧ now ≤ e.expiry := by
  refine List.filter_congr fun e _ => ?_
  rw [Bool.eq_iff_iff]
  simp [Entry.expiredAt, Int64.not_lt, and_assoc]

/-- Only whether a domain is named counts, not where or how often. -/
theorem providers_congr {others : List String} (same : ∀ d, d ∈ others ↔ d ∈ domains) :
    r.providers others interface now = r.providers domains interface now := by
  rw [providers_eq, providers_eq]
  simp only [same]

/-- Entries expire, and no others take their place. -/
theorem providers_sublist {later : Int64} (h : now ≤ later) :
    (r.providers domains interface later).Sublist (r.providers domains interface now) := by
  rw [providers_eq, providers_eq]
  refine List.monotone_filter_right r.entries fun e he => ?_
  simp only [decide_eq_true_eq] at he ⊢
  obtain ⟨hinterface, hdomain, hexpiry⟩ := he
  exact ⟨hinterface, hdomain, Int64.le_trans h hexpiry⟩

/-- All but one of the scopes ask of each entry by itself whether it is to be left out. -/
theorem inScope_sublist {fewer : List Entry} (h : fewer.Sublist es)
    (hscope : scope ≠ .localThenGlobal) : (inScope scope fewer).Sublist (inScope scope es) := by
  cases scope with
  | localOnly | globalOnly => exact h.filter _
  | localAndGlobal => exact h
  | localThenGlobal => exact absurd rfl hscope

theorem inScope_localThenGlobal (es : List Entry) :
    inScope .localThenGlobal es =
      if es.filter (·.isLocal) = [] then es.filter (!·.isLocal) else es.filter (·.isLocal) := by
  have hunfold : inScope .localThenGlobal es =
      if es.any (·.isLocal) then es.filter (·.isLocal) else es := rfl
  rw [hunfold]
  by_cases hany : es.any (·.isLocal)
  · have hsome : es.filter (·.isLocal) ≠ [] := by
      rw [ne_eq, List.filter_eq_nil_iff]
      simpa using hany
    rw [if_pos hany, if_neg hsome]
  · have hnone : ∀ e ∈ es, e.isLocal = false := by simpa using hany
    have hnear : es.filter (·.isLocal) = [] := List.filter_eq_nil_iff.mpr (by simpa using hnone)
    rw [if_neg hany, if_pos hnear]
    exact (List.filter_eq_self.mpr fun e he => by simp [hnone e he]).symm

/-- Local and other entries are never found together. -/
theorem unmixed_localThenGlobal (es : List Entry) :
    (∀ e ∈ inScope .localThenGlobal es, e.isLocal) ∨
      ∀ e ∈ inScope .localThenGlobal es, e.isLocal = false := by
  rw [inScope_localThenGlobal]
  split_ifs
  · right
    intro e he
    simpa using (List.mem_filter.mp he).2
  · left
    intro e he
    exact (List.mem_filter.mp he).2

/-- What a lookup with each scope finds of the entries that are available: those of the interface,
in one of the domains and not past their expiry date. -/
theorem lookup_by_scope (r : Registry) (domains : List String) (interface : String) (now : Int64)
    (hgbids : gbidsFault r.knownGbids gbids = none) :
    let lookup := fun scope => r.lookup domains interface scope gbids now
    let available := r.entries.filter fun e =>
      e.interface = interface ∧ e.domain ∈ domains ∧ now ≤ e.expiry
    let near := available.filter (·.isLocal)
    let far := available.filter (!·.isLocal)
    (lookup .localAndGlobal = .ok available ∧ lookup .localOnly = .ok near ∧
      lookup .globalOnly = .ok far ∧ Interleaves near far available) ∧
    -- Where local entries go first, local and global ones are never mixed.
    (lookup .localThenGlobal = .ok (if near = [] then far else near) ∧
      ∀ found, lookup .localThenGlobal = .ok found →
        (∀ e ∈ found, e.isLocal) ∨ ∀ e ∈ found, e.isLocal = false) ∧
    -- The domains count as a set, and as time goes on, nothing new is found.
    (∀ scope others, (∀ d, d ∈ others ↔ d ∈ domains) →
      r.lookup others interface scope gbids now = lookup scope) ∧
    ∀ scope later, scope ≠ .localThenGlobal → now ≤ later → ∃ before after,
      lookup scope = .ok before ∧ r.lookup domains interface scope gbids later = .ok after ∧
      after.Sublist before := by
  intro lookup available near far
  have hproviders : r.providers domains interface now = available := providers_eq ..
  have hlookup (scope : DiscoveryScope) : lookup scope = .ok (inScope scope available) :=
    hproviders ▸ lookup_eq_ok hgbids
  refine ⟨⟨hlookup _, hlookup _, hlookup _, interleaves_filter _ _⟩, ⟨?_, ?_⟩, ?_, ?_⟩
  · rw [hlookup, inScope_localThenGlobal]
  · intro found hfound
    obtain rfl := Except.ok.inj ((hlookup _).symm.trans hfound)
    exact unmixed_localThenGlobal available
  · intro scope others same
    rw [lookup_eq_ok hgbids, providers_congr same]
    exact (lookup_eq_ok hgbids).symm
  · intro scope later hscope hlater
    refine ⟨_, _, lookup_eq_ok hgbids, lookup_eq_ok hgbids, ?_⟩
    exact inScope_sublist (providers_sublist hlater) hscope

/-- A radio in another place and a local one that expires. -/
def radios : Registry where
  entries := [farRadio, { nearRadio with expiry := 5 }]
  knownGbids := some ["cloud"]

theorem radios_by_scope :
    gbidsFault radios.knownGbids ["cloud"] = none ∧
    radios.lookup ["vehicle"] "radio" .localThenGlobal ["cloud"] 5 =
      .ok [{ nearRadio with expiry := 5 }] ∧
    radios.lookup ["vehicle", "vehicle"] "radio" .localAndGlobal ["cloud"] 5 = .ok radios.entries ∧
    ∃ after, radios.lookup ["vehicle"] "radio" .localAndGlobal ["cloud"] 6 = .ok after ∧
      after.Sublist radios.entries := by
  have hgbids : gbidsFault radios.knownGbids ["cloud"] = none := by decide
  obtain ⟨⟨hall, -⟩, ⟨hfirst, -⟩, hdomains, hlater⟩ :=
    lookup_by_scope radios ["vehicle"] "radio" 5 hgbids
  have hentries : radios.lookup ["vehicle"] "radio" .localAndGlobal ["cloud"] 5 =
      .ok radios.entries := hall.trans (by decide)
  obtain ⟨before, after, hbefore, hafter, hsublist⟩ := hlater .localAndGlobal 6 nofun (by decide)
  obtain rfl := Except.ok.inj (hbefore.symm.trans hentries)
  exact ⟨hgbids, hfirst.trans (by decide), (hdomains _ _ (by simp)).trans hentries, after, hafter,
    hsublist⟩

/-- Where local entries go first, another one is found once they have expired. -/
example : radios.lookup ["vehicle"] "radio" .localThenGlobal ["cloud"] 6 = .ok [farRadio] := by
  decide

end Discovery.Registry

end Arbiter
