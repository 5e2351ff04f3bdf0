import Arbiter.Config
import Arbiter.Proofs.Registry
import Arbiter.Proofs.Text.Pieces
import Arbiter.Proofs.Text.Trimming

/-!
The backends that a process asks, as its environment lists them. Whatever the text, a list of proper
names comes of it; it is read back from its own text, and no registry calls any of the names invalid.
-/

namespace Arbiter

namespace Config

open Text (isBlank Tight Trims trimChars)

/-- A backend name as it stands in a list: not empty, without a comma, and not blank at its ends. -/
structure IsGbid (gbid : String) : Prop where
  nonempty : gbid.toList ≠ []
  no_comma : ',' ∉ gbid.toList
  tight : Tight gbid.toList

/-- What the pieces between the commas say, one after the other: a piece that is blank says nothing,
and any other says a name. -/
inductive Spells : List (List Char) → List String → Prop
  | nil : Spells [] []
  | blank {piece : List Char} {pieces : List (List Char)} {gbids : List String}
      (h : ∀ c ∈ piece, isBlank c) (rest : Spells pieces gbids) : Spells (piece :: pieces) gbids
  | name {piece : List Char} {pieces : List (List Char)} {gbid : String} {gbids : List String}
      (h : Trims piece gbid.toList) (hne : gbid.toList ≠ []) (rest : Spells pieces gbids) :
      Spells (piece :: pieces) (gbid :: gbids)

/-- The names that are left of the pieces. -/
def namesOf (pieces : List (List Char)) : List String :=
  ((pieces.map trimChars).filter (· ≠ [])).map String.ofList

variable {piece : List Char} {pieces : List (List Char)} {gbid : String} {gbids : List String}

theorem gbidsOf_eq (text : String) : gbidsOf text = namesOf (Text.cut ',' text.toList) :=
  rfl

theorem namesOf_cons_of_blank (h : trimChars piece = []) :
    namesOf (piece :: pieces) = namesOf pieces := by
  simp [namesOf, h]

theorem namesOf_cons_of_name (h : trimChars piece = gbid.toList) (hne : gbid.toList ≠ []) :
    namesOf (piece :: pieces) = gbid :: namesOf pieces := by
  have hgbid : gbid ≠ "" := fun h => hne (by rw [h]; rfl)
  simp [namesOf, h, hgbid]

theorem spells_namesOf (pieces : List (List Char)) : Spells pieces (namesOf pieces) := by
  induction pieces with
  | nil => exact .nil
  | cons piece rest ih =>
    by_cases hblank : trimChars piece = []
    case pos =>
      rw [namesOf_cons_of_blank hblank]
      exact .blank (Text.trimChars_eq_nil_iff.mp hblank) ih
    case neg =>
      have hname : trimChars piece = (String.ofList (trimChars piece)).toList :=
        String.toList_ofList.symm
      have hne : (String.ofList (trimChars piece)).toList ≠ [] := hname ▸ hblank
      rw [namesOf_cons_of_name hname hne]
      exact .name (Text.trimChars_eq_iff.mp hname) hne ih

theorem Spells.eq_namesOf (h : Spells pieces gbids) : namesOf pieces = gbids := by
  induction h with
  | nil => rfl
  | blank h _ ih => rw [namesOf_cons_of_blank (Text.trimChars_of_blank h), ih]
  | name h hne _ ih => rw [namesOf_cons_of_name h.eq_trimChars hne, ih]

/-- Pieces without a comma spell proper names. -/
theorem Spells.isGbid (h : Spells pieces gbids) (hcomma : ∀ piece ∈ pieces, ',' ∉ piece) :
    ∀ gbid ∈ gbids, IsGbid gbid := by
  induction h with
  | nil => simp
  | blank _ _ ih => exact ih (List.forall_mem_cons.mp hcomma).2
  | name h hne _ ih =>
    obtain ⟨hpiece, hrest⟩ := List.forall_mem_cons.mp hcomma
    refine List.forall_mem_cons.mpr ⟨⟨hne, fun hmem => hpiece ?_, h.tight⟩, ih hrest⟩
    obtain ⟨before, after, rfl, -, -⟩ := h.between
    simp [hmem]

/-- Only a name can bring a comma into a piece. -/
theorem Spells.no_comma (h : Spells pieces gbids) (hgbids : ∀ gbid ∈ gbids, IsGbid gbid) :
    ∀ piece ∈ pieces, ',' ∉ piece := by
  have hblank {cs : List Char} (h : ∀ c ∈ cs, isBlank c) : ',' ∉ cs := fun hmem =>
    absurd (h ',' hmem) (by decide)
  induction h with
  | nil => simp
  | blank h _ ih => exact List.forall_mem_cons.mpr ⟨hblank h, ih hgbids⟩
  | name h _ _ ih =>
    obtain ⟨hgbid, hrest⟩ := List.forall_mem_cons.mp hgbids
    refine List.forall_mem_cons.mpr ⟨?_, ih hrest⟩
    obtain ⟨before, after, rfl, hbefore, hafter⟩ := h.between
    simp [hblank hbefore, hblank hafter, hgbid.no_comma]

theorem spells_toList (hgbids : ∀ gbid ∈ gbids, IsGbid gbid) :
    Spells (gbids.map String.toList) gbids := by
  induction gbids with
  | nil => exact .nil
  | cons gbid rest ih =>
    obtain ⟨hgbid, hrest⟩ := List.forall_mem_cons.mp hgbids
    exact .name ⟨hgbid.tight, [], [], by simp, by simp, by simp⟩ hgbid.nonempty (ih hrest)

/-- A list of proper names is read from every text that spells it. -/
theorem gbidsOf_join_pieces (hgbids : ∀ gbid ∈ gbids, IsGbid gbid) (h : Spells pieces gbids) :
    gbidsOf (Text.join "," (pieces.map String.ofList)) = gbids := by
  have htext : (Text.join "," (pieces.map String.ofList)).toList = [','].intercalate pieces := by
    rw [Text.toList_join, List.map_map]
    simp [Function.comp_def]
  by_cases hne : pieces = []
  case pos =>
    subst hne
    cases h
    rfl
  case neg => rw [gbidsOf_eq, htext, Text.cut_intercalate (h.no_comma hgbids) hne, h.eq_namesOf]

theorem gbidsOf_join (hgbids : ∀ gbid ∈ gbids, IsGbid gbid) :
    gbidsOf (Text.join "," gbids) = gbids := by
  have hpieces : (gbids.map String.toList).map String.ofList = gbids := by
    simp [Function.comp_def]
  have hjoin := gbidsOf_join_pieces hgbids (spells_toList hgbids)
  rwa [hpieces] at hjoin

theorem isGbid_of_mem_gbidsOf (text : String) : ∀ gbid ∈ gbidsOf text, IsGbid gbid :=
  (spells_namesOf _).isGbid fun _ => Text.not_mem_of_mem_cut

theorem ofEnvironment_gbids {env : Environment} {text : String} (h : env gbidsVariable = some text) :
    (ofEnvironment env).1.gbids = gbidsOf text := by
  show ((env gbidsVariable).map gbidsOf).getD [] = gbidsOf text
  rw [h, Option.map_some, Option.getD_some]

theorem IsGbid.not_blank (h : IsGbid gbid) : Text.isBlankText gbid = false := by
  obtain ⟨c, rest, hc⟩ := List.exists_cons_of_ne_nil h.nonempty
  have hfirst : isBlank c = false := h.tight.first c (by rw [hc]; rfl)
  simp [Text.isBlankText, hc, hfirst]

end Config

namespace Discovery.Registry

open Config (IsGbid)

variable {r : Registry} {now : Int64} {gbids : List String} {domains : List String}
  {id interface : String} {scope : DiscoveryScope}

/-- A proper name may be unknown, but not invalid. -/
theorem gbidsFault_ne_invalidGbid (known : Option (List String)) (h : ∀ gbid ∈ gbids, IsGbid gbid) :
    gbidsFault known gbids ≠ some .invalidGbid := by
  rw [gbidsFault_eq_find?]
  intro hfault
  obtain ⟨gbid, hfind, hrefusal⟩ := Option.map_eq_some_iff.mp hfault
  have hblank := (h gbid (List.mem_of_find?_eq_some hfind)).not_blank
  simp [refusal, hblank] at hrefusal

theorem lookup_ne_invalidGbid (h : ∀ gbid ∈ gbids, IsGbid gbid) :
    r.lookup domains interface scope gbids now ≠ .error (.application .invalidGbid) := by
  unfold lookup
  cases hfault : gbidsFault r.knownGbids gbids with
  | none => simp
  | some code =>
    intro heq
    obtain rfl : code = .invalidGbid := by simpa using heq
    exact gbidsFault_ne_invalidGbid r.knownGbids h hfault

theorem lookupParticipant_ne_invalidGbid (h : ∀ gbid ∈ gbids, IsGbid gbid) :
    r.lookupParticipant id interface scope gbids now ≠ .error (.application .invalidGbid) := by
  unfold lookupParticipant
  cases hfault : gbidsFault r.knownGbids gbids with
  | none => cases inScope scope (r.participant? id interface now).toList <;> simp
  | some code =>
    intro heq
    obtain rfl : code = .invalidGbid := by simpa using heq
    exact gbidsFault_ne_invalidGbid r.knownGbids h hfault

end Discovery.Registry

namespace Config

/-- The list of backends is a normal form of its text, and one that is taken wherever it is asked. -/
theorem gbids_normal_form (text : String) :
    (∀ env : Environment, env gbidsVariable = some text →
      (ofEnvironment env).1.gbids = gbidsOf text) ∧
    (∀ gbid ∈ gbidsOf text, IsGbid gbid) ∧
    (∃ pieces, (∀ piece ∈ pieces, ',' ∉ piece) ∧ [','].intercalate pieces = text.toList ∧
      Spells pieces (gbidsOf text)) ∧
    gbidsOf (Text.join "," (gbidsOf text)) = gbidsOf text ∧
    (∀ gbids : List String, (∀ gbid ∈ gbids, IsGbid gbid) →
      gbidsOf (Text.join "," gbids) = gbids ∧
      ∀ pieces, Spells pieces gbids →
        gbidsOf (Text.join "," (pieces.map String.ofList)) = gbids) ∧
    ∀ (r : Discovery.Registry) (now : Int64),
      (∀ domains interface scope, r.lookup domains interface scope (gbidsOf text) now ≠
        .error (.application .invalidGbid)) ∧
      ∀ id interface scope, r.lookupParticipant id interface scope (gbidsOf text) now ≠
        .error (.application .invalidGbid) := by
  have hgbids := isGbid_of_mem_gbidsOf text
  refine ⟨fun _ => ofEnvironment_gbids, hgbids, ⟨Text.cut ',' text.toList, ?_, ?_, ?_⟩,
    gbidsOf_join hgbids, ?_, ?_⟩
  · exact fun _ => Text.not_mem_of_mem_cut
  · exact Text.intercalate_cut ',' text.toList
  · exact spells_namesOf _
  · intro gbids h
    exact ⟨gbidsOf_join h, fun _ => gbidsOf_join_pieces h⟩
  · intro r now
    exact ⟨fun _ _ _ => Discovery.Registry.lookup_ne_invalidGbid hgbids,
      fun _ _ _ => Discovery.Registry.lookupParticipant_ne_invalidGbid hgbids⟩

example : gbidsOf " home ,, \t,\u3000abroad," = ["home", "abroad"] := by decide

end Config

end Arbiter
