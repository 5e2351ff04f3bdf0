import Arbiter.Document.Datum
import Arbiter.Document.Source

/-!
Values with all of their fields, and what may be left out of them in a document: the fields that
hold what their absence stands for.
-/

namespace Arbiter.Document

/-- Whether a field has to be there, and if not, whether it holds what its absence stands for. -/
inductive Standing where
  | needed
  | optional (isDefault : Bool)
  deriving DecidableEq, Repr

/-- A value as it would be written with nothing left out. -/
inductive Outline where
  | plain (d : Datum)
  | list (items : List Outline)
  | record (fields : List (String × Standing × Outline))
  deriving Repr

/-- The outline of the values of a type. -/
class Outlined (α : Type) where
  outline : α → Outline

export Outlined (outline)

namespace Outline

/-- Fields at any depth, each one by the way to it. -/
abbrev FieldSet := List Step → Bool

/-- The fields that lie behind a step. -/
def FieldSet.behind (s : FieldSet) (step : Step) : FieldSet :=
  fun path => s (step :: path)

mutual

/-- What is written when some fields are left out. -/
def without (s : FieldSet) : Outline → Datum
  | .plain d => d
  | .list os => .list (withoutItems s 0 os)
  | .record fs => .record (withoutFields s fs)
termination_by structural o => o

def withoutItems (s : FieldSet) : Nat → List Outline → List Datum
  | _, [] => []
  | i, o :: os => without (s.behind (.item i)) o :: withoutItems s (i + 1) os
termination_by structural _ os => os

def withoutFields (s : FieldSet) : List (String × Standing × Outline) → List (String × Datum)
  | [] => []
  | (name, _, o) :: fs =>
    if s [.field name] then withoutFields s fs
    else (name, without (s.behind (.field name)) o) :: withoutFields s fs
termination_by structural fs => fs

end

/-- Ways that begin with a step. -/
def behind (step : Step) (places : List (List Step × Standing)) : List (List Step × Standing) :=
  places.map fun place => (step :: place.1, place.2)

mutual

/-- All fields at any depth. -/
def places : Outline → List (List Step × Standing)
  | .plain _ => []
  | .list os => placesItems 0 os
  | .record fs => placesFields fs
termination_by structural o => o

def placesItems : Nat → List Outline → List (List Step × Standing)
  | _, [] => []
  | i, o :: os => behind (.item i) (places o) ++ placesItems (i + 1) os
termination_by structural _ os => os

def placesFields : List (String × Standing × Outline) → List (List Step × Standing)
  | [] => []
  | (name, standing, o) :: fs =>
    ([.field name], standing) :: behind (.field name) (places o) ++ placesFields fs
termination_by structural fs => fs

end

/-- Only fields that hold their default are left out. -/
def Spared (s : FieldSet) (places : List (List Step × Standing)) : Prop :=
  ∀ place ∈ places, s place.1 → place.2 = .optional true

/-- The field at the end of a path has to be there and is left out, though no field around it is. -/
structure LacksAt (s : FieldSet) (places : List (List Step × Standing)) (path : List Step) : Prop where
  needed : (path, .needed) ∈ places
  leftOut : s path
  reached : ∀ outer ∈ places, outer.1 <+: path → outer.1 ≠ path → ¬s outer.1

mutual

/-- A datum is what is written for the outlined value, some of the fields that hold their default
being left out, each by itself. -/
inductive Shows : Outline → Datum → Prop
  | plain (d : Datum) : Shows (.plain d) d
  | list {os : List Outline} {ds : List Datum} (h : ShowsItems os ds) : Shows (.list os) (.list ds)
  | record {fs : List (String × Standing × Outline)} {ds : List (String × Datum)}
    (h : ShowsFields fs ds) : Shows (.record fs) (.record ds)

inductive ShowsItems : List Outline → List Datum → Prop
  | nil : ShowsItems [] []
  | cons {o : Outline} {d : Datum} {os : List Outline} {ds : List Datum} (h : Shows o d)
    (hs : ShowsItems os ds) : ShowsItems (o :: os) (d :: ds)

inductive ShowsFields : List (String × Standing × Outline) → List (String × Datum) → Prop
  | nil : ShowsFields [] []
  | kept {name : String} {standing : Standing} {o : Outline} {d : Datum}
    {fs : List (String × Standing × Outline)} {ds : List (String × Datum)} (h : Shows o d)
    (hs : ShowsFields fs ds) : ShowsFields ((name, standing, o) :: fs) ((name, d) :: ds)
  | omitted {name : String} {o : Outline} {fs : List (String × Standing × Outline)}
    {ds : List (String × Datum)} (hs : ShowsFields fs ds) :
    ShowsFields ((name, .optional true, o) :: fs) ds

end

theorem Spared.of_behind {s : FieldSet} {step : Step} {ps : List (List Step × Standing)}
    (h : Spared s (behind step ps)) : Spared (s.behind step) ps := by
  intro place hplace hs
  exact h (step :: place.1, place.2) (List.mem_map.mpr ⟨place, hplace, rfl⟩) hs

mutual

theorem shows_without (s : FieldSet) (o : Outline) (h : Spared s o.places) :
    Shows o (o.without s) := by
  cases o with
  | plain d => exact .plain d
  | list os => exact .list (showsItems_without s 0 os h)
  | record fs => exact .record (showsFields_without s fs h)
termination_by structural o

theorem showsItems_without (s : FieldSet) (i : Nat) (os : List Outline)
    (h : Spared s (placesItems i os)) : ShowsItems os (withoutItems s i os) := by
  cases os with
  | nil => exact .nil
  | cons o os =>
    rw [placesItems, Spared, List.forall_mem_append] at h
    exact .cons (shows_without _ o (Spared.of_behind h.1)) (showsItems_without s (i + 1) os h.2)
termination_by structural os

theorem showsFields_without (s : FieldSet) (fs : List (String × Standing × Outline))
    (h : Spared s (placesFields fs)) : ShowsFields fs (withoutFields s fs) := by
  cases fs with
  | nil => exact .nil
  | cons f fs =>
    obtain ⟨name, standing, o⟩ := f
    rw [placesFields, Spared, List.cons_append, List.forall_mem_cons, List.forall_mem_append] at h
    obtain ⟨hfield, ho, hfs⟩ := h
    have hrest := showsFields_without s fs hfs
    rw [withoutFields]
    by_cases hs : s [.field name]
    · rw [if_pos hs, show standing = .optional true from hfield hs]
      exact .omitted hrest
    · rw [if_neg hs]
      exact .kept (shows_without _ o (Spared.of_behind ho)) hrest
termination_by structural fs

end

theorem mem_behind {step : Step} {place : List Step × Standing}
    {ps : List (List Step × Standing)} :
    place ∈ behind step ps ↔ ∃ inner ∈ ps, (step :: inner.1, inner.2) = place :=
  List.mem_map

/-- A field that is left out of a part of a value. -/
theorem LacksAt.of_behind {s : FieldSet} {places inner : List (List Step × Standing)}
    {path : List Step} (h : LacksAt s places path) {step : Step}
    (hmem : (path, .needed) ∈ behind step inner) (hsub : behind step inner ⊆ places) :
    ∃ rest, path = step :: rest ∧ LacksAt (s.behind step) inner rest := by
  obtain ⟨⟨rest, standing⟩, hrest, heq⟩ := mem_behind.mp hmem
  obtain ⟨rfl, rfl⟩ := Prod.mk.inj heq
  refine ⟨rest, rfl, hrest, h.leftOut, ?_⟩
  intro outer houter hprefix hne
  refine h.reached (step :: outer.1, outer.2) (hsub (mem_behind.mpr ⟨outer, houter, rfl⟩)) ?_ ?_
  · exact List.cons_prefix_cons.mpr ⟨rfl, hprefix⟩
  · exact fun heq => hne (List.cons.inj heq).2

theorem exists_of_mem_placesItems (s : FieldSet) {i : Nat} {os : List Outline}
    {place : List Step × Standing} (h : place ∈ placesItems i os) :
    ∃ k, ∃ o ∈ os, place ∈ behind (.item k) o.places ∧
      behind (.item k) o.places ⊆ placesItems i os ∧
      o.without (s.behind (.item k)) ∈ withoutItems s i os := by
  induction os generalizing i with
  | nil => exact absurd h List.not_mem_nil
  | cons o os ih =>
    rw [placesItems, List.mem_append] at h
    rcases h with h | h
    · exact ⟨i, o, List.mem_cons_self, h, List.subset_append_left _ _, List.mem_cons_self⟩
    · obtain ⟨k, o', ho', hplace, hsub, hwithout⟩ := ih h
      exact ⟨k, o', List.mem_cons_of_mem o ho', hplace,
        List.Subset.trans hsub (List.subset_append_right _ _), List.mem_cons_of_mem _ hwithout⟩

theorem exists_of_mem_placesFields {fs : List (String × Standing × Outline)}
    {place : List Step × Standing} (h : place ∈ placesFields fs) :
    ∃ f ∈ fs, ([.field f.1], f.2.1) ∈ placesFields fs ∧
      behind (.field f.1) f.2.2.places ⊆ placesFields fs ∧
      (place = ([.field f.1], f.2.1) ∨ place ∈ behind (.field f.1) f.2.2.places) := by
  induction fs with
  | nil => exact absurd h List.not_mem_nil
  | cons f fs ih =>
    rw [placesFields, List.cons_append, List.mem_cons, List.mem_append] at h
    have hhere : ([.field f.1], f.2.1) ∈ placesFields (f :: fs) := List.mem_cons_self
    have hinner : behind (.field f.1) f.2.2.places ⊆ placesFields (f :: fs) :=
      fun _ hmem => List.mem_cons_of_mem _ (List.mem_append_left _ hmem)
    have hrest : placesFields fs ⊆ placesFields (f :: fs) :=
      fun _ hmem => List.mem_cons_of_mem _ (List.mem_append_right _ hmem)
    rcases h with h | h | h
    · exact ⟨f, List.mem_cons_self, hhere, hinner, .inl h⟩
    · exact ⟨f, List.mem_cons_self, hhere, hinner, .inr h⟩
    · obtain ⟨f', hf', hfield, hsub, hplace⟩ := ih h
      exact ⟨f', List.mem_cons_of_mem f hf', hrest hfield, List.Subset.trans hsub hrest, hplace⟩

/-- Fields are never the whole value. -/
theorem ne_nil_of_mem_places {o : Outline} {place : List Step × Standing} (h : place ∈ o.places) :
    place.1 ≠ [] := by
  cases o with
  | plain d => exact absurd h List.not_mem_nil
  | list os =>
    obtain ⟨_, _, _, hplace, _⟩ := exists_of_mem_placesItems (fun _ => false) h
    obtain ⟨inner, _, rfl⟩ := mem_behind.mp hplace
    exact List.cons_ne_nil _ _
  | record fs =>
    obtain ⟨_, _, _, _, rfl | hplace⟩ := exists_of_mem_placesFields h
    · exact List.cons_ne_nil _ _
    · obtain ⟨inner, _, rfl⟩ := mem_behind.mp hplace
      exact List.cons_ne_nil _ _

/-- The fields that are written are those that are not left out. -/
theorem mem_withoutFields {s : FieldSet} {fs : List (String × Standing × Outline)}
    {field : String × Datum} :
    field ∈ withoutFields s fs ↔ ∃ f ∈ fs, s [.field f.1] = false ∧
      field = (f.1, f.2.2.without (s.behind (.field f.1))) := by
  induction fs with
  | nil => simp [withoutFields]
  | cons f fs ih =>
    rw [withoutFields]
    by_cases hs : s [.field f.1]
    · rw [if_pos hs, ih]
      simp [hs]
    · rw [if_neg hs, List.mem_cons, ih]
      simp [hs]

end Outline

end Arbiter.Document
