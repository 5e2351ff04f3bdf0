import Arbiter.Proofs.Document.Recovery
import Mathlib.Data.List.Nodup
import Mathlib.Data.List.Pairwise

/-!
Records are recovered from their fields: each field goes to its own place in the draft, whatever the
other fields are, and what is not there is made up from the defaults or found missing.
-/

namespace Arbiter.Document

open Outline

/-- A field of a record: what the record holds there, where it goes when the record is read, and what
its absence stands for if it may be absent. -/
structure Field (δ α : Type) where
  name : String
  Held : Type
  [readable : Readable Held]
  [outlined : Outlined Held]
  [faithful : Faithful Held]
  [decidable : DecidableEq Held]
  value : α → Held
  default : Option Held
  get : δ → Option Held
  set : Held → δ → δ
  get_set : ∀ x draft, get (set x draft) = some x := by intros; rfl

attribute [instance] Field.readable Field.outlined Field.faithful Field.decidable

namespace Field

variable {δ α : Type}

def slot (f : Field δ α) : Slot δ :=
  .of f.name f.get f.set

def standing (f : Field δ α) (a : α) : Standing :=
  match f.default with
  | none => .needed
  | some x => .optional (f.value a = x)

def shown (f : Field δ α) (a : α) : String × Standing × Outline :=
  (f.name, f.standing a, outline (f.value a))

/-- The draft has the value of the field, or it has none and the value is the default. -/
def Agrees (f : Field δ α) (a : α) (draft : δ) : Prop :=
  f.get draft = some (f.value a) ∨ f.get draft = none ∧ f.default = some (f.value a)

theorem default_of_standing {f : Field δ α} {a : α} (h : f.standing a = .optional true) :
    f.default = some (f.value a) := by
  unfold standing at h
  cases hdefault : f.default with
  | none =>
    rw [hdefault] at h
    cases h
  | some x =>
    rw [hdefault] at h
    simp only [Standing.optional.injEq, decide_eq_true_eq] at h
    rw [h]

theorem default_of_needed {f : Field δ α} {a : α} (h : f.standing a = .needed) :
    f.default = none := by
  unfold standing at h
  cases hdefault : f.default with
  | none => rfl
  | some x =>
    rw [hdefault] at h
    cases h

/-- What an agreeing draft holds, or the default in its place. -/
theorem Agrees.getD {f : Field δ α} {a : α} {draft : δ} (h : f.Agrees a draft) {x : f.Held}
    (hdefault : f.default = some x) : (f.get draft).getD x = f.value a := by
  rcases h with h | ⟨h, hvalue⟩
  · rw [h, Option.getD_some]
  · rw [h, Option.getD_none]
    exact Option.some.inj (hdefault.symm.trans hvalue)

theorem Agrees.get_of_needed {f : Field δ α} {a : α} {draft : δ} (h : f.Agrees a draft)
    (hdefault : f.default = none) : f.get draft = some (f.value a) := by
  rcases h with h | ⟨_, hvalue⟩
  · exact h
  · cases hdefault.symm.trans hvalue

/-- Setting one of two fields leaves the other one as it is. -/
def Apart (f g : Field δ α) : Prop :=
  (∀ x draft, g.get (f.set x draft) = g.get draft) ∧ ∀ x draft, f.get (g.set x draft) = f.get draft

theorem Apart.symm {f g : Field δ α} (h : f.Apart g) : g.Apart f :=
  ⟨h.2, h.1⟩

instance : Std.Symm (@Apart δ α) := ⟨fun _ _ => Apart.symm⟩

end Field

/-- The outline of a record with these fields. -/
def recordOutline {δ α : Type} (fields : List (Field δ α)) (a : α) : Outline :=
  .record (fields.map (·.shown a))

/-- The layout of a record has one slot for each of the fields, and they do not interfere. -/
structure Lays {δ α : Type} (layout : Layout δ α) (fields : List (Field δ α)) : Prop where
  slots : layout.slots = fields.map Field.slot
  names : (fields.map Field.name).Nodup
  apart : fields.Pairwise Field.Apart
  blank : ∀ f ∈ fields, f.get layout.blank = none
  finish : ∀ a draft, (∀ f ∈ fields, f.Agrees a draft) → layout.finish draft = .ok a
  need : ∀ draft a, layout.finish draft = .ok a → ∀ f ∈ fields, f.default = none →
    (f.get draft).isSome

section Reading

variable {δ α : Type} {slots : List (Slot δ)} {D : Type} [Source D]

/-- Written fields as the members of a record. -/
def members (format : Rendition D) (fs : List (String × Datum)) : List (Member D) :=
  fs.map fun f => ⟨.ok f.1, .field f.1, format.ofDatum f.2⟩

theorem fill_eq_ok {f : Field δ α} {doc : D} {before after : δ}
    (h : f.slot.fill doc before = .ok after) :
    ∃ x, (read doc : Read f.Held) = .ok x ∧ f.set x before = after := by
  change (read doc : Read f.Held).map (fun x => f.set x before) = _ at h
  cases hread : (read doc : Read f.Held) with
  | error fault => simp [hread, Except.map] at h
  | ok x =>
    rw [hread] at h
    exact ⟨x, rfl, Except.ok.inj h⟩

theorem readNamed_cons {f : Field δ α} (hslot : slots.find? (·.name == f.name) = some f.slot)
    {draft : δ} (hempty : f.get draft = none) {step : Step} {doc : D} {x : f.Held}
    (hread : (read doc : Read f.Held) = .ok x) (ms : List (Member D)) :
    Layout.readNamed slots draft (⟨.ok f.name, step, doc⟩ :: ms) =
      Layout.readNamed slots (f.set x draft) ms := by
  have hfilled : f.slot.isFilled draft = false := by
    change (f.get draft).isSome = false
    rw [hempty]
    rfl
  have hfill : f.slot.fill doc draft = .ok (f.set x draft) := by
    change (read doc : Read f.Held).map (fun x => f.set x draft) = _
    rw [hread]
    rfl
  rw [Layout.readNamed]
  simp only [bind, Except.bind, hslot, hfilled, Bool.false_eq_true, if_false, hfill, mapError_ok]

/-- What a run of shown fields does to the draft: each field comes to agree with the value, and what
belongs to other fields stays. -/
theorem readNamed_shows (format : Rendition D) (a : α) {fields : List (Field δ α)}
    (hslot : ∀ f ∈ fields, slots.find? (·.name == f.name) = some f.slot)
    (hapart : fields.Pairwise Field.Apart) {ds : List (String × Datum)}
    (hshows : ShowsFields (fields.map (·.shown a)) ds) (draft : δ)
    (hempty : ∀ f ∈ fields, f.get draft = none) :
    ∃ draft', Layout.readNamed slots draft (members format ds) = .ok draft' ∧
      (∀ f ∈ fields, f.Agrees a draft') ∧
      ∀ g : Field δ α, (∀ f ∈ fields, f.Apart g) → g.get draft' = g.get draft := by
  -- The last part is what keeps the field at hand in place while the fields after it are read.
  induction fields generalizing ds draft with
  | nil =>
    cases hshows
    exact ⟨draft, rfl, by simp, fun _ _ => rfl⟩
  | cons f fields ih =>
    obtain ⟨hslotf, hslot⟩ := List.forall_mem_cons.mp hslot
    obtain ⟨hapartf, hapart⟩ := List.pairwise_cons.mp hapart
    obtain ⟨hemptyf, hempty⟩ := List.forall_mem_cons.mp hempty
    have hsymm : ∀ g ∈ fields, g.Apart f := fun g hg => (hapartf g hg).symm
    generalize hshown : (f :: fields).map (·.shown a) = shown at hshows
    cases hshows with
    | nil => exact absurd hshown (List.cons_ne_nil _ _)
    | @kept name standing o d _ ds hd hds =>
      obtain ⟨hf, rfl⟩ := List.cons.inj hshown
      obtain ⟨rfl, rfl, rfl⟩ := hf
      have hread := Faithful.recovers format (f.value a) hd
      obtain ⟨draft', hok, hagree, hkeep⟩ := ih hslot hapart hds (f.set (f.value a) draft) (by
        intro g hg
        rw [(hapartf g hg).1, hempty g hg])
      refine ⟨draft', ?_, List.forall_mem_cons.mpr ⟨.inl ?_, hagree⟩, ?_⟩
      · exact (readNamed_cons hslotf hemptyf hread (members format ds)).trans hok
      · rw [hkeep f hsymm, f.get_set]
      · intro g hg
        obtain ⟨hgf, hg⟩ := List.forall_mem_cons.mp hg
        rw [hkeep g hg, hgf.1]
    | @omitted name o _ ds hds =>
      obtain ⟨hf, rfl⟩ := List.cons.inj hshown
      have hdefault : f.default = some (f.value a) :=
        Field.default_of_standing (Prod.mk.inj (Prod.mk.inj hf).2).1
      obtain ⟨draft', hok, hagree, hkeep⟩ := ih hslot hapart hds draft hempty
      refine ⟨draft', hok, List.forall_mem_cons.mpr ⟨.inr ⟨?_, hdefault⟩, hagree⟩, ?_⟩
      · rw [hkeep f hsymm, hemptyf]
      · intro g hg
        exact hkeep g (List.forall_mem_cons.mp hg).2

/-- What one member does to the draft, if the record is read at all. -/
theorem readNamed_cons_eq_ok {m : Member D} {ms : List (Member D)} {draft draft' : δ}
    (h : Layout.readNamed slots draft (m :: ms) = .ok draft') :
    ∃ name, m.name = .ok name ∧
      (slots.find? (·.name == name) = none ∧ Layout.readNamed slots draft ms = .ok draft' ∨
        ∃ slot filled, slots.find? (·.name == name) = some slot ∧
          slot.fill m.value draft = .ok filled ∧ Layout.readNamed slots filled ms = .ok draft') := by
  rw [Layout.readNamed] at h
  cases hname : m.name with
  | error fault => simp [hname, bind, Except.bind] at h
  | ok name =>
    refine ⟨name, rfl, ?_⟩
    simp only [hname, bind, Except.bind] at h
    cases hslot : slots.find? (·.name == name) with
    | none =>
      rw [hslot] at h
      exact .inl ⟨rfl, h⟩
    | some slot =>
      simp only [hslot] at h
      split at h
      · exact absurd h (by simp [Read.fail])
      · cases hfill : slot.fill m.value draft with
        | error fault => simp [hfill, mapError_error] at h
        | ok filled =>
          simp only [hfill, mapError_ok] at h
          exact .inr ⟨slot, filled, rfl, hfill, h⟩

/-- Members are read one by one, so all of those with known names are read if the record is. -/
theorem fill_of_readNamed {ms : List (Member D)} {draft draft' : δ}
    (h : Layout.readNamed slots draft ms = .ok draft') {m : Member D} (hmem : m ∈ ms) {name : String}
    (hname : m.name = .ok name) {slot : Slot δ} (hslot : slots.find? (·.name == name) = some slot) :
    ∃ before after, slot.fill m.value before = .ok after := by
  induction ms generalizing draft with
  | nil => exact absurd hmem List.not_mem_nil
  | cons m' ms ih =>
    obtain ⟨name', hname', h⟩ := readNamed_cons_eq_ok h
    rcases List.mem_cons.mp hmem with rfl | hmem
    · obtain rfl : name' = name := Except.ok.inj (hname'.symm.trans hname)
      obtain ⟨hnone, _⟩ | ⟨slot', filled, hslot', hfill, _⟩ := h
      · exact absurd (hnone.symm.trans hslot) (by simp)
      · obtain rfl : slot' = slot := Option.some.inj (hslot'.symm.trans hslot)
        exact ⟨draft, filled, hfill⟩
    · obtain ⟨_, h⟩ | ⟨_, _, _, _, h⟩ := h
      · exact ih h hmem
      · exact ih h hmem

/-- What belongs to a field without a member stays as it is. -/
theorem get_of_readNamed {f : Field δ α} (hother : ∀ slot ∈ slots, slot.name ≠ f.name →
      ∀ (doc : D) before after, slot.fill doc before = .ok after → f.get after = f.get before)
    {ms : List (Member D)} (habsent : ∀ m ∈ ms, m.name ≠ .ok f.name) {draft draft' : δ}
    (h : Layout.readNamed slots draft ms = .ok draft') : f.get draft' = f.get draft := by
  induction ms generalizing draft with
  | nil =>
    cases h
    rfl
  | cons m ms ih =>
    obtain ⟨habsentm, habsent⟩ := List.forall_mem_cons.mp habsent
    obtain ⟨name, hname, h⟩ := readNamed_cons_eq_ok h
    obtain ⟨_, h⟩ | ⟨slot, filled, hslot, hfill, h⟩ := h
    · exact ih habsent h
    · have hslotname : slot.name = name := by
        have := List.find?_some hslot
        simpa using this
      have hne : slot.name ≠ f.name := fun heq => habsentm (by rw [hname, ← hslotname, heq])
      rw [ih habsent h, hother slot (List.mem_of_find?_eq_some hslot) hne m.value draft filled hfill]

end Reading

namespace Layout

variable {β γ : Type} {name : String} {x : Option β} {k : β → Except String γ}

@[simp]
theorem need_some (b : β) : (need name (some b) >>= k) = k b :=
  rfl

theorem need_bind_eq_ok {c : γ} : (need name x >>= k) = .ok c ↔ ∃ b, x = some b ∧ k b = .ok c := by
  cases x with
  | none => simp [need, bind, Except.bind]
  | some b => simp

end Layout

namespace Lays

variable {δ α : Type} {layout : Layout δ α} {fields : List (Field δ α)}

theorem find?_slot (h : Lays layout fields) {f : Field δ α} (hf : f ∈ fields) :
    layout.slots.find? (·.name == f.name) = some f.slot := by
  have hnames := h.names
  rw [h.slots]
  clear h
  induction fields with
  | nil => exact absurd hf List.not_mem_nil
  | cons g fields ih =>
    obtain ⟨hname, hnames⟩ := List.nodup_cons.mp hnames
    rcases List.mem_cons.mp hf with rfl | hf
    · exact List.find?_cons_of_pos (by simp [Field.slot, Slot.of])
    · have hne : g.name ≠ f.name := fun heq => hname (heq ▸ List.mem_map_of_mem hf)
      rw [List.map_cons, List.find?_cons_of_neg (by simpa [Field.slot, Slot.of] using hne)]
      exact ih hf hnames

theorem apart_of_ne (h : Lays layout fields) {f g : Field δ α} (hf : f ∈ fields) (hg : g ∈ fields)
    (hne : f ≠ g) : f.Apart g :=
  h.apart.forall hf hg hne

variable {D : Type} [Source D]

/-- Filling the slot of one field leaves the others as they are. -/
theorem get_fill (h : Lays layout fields) {f : Field δ α} (hf : f ∈ fields) (slot : Slot δ)
    (hslot : slot ∈ layout.slots) (hne : slot.name ≠ f.name) (doc : D) (before after : δ)
    (hfill : slot.fill doc before = .ok after) : f.get after = f.get before := by
  rw [h.slots] at hslot
  obtain ⟨g, hg, rfl⟩ := List.mem_map.mp hslot
  have hapart : g.Apart f := h.apart_of_ne hg hf (fun heq => hne (heq ▸ rfl))
  obtain ⟨x, _, rfl⟩ := fill_eq_ok hfill
  exact hapart.1 x before

theorem read_record (layout : Layout δ α) (format : Rendition D) (ds : List (String × Datum)) :
    layout.read (format.ofDatum (.record ds)) =
      match Layout.readNamed layout.slots layout.blank (members format ds) with
      | .error fault => .error fault
      | .ok draft =>
        match layout.finish draft with
        | .ok a => .ok a
        | .error name => .fail (.missingField name) := by
  rw [Layout.read, format.fields]
  change (do
    let draft ← Layout.readNamed layout.slots layout.blank (members format ds)
    let draft ← Run.finish ⟨members format ds, true⟩ draft
    match layout.finish draft with
    | .ok a => .ok a
    | .error name => .fail (.missingField name)) = _
  cases Layout.readNamed layout.slots layout.blank (members format ds) <;> rfl

/-- A record is read from some of its fields, in whatever order they stand. -/
theorem read_chosen (h : Lays layout fields) (format : Rendition D) (a : α)
    (chosen : List (Field δ α)) (hsub : chosen ⊆ fields) (hnodup : chosen.Nodup)
    {ds : List (String × Datum)} (hshows : ShowsFields (chosen.map (·.shown a)) ds)
    (hrest : ∀ f ∈ fields, f ∉ chosen → f.default = some (f.value a)) :
    layout.read (format.ofDatum (.record ds)) = .ok a := by
  have hapart : chosen.Pairwise Field.Apart :=
    hnodup.imp_of_mem fun hf hg hne => h.apart_of_ne (hsub hf) (hsub hg) hne
  obtain ⟨draft, hread, hagree, hkeep⟩ := readNamed_shows format a
    (fun _ hf => h.find?_slot (hsub hf)) hapart hshows layout.blank (fun _ hf => h.blank _ (hsub hf))
  have hall : ∀ f ∈ fields, f.Agrees a draft := by
    intro f hf
    by_cases hchosen : f ∈ chosen
    · exact hagree f hchosen
    · have hget : f.get draft = f.get layout.blank := hkeep f fun g hg =>
        h.apart_of_ne (hsub hg) hf fun heq => hchosen (heq ▸ hg)
      exact .inr ⟨hget.trans (h.blank f hf), hrest f hf hchosen⟩
  rw [read_record, hread]
  simp only [h.finish a draft hall]

theorem read_shows (h : Lays layout fields) (format : Rendition D) (a : α) {d : Datum}
    (hshows : (recordOutline fields a).Shows d) : layout.read (format.ofDatum d) = .ok a := by
  cases hshows with
  | record hds =>
    have hnodup : fields.Nodup := List.Nodup.of_map Field.name h.names
    exact h.read_chosen format a fields (List.Subset.refl fields) hnodup hds
      fun f hf hnot => absurd hf hnot

theorem read_lacks (h : Lays layout fields) (format : Rendition D) (a : α) {s : FieldSet}
    {path : List Step} (hlacks : LacksAt s (recordOutline fields a).places path) (b : α) :
    layout.read (format.ofDatum ((recordOutline fields a).without s)) ≠ .ok b := by
  intro hread
  change layout.read (format.ofDatum (.record (withoutFields s (fields.map (·.shown a))))) = .ok b
    at hread
  rw [read_record] at hread
  cases hnamed : Layout.readNamed layout.slots layout.blank
      (members format (withoutFields s (fields.map (·.shown a)))) with
  | error fault => simp [hnamed] at hread
  | ok draft =>
    simp only [hnamed] at hread
    obtain ⟨_, hshown, hfield, hsub, hplace⟩ := exists_of_mem_placesFields hlacks.needed
    obtain ⟨f, hf, rfl⟩ := List.mem_map.mp hshown
    rcases hplace with hplace | hplace
    · -- the field itself is missing, and nothing puts a value into its place in the draft
      obtain ⟨rfl, hstanding⟩ := Prod.mk.inj hplace
      have habsent : ∀ m ∈ members format (withoutFields s (fields.map (·.shown a))),
          m.name ≠ .ok f.name := by
        intro m hm hname
        obtain ⟨field, hfield, rfl⟩ := List.mem_map.mp hm
        obtain ⟨g, _, hg, rfl⟩ := mem_withoutFields.mp hfield
        rw [Except.ok.inj hname] at hg
        exact absurd hlacks.leftOut (Bool.eq_false_iff.mp hg)
      have hget := get_of_readNamed (h.get_fill hf) habsent hnamed
      cases hfinish : layout.finish draft with
      | error name =>
        rw [hfinish] at hread
        cases hread
      | ok a =>
        have hsome := h.need draft a hfinish f hf (Field.default_of_needed hstanding.symm)
        rw [hget, h.blank f hf] at hsome
        cases hsome
    · -- the field is there, and something is missing inside
      obtain ⟨rest, rfl, hrest⟩ := hlacks.of_behind hplace hsub
      have hkept : s [.field f.name] = false := by
        have hne : [Step.field f.name] ≠ .field f.name :: rest := by
          intro heq
          exact ne_nil_of_mem_places hrest.needed (List.cons.inj heq).2.symm
        have hprefix : [Step.field f.name] <+: .field f.name :: rest := ⟨rest, rfl⟩
        exact Bool.eq_false_iff.mpr (hlacks.reached _ hfield hprefix hne)
      have hmem := mem_withoutFields.mpr ⟨f.shown a, hshown, hkept, rfl⟩
      obtain ⟨before, after, hfill⟩ := fill_of_readNamed hnamed
        (List.mem_map_of_mem hmem) rfl (h.find?_slot hf)
      obtain ⟨x, hx, _⟩ := fill_eq_ok hfill
      exact Faithful.misses format (f.value a) hrest x hx

end Lays

/-- A record with these fields is recovered, and no needed field of it is made up. -/
theorem Faithful.of_record {δ α : Type} [Readable α] [Outlined α] {layout : Layout δ α}
    {fields : List (Field δ α)} (h : Lays layout fields)
    (houtline : ∀ a : α, outline a = recordOutline fields a)
    (hread : ∀ {D : Type} [Source D] (doc : D), (read doc : Read α) = layout.read doc) :
    Faithful α where
  recovers format a d hshows := by
    rw [houtline] at hshows
    rw [hread, h.read_shows format a hshows]
  misses format a s path hlacks b := by
    rw [houtline] at hlacks ⊢
    rw [hread]
    exact h.read_lacks format a hlacks b

end Arbiter.Document
