import Arbiter.Proofs.Document.Outline
import Mathlib.Algebra.Group.Int.Defs

/-!
Types whose values are recovered from what is written for them, in every format that shows what was
written, and whose values are not made up where a field is missing that has to be there.
-/

namespace Arbiter.Document

open Outline

theorem mapError_ok {α : Type} (f : Fault → Fault) (a : α) :
    (Except.ok a : Read α).mapError f = .ok a :=
  rfl

theorem mapError_error {α : Type} (f : Fault → Fault) (fault : Fault) :
    (Except.error fault : Read α).mapError f = .error (f fault) :=
  rfl

/-- How a format shows what was written: each datum by a document that reads as that datum. -/
structure Rendition (D : Type) [Source D] where
  ofDatum : Datum → D
  integer : ∀ (range : IntegerRange) (n : Int), -2 ^ 63 ≤ n → n < 2 ^ 63 →
    Source.integer range (ofDatum (.integer n)) = range.check n
  text : ∀ s, Source.text (ofDatum (.text s)) = .ok s
  flag : ∀ b, Source.flag (ofDatum (.flag b)) = .ok b
  word : ∀ allowed s, s ∈ allowed → Source.word allowed (ofDatum (.text s)) = .ok s
  null_isAbsent : Source.isAbsent (ofDatum .null) = .ok true
  list_isAbsent : ∀ ds, Source.isAbsent (ofDatum (.list ds)) = .ok false
  list : ∀ ds, Source.list (ofDatum (.list ds)) = .ok ⟨ds.map ofDatum, true⟩
  fields : ∀ title fs, Source.fields title (ofDatum (.record fs)) =
    .ok (.named ⟨fs.map fun f => ⟨.ok f.1, .field f.1, ofDatum f.2⟩, true⟩)

class Faithful (α : Type) [Readable α] [Outlined α] : Prop where
  recovers {D : Type} [Source D] (format : Rendition D) (a : α) {d : Datum}
    (h : (outline a).Shows d) : (read (format.ofDatum d) : Read α) = .ok a
  misses {D : Type} [Source D] (format : Rendition D) (a : α) {s : FieldSet} {path : List Step}
    (h : LacksAt s (outline a).places path) (b : α) :
    (read (format.ofDatum ((outline a).without s)) : Read α) ≠ .ok b

/-- Whatever is not written of a value is a field that holds its default. -/
class Spares (α : Type) [Writable α] [Outlined α] : Prop where
  shows (a : α) : (outline a).Shows (write a)

/-- A value without fields has none that could be missing. -/
theorem Faithful.of_plain {α : Type} [Readable α] [Outlined α] (write : α → Datum)
    (hplain : ∀ a : α, outline a = .plain (write a))
    (hread : ∀ {D : Type} [Source D] (format : Rendition D) (a : α),
      (read (format.ofDatum (write a)) : Read α) = .ok a) : Faithful α where
  recovers format a d h := by
    rw [hplain] at h
    cases h
    exact hread format a
  misses format a s path h := by
    have hneeded := h.needed
    rw [hplain] at hneeded
    exact absurd hneeded List.not_mem_nil

section Plain

instance : Outlined Int32 := ⟨fun n => .plain (write n)⟩
instance : Outlined Int64 := ⟨fun n => .plain (write n)⟩
instance : Outlined String := ⟨fun s => .plain (write s)⟩
instance : Outlined Bool := ⟨fun b => .plain (write b)⟩

theorem IntegerRange.check_of_mem {range : IntegerRange} {n : Int} (hmin : range.min ≤ n)
    (hmax : n ≤ range.max) : range.check n = .ok n :=
  if_pos ⟨hmin, hmax⟩

instance : Faithful Int32 := Faithful.of_plain write (fun _ => rfl) fun format n => by
  have hmin : -2 ^ 31 ≤ n.toInt := n.le_toInt
  have hmax : n.toInt < 2 ^ 31 := n.toInt_lt
  have hcheck : IntegerRange.int32.check n.toInt = .ok n.toInt :=
    IntegerRange.check_of_mem n.minValue_le_toInt n.toInt_le
  have hread := format.integer .int32 n.toInt (by omega) (by omega)
  change (Source.integer .int32 (format.ofDatum (.integer n.toInt))).map Int32.ofInt = _
  rw [hread, hcheck, Except.map, Int32.ofInt_toInt]

instance : Faithful Int64 := Faithful.of_plain write (fun _ => rfl) fun format n => by
  have hcheck : IntegerRange.int64.check n.toInt = .ok n.toInt :=
    IntegerRange.check_of_mem n.minValue_le_toInt n.toInt_le
  have hread := format.integer .int64 n.toInt n.le_toInt n.toInt_lt
  change (Source.integer .int64 (format.ofDatum (.integer n.toInt))).map Int64.ofInt = _
  rw [hread, hcheck, Except.map, Int64.ofInt_toInt]

instance : Spares Int32 := ⟨fun n => .plain (write n)⟩
instance : Spares Int64 := ⟨fun n => .plain (write n)⟩
instance : Spares String := ⟨fun s => .plain (write s)⟩
instance : Spares Bool := ⟨fun b => .plain (write b)⟩

instance : Faithful String := Faithful.of_plain write (fun _ => rfl) fun format s => format.text s
instance : Faithful Bool := Faithful.of_plain write (fun _ => rfl) fun format b => format.flag b

end Plain

section Lists

variable {α D : Type} [Source D]

instance [Outlined α] : Outlined (List α) := ⟨fun as => .list (as.map outline)⟩

variable [Readable α]

theorem readItems_shows [Outlined α] [Faithful α] (format : Rendition D) {as : List α} {ds : List Datum}
    (h : ShowsItems (as.map outline) ds) (i : Nat) :
    readItems i (ds.map format.ofDatum) = .ok as := by
  induction as generalizing ds i with
  | nil =>
    cases h
    rfl
  | cons a as ih =>
    cases h with
    | cons h hs =>
      rw [List.map_cons, readItems, Faithful.recovers format a h, ih hs]
      rfl

/-- Items are read one by one, so all of them are read if the list is. -/
theorem read_of_readItems {i : Nat} {docs : List D} {as : List α} (h : readItems i docs = .ok as)
    {doc : D} (hmem : doc ∈ docs) : ∃ a : α, read doc = .ok a := by
  induction docs generalizing i as with
  | nil => exact absurd hmem List.not_mem_nil
  | cons doc' docs ih =>
    rw [readItems] at h
    cases hread : (read doc' : Read α) with
    | error fault =>
      rw [hread] at h
      exact absurd h (by simp [mapError_error, bind, Except.bind])
    | ok a =>
      rw [hread] at h
      cases hrest : (readItems (i + 1) docs : Read (List α)) with
      | error fault =>
        rw [hrest] at h
        exact absurd h (by simp [mapError_ok, bind, Except.bind])
      | ok rest =>
        rcases List.mem_cons.mp hmem with rfl | hmem
        · exact ⟨a, hread⟩
        · exact ih hrest hmem

theorem read_list (format : Rendition D) (ds : List Datum) :
    (read (format.ofDatum (.list ds)) : Read (List α)) = readItems 0 (ds.map format.ofDatum) := by
  change (do
    let run ← Source.list (format.ofDatum (.list ds))
    run.finish (← readItems 0 run.items)) = _
  rw [format.list]
  cases h : (readItems 0 (ds.map format.ofDatum) : Read (List α)) <;>
    simp only [bind, Except.bind, h, Run.finish, if_true]

instance [Outlined α] [Faithful α] : Faithful (List α) where
  recovers format as d h := by
    cases h with
    | list h => rw [read_list, readItems_shows format h]
  misses format as s path h bs hread := by
    obtain ⟨k, o, ho, hplace, hsub, hwithout⟩ := exists_of_mem_placesItems s h.needed
    obtain ⟨a, -, rfl⟩ := List.mem_map.mp ho
    obtain ⟨rest, -, hrest⟩ := h.of_behind hplace hsub
    change (read (format.ofDatum (.list (withoutItems s 0 (as.map outline)))) : Read (List α)) = _
      at hread
    rw [read_list] at hread
    obtain ⟨b, hb⟩ := read_of_readItems hread (List.mem_map_of_mem hwithout)
    exact Faithful.misses format a hrest b hb

instance [Outlined α] [Writable α] [Spares α] : Spares (List α) where
  shows as := by
    refine .list ?_
    induction as with
    | nil => exact .nil
    | cons a as ih => exact .cons (Spares.shows a) ih

/-- A list may be absent altogether, which is not the same as an empty one. -/
instance [Outlined α] : Outlined (Option (List α)) where
  outline
    | none => .plain .null
    | some as => outline as

theorem read_option {doc : D} (h : Source.isAbsent doc = .ok false) :
    (read doc : Read (Option (List α))) = (read doc).map some := by
  change (do
    if ← Source.isAbsent doc then return none
    return some (← read doc)) = _
  rw [h]
  cases hread : (read doc : Read (List α)) <;> simp [bind, Except.bind, pure, Except.pure, Except.map]

instance [Outlined α] [Faithful α] : Faithful (Option (List α)) where
  recovers format as d h := by
    cases as with
    | none =>
      cases h
      change (do
        if ← Source.isAbsent (format.ofDatum .null) then return none
        return some (← read (format.ofDatum .null))) = _
      rw [format.null_isAbsent]
      rfl
    | some as =>
      have hread := Faithful.recovers format as h
      cases h with
      | list _ =>
        rw [read_option (format.list_isAbsent _), hread]
        rfl
  misses format as s path h bs hread := by
    cases as with
    | none => exact absurd h.needed List.not_mem_nil
    | some as =>
      change (read (format.ofDatum (.list (withoutItems s 0 (as.map outline)))) :
        Read (Option (List α))) = _ at hread
      rw [read_option (format.list_isAbsent _)] at hread
      cases hlist : (read (format.ofDatum ((outline as).without s)) : Read (List α)) with
      | error fault =>
        change (read (format.ofDatum (.list (withoutItems s 0 (as.map outline)))) : Read (List α)) =
          _ at hlist
        rw [hlist] at hread
        exact absurd hread (by simp [Except.map])
      | ok cs => exact Faithful.misses format as h cs hlist

end Lists

end Arbiter.Document
