import Arbiter.Json.Source
import Arbiter.Proofs.Json.Leaf

/-!
What is written without blanks is read back as it was written: the text of a datum is the text of
exactly one JSON value, and the reader finds it, whatever ends the text.
-/

namespace Arbiter.Json

open Document

mutual

/-- What the reader makes of a written datum. -/
def ofDatum : Datum → Json
  | .null => .null
  | .flag b => .flag b
  | .integer n => .number (Numeral.ofInt n)
  | .text s => .text s
  | .list ds => .list (ofItems ds) true
  | .record fs => .record (ofFields fs) true
termination_by structural d => d

def ofItems : List Datum → List Json
  | [] => []
  | d :: ds => ofDatum d :: ofItems ds
termination_by structural ds => ds

def ofFields : List (String × Datum) → List (Json × Json)
  | [] => []
  | (name, d) :: fs => (.text name, ofDatum d) :: ofFields fs
termination_by structural fs => fs

end

theorem ofItems_eq (ds : List Datum) : ofItems ds = ds.map ofDatum := by
  induction ds with
  | nil => rfl
  | cons d ds ih => rw [ofItems, ih, List.map_cons]

theorem ofFields_eq (fs : List (String × Datum)) :
    ofFields fs = fs.map fun f => (.text f.1, ofDatum f.2) := by
  induction fs with
  | nil => rfl
  | cons f fs ih => rw [ofFields, ih, List.map_cons]

/-- The first character of a written value is no blank and closes nothing. -/
def isOpening (c : Char) : Bool :=
  !isBlank c && c ≠ ']' && c ≠ '\x7d'

/-- The first character of a written whole number. -/
def startsNumber (c : Char) : Bool :=
  c = '-' || Text.isDigit c

theorem ne_of_startsNumber {c d : Char} (h : startsNumber c) (hd : startsNumber d = false) :
    c ≠ d := by
  rintro rfl
  exact absurd h (Bool.eq_false_iff.mp hd)

theorem isOpening_of_startsNumber {c : Char} (h : startsNumber c) : isOpening c := by
  have hne : ∀ d, startsNumber d = false → c ≠ d := fun _ => ne_of_startsNumber h
  simp [isOpening, isBlank, hne ' ' rfl, hne '\n' rfl, hne '\t' rfl, hne '\r' rfl, hne ']' rfl,
    hne '\x7d' rfl]

theorem intChars_eq_cons (n : Int) : ∃ c cs, intChars n = c :: cs ∧ startsNumber c := by
  by_cases h : n < 0
  · exact ⟨'-', _, intChars_of_neg h, by decide⟩
  · obtain ⟨c, cs, hcs, hc⟩ := Text.natDigits_eq_cons n.natAbs
    refine ⟨c, cs, by rw [intChars_of_nonneg (Int.not_lt.mp h), hcs], ?_⟩
    rw [startsNumber, hc, Bool.or_true]

theorem compact_eq_cons (d : Datum) : ∃ c cs, compact d = c :: cs ∧ isOpening c := by
  cases d with
  | null => exact ⟨'n', _, rfl, by decide⟩
  | flag b => cases b with
    | false => exact ⟨'f', _, rfl, by decide⟩
    | true => exact ⟨'t', _, rfl, by decide⟩
  | integer n =>
    obtain ⟨c, cs, hcs, hc⟩ := intChars_eq_cons n
    exact ⟨c, cs, hcs, isOpening_of_startsNumber hc⟩
  | text s => exact ⟨'"', _, rfl, by decide⟩
  | list ds => exact ⟨'[', _, rfl, by decide⟩
  | record fs => exact ⟨'\x7b', _, rfl, by decide⟩

theorem skipBlank_opening {c : Char} (h : isOpening c) (cs : List Char) :
    skipBlank (c :: cs) = c :: cs := by
  have hblank : isBlank c = false := by
    simp only [isOpening, Bool.and_eq_true, Bool.not_eq_true'] at h
    exact h.1.1
  rw [skipBlank, List.dropWhile_cons_of_neg (by rw [hblank]; decide)]

theorem skipBlank_compact (d : Datum) (rest : List Char) :
    skipBlank (compact d ++ rest) = compact d ++ rest := by
  obtain ⟨c, cs, hcs, hc⟩ := compact_eq_cons d
  rw [hcs, List.cons_append, skipBlank_opening hc]

/-- A value that is no list or record is read without looking at the fuel. -/
theorem value_leaf {c : Char} (h : isOpening c) (hlist : c ≠ '[') (hrecord : c ≠ '\x7b') (fuel : Nat)
    (cs : List Char) : value (fuel + 1) (c :: cs) = leaf (c :: cs) := by
  rw [value, skipBlank_opening h]
  split
  · next heq => exact absurd (List.cons.inj heq).1 hlist
  · next heq => exact absurd (List.cons.inj heq).1 hrecord
  · rfl

theorem leaf_intChars (n : Int) {rest : List Char} (hrest : Delimited rest) :
    leaf (intChars n ++ rest) = (.number (Numeral.ofInt n), some rest) := by
  obtain ⟨c, cs, hcs, hc⟩ := intChars_eq_cons n
  have hne : ∀ d, startsNumber d = false → c ≠ d := fun _ => ne_of_startsNumber hc
  have hnumeral := numeral?_intChars n hrest
  rw [hcs, List.cons_append] at hnumeral ⊢
  unfold leaf
  split
  · next heq => exact absurd (List.cons.inj heq).1 (hne 'n' rfl)
  · next heq => exact absurd (List.cons.inj heq).1 (hne 't' rfl)
  · next heq => exact absurd (List.cons.inj heq).1 (hne 'f' rfl)
  · next heq => exact absurd (List.cons.inj heq).1 (hne '"' rfl)
  · rw [hnumeral]

theorem value_intChars (n : Int) (fuel : Nat) {rest : List Char} (hrest : Delimited rest) :
    value (fuel + 1) (intChars n ++ rest) = (.number (Numeral.ofInt n), some rest) := by
  have hleaf := leaf_intChars n hrest
  obtain ⟨c, cs, hcs, hc⟩ := intChars_eq_cons n
  rw [hcs, List.cons_append] at hleaf ⊢
  rw [value_leaf (isOpening_of_startsNumber hc) (ne_of_startsNumber hc rfl)
    (ne_of_startsNumber hc rfl), hleaf]

theorem value_quote (s : String) (fuel : Nat) (rest : List Char) :
    value (fuel + 1) (quote s ++ rest) = (.text s, some rest) := by
  have hleaf := leaf_quote s rest
  rw [quote, List.cons_append, List.cons_append] at hleaf ⊢
  rw [value_leaf (by decide) (by decide) (by decide), hleaf]

section Steps

variable {fuel : Nat} {first : Bool} {cs : List Char}

/-- An item that is followed by another one. -/
theorem items_more {d : Datum} {v : Json}
    (h : value fuel (compact d ++ ',' :: cs) = (v, some (',' :: cs))) :
    items (fuel + 1) first (compact d ++ ',' :: cs) =
      let (vs, closed, rest) := items fuel false cs
      (v :: vs, closed, rest) := by
  have hcomma : skipBlank (',' :: cs) = ',' :: cs := rfl
  obtain ⟨c, ds, hcs, hc⟩ := compact_eq_cons d
  rw [items, skipBlank_compact]
  split
  · next heq =>
    rw [hcs, List.cons_append] at heq
    rw [(List.cons.inj heq).1] at hc
    exact absurd hc (by decide)
  · rw [h]
    simp only [hcomma]

/-- The last item. -/
theorem items_last {d : Datum} {v : Json}
    (h : value fuel (compact d ++ ']' :: cs) = (v, some (']' :: cs))) :
    items (fuel + 1) first (compact d ++ ']' :: cs) = ([v], true, some cs) := by
  have hbracket : skipBlank (']' :: cs) = ']' :: cs := rfl
  obtain ⟨c, ds, hcs, hc⟩ := compact_eq_cons d
  rw [items, skipBlank_compact]
  split
  · next heq =>
    rw [hcs, List.cons_append] at heq
    rw [(List.cons.inj heq).1] at hc
    exact absurd hc (by decide)
  · rw [h]
    simp only [hbracket]

/-- A member that is followed by another one. -/
theorem members_more {name : String} {d : Datum} {v : Json}
    (h : value (fuel + 1) (compact d ++ ',' :: cs) = (v, some (',' :: cs))) :
    members (fuel + 2) first (quote name ++ ':' :: (compact d ++ ',' :: cs)) =
      let (ms, closed, rest) := members (fuel + 1) false cs
      ((.text name, v) :: ms, closed, rest) := by
  have hcomma : skipBlank (',' :: cs) = ',' :: cs := rfl
  have hcolon : ∀ cs, skipBlank (':' :: cs) = ':' :: cs := fun _ => rfl
  have hquote : ∀ cs, skipBlank (quote name ++ cs) = quote name ++ cs := fun _ => rfl
  rw [members, hquote]
  split
  · next heq => exact absurd (List.cons.inj heq).1 (by decide)
  · rw [value_quote]
    simp only [hcolon, h, hcomma]

/-- The last member. -/
theorem members_last {name : String} {d : Datum} {v : Json}
    (h : value (fuel + 1) (compact d ++ '\x7d' :: cs) = (v, some ('\x7d' :: cs))) :
    members (fuel + 2) first (quote name ++ ':' :: (compact d ++ '\x7d' :: cs)) =
      ([(.text name, v)], true, some cs) := by
  have hbrace : skipBlank ('\x7d' :: cs) = '\x7d' :: cs := rfl
  have hcolon : ∀ cs, skipBlank (':' :: cs) = ':' :: cs := fun _ => rfl
  have hquote : ∀ cs, skipBlank (quote name ++ cs) = quote name ++ cs := fun _ => rfl
  rw [members, hquote]
  split
  · next heq => exact absurd (List.cons.inj heq).1 (by decide)
  · rw [value_quote]
    simp only [hcolon, h, hbrace]

end Steps

/-- With this much fuel, what has no more characters than that is read back. -/
structure ReadsBack (fuel : Nat) : Prop where
  value : ∀ d rest, (compact d).length ≤ fuel → Delimited rest →
    Json.value fuel (compact d ++ rest) = (ofDatum d, some rest)
  items : ∀ d ds first rest, (commas (compactItems (d :: ds))).length < fuel →
    Json.items fuel first (commas (compactItems (d :: ds)) ++ ']' :: rest) =
      (ofItems (d :: ds), true, some rest)
  members : ∀ f fs first rest, (commas (compactFields (f :: fs))).length < fuel →
    Json.members fuel first (commas (compactFields (f :: fs)) ++ '\x7d' :: rest) =
      (ofFields (f :: fs), true, some rest)

theorem length_compact_pos (d : Datum) : 0 < (compact d).length := by
  obtain ⟨c, cs, hcs, _⟩ := compact_eq_cons d
  rw [hcs]
  exact Nat.succ_pos _

namespace ReadsBack

variable {fuel : Nat}

theorem value_succ (h : ReadsBack fuel) (d : Datum) (rest : List Char)
    (hfuel : (compact d).length ≤ fuel + 1) (hrest : Delimited rest) :
    Json.value (fuel + 1) (compact d ++ rest) = (ofDatum d, some rest) := by
  cases d with
  | null => rfl
  | flag b => cases b <;> rfl
  | integer n => exact value_intChars n fuel hrest
  | text s => exact value_quote s fuel rest
  | list ds =>
    rw [compact, List.length_append, List.length_cons, List.length_singleton] at hfuel
    cases ds with
    | nil =>
      -- The bracket that opens takes one step and the one that closes another.
      obtain ⟨fuel, rfl⟩ : ∃ n, fuel = n + 1 := ⟨fuel - 1, by omega⟩
      rfl
    | cons d ds =>
      have hitems := h.items d ds true rest (by omega)
      have hopen : skipBlank (compact (.list (d :: ds)) ++ rest) =
          '[' :: (commas (compactItems (d :: ds)) ++ ']' :: rest) := by
        rw [skipBlank_compact, compact, List.cons_append, List.cons_append, List.append_assoc]
        rfl
      rw [Json.value, hopen]
      simp only [hitems, ofDatum]
  | record fs =>
    rw [compact, List.length_append, List.length_cons, List.length_singleton] at hfuel
    cases fs with
    | nil =>
      obtain ⟨fuel, rfl⟩ : ∃ n, fuel = n + 1 := ⟨fuel - 1, by omega⟩
      rfl
    | cons f fs =>
      have hmembers := h.members f fs true rest (by omega)
      have hopen : skipBlank (compact (.record (f :: fs)) ++ rest) =
          '\x7b' :: (commas (compactFields (f :: fs)) ++ '\x7d' :: rest) := by
        rw [skipBlank_compact, compact, List.cons_append, List.cons_append, List.append_assoc]
        rfl
      rw [Json.value, hopen]
      simp only [hmembers, ofDatum]

theorem items_succ (h : ReadsBack fuel) (d : Datum) (ds : List Datum) (first : Bool)
    (rest : List Char) (hfuel : (commas (compactItems (d :: ds))).length < fuel + 1) :
    Json.items (fuel + 1) first (commas (compactItems (d :: ds)) ++ ']' :: rest) =
      (ofItems (d :: ds), true, some rest) := by
  cases ds with
  | nil =>
    have hle : (compact d).length ≤ fuel := Nat.le_of_lt_succ hfuel
    exact items_last (h.value d _ hle (delimited_cons (by decide) rest))
  | cons d' ds =>
    have hsplit : commas (compactItems (d :: d' :: ds)) =
        compact d ++ ',' :: commas (compactItems (d' :: ds)) := rfl
    rw [hsplit, List.length_append, List.length_cons] at hfuel
    have hd := h.value d (',' :: (commas (compactItems (d' :: ds)) ++ ']' :: rest)) (by omega)
      (delimited_cons (by decide) _)
    have hds := h.items d' ds false rest (by omega)
    rw [hsplit, List.append_assoc, List.cons_append, items_more hd, hds]
    rfl

theorem members_succ (h : ReadsBack fuel) (f : String × Datum) (fs : List (String × Datum))
    (first : Bool) (rest : List Char)
    (hfuel : (commas (compactFields (f :: fs))).length < fuel + 1) :
    Json.members (fuel + 1) first (commas (compactFields (f :: fs)) ++ '\x7d' :: rest) =
      (ofFields (f :: fs), true, some rest) := by
  obtain ⟨name, d⟩ := f
  cases fs with
  | nil =>
    have hsplit : commas (compactFields [(name, d)]) = quote name ++ ':' :: compact d := rfl
    rw [hsplit, List.length_append, List.length_cons] at hfuel
    obtain ⟨fuel, rfl⟩ : ∃ n, fuel = n + 1 := ⟨fuel - 1, by omega⟩
    have hd := h.value d ('\x7d' :: rest) (by omega) (delimited_cons (by decide) rest)
    rw [hsplit, List.append_assoc, List.cons_append, members_last hd]
    rfl
  | cons f fs =>
    have hsplit : commas (compactFields ((name, d) :: f :: fs)) =
        quote name ++ ':' :: (compact d ++ ',' :: commas (compactFields (f :: fs))) := by
      simp only [compactFields, commas, List.append_assoc, List.cons_append]
    rw [hsplit, List.length_append, List.length_cons, List.length_append, List.length_cons] at hfuel
    obtain ⟨fuel, rfl⟩ : ∃ n, fuel = n + 1 := ⟨fuel - 1, by omega⟩
    have hd := h.value d (',' :: (commas (compactFields (f :: fs)) ++ '\x7d' :: rest)) (by omega)
      (delimited_cons (by decide) _)
    have hfs := h.members f fs false rest (by omega)
    rw [hsplit, List.append_assoc, List.cons_append, List.append_assoc, List.cons_append,
      members_more hd, hfs]
    rfl

end ReadsBack

theorem readsBack (fuel : Nat) : ReadsBack fuel := by
  induction fuel with
  | zero =>
    exact {
      value := fun d _ hfuel => absurd (length_compact_pos d) (Nat.not_lt.mpr hfuel)
      items := fun _ _ _ _ hfuel => absurd hfuel (Nat.not_lt_zero _)
      members := fun _ _ _ _ hfuel => absurd hfuel (Nat.not_lt_zero _) }
  | succ fuel ih => exact ⟨ih.value_succ, ih.items_succ, ih.members_succ⟩

theorem ofText_render (d : Datum) : ofText (render d) = (ofDatum d, true) := by
  have hfuel : (compact d).length ≤ 2 * (compact d).length + 2 := by omega
  have hvalue := (readsBack _).value d [] hfuel delimited_nil
  rw [List.append_nil] at hvalue
  simp only [ofText, render, String.toList_ofList, hvalue]
  rfl

/-- A written datum is read as the value that it is, whatever type it is read as. -/
theorem decode_render {α : Type} [Readable α] (d : Datum) :
    (decode (render d) : Read α) = read (ofDatum d) := by
  rw [decode, ofText_render]
  cases hread : (read (ofDatum d) : Read α) <;> simp only [hread] <;> rfl

end Arbiter.Json
