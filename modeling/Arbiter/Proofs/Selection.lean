import Arbiter.Proofs.Policy
import Mathlib.Data.List.Basic

/-!
Which of the candidates a policy chooses, by its place among them: the first that comes into question
or, where entries are compared, the first of those with the largest key.
-/

namespace Arbiter

/-- The entry stands at that place and is the first of its kind. -/
def IsFirst (P : Entry → Prop) (es : List Entry) (i : Nat) (e : Entry) : Prop :=
  es[i]? = some e ∧ P e ∧ ∀ a ∈ es.take i, ¬P a

/-- The entry stands at that place, no other of its kind has a larger key, and those before it have
smaller ones. -/
def IsFirstLargest (P : Entry → Prop) (key : Entry → Int64) (es : List Entry) (i : Nat)
    (e : Entry) : Prop :=
  es[i]? = some e ∧ P e ∧ (∀ a ∈ es, P a → key a ≤ key e) ∧ ∀ a ∈ es.take i, P a → key a < key e

variable {es : List Entry} {e : Entry} {i : Nat} {key : Entry → Int64} {p : Entry → Bool}
  {P : Entry → Prop}

theorem eq_take_append_drop (h : es[i]? = some e) : es = es.take i ++ e :: es.drop (i + 1) := by
  obtain ⟨hi, rfl⟩ := List.getElem?_eq_some_iff.mp h
  rw [← List.drop_eq_getElem_cons hi, List.take_append_drop]

/-- What sets an entry apart from those before it tells its place. Entries that are equal in
everything have one place, the first. -/
theorem place_iff {Q : Entry → List Entry → Prop} {found : Option Entry}
    (hfound : found = some e ↔ ∃ earlier later, es = earlier ++ e :: later ∧ Q e earlier)
    (fresh : ∀ earlier, Q e earlier → e ∉ earlier) :
    found = some e ∧ es.idxOf e = i ↔ es[i]? = some e ∧ Q e (es.take i) := by
  have hplace {earlier later : List Entry} (hQ : Q e earlier) :
      (earlier ++ e :: later).idxOf e = earlier.length := by
    rw [List.idxOf_append_of_notMem (fresh earlier hQ), List.idxOf_cons_self, Nat.add_zero]
  constructor
  · rintro ⟨hf, rfl⟩
    obtain ⟨earlier, later, rfl, hQ⟩ := hfound.mp hf
    rw [hplace hQ]
    exact ⟨by simp, by simpa using hQ⟩
  · rintro ⟨he, hQ⟩
    have hsplit := eq_take_append_drop he
    have hi : i < es.length := (List.getElem?_eq_some_iff.mp he).1
    have hidx : (es.take i ++ e :: es.drop (i + 1)).idxOf e = i := by
      rw [hplace hQ, List.length_take, Nat.min_eq_left (Nat.le_of_lt hi)]
    exact ⟨hfound.mpr ⟨_, _, hsplit, hQ⟩, by rwa [← hsplit] at hidx⟩

theorem find?_iff_isFirst (hp : ∀ e, p e ↔ P e) :
    es.find? p = some e ∧ es.idxOf e = i ↔ IsFirst P es i e := by
  refine place_iff (Q := fun e earlier => P e ∧ ∀ a ∈ earlier, ¬P a) ?_ ?_
  · simp only [List.find?_eq_some_iff_append, Bool.not_eq_eq_eq_not, Bool.not_true,
      Bool.eq_false_iff, ne_eq, hp]
    constructor
    · rintro ⟨he, earlier, later, rfl, hnone⟩
      exact ⟨earlier, later, rfl, he, hnone⟩
    · rintro ⟨earlier, later, rfl, he, hnone⟩
      exact ⟨he, earlier, later, rfl, hnone⟩
  · rintro earlier ⟨he, hnone⟩ hmem
    exact hnone e hmem he

theorem firstLargest_eq_none_iff : firstLargest key es = none ↔ es = [] := by
  cases es with
  | nil => simp [firstLargest]
  | cons a rest =>
    rw [firstLargest]
    cases firstLargest key rest with
    | none => simp
    | some best =>
      dsimp only
      split_ifs <;> simp

/-- The entry has a larger key than those before it, and none after it has a larger one. -/
def Outranks (key : Entry → Int64) (earlier : List Entry) (e : Entry) (later : List Entry) : Prop :=
  (∀ a ∈ earlier, key a < key e) ∧ ∀ a ∈ later, key a ≤ key e

theorem Outranks.le {earlier later : List Entry} (h : Outranks key earlier e later) :
    ∀ a ∈ earlier ++ e :: later, key a ≤ key e := by
  intro a ha
  rcases List.mem_append.mp ha with ha | ha
  · exact Int64.le_of_lt (h.1 a ha)
  · rcases List.mem_cons.mp ha with rfl | ha
    · exact Int64.le_refl _
    · exact h.2 a ha

theorem outranks_cons_iff {a : Entry} {rest : List Entry} :
    (∃ earlier later, a :: rest = earlier ++ e :: later ∧ Outranks key earlier e later) ↔
      (a = e ∧ ∀ b ∈ rest, key b ≤ key a) ∨ key a < key e ∧
        ∃ earlier later, rest = earlier ++ e :: later ∧ Outranks key earlier e later := by
  constructor
  · rintro ⟨earlier, later, hsplit, hearlier, hlater⟩
    cases earlier with
    | nil =>
      obtain ⟨rfl, rfl⟩ := List.cons.inj hsplit
      exact Or.inl ⟨rfl, hlater⟩
    | cons first earlier =>
      obtain ⟨rfl, rfl⟩ := List.cons.inj hsplit
      obtain ⟨hlt, hearlier⟩ := List.forall_mem_cons.mp hearlier
      exact Or.inr ⟨hlt, earlier, later, rfl, hearlier, hlater⟩
  · rintro (⟨rfl, hle⟩ | ⟨hlt, earlier, later, rfl, hearlier, hlater⟩)
    · exact ⟨[], rest, rfl, List.forall_mem_nil _, hle⟩
    · exact ⟨a :: earlier, later, rfl, List.forall_mem_cons.mpr ⟨hlt, hearlier⟩, hlater⟩

/-- The first of the largest, by induction from the end: an entry gives way to the best of those
after it only if that one is larger. -/
theorem firstLargest_eq_some_iff :
    firstLargest key es = some e ↔
      ∃ earlier later, es = earlier ++ e :: later ∧ Outranks key earlier e later := by
  induction es generalizing e with
  | nil => simp [firstLargest]
  | cons a rest ih =>
    rw [outranks_cons_iff, ← ih, firstLargest]
    cases hbest : firstLargest key rest with
    | none =>
      obtain rfl := firstLargest_eq_none_iff.mp hbest
      simp
    | some best =>
      have hmax : ∀ b ∈ rest, key b ≤ key best := by
        obtain ⟨earlier, later, rfl, houtranks⟩ := ih.mp hbest
        exact houtranks.le
      have hmem : best ∈ rest := mem_of_firstLargest hbest
      dsimp only
      split_ifs with hlt
      · simp only [Option.some.injEq]
        constructor
        · rintro rfl
          exact Or.inr ⟨hlt, rfl⟩
        · rintro (⟨-, hle⟩ | ⟨-, rfl⟩)
          · exact absurd hlt (Int64.not_lt.mpr (hle best hmem))
          · rfl
      · simp only [Option.some.injEq]
        constructor
        · rintro rfl
          exact Or.inl ⟨rfl, fun b hb => Int64.le_trans (hmax b hb) (Int64.not_lt.mp hlt)⟩
        · rintro (⟨rfl, -⟩ | ⟨hlt', rfl⟩)
          · rfl
          · exact absurd hlt' hlt

theorem filter_eq_append_cons_iff {earlier later : List Entry} :
    es.filter p = earlier ++ e :: later ↔ ∃ before after, es = before ++ e :: after ∧ p e ∧
      before.filter p = earlier ∧ after.filter p = later := by
  constructor
  · intro h
    obtain ⟨before, rest, rfl, rfl, hrest⟩ := List.filter_eq_append_iff.mp h
    obtain ⟨passed, after, rfl, hpassed, hpe, rfl⟩ := List.filter_eq_cons_iff.mp hrest
    refine ⟨before ++ passed, after, by simp, hpe, ?_, rfl⟩
    rw [List.filter_append, List.filter_eq_nil_iff.mpr hpassed, List.append_nil]
  · rintro ⟨before, after, rfl, hpe, rfl, rfl⟩
    rw [List.filter_append, List.filter_cons_of_pos hpe]

theorem firstLargest_iff_isFirstLargest (hp : ∀ e, p e ↔ P e) :
    firstLargest key (es.filter p) = some e ∧ es.idxOf e = i ↔ IsFirstLargest P key es i e := by
  refine place_iff (Q := fun e earlier => P e ∧ (∀ a ∈ es, P a → key a ≤ key e) ∧
    ∀ a ∈ earlier, P a → key a < key e) ?_ ?_
  · rw [firstLargest_eq_some_iff]
    constructor
    · rintro ⟨earlier, later, hsplit, houtranks⟩
      have hle := houtranks.le
      rw [← hsplit] at hle
      obtain ⟨before, after, rfl, hpe, rfl, rfl⟩ := filter_eq_append_cons_iff.mp hsplit
      refine ⟨before, after, rfl, (hp e).mp hpe, ?_, ?_⟩
      · exact fun a ha hPa => hle a (List.mem_filter.mpr ⟨ha, (hp a).mpr hPa⟩)
      · exact fun a ha hPa => houtranks.1 a (List.mem_filter.mpr ⟨ha, (hp a).mpr hPa⟩)
    · rintro ⟨before, after, rfl, hPe, hle, hlt⟩
      refine ⟨_, _, filter_eq_append_cons_iff.mpr ⟨before, after, rfl, (hp e).mpr hPe, rfl, rfl⟩, ?_, ?_⟩
      · intro a ha
        obtain ⟨ha, hpa⟩ := List.mem_filter.mp ha
        exact hlt a ha ((hp a).mp hpa)
      · intro a ha
        obtain ⟨ha, hpa⟩ := List.mem_filter.mp ha
        exact hle a (by simp [ha]) ((hp a).mp hpa)
  · rintro earlier ⟨hPe, -, hlt⟩ hmem
    exact Int64.lt_irrefl (hlt e hmem hPe)

namespace Policy

/-- Whether the policy may choose the entry at all. -/
def Eligible : Policy → Entry → Prop
  | highestPriority mustSupportOnChange, e => mustSupportOnChange → e.qos.supportsOnChange
  | lastSeen, _ => True
  | keyword text, e => ∃ p ∈ e.qos.customParameters, p.name = "keyword" ∧ p.value = text
  | fixedParticipant id, e => e.participant = id

/-- The entry at that place is the one to choose. -/
def Chooses (policy : Policy) : List Entry → Nat → Entry → Prop :=
  match policy with
  | highestPriority _ => IsFirstLargest policy.Eligible (·.qos.priority)
  | lastSeen => IsFirstLargest policy.Eligible (·.lastSeen)
  | keyword _ | fixedParticipant _ => IsFirst policy.Eligible

theorem hasKeyword_iff {text : String} : hasKeyword text e ↔ (keyword text).Eligible e := by
  simp [hasKeyword, Eligible, keywordParameter]

theorem supports_iff {must : Bool} :
    (!must || e.qos.supportsOnChange) = true ↔ (highestPriority must).Eligible e := by
  cases must <;> simp [Eligible]

theorem select_eq_none_iff {policy : Policy} :
    policy.select es = none ↔ ∀ e ∈ es, ¬policy.Eligible e := by
  cases policy with
  | highestPriority must =>
    rw [select, firstLargest_eq_none_iff, List.filter_eq_nil_iff]
    simp only [supports_iff]
  | lastSeen =>
    rw [select, firstLargest_eq_none_iff, List.eq_nil_iff_forall_not_mem]
    simp only [Eligible, not_true_eq_false, imp_false]
  | keyword text =>
    rw [select, List.find?_eq_none]
    simp only [hasKeyword_iff]
  | fixedParticipant id =>
    rw [select, List.find?_eq_none]
    simp only [Eligible, beq_iff_eq]

/-- A policy selects the entry that it is to choose, at the place that it is to choose, and none
just if no candidate is eligible. -/
theorem select_iff_chooses (policy : Policy) (es : List Entry) :
    (∀ i e, policy.select es = some e ∧ es.idxOf e = i ↔ policy.Chooses es i e) ∧
    (policy.select es = none ↔ ∀ e ∈ es, ¬policy.Eligible e) := by
  refine ⟨fun i e => ?_, select_eq_none_iff⟩
  cases policy with
  | highestPriority must => exact firstLargest_iff_isFirstLargest fun _ => supports_iff
  | lastSeen =>
    have hall : ∀ a, (fun _ => true) a = true ↔ lastSeen.Eligible a := fun _ => by simp [Eligible]
    have hiff : firstLargest (·.lastSeen) (es.filter fun _ => true) = some e ∧ es.idxOf e = i ↔
        IsFirstLargest lastSeen.Eligible (·.lastSeen) es i e := firstLargest_iff_isFirstLargest hall
    rwa [List.filter_true] at hiff
  | keyword text => exact find?_iff_isFirst fun _ => hasKeyword_iff
  | fixedParticipant id => exact find?_iff_isFirst fun _ => beq_iff_eq

end Policy

end Arbiter
