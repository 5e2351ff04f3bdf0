import Arbiter.Proofs.Yaml.Scalar
import Arbiter.Yaml.Token
import Mathlib.Logic.Relation

/-!
How the scanner goes on from one token to the next outside of flow collections: what it passes in
between, which collections end there, and where it stands when the next token begins.
-/

namespace Arbiter.Yaml.Scan

variable {s t n : Scan} {c : Char} {cs rest text : List Char} {column : Nat}
  {inner indents : List Nat} {keyAllowed : Bool} {ts : List Token}

section Gap

variable {place : Cursor}

theorem gapFrom_opening {inFlow : Bool} (opening : isOpening c) :
    gapFrom inFlow keyAllowed false place (c :: cs) =
      ({ place with rest := c :: cs }, keyAllowed) := by
  obtain ⟨hblank, hbreak, hcomment⟩ := isOpening_iff.mp opening
  have hspace := ne_space_of_isOpening opening
  have htab : c ≠ '\t' := by
    rintro rfl
    exact absurd hblank (by decide)
  rw [gapFrom]
  · simp [hbreak, hspace, htab, hcomment]
  · rintro _ rfl
    exact absurd hbreak (by decide)

theorem gapFrom_space : gapFrom false keyAllowed false place (' ' :: cs) =
    gapFrom false keyAllowed false (place.forward cs) cs := by
  rw [gapFrom]
  · simp [isBreak]
  · simp

theorem gapFrom_margin (m : Nat) (opening : isOpening c) :
    gapFrom false keyAllowed false place (List.replicate m ' ' ++ c :: cs) =
      ({ place with rest := c :: cs, index := place.index + m, column := place.column + m },
        keyAllowed) := by
  induction m generalizing place with
  | zero => exact gapFrom_opening opening
  | succ m ih =>
    rw [List.replicate_succ, List.cons_append, gapFrom_space, ih]
    simp [Cursor.forward, Nat.add_assoc, Nat.add_comm 1]

/-- Behind a break, a key is allowed. -/
theorem gapFrom_break {limit : Option Nat} (h : StartsLine limit text) :
    gapFrom false keyAllowed false place ('\n' :: text) =
      ({ rest := body text, index := place.index + 1 + margin text, line := place.line + 1
         column := margin text }, true) := by
  rw [gapFrom]
  · simp only [isBreak, decide_true, Bool.true_or, if_true, Bool.not_false, Bool.or_true]
    cases h with
    | nothing => simp [gapFrom, Cursor.nextLine, body, margin]
    | line opening =>
      have hspace := ne_space_of_isOpening opening
      rw [gapFrom_margin _ opening, margin_line hspace, body_line hspace]
      simp [Cursor.nextLine]
  · simp

end Gap

/-- The scanner stands there, outside of flow collections and with no candidate for a key. -/
structure Stands (rest : List Char) (column : Nat) (indents : List Nat) (keyAllowed : Bool)
    (ts : List Token) (s : Scan) : Prop where
  rest : s.cursor.rest = rest
  column : s.cursor.column = column
  indents : s.indents = indents
  candidates : s.candidates = [none]
  keyAllowed : s.keyAllowed = keyAllowed
  tokens : s.tokens = ts

theorem dropStale_of_loose (h : ∀ oc ∈ s.candidates, ∀ c ∈ oc, c.required = false) :
    s.dropStale = some { s with
      candidates := s.candidates.map (·.filter fun c => !s.isStale c) } := by
  rw [dropStale, if_neg]
  rw [Bool.not_eq_true, List.any_eq_false]
  intro oc hoc
  cases oc with
  | none => simp
  | some c => simp [h _ hoc c rfl]

theorem dropStale_of_none (h : s.candidates = [none]) : s.dropStale = some s := by
  have hkept : s.candidates.map (·.filter fun c => !s.isStale c) = s.candidates := by
    rw [h]
    rfl
  rw [dropStale_of_loose (by simp [h]), hkept]

theorem dropStale_single {candidate : Option Candidate} (h : s.candidates = [candidate])
    (loose : ∀ c ∈ candidate, c.required = false) : s.dropStale = some { s with
      candidates := [candidate.filter fun c => !s.isStale c] } := by
  rw [dropStale_of_loose (by simpa [h] using loose), h]
  rfl

theorem Stands.inFlow (h : Stands rest column indents keyAllowed ts s) : s.inFlow = false := by
  rw [Scan.inFlow, h.candidates]
  rfl

/-- Collections end that are deeper than the column. -/
theorem closeTo_some (inFlow : s.inFlow = false) (hindents : s.indents = inner ++ indents)
    (hinner : ∀ i ∈ inner, column < i) (houter : ∀ i ∈ indents, i ≤ column) :
    s.closeTo (some column) = { s with
      indents, tokens := inner.map (fun _ => .blockEnd) ++ s.tokens } := by
  have hkept : indents.takeWhile (column < ·) = [] := by
    cases indents with
    | nil => rfl
    | cons i outer =>
      exact List.takeWhile_cons_of_neg (by simpa using houter i List.mem_cons_self)
  have hclosed : s.indents.takeWhile (column < ·) = inner := by
    rw [hindents, List.takeWhile_append_of_pos (by simpa using hinner), hkept, List.append_nil]
  have hall : (fun i : Nat => (some column).all (· < i)) = (column < ·) := rfl
  have hdrop : s.indents.drop inner.length = indents := by rw [hindents, List.drop_left]
  rw [closeTo, inFlow, hall, hclosed]
  simp only [Bool.false_eq_true, if_false, hdrop]

/-- The scanner is behind the margin of a line, or at the end. A candidate on a line above is none
any more. -/
structure Passed (text : List Char) (indents : List Nat) (ts : List Token) (s : Scan) : Prop where
  rest : s.cursor.rest = body text
  column : s.cursor.column = margin text
  indents : s.indents = indents
  candidates : ∃ candidate, s.candidates = [candidate] ∧
    ∀ c ∈ candidate, c.required = false ∧ c.line < s.cursor.line
  keyAllowed : s.keyAllowed = true
  tokens : s.tokens = ts

/-- Nothing is left of a line but its break, or that was passed as well. -/
inductive Rests (text : List Char) (indents : List Nat) (ts : List Token) (s : Scan) : Prop where
  | ended {candidate : Option Candidate} (rest : s.cursor.rest = '\n' :: text)
      (candidates : s.candidates = [candidate])
      (loose : ∀ c ∈ candidate, c.required = false ∧ c.line ≤ s.cursor.line)
      (indents : s.indents = indents) (tokens : s.tokens = ts)
  | passed (h : Passed text indents ts s)

theorem inFlow_of_singleton {candidate : Option Candidate} (h : s.candidates = [candidate]) :
    s.inFlow = false := by
  rw [inFlow, h]
  rfl

theorem skipGap_of_opening (hrest : s.cursor.rest = c :: cs) (opening : isOpening c) :
    s.skipGap = s := by
  have hplace : { s.cursor with rest := c :: cs } = s.cursor := by rw [← hrest]
  rw [skipGap, hrest, gapFrom_opening opening, hplace]

theorem skipGap_of_body {limit : Option Nat} (h : StartsLine limit text)
    (hrest : s.cursor.rest = body text) : s.skipGap = s := by
  cases h with
  | nothing =>
    have hrest : s.cursor.rest = [] := hrest
    have hplace : { s.cursor with rest := [] } = s.cursor := by rw [← hrest]
    rw [skipGap, hrest, gapFrom, hplace]
  | line opening =>
    exact skipGap_of_opening (hrest.trans (body_line (ne_space_of_isOpening opening))) opening

theorem Rests.skipGap {limit : Option Nat} (h : Rests text indents ts s)
    (htext : StartsLine limit text) : Passed text indents ts s.skipGap := by
  cases h with
  | ended rest candidates loose hindents tokens =>
    have hskip : s.skipGap = { s with
        cursor := { rest := body text, index := s.cursor.index + 1 + margin text
                    line := s.cursor.line + 1, column := margin text }
        keyAllowed := true } := by
      rw [Scan.skipGap, inFlow_of_singleton candidates, rest, gapFrom_break htext]
    rw [hskip]
    exact ⟨rfl, rfl, hindents, ⟨_, candidates, fun c hc =>
      ⟨(loose c hc).1, Nat.lt_succ_of_le (loose c hc).2⟩⟩, rfl, tokens⟩
  | passed h =>
    rwa [skipGap_of_body htext h.rest]

theorem Passed.dropStale (h : Passed text indents ts s) :
    ∃ t, s.dropStale = some t ∧ Stands (body text) (margin text) indents true ts t := by
  obtain ⟨candidate, candidates, loose⟩ := h.candidates
  refine ⟨_, dropStale_single candidates fun c hc => (loose c hc).1,
    ⟨h.rest, h.column, h.indents, ?_, h.keyAllowed, h.tokens⟩⟩
  cases candidate with
  | none => rfl
  | some c =>
    have stale : s.isStale c := by
      rw [isStale, Bool.or_eq_true, decide_eq_true_eq]
      exact Or.inl (loose c rfl).2
    simp [Option.filter, stale]

theorem Rests.dropStale (h : Rests text indents ts s) :
    ∃ n, s.dropStale = some n ∧ Rests text indents ts n := by
  cases h with
  | ended rest candidates loose hindents tokens =>
    refine ⟨_, dropStale_single candidates fun c hc => (loose c hc).1, ?_⟩
    exact .ended rest rfl (fun c hc => loose c (Option.filter_eq_some_iff.mp hc).1) hindents tokens
  | passed h =>
    obtain ⟨t, ht, stands⟩ := h.dropStale
    exact ⟨t, ht, .passed ⟨stands.rest, stands.column, stands.indents,
      ⟨none, stands.candidates, nofun⟩, stands.keyAllowed, stands.tokens⟩⟩

theorem Rests.tokens (h : Rests text indents ts s) : s.tokens = ts := by
  cases h with
  | ended _ _ _ _ tokens => exact tokens
  | passed h => exact h.tokens

theorem Rests.length_le (h : Rests text indents ts s) : s.cursor.rest.length ≤ text.length + 1 := by
  cases h with
  | ended rest => exact Nat.le_of_eq (congrArg List.length rest)
  | passed h =>
    rw [h.rest]
    exact Nat.le_succ_of_le (List.dropWhile_suffix _).length_le

theorem Rests.length_body_le (h : Rests text indents ts s) :
    (body text).length ≤ s.cursor.rest.length := by
  cases h with
  | ended rest =>
    rw [rest]
    exact Nat.le_succ_of_le (List.dropWhile_suffix _).length_le
  | passed h => exact Nat.le_of_eq (congrArg List.length h.rest.symm)

/-- The scan when the next token begins: what lies between is passed, and collections that end there
are closed. -/
def prepared (s : Scan) : Option Scan :=
  s.skipGap.dropStale.map fun s => s.closeTo (some s.cursor.column)

theorem advance_eq (s : Scan) : s.advance = s.prepared.bind dispatch := by
  unfold advance prepared
  cases s.skipGap.dropStale <;> rfl

/-- The next token begins there. -/
structure Ready (rest : List Char) (column : Nat) (indents : List Nat) (keyAllowed : Bool)
    (ts : List Token) (s : Scan) : Prop where
  length : rest.length ≤ s.cursor.rest.length
  stands : ∃ t, s.prepared = some t ∧ Stands rest column indents keyAllowed ts t

theorem Stands.closeTo (h : Stands rest column (inner ++ indents) keyAllowed ts s)
    (hinner : ∀ i ∈ inner, column < i) (houter : ∀ i ∈ indents, i ≤ column) :
    Stands rest column indents keyAllowed (inner.map (fun _ => .blockEnd) ++ ts)
      (s.closeTo (some s.cursor.column)) := by
  rw [closeTo_some h.inFlow h.indents (by rwa [h.column]) (by rwa [h.column])]
  exact ⟨h.rest, h.column, rfl, h.candidates, h.keyAllowed, by rw [h.tokens]⟩

/-- The next line ends the collections that are deeper than its margin. -/
theorem Rests.ready {limit : Option Nat} (h : Rests text (inner ++ indents) ts s)
    (htext : StartsLine limit text) (hinner : ∀ i ∈ inner, margin text < i)
    (houter : ∀ i ∈ indents, i ≤ margin text) :
    Ready (body text) (margin text) indents true (inner.map (fun _ => .blockEnd) ++ ts) s := by
  obtain ⟨t, ht, stands⟩ := (h.skipGap htext).dropStale
  exact ⟨h.length_body_le, _, by rw [prepared, ht]; rfl, stands.closeTo hinner houter⟩

/-- On the same line, a blank is passed. -/
theorem Stands.ready_behind_space (h : Stands (' ' :: c :: cs) column indents keyAllowed ts s)
    (opening : isOpening c) (houter : ∀ i ∈ indents, i ≤ column + 1) :
    Ready (c :: cs) (column + 1) indents keyAllowed ts s := by
  have hskip : s.skipGap = { s with cursor := s.cursor.forward (c :: cs) } := by
    rw [skipGap, h.inFlow, h.rest, gapFrom_space, gapFrom_opening opening]
    rfl
  have stands : Stands (c :: cs) (column + 1) ([] ++ indents) keyAllowed ts s.skipGap := by
    rw [hskip]
    exact ⟨rfl, congrArg (· + 1) h.column, h.indents, h.candidates, h.keyAllowed, h.tokens⟩
  refine ⟨by rw [h.rest]; exact Nat.le_succ _, _, ?_, stands.closeTo nofun houter⟩
  rw [prepared, dropStale_of_none stands.candidates]
  rfl

section Runs

/-- One token on, with something less left of the text. -/
def Goes (s s' : Scan) : Prop :=
  ∃ t n, s.advance = some t ∧ t.dropStale = some n ∧ n.tokens.head? ≠ some .streamEnd ∧
    s' = { n with usable := n.countUsable } ∧ s'.cursor.rest.length < s.cursor.rest.length

def Reaches : Scan → Scan → Prop := Relation.ReflTransGen Goes

theorem Goes.runFor_succ {s s' : Scan} (h : Goes s s') (fuel : Nat) :
    runFor (fuel + 1) s = runFor fuel s' := by
  obtain ⟨t, n, hadvance, hstale, more, rfl, -⟩ := h
  rw [runFor, hadvance]
  simp only [hstale, more, if_false]

/-- What the scanner finds is the same from further on, and the fuel lasts as well as it did. -/
theorem Reaches.runFor {s s' : Scan} (h : Reaches s s') {fuel : Nat}
    (hfuel : s.cursor.rest.length < fuel) :
    ∃ left, s'.cursor.rest.length < left ∧ s.runFor fuel = s'.runFor left := by
  induction h with
  | refl => exact ⟨fuel, hfuel, rfl⟩
  | tail _ hgoes ih =>
    obtain ⟨left, hleft, hrun⟩ := ih
    obtain ⟨left, rfl⟩ : ∃ m, left = m + 1 := ⟨left - 1, by omega⟩
    have hless := hgoes
    obtain ⟨_, _, -, -, -, -, hless⟩ := hless
    exact ⟨left, by omega, hrun.trans (hgoes.runFor_succ left)⟩

/-- Where a token begins, a step leads to what is made of it. -/
theorem Ready.goes {P : Scan → Prop} (h : Ready rest column indents keyAllowed ts s)
    (hstep : ∀ t, Stands rest column indents keyAllowed ts t → ∃ m n, t.dispatch = some m ∧
      m.dropStale = some n ∧ n.tokens.head? ≠ some .streamEnd ∧
      n.cursor.rest.length < rest.length ∧ P { n with usable := n.countUsable }) :
    ∃ s', Goes s s' ∧ P s' := by
  obtain ⟨t, hprepared, stands⟩ := h.stands
  obtain ⟨m, n, hdispatch, hstale, more, hless, hP⟩ := hstep t stands
  refine ⟨_, ⟨m, n, ?_, hstale, more, rfl, Nat.lt_of_lt_of_le hless h.length⟩, hP⟩
  rw [advance_eq, hprepared]
  exact hdispatch

end Runs

end Arbiter.Yaml.Scan
