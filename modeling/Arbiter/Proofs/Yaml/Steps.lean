import Arbiter.Proofs.Yaml.Scan
import Mathlib.Data.List.TakeWhile

/-!
The steps of the scanner over what is written: dashes, keys with their colons, scalars and empty
collections. A key is found out only at its colon, which puts the tokens in front of it.
-/

namespace Arbiter.Yaml.Scan

variable {s t : Scan} {c : Char} {w cs rest text : List Char} {column : Nat} {indents : List Nat}
  {keyAllowed : Bool} {ts : List Token}

theorem Stands.counted {n : Scan} (h : Stands rest column indents keyAllowed ts n) :
    Stands rest column indents keyAllowed ts { n with usable := n.countUsable } :=
  ⟨h.rest, h.column, h.indents, h.candidates, h.keyAllowed, h.tokens⟩

theorem Rests.counted {n : Scan} (h : Rests text indents ts n) :
    Rests text indents ts { n with usable := n.countUsable } := by
  cases h with
  | ended rest candidates loose hindents tokens =>
    exact .ended rest candidates loose hindents tokens
  | passed h =>
    exact .passed ⟨h.rest, h.column, h.indents, h.candidates, h.keyAllowed, h.tokens⟩

section Collections

theorem insertIdx_length {α : Type} (a : α) (front back : List α) :
    (front ++ back).insertIdx front.length a = front ++ a :: back := by
  induction front with
  | nil => rfl
  | cons b front ih => simpa using ih

/-- A token is put in front of those that came after the first ones. -/
theorem insert_behind {behind : List Token} (h : s.tokens = behind ++ ts) (token : Token) :
    s.insert ts.length token = { s with tokens := behind ++ token :: ts } := by
  rw [insert, h, List.length_append, Nat.add_sub_cancel, insertIdx_length]

theorem openAt_deeper (inFlow : s.inFlow = false) (hdeeper : ∀ i ∈ s.indents, i < column)
    (number : Nat) (token : Token) : s.openAt column number token =
      { s with indents := column :: s.indents }.insert number token := by
  have deeper : s.isDeeper column := by
    rw [isDeeper, indent]
    cases h : s.indents with
    | nil => rfl
    | cons i outer => simpa using hdeeper i (by rw [h]; exact List.mem_cons_self)
  rw [openAt, inFlow, deeper]
  rfl

theorem openAt_open (h : s.indents.head? = some column) (number : Nat) (token : Token) :
    s.openAt column number token = s := by
  rw [openAt, isDeeper, indent, h]
  simp

/-- The collections that are open and the tokens behind the first or a further part of a collection
at the column: its first part begins it. -/
inductive Opened (token : Token) (column : Nat) (indents : List Nat) (ts : List Token) :
    List Nat → List Token → Prop where
  | first (h : ∀ i ∈ indents, i < column) : Opened token column indents ts (column :: indents)
      (token :: ts)
  | further (h : indents.head? = some column) (houter : ∀ i ∈ indents, i ≤ column) :
    Opened token column indents ts indents ts

variable {token : Token} {indents' : List Nat} {ts' : List Token}

theorem Opened.head?_eq (h : Opened token column indents ts indents' ts') :
    indents'.head? = some column := by
  cases h with
  | first => rfl
  | further h => exact h

theorem Opened.le (h : Opened token column indents ts indents' ts') :
    ∀ i ∈ indents', i ≤ column := by
  cases h with
  | first h => simpa using fun i hi => Nat.le_of_lt (h i hi)
  | further _ houter => exact houter

theorem Opened.outer_le (h : Opened token column indents ts indents' ts') :
    ∀ i ∈ indents, i ≤ column := by
  cases h with
  | first h => exact fun i hi => Nat.le_of_lt (h i hi)
  | further _ houter => exact houter

/-- With so many tokens behind the place where the collection begins. -/
theorem Opened.openAt (h : Opened token column indents ts indents' ts') {behind : List Token}
    (inFlow : s.inFlow = false) (hindents : s.indents = indents) (hts : s.tokens = behind ++ ts) :
    s.openAt column ts.length token = { s with indents := indents', tokens := behind ++ ts' } := by
  cases h with
  | first h =>
    have htokens : { s with indents := column :: s.indents }.tokens = behind ++ ts := hts
    rw [openAt_deeper inFlow (by rwa [hindents]), insert_behind htokens, hindents]
  | further h => rw [openAt_open (by rwa [hindents]), ← hindents, ← hts]

end Collections

section Dash

variable {indents' : List Nat} {ts' : List Token}

theorem dropCandidate_of_none (h : s.candidates = [none]) : s.dropCandidate = some s := by
  rw [dropCandidate, h]

theorem dispatch_dash (h : s.cursor.rest = '-' :: ' ' :: cs) : s.dispatch = s.blockEntry := by
  rw [dispatch, h]
  simp [atDocumentMark, atGap, isBlank]

theorem Stands.blockEntry (h : Stands ('-' :: rest) column indents true ts s)
    (hopened : Opened .blockSequence column indents ts indents' ts') : ∃ m,
      s.blockEntry = some m ∧ Stands rest (column + 1) indents' true (.blockEntry :: ts') m := by
  have hopen : s.openAt column ts.length .blockSequence =
      { s with indents := indents', tokens := [] ++ ts' } :=
    hopened.openAt h.inFlow h.indents h.tokens
  have hdrop : dropCandidate { s with indents := indents', tokens := ts' } = some _ :=
    dropCandidate_of_none h.candidates
  rw [Scan.blockEntry, h.inFlow, h.keyAllowed, h.column, h.tokens, hopen, List.nil_append, hdrop]
  refine ⟨_, rfl, ?_⟩
  exact ⟨by simp [mark, push, Cursor.skip, h.rest], by simp [mark, push, Cursor.skip, h.column],
    rfl, h.candidates, rfl, rfl⟩

/-- An item begins behind its dash. -/
theorem Ready.dash (h : Ready ('-' :: ' ' :: c :: cs) column indents true ts s)
    (hopened : Opened .blockSequence column indents ts indents' ts') (opening : isOpening c) :
    ∃ s', Goes s s' ∧ Ready (c :: cs) (column + 2) indents' true (.blockEntry :: ts') s' := by
  refine h.goes fun t stands => ?_
  obtain ⟨m, hm, hstands⟩ := stands.blockEntry hopened
  refine ⟨m, m, (dispatch_dash stands.rest).trans hm, dropStale_of_none hstands.candidates, ?_, ?_,
    hstands.counted.ready_behind_space opening fun i hi => ?_⟩
  · rw [hstands.tokens]
    simp
  · rw [hstands.rest]
    simp
  · have hle := hopened.le i hi
    omega

end Dash

section Scalars

/-- What would be a key if a colon followed. -/
def candidateHere (s : Scan) : Candidate where
  number := s.tokens.length
  required := !s.inFlow && s.indent = some s.cursor.column
  index := s.cursor.index
  line := s.cursor.line
  column := s.cursor.column

/-- The scan with what begins here as a candidate, if a key may begin here. -/
def offering (s : Scan) : Scan :=
  { s with candidates := [if s.keyAllowed then some s.candidateHere else none] }

theorem addCandidate_of_none (h : s.candidates = [none]) : s.addCandidate = some s.offering := by
  rw [addCandidate, offering]
  by_cases hallowed : s.keyAllowed
  · rw [if_pos hallowed, if_pos hallowed, dropCandidate_of_none h]
    simp [h, candidateHere]
  · rw [if_neg hallowed, if_neg hallowed, ← h]

theorem startsPlain_of_isWord {inFlow : Bool} (h : isWord c) (hdash : c ≠ '-') :
    startsPlain inFlow c rest := by
  have hmarks : "-?:,[]\x7b\x7d#&*!|>'\"%@\x60".toList.all fun d => d = '-' || !isWord d := by
    decide
  have hother : "-?:,[]\x7b\x7d#&*!|>'\"%@\x60".contains c = false := by
    rw [String.contains_char_eq, decide_eq_false_iff_not]
    intro hmem
    have hmark := List.all_eq_true.mp hmarks c hmem
    simp [hdash, h] at hmark
  rw [startsPlain, isBlank_of_isWord h, isBreak_of_isWord h, hother]
  rfl

theorem dispatch_word (hw : IsPlainWord w) (h : s.cursor.rest = w ++ rest) :
    s.dispatch = s.plainScalar := by
  obtain ⟨c, w, rfl, hdash⟩ := hw.start
  have hc : isWord c := hw.word c List.mem_cons_self
  have hne (d : Char) (hd : isWord d = false) : c ≠ d := ne_of_isWord hc hd
  rw [dispatch, h, List.cons_append]
  by_cases hstart : c = '-'
  · obtain ⟨d, more, rfl, hd⟩ := hdash hstart
    have hword : isWord d := hw.word d (by simp)
    subst hstart
    simp [atDocumentMark, atGap, startsPlain, isBlank_of_isWord hword, isBreak_of_isWord hword, hd]
  · have hmark : atDocumentMark (c :: (w ++ rest)) = false := by
      simp [atDocumentMark, hstart, hne '.' rfl]
    simp [hmark, hstart, startsPlain_of_isWord hc hstart, hne '%' rfl, hne '[' rfl, hne '\x7b' rfl,
      hne ']' rfl, hne '\x7d' rfl, hne ',' rfl, hne '?' rfl, hne ':' rfl, hne '*' rfl, hne '&' rfl,
      hne '!' rfl, hne '|' rfl, hne '>' rfl, hne '\'' rfl, hne '"' rfl]

theorem inFlow_offering (s : Scan) : s.offering.inFlow = false :=
  inFlow_of_singleton rfl

/-- A plain scalar as far as a colon, which makes it a key. -/
theorem plainScalar_colon (hw : IsPlainWord w) (hgap : atGap rest)
    (h : s.cursor.rest = w ++ ':' :: rest) (hnone : s.candidates = [none]) :
    s.plainScalar = some ({ s.offering with keyAllowed := false }.mark w.length
      (.scalar .plain (String.ofList w))) := by
  have hrest : s.offering.cursor.rest = w ++ ':' :: rest := h
  have hbehind : (s.offering.cursor.skip w.length).rest = ':' :: rest := Cursor.rest_skip hrest
  rw [plainScalar, addCandidate_of_none hnone]
  simp only [bind, Option.bind_some, inFlow_offering, hrest]
  rw [readPlain_word rfl hw.word [] hrest, readPlain_colon _ hgap hbehind rfl, List.append_nil]
  simp [Reading.of, mark]

/-- A plain scalar at the end of a line. The scanner goes on to what is below. -/
theorem plainScalar_break (hw : IsPlainWord w) (htext : StartsLine s.indents.head? text)
    (h : s.cursor.rest = w ++ '\n' :: text) (hnone : s.candidates = [none]) :
    s.plainScalar = some ({ s.offering with
      cursor := { rest := body text, index := s.cursor.index + w.length + 1 + margin text
                  line := s.cursor.line + 1, column := margin text }
      keyAllowed := true }.push (.scalar .plain (String.ofList w))) := by
  have hrest : s.offering.cursor.rest = w ++ '\n' :: text := h
  rw [plainScalar, addCandidate_of_none hnone]
  simp only [bind, Option.bind_some, inFlow_offering, hrest]
  rw [readPlain_word rfl hw.word [] hrest, readPlain_break _ htext rfl rfl, List.append_nil]
  simp [Reading.of]
  rfl

section Written

variable {value : String} {style : Style} {chars : List Char}

theorem quotedScalar_single (hline : isSingleLine value) (hrest : rest.head? ≠ some '\'')
    (hnone : s.candidates = [none])
    (h : s.cursor.rest = '\'' :: (value.toList.flatMap singleQuoteChar ++ '\'' :: rest)) :
    s.quotedScalar .singleQuoted = some ({ s.offering with keyAllowed := false }.mark
      ((value.toList.flatMap singleQuoteChar).length + 2) (.scalar .singleQuoted value)) := by
  have hbreak : ∀ c ∈ value.toList, isBreak c = false := fun c hc => by
    have hshown := List.all_eq_true.mp hline c hc
    rw [Bool.and_eq_true, Bool.not_eq_true', Bool.not_eq_true'] at hshown
    exact hshown.2
  have hinner : (s.offering.cursor.skip 1).rest =
      value.toList.flatMap singleQuoteChar ++ '\'' :: rest := by
    rw [Cursor.skip]
    exact congrArg (List.drop 1) h
  rw [quotedScalar, addCandidate_of_none hnone]
  simp only [bind, Option.bind_some, hinner]
  rw [readSingleQuoted_chars hbreak hrest [] rfl (Nat.succ_pos _) hinner]
  simp [Reading.of, mark, taken, Cursor.skip_skip, Nat.add_comm 1]

theorem quotedScalar_double (hnone : s.candidates = [none])
    (h : s.cursor.rest = '"' :: (value.toList.flatMap doubleQuoteChar ++ '"' :: rest)) :
    s.quotedScalar .doubleQuoted = some ({ s.offering with keyAllowed := false }.mark
      ((value.toList.flatMap doubleQuoteChar).length + 2) (.scalar .doubleQuoted value)) := by
  have hinner : (s.offering.cursor.skip 1).rest =
      value.toList.flatMap doubleQuoteChar ++ '"' :: rest := by
    rw [Cursor.skip]
    exact congrArg (List.drop 1) h
  rw [quotedScalar, addCandidate_of_none hnone]
  simp only [bind, Option.bind_some, hinner]
  rw [readDoubleQuoted_chars [] rfl (Nat.succ_pos _) hinner]
  simp [Reading.of, mark, taken, Cursor.skip_skip, Nat.add_comm 1]

/-- A scalar in quotes ends behind them, whatever follows. -/
theorem dispatch_quoted (hwritten : Written value style chars) (hstyle : style ≠ .plain)
    (hrest : rest.head? ≠ some '\'') (h : s.cursor.rest = chars ++ rest)
    (hnone : s.candidates = [none]) : s.dispatch =
      some ({ s.offering with keyAllowed := false }.mark chars.length (.scalar style value)) := by
  cases hwritten with
  | plain => exact absurd rfl hstyle
  | single hline =>
    rw [List.cons_append, List.append_assoc, List.singleton_append] at h
    have hdispatch : s.dispatch = s.quotedScalar .singleQuoted := by
      rw [dispatch, h]
      simp [atDocumentMark]
    rw [hdispatch, quotedScalar_single hline hrest hnone h]
    simp
  | double =>
    rw [List.cons_append, List.append_assoc, List.singleton_append] at h
    have hdispatch : s.dispatch = s.quotedScalar .doubleQuoted := by
      rw [dispatch, h]
      simp [atDocumentMark]
    rw [hdispatch, quotedScalar_double hnone h]
    simp

/-- A scalar as far as a colon, which makes it a key. -/
theorem dispatch_key (hwritten : Written value style chars) (hgap : atGap rest)
    (h : s.cursor.rest = chars ++ ':' :: rest) (hnone : s.candidates = [none]) : s.dispatch =
      some ({ s.offering with keyAllowed := false }.mark chars.length (.scalar style value)) := by
  by_cases hstyle : style = .plain
  · subst hstyle
    cases hwritten with
    | plain hw =>
      rw [dispatch_word hw h, plainScalar_colon hw hgap h hnone, String.ofList_toList]
  · exact dispatch_quoted hwritten hstyle (by simp) h hnone

/-- What begins inside of all open collections need not be a key. -/
theorem required_candidateHere (h : Stands rest column indents keyAllowed ts s)
    (hdeeper : ∀ i ∈ indents, i < column) : s.candidateHere.required = false := by
  have hindent : s.indent ≠ some s.cursor.column := by
    rw [indent, h.indents, h.column]
    exact fun hhead => absurd (hdeeper column (List.mem_of_head? hhead)) (Nat.lt_irrefl _)
  simp [candidateHere, hindent]

theorem loose_offering (h : Stands rest column indents keyAllowed ts s)
    (hdeeper : ∀ i ∈ indents, i < column) :
    ∀ c ∈ if s.keyAllowed then some s.candidateHere else none,
      c.required = false ∧ c.line ≤ s.cursor.line := by
  intro c hc
  split_ifs at hc
  · obtain rfl := Option.some.inj hc
    exact ⟨required_candidateHere h hdeeper, Nat.le_refl _⟩
  · cases hc

/-- A scalar at the end of a line. -/
theorem dispatch_last (hwritten : Written value style chars)
    (h : Stands (chars ++ '\n' :: text) column indents keyAllowed ts s)
    (hdeeper : ∀ i ∈ indents, i < column) (htext : StartsLine indents.head? text) :
    ∃ m, s.dispatch = some m ∧ Rests text indents (.scalar style value :: ts) m := by
  have loose := loose_offering h hdeeper
  have htokens : Token.scalar style value :: s.tokens = .scalar style value :: ts :=
    congrArg _ h.tokens
  by_cases hstyle : style = .plain
  · subst hstyle
    cases hwritten with
    | plain hw =>
      rw [dispatch_word hw h.rest,
        plainScalar_break hw (by rwa [h.indents]) h.rest h.candidates, String.ofList_toList]
      refine ⟨_, rfl, .passed ⟨rfl, rfl, h.indents, ⟨_, rfl, fun c hc => ?_⟩, rfl, htokens⟩⟩
      exact ⟨(loose c hc).1, Nat.lt_succ_of_le (loose c hc).2⟩
  · rw [dispatch_quoted hwritten hstyle (by simp) h.rest h.candidates]
    exact ⟨_, rfl, .ended (Cursor.rest_skip h.rest) rfl loose h.indents htokens⟩

theorem Ready.scalar (hwritten : Written value style chars)
    (h : Ready (chars ++ '\n' :: text) column indents keyAllowed ts s)
    (hdeeper : ∀ i ∈ indents, i < column) (htext : StartsLine indents.head? text) :
    ∃ s', Goes s s' ∧ Rests text indents (.scalar style value :: ts) s' := by
  refine h.goes fun t stands => ?_
  obtain ⟨m, hm, hrests⟩ := dispatch_last hwritten stands hdeeper htext
  obtain ⟨n, hn, hrests⟩ := hrests.dropStale
  have hlength := hrests.length_le
  have hpos := List.length_pos_of_ne_nil hwritten.ne_nil
  refine ⟨m, n, hm, hn, ?_, ?_, hrests.counted⟩
  · rw [hrests.tokens]
    simp
  · rw [List.length_append, List.length_cons]
    omega

end Written

end Scalars

section Key

variable {token : Token} {indents' : List Nat} {ts' : List Token}

/-- The scanner stands at the colon behind a scalar, which can still be a key. -/
structure Keyed (rest : List Char) (column : Nat) (indents : List Nat) (token : Token)
    (ts : List Token) (s : Scan) : Prop where
  rest : s.cursor.rest = ':' :: rest
  behind : column ≤ s.cursor.column
  indents : s.indents = indents
  candidate : ∃ c, s.candidates = [some c] ∧ c.number = ts.length ∧ c.column = column ∧
    s.isStale c = false
  tokens : s.tokens = token :: ts

theorem dropStale_fresh {c : Candidate} (h : s.candidates = [some c])
    (fresh : s.isStale c = false) : s.dropStale = some s := by
  have hkept : s.candidates.map (·.filter fun c => !s.isStale c) = s.candidates := by
    simp [h, fresh, Option.filter]
  rw [dropStale, if_neg (by simp [h, fresh]), hkept]

theorem Ready.keyed {value : String} {style : Style} {chars : List Char}
    (hwritten : Written value style chars) (hshort : chars.length ≤ 1024) (hgap : atGap rest)
    (h : Ready (chars ++ ':' :: rest) column indents true ts s) :
    ∃ s', Goes s s' ∧ Keyed rest column indents (.scalar style value) ts s' := by
  refine h.goes fun t stands => ?_
  have hdispatch := dispatch_key hwritten hgap stands.rest stands.candidates
  have hpos := List.length_pos_of_ne_nil hwritten.ne_nil
  have hrest : (t.cursor.skip chars.length).rest = ':' :: rest := Cursor.rest_skip stands.rest
  have hcandidate : t.offering.candidates = [some t.candidateHere] := by
    rw [offering, if_pos stands.keyAllowed]
  generalize hm : { t.offering with keyAllowed := false }.mark chars.length
    (.scalar style value) = m at hdispatch
  have hcandidates : m.candidates = [some t.candidateHere] := hm ▸ hcandidate
  have fresh : m.isStale t.candidateHere = false := by
    rw [← hm]
    simp [isStale, mark, push, offering, candidateHere, Cursor.skip, hshort]
  refine ⟨m, m, hdispatch, dropStale_fresh hcandidates fresh, ?_, ?_, ?_⟩
  · rw [← hm]
    simp [mark, push]
  · rw [← hm]
    change (t.cursor.skip chars.length).rest.length < _
    rw [hrest, List.length_append]
    omega
  · rw [← hm] at hcandidates fresh ⊢
    exact ⟨hrest, stands.column ▸ Nat.le_add_right _ _, stands.indents,
      ⟨_, hcandidates, congrArg List.length stands.tokens, stands.column, fresh⟩,
      congrArg _ stands.tokens⟩

/-- What holds a key stands no deeper than its colon, so nothing is closed there. -/
theorem Keyed.prepared (h : Keyed rest column indents token ts s)
    (houter : ∀ i ∈ indents, i ≤ column) : s.prepared = some s := by
  obtain ⟨c, candidates, -, -, fresh⟩ := h.candidate
  have hclose : s.closeTo (some s.cursor.column) = s := by
    have hindents : s.indents = [] ++ indents := h.indents
    rw [closeTo_some (inFlow_of_singleton candidates) hindents nofun fun i hi =>
      Nat.le_trans (houter i hi) h.behind, ← h.indents]
    rfl
  rw [Scan.prepared, skipGap_of_opening h.rest (by decide), dropStale_fresh candidates fresh,
    Option.map_some, hclose]

/-- The colon puts the key in front of the scalar, and the record in front of its first key. -/
theorem Keyed.valueMark (h : Keyed rest column indents token ts s)
    (hopened : Opened .blockMapping column indents ts indents' ts') : ∃ m, s.valueMark = some m ∧
      Stands rest (s.cursor.column + 1) indents' false (.value :: token :: .key :: ts') m := by
  obtain ⟨c, candidates, hnumber, hcolumn, -⟩ := h.candidate
  have htokens : s.tokens = [token] ++ ts := h.tokens
  have hinsert : s.insert c.number .key = { s with tokens := [token] ++ .key :: ts } := by
    rw [hnumber, insert_behind htokens]
  have hopen : openAt { s with tokens := [token] ++ .key :: ts } c.column c.number .blockMapping =
      { s with indents := indents', tokens := [token, .key] ++ ts' } := by
    rw [hnumber, hcolumn]
    exact hopened.openAt (inFlow_of_singleton candidates) h.indents rfl
  rw [Scan.valueMark, candidates]
  simp only [hinsert, hopen]
  exact ⟨_, rfl, by simp [mark, push, Cursor.skip, h.rest], rfl, rfl, rfl, rfl, rfl⟩

theorem Keyed.goes (h : Keyed rest column indents token ts s) (hgap : atGap rest)
    (hopened : Opened .blockMapping column indents ts indents' ts') : ∃ s', Goes s s' ∧
      Stands rest (s.cursor.column + 1) indents' false (.value :: token :: .key :: ts') s' := by
  have hdispatch : s.dispatch = s.valueMark := by
    rw [dispatch, h.rest]
    simp [atDocumentMark, hgap]
  obtain ⟨m, hm, stands⟩ := h.valueMark hopened
  refine ⟨_, ⟨m, m, ?_, dropStale_of_none stands.candidates, ?_, rfl, ?_⟩, stands.counted⟩
  · rw [advance_eq, h.prepared hopened.outer_le, Option.bind_some, hdispatch, hm]
  · rw [stands.tokens]
    simp
  · simp [stands.rest, h.rest]

end Key

section Brackets

/-- The brackets of an empty collection, with their tokens. -/
inductive Brackets : Char → Char → Token → Token → Prop where
  | list : Brackets '[' ']' .flowSequence .flowSequenceEnd
  | record : Brackets '\x7b' '\x7d' .flowMapping .flowMappingEnd

variable {first last : Char} {token endToken : Token}

theorem Brackets.dispatch_first (h : Brackets first last token endToken)
    (hrest : s.cursor.rest = first :: rest) : s.dispatch = s.flowStart token := by
  rw [dispatch, hrest]
  cases h <;> simp [atDocumentMark]

theorem Brackets.dispatch_last (h : Brackets first last token endToken)
    (hrest : s.cursor.rest = last :: rest) : s.dispatch = s.flowEnd endToken := by
  rw [dispatch, hrest]
  cases h <;> simp [atDocumentMark]

/-- The scanner is between two brackets. What holds them need not be a key. -/
structure Bracketed (rest : List Char) (indents : List Nat) (ts : List Token) (s : Scan) :
    Prop where
  rest : s.cursor.rest = rest
  indents : s.indents = indents
  candidates : ∃ candidate, s.candidates = [none, candidate] ∧
    ∀ c ∈ candidate, c.required = false ∧ c.line ≤ s.cursor.line
  tokens : s.tokens = ts

theorem Bracketed.dropStale (h : Bracketed rest indents ts s) :
    ∃ n, s.dropStale = some n ∧ Bracketed rest indents ts n := by
  obtain ⟨candidate, candidates, loose⟩ := h.candidates
  refine ⟨_, dropStale_of_loose (by simpa [candidates] using fun c hc => (loose c hc).1),
    h.rest, h.indents, ⟨candidate.filter fun c => !s.isStale c, by simp [candidates], ?_⟩, h.tokens⟩
  exact fun c hc => loose c (Option.filter_eq_some_iff.mp hc).1

theorem Ready.bracketed (hbrackets : Brackets first last token endToken)
    (h : Ready (first :: rest) column indents keyAllowed ts s)
    (hdeeper : ∀ i ∈ indents, i < column) :
    ∃ s', Goes s s' ∧ Bracketed rest indents (token :: ts) s' := by
  refine h.goes fun t stands => ?_
  have hfirst : ∃ m, t.flowStart token = some m ∧ Bracketed rest indents (token :: ts) m := by
    rw [flowStart, addCandidate_of_none stands.candidates]
    refine ⟨_, rfl, ?_, stands.indents, ⟨_, rfl, loose_offering stands hdeeper⟩, ?_⟩
    · simp [mark, push, offering, Cursor.skip, stands.rest]
    · simp [mark, push, offering, stands.tokens]
  obtain ⟨m, hm, hbracketed⟩ := hfirst
  obtain ⟨n, hn, hbracketed⟩ := hbracketed.dropStale
  refine ⟨m, n, (hbrackets.dispatch_first stands.rest).trans hm, hn, ?_, ?_, ?_⟩
  · rw [hbracketed.tokens]
    cases hbrackets <;> simp
  · rw [hbracketed.rest]
    exact Nat.lt_succ_self _
  · exact ⟨hbracketed.rest, hbracketed.indents, hbracketed.candidates, hbracketed.tokens⟩

theorem Bracketed.rests (hbrackets : Brackets first last token endToken)
    (h : Bracketed (last :: '\n' :: text) indents ts s) :
    ∃ s', Goes s s' ∧ Rests text indents (endToken :: ts) s' := by
  have opening : isOpening last := by cases hbrackets <;> decide
  obtain ⟨t, ht, hbracketed⟩ := h.dropStale
  obtain ⟨candidate, candidates, loose⟩ := hbracketed.candidates
  have inFlow : t.inFlow := by
    rw [Scan.inFlow, candidates]
    rfl
  have hprepared : s.prepared = some t := by
    rw [prepared, skipGap_of_opening h.rest opening, ht, Option.map_some, closeTo, if_pos inFlow]
  have hlast : ∃ m, t.flowEnd endToken = some m ∧ Rests text indents (endToken :: ts) m := by
    have hdrop : t.dropCandidate = some t := by rw [dropCandidate, candidates]
    rw [flowEnd, hdrop]
    refine ⟨_, rfl, .ended ?_ ?_ loose hbracketed.indents (congrArg _ hbracketed.tokens)⟩
    · simp [mark, push, Cursor.skip, hbracketed.rest]
    · simp [mark, push, inFlow, candidates]
  obtain ⟨m, hm, hrests⟩ := hlast
  obtain ⟨n, hn, hrests⟩ := hrests.dropStale
  have hlength := hrests.length_le
  refine ⟨_, ⟨m, n, ?_, hn, ?_, rfl, ?_⟩, hrests.counted⟩
  · rw [advance_eq, hprepared, Option.bind_some, hbrackets.dispatch_last hbracketed.rest, hm]
  · rw [hrests.tokens]
    cases hbrackets <;> simp
  · rw [h.rest]
    simp only [List.length_cons]
    omega

end Brackets

section EndStream

theorem closeTo_none (inFlow : s.inFlow = false) : s.closeTo none = { s with
    indents := [], tokens := s.indents.map (fun _ => .blockEnd) ++ s.tokens } := by
  have hall : s.indents.takeWhile (fun i => (none : Option Nat).all (· < i)) = s.indents :=
    List.takeWhile_eq_self_iff.mpr fun _ _ => rfl
  rw [closeTo, inFlow, hall]
  simp

/-- At the end of the text, all collections end. -/
theorem Stands.endStream (h : Stands [] column indents keyAllowed ts s) :
    ∃ m, s.endStream = some m ∧ m.candidates = [none] ∧
      m.tokens = .streamEnd :: (indents.map (fun _ => .blockEnd) ++ ts) := by
  have hdrop : dropCandidate { s with
      indents := [], tokens := s.indents.map (fun _ => .blockEnd) ++ s.tokens } = some _ :=
    dropCandidate_of_none h.candidates
  rw [Scan.endStream, closeTo_none h.inFlow, hdrop]
  exact ⟨_, rfl, h.candidates, by simp [push, h.indents, h.tokens]⟩

/-- Some of the innermost collections end. -/
theorem exists_closeTo (inFlow : s.inFlow = false) (column : Option Nat) : ∃ inner outer,
    s.indents = inner ++ outer ∧ s.closeTo column = { s with
      indents := outer, tokens := inner.map (fun _ => .blockEnd) ++ s.tokens } := by
  obtain ⟨outer, houter⟩ := List.takeWhile_prefix (fun i => column.all (· < i)) (l := s.indents)
  have hdrop := congrArg (List.drop (s.indents.takeWhile fun i => column.all (· < i)).length) houter
  rw [List.drop_left] at hdrop
  refine ⟨_, outer, houter.symm, ?_⟩
  rw [closeTo, inFlow]
  simp only [Bool.false_eq_true, if_false, ← hdrop]

/-- The end of the last line ends some collections, and the end of the text the others. -/
theorem Rests.runFor_end (h : Rests [] indents ts s) (fuel : Nat) : s.runFor (fuel + 1) =
    ts.reverse ++ indents.map (fun _ => .blockEnd) ++ [.streamEnd] := by
  obtain ⟨t, ht, stands⟩ := (h.skipGap (.nothing : StartsLine none [])).dropStale
  obtain ⟨inner, outer, hindents, hclose⟩ := exists_closeTo stands.inFlow (some t.cursor.column)
  have hclosed : Stands [] (margin []) outer true (inner.map (fun _ => .blockEnd) ++ ts)
      (t.closeTo (some t.cursor.column)) := by
    rw [hclose]
    exact ⟨stands.rest, stands.column, rfl, stands.candidates, stands.keyAllowed,
      congrArg _ stands.tokens⟩
  obtain ⟨m, hm, candidates, tokens⟩ := hclosed.endStream
  have hadvance : s.advance = some m := by
    rw [advance_eq, prepared, ht, Option.map_some, Option.bind_some, dispatch, hclosed.rest]
    exact hm
  rw [runFor, hadvance]
  simp only [dropStale_of_none candidates, tokens, List.head?_cons, if_true, firstTokens,
    Nat.sub_self, List.drop_zero, List.reverse_cons, List.reverse_append]
  rw [← stands.indents, hindents]
  simp [List.map_const']

end EndStream

end Arbiter.Yaml.Scan
