import Arbiter.Proofs.Text.Decimal
import Arbiter.Yaml.Printer
import Mathlib.Algebra.Group.Nat.Defs
import Mathlib.Data.List.TakeDrop

/-!
Scalars on a single line are read back as the texts that they were written for: plain words, and
texts in quotes of either kind. What can follow is a colon, or a break with the margin of the next
line behind it.
-/

namespace Arbiter.Yaml

namespace Cursor

variable {p : Cursor} {c : Char} {rest : List Char}

theorem skip_skip (p : Cursor) (m n : Nat) : (p.skip m).skip n = p.skip (m + n) := by
  simp [skip, List.drop_drop, Nat.add_assoc]

theorem forward_eq_skip (h : p.rest = c :: rest) : p.forward rest = p.skip 1 := by
  rw [skip, h]
  rfl

theorem rest_skip {front : List Char} (h : p.rest = front ++ rest) :
    (p.skip front.length).rest = rest := by
  rw [skip, h, List.drop_left]

end Cursor

section Chars

variable {c d : Char}

theorem ne_of_isWord (h : isWord c) (hd : isWord d = false) : c ≠ d := by
  rintro rfl
  exact absurd h (Bool.eq_false_iff.mp hd)

theorem isBlank_of_isWord (h : isWord c) : isBlank c = false := by
  simp [isBlank, ne_of_isWord h (d := ' ') rfl, ne_of_isWord h (d := '\t') rfl]

theorem isBreak_of_isWord (h : isWord c) : isBreak c = false := by
  simp [isBreak, ne_of_isWord h (d := '\n') rfl, ne_of_isWord h (d := '\r') rfl,
    ne_of_isWord h (d := '\x85') rfl, ne_of_isWord h (d := '\u2028') rfl,
    ne_of_isWord h (d := '\u2029') rfl]

end Chars

/-- Words that can stand as plain scalars: behind a hyphen in front, something else has to stand. -/
structure IsPlainWord (w : List Char) : Prop where
  word : ∀ c ∈ w, isWord c
  start : ∃ c rest, w = c :: rest ∧ (c = '-' → ∃ d more, rest = d :: more ∧ d ≠ '-')

theorem isPlainWord_of_isPlain {s : String} (h : isPlain s) : IsPlainWord s.toList := by
  unfold isPlain at h
  split at h
  · cases h
  next c cs hs =>
    simp only [Bool.and_eq_true, List.all_eq_true] at h
    obtain ⟨⟨⟨halpha, hwords⟩, -⟩, -⟩ := h
    have hword : isWord c := by simp [isWord, Char.isAlphanum, halpha]
    rw [hs]
    refine ⟨by simpa using ⟨hword, hwords⟩, c, cs, rfl, ?_⟩
    rintro rfl
    exact absurd halpha (by decide)

/-- The style in which a text is written. -/
def styleOf (s : String) : Style :=
  if isPlain s then .plain
  else if isSingleLine s then .singleQuoted
  else .doubleQuoted

/-- How a text can be written in each style. -/
inductive Written (s : String) : Style → List Char → Prop where
  | plain (h : IsPlainWord s.toList) : Written s .plain s.toList
  | single (h : isSingleLine s) :
    Written s .singleQuoted ('\'' :: (s.toList.flatMap singleQuoteChar ++ ['\'']))
  | double : Written s .doubleQuoted ('"' :: (s.toList.flatMap doubleQuoteChar ++ ['"']))

theorem written_scalarChars (s : String) : Written s (styleOf s) (scalarChars s) := by
  unfold styleOf scalarChars
  by_cases hplain : isPlain s
  · rw [if_pos hplain, if_pos hplain]
    exact .plain (isPlainWord_of_isPlain hplain)
  · by_cases hline : isSingleLine s
    · rw [if_neg hplain, if_neg hplain, if_pos hline, if_pos hline]
      exact .single hline
    · rw [if_neg hplain, if_neg hplain, if_neg hline, if_neg hline]
      exact .double

theorem Written.ne_nil {s : String} {style : Style} {cs : List Char} (h : Written s style cs) :
    cs ≠ [] := by
  cases h with
  | plain h =>
    obtain ⟨c, rest, hw, -⟩ := h.start
    exact hw ▸ List.cons_ne_nil c rest
  | single | double => exact List.cons_ne_nil _ _

/-! The line below: its margin, and the text from behind that. -/

def margin (text : List Char) : Nat := (text.takeWhile (· = ' ')).length

def body (text : List Char) : List Char := text.dropWhile (· = ' ')

/-- Characters that begin something, and not a gap or a comment. -/
def isOpening (c : Char) : Bool :=
  !isBlank c && !isBreak c && c ≠ '#'

/-- The text is over, or goes on with a line whose margin is not wider than the limit. -/
inductive StartsLine (limit : Option Nat) : List Char → Prop where
  | nothing : StartsLine limit []
  | line {m i : Nat} {c : Char} {cs : List Char} (opening : isOpening c) (hlimit : limit = some i)
      (h : m ≤ i) : StartsLine limit (List.replicate m ' ' ++ c :: cs)

section Margin

variable {m : Nat} {c : Char} {cs text : List Char}

theorem isOpening_iff : isOpening c ↔ isBlank c = false ∧ isBreak c = false ∧ c ≠ '#' := by
  simp [isOpening, and_assoc]

theorem ne_space_of_isOpening (h : isOpening c) : c ≠ ' ' := by
  rintro rfl
  exact absurd h (by decide)

theorem margin_line (h : c ≠ ' ') : margin (List.replicate m ' ' ++ c :: cs) = m := by
  rw [margin, List.takeWhile_append_of_pos (by simp), List.takeWhile_cons_of_neg (by simpa using h),
    List.append_nil, List.length_replicate]

theorem body_line (h : c ≠ ' ') : body (List.replicate m ' ' ++ c :: cs) = c :: cs := by
  rw [body, List.dropWhile_append_of_pos (by simp), List.dropWhile_cons_of_neg (by simpa using h)]

end Margin

section Plain

variable {ctx : PlainContext} {place : Cursor} {w rest : List Char}

attribute [local simp] readPlain

/-- A word is read to its end. -/
theorem readPlain_word (block : ctx.inFlow = false) (hw : ∀ c ∈ w, isWord c) (done : List Char)
    (hplace : place.rest = w ++ rest) : readPlain ctx done none place (w ++ rest) =
      readPlain ctx (w.reverse ++ done) none (place.skip w.length) rest := by
  induction w generalizing done place with
  | nil => rfl
  | cons c w ih =>
    have hc : isWord c := hw c List.mem_cons_self
    have hcolon : c ≠ ':' := ne_of_isWord hc rfl
    have hforward : place.forward (w ++ rest) = place.skip 1 := Cursor.forward_eq_skip hplace
    have hnext : (place.skip 1).rest = w ++ rest := by rw [Cursor.skip, hplace]; rfl
    rw [List.cons_append, readPlain]
    · simp only [isBlank_of_isWord hc, isBreak_of_isWord hc, isBadColon, endsPlain, block, hcolon,
        Option.isSome_none, Bool.false_and, Bool.or_self, Bool.false_eq_true, if_false,
        decide_false, Option.elim_none]
      change readPlain ctx (c :: done) none (place.forward (w ++ rest)) (w ++ rest) = _
      rw [hforward, ih (fun d hd => hw d (List.mem_cons_of_mem c hd)) _ hnext,
        Cursor.skip_skip, List.length_cons, Nat.add_comm 1, List.reverse_cons, List.append_assoc]
      rfl
    · rintro _ rfl
      exact absurd hc (by decide)

theorem readPlain_colon (done : List Char) (hrest : atGap rest) (hplace : place.rest = ':' :: rest)
    (block : ctx.inFlow = false) :
    readPlain ctx done none place (':' :: rest) = some (.of done place) := by
  have hplace' : { place with rest := ':' :: rest } = place := by rw [← hplace]
  rw [readPlain]
  · simp [isBlank, isBreak, isBadColon, endsPlain, block, hrest, hplace']
  · simp

/-- Behind a break, the margin of the next line is passed, and what stands behind it ends the scalar
unless it is deeper than the collection that holds the scalar. -/
theorem readPlain_margin {g : Gap} {m : Nat} {c : Char} {cs : List Char} (broken : g.broken)
    (done : List Char) (opening : isOpening c) (h : place.column + m < ctx.indent)
    (block : ctx.inFlow = false) :
    readPlain ctx done (some g) place (List.replicate m ' ' ++ c :: cs) = some (.of done
      { place with rest := c :: cs, index := place.index + m, column := place.column + m }
      true) := by
  induction m generalizing place with
  | zero =>
    obtain ⟨hblank, hbreak, -⟩ := isOpening_iff.mp opening
    rw [Nat.add_zero] at h
    rw [List.replicate_zero, List.nil_append, readPlain]
    · simp [hblank, hbreak, endsAfterGap, block, h, broken]
    · rintro _ rfl
      exact absurd hbreak (by decide)
  | succ m ih =>
    have hcolumn : (place.forward (List.replicate m ' ' ++ c :: cs)).column + m < ctx.indent := by
      change place.column + 1 + m < ctx.indent
      omega
    have hnext := ih hcolumn
    rw [List.replicate_succ, List.cons_append, readPlain]
    · simp only [isBlank, decide_true, Bool.true_or, if_true]
      change readPlain ctx done (some (g.addBlank ' ')) _ _ = _
      rw [Gap.addBlank, if_pos broken, hnext]
      simp [Cursor.forward, Nat.add_assoc, Nat.add_comm 1]
    · simp

theorem readPlain_break {limit : Option Nat} {text : List Char} (done : List Char)
    (h : StartsLine limit text) (hindent : ctx.indent = limit.elim 0 (· + 1))
    (block : ctx.inFlow = false) :
    readPlain ctx done none place ('\n' :: text) = some (.of done
      { rest := body text, index := place.index + 1 + margin text, line := place.line + 1
        column := margin text } true) := by
  rw [readPlain]
  · simp only [isBlank, isBreak]
    cases h with
    | nothing => simp [Gap.addBreak, Cursor.nextLine, body, margin]
    | @line m i c cs opening hlimit h =>
      have hspace := ne_space_of_isOpening opening
      have hcolumn : m < ctx.indent := by
        rw [hindent, hlimit]
        exact Nat.lt_succ_of_le h
      simp [readPlain_margin, opening, block, hcolumn, Gap.addBreak, Cursor.nextLine,
        margin_line hspace, body_line hspace]
  · simp

end Plain

/-! Between quotes, blanks are kept back until it is known that no break follows them. -/

/-- What was read between quotes, the latest first: the text so far and the blanks kept back. -/
def taken (done : List Char) (gap : Gap) : List Char := gap.blanks ++ done

section SingleQuoted

variable {place : Cursor} {gap : Gap} {c : Char} {cs rest : List Char}

attribute [local simp] readSingleQuoted

theorem Gap.folded_of_unbroken (h : gap.broken = false) : gap.folded = gap.blanks := by
  simp [Gap.folded, h]

theorem ne_of_isBreak {d : Char} (h : isBreak c = false) (hd : isBreak d) : c ≠ d := by
  rintro rfl
  exact absurd hd (Bool.eq_false_iff.mp h)

theorem readSingleQuoted_char (hbreak : isBreak c = false) (done : List Char)
    (unbroken : gap.broken = false) (inside : 0 < place.column)
    (hplace : place.rest = singleQuoteChar c ++ rest) : ∃ done' gap', gap'.broken = false ∧
      taken done' gap' = c :: taken done gap ∧
      readSingleQuoted done gap place (singleQuoteChar c ++ rest) =
        readSingleQuoted done' gap' (place.skip (singleQuoteChar c).length) rest := by
  have hfolded := Gap.folded_of_unbroken unbroken
  unfold singleQuoteChar at hplace ⊢
  by_cases hquote : c = '\''
  · subst hquote
    refine ⟨'\'' :: taken done gap, {}, rfl, rfl, ?_⟩
    rw [if_pos rfl, List.cons_append, List.cons_append, readSingleQuoted, hfolded]
    rfl
  · rw [if_neg hquote, List.singleton_append] at hplace
    have hforward := Cursor.forward_eq_skip hplace
    have hreturn : c ≠ '\r' := ne_of_isBreak hbreak rfl
    rw [if_neg hquote, List.singleton_append, readSingleQuoted, hforward]
    · by_cases hblank : isBlank c
      · refine ⟨done, { gap with blanks := c :: gap.blanks }, unbroken, rfl, ?_⟩
        rw [if_pos hblank, Gap.addBlank, unbroken]
        rfl
      · have hcolumn : place.column ≠ 0 := Nat.ne_of_gt inside
        refine ⟨c :: taken done gap, {}, rfl, rfl, ?_⟩
        simp only [hblank, hbreak, hcolumn, hfolded, decide_false, Bool.false_and,
          Bool.false_eq_true, if_false]
        rfl
    · exact fun _ h => absurd h hquote
    · exact hquote
    · exact fun _ h => absurd h hreturn

theorem readSingleQuoted_chars (hcs : ∀ c ∈ cs, isBreak c = false) (hrest : rest.head? ≠ some '\'')
    (done : List Char) (unbroken : gap.broken = false) (inside : 0 < place.column)
    (hplace : place.rest = cs.flatMap singleQuoteChar ++ '\'' :: rest) :
    readSingleQuoted done gap place (cs.flatMap singleQuoteChar ++ '\'' :: rest) =
      some (.of (cs.reverse ++ taken done gap)
        (place.skip ((cs.flatMap singleQuoteChar).length + 1))) := by
  induction cs generalizing done gap place with
  | nil =>
    rw [List.flatMap_nil, List.nil_append] at hplace ⊢
    rw [readSingleQuoted, Gap.folded_of_unbroken unbroken, Cursor.forward_eq_skip hplace]
    · rfl
    · rintro _ rfl
      exact hrest rfl
  | cons c cs ih =>
    rw [List.flatMap_cons, List.append_assoc] at hplace ⊢
    obtain ⟨done', gap', unbroken', htaken, hchar⟩ :=
      readSingleQuoted_char (hcs c List.mem_cons_self) done unbroken inside hplace
    rw [hchar, ih (fun d hd => hcs d (List.mem_cons_of_mem c hd)) done' unbroken'
      (Nat.lt_of_lt_of_le inside (Nat.le_add_right ..)) (Cursor.rest_skip hplace), htaken,
      Cursor.skip_skip]
    simp [Nat.add_assoc]

end SingleQuoted

section DoubleQuoted

variable {place : Cursor} {gap : Gap} {c : Char} {cs rest : List Char}

attribute [local simp] readDoubleQuoted

/-- The number that digits of base sixteen denote behind those of another one. -/
def ofHex (n : Nat) (ds : List Char) : Nat :=
  ds.foldl (fun n c => n * 16 + (hexValue? c).getD 0) n

def IsHex (c : Char) : Prop := (hexValue? c).isSome

theorem ofHex_append (n : Nat) (ds more : List Char) :
    ofHex n (ds ++ more) = ofHex (ofHex n ds) more :=
  List.foldl_append

theorem hexValue?_digitChar : ∀ n < 16, hexValue? n.digitChar = some n := by
  decide

theorem hexDigits_of_le {n : Nat} (h : 16 ≤ n) :
    Text.hexDigits n = Text.hexDigits (n / 16) ++ [(n % 16).digitChar] :=
  Nat.toDigits_of_base_le (by decide) h

theorem ofHex_hexDigits (n : Nat) :
    ofHex 0 (Text.hexDigits n) = n ∧ ∀ c ∈ Text.hexDigits n, IsHex c := by
  induction n using Nat.strongRecOn with
  | ind n ih =>
    by_cases hn : n < 16
    · rw [Text.hexDigits, Nat.toDigits_of_lt_base hn]
      simp [ofHex, IsHex, hexValue?_digitChar n hn]
    · have hmod := hexValue?_digitChar (n % 16) (Nat.mod_lt n (by decide))
      obtain ⟨hvalue, hdigits⟩ := ih (n / 16) (by omega)
      rw [hexDigits_of_le (Nat.le_of_not_lt hn)]
      constructor
      · rw [ofHex_append, hvalue, ofHex, List.foldl_cons, List.foldl_nil, hmod]
        exact Nat.div_add_mod' n 16
      · simpa [or_imp, forall_and, IsHex, hmod] using hdigits

theorem paddedHex_digits {width n : Nat} (hpos : 0 < width) (h : n < 16 ^ width) :
    ofHex 0 (paddedHex width n) = n ∧ (∀ c ∈ paddedHex width n, IsHex c) ∧
      (paddedHex width n).length = width := by
  obtain ⟨hvalue, hdigits⟩ := ofHex_hexDigits n
  have hlength : (Text.hexDigits n).length ≤ width :=
    (Nat.length_toDigits_le_iff (by decide) hpos).mpr h
  have hzeros (m : Nat) : ofHex 0 (List.replicate m '0') = 0 := by
    induction m with
    | zero => rfl
    | succ m ih => exact ih
  refine ⟨?_, ?_, ?_⟩
  · rw [paddedHex, ofHex_append, hzeros, hvalue]
  · intro c hc
    rcases List.mem_append.mp hc with hc | hc
    · rw [(List.mem_replicate.mp hc).2]
      rfl
    · exact hdigits c hc
  · rw [paddedHex, List.length_append, List.length_replicate]
    omega

/-- The digits of an escaped code point. -/
theorem readDoubleQuoted_code {ds : List Char} {value : Nat} (hds : ∀ c ∈ ds, IsHex c)
    (hne : ds ≠ []) (hvalue : charOf? (ofHex value ds) = some c) (done : List Char)
    (hplace : place.rest = ds ++ rest) :
    readDoubleQuoted done gap (.code ds.length value) place (ds ++ rest) =
      readDoubleQuoted (c :: done) {} .none (place.skip ds.length) rest := by
  induction ds generalizing value gap place with
  | nil => exact absurd rfl hne
  | cons d ds ih =>
    obtain ⟨digit, hdigit⟩ := Option.isSome_iff_exists.mp (hds d List.mem_cons_self)
    have hreturn : d ≠ '\r' := by
      rintro rfl
      cases hdigit
    have hforward : place.forward (ds ++ rest) = place.skip 1 := Cursor.forward_eq_skip hplace
    rw [ofHex, List.foldl_cons, hdigit, Option.getD_some, ← ofHex] at hvalue
    rw [List.cons_append, readDoubleQuoted, hforward]
    -- The last digit completes the code point.
    · cases ds with
      | nil =>
        have hchar : charOf? (value * 16 + digit) = some c := hvalue
        simp only [hdigit, hchar, List.length_singleton, Nat.le_refl, if_true]
        rfl
      | cons d' ds =>
        have hleft : ¬ (d :: d' :: ds).length ≤ 1 := by simp
        have hnext : (place.skip 1).rest = d' :: ds ++ rest := by rw [Cursor.skip, hplace]; rfl
        simp only [hdigit, hleft, if_false]
        rw [List.length_cons, Nat.add_sub_cancel,
          ih (fun c hc => hds c (List.mem_cons_of_mem d hc)) (List.cons_ne_nil _ _) hvalue hnext,
          Cursor.skip_skip, Nat.add_comm 1]
    · exact fun _ h => absurd h hreturn

theorem charOf?_toNat (c : Char) : charOf? c.toNat = some c := by
  have hvalid : c.toNat.isValidChar := c.valid
  rw [charOf?, if_pos hvalid, Char.ofNat_toNat]

/-! A character as it is escaped: by a letter of its own, or by its code point. -/

section Escaped

variable {e : Char} (done : List Char) (unbroken : gap.broken = false) (inside : 0 < place.column)
include unbroken inside

theorem readDoubleQuoted_backslash (hplace : place.rest = '\\' :: rest) :
    readDoubleQuoted done gap .none place ('\\' :: rest) =
      readDoubleQuoted (taken done gap) {} .begun (place.skip 1) rest := by
  have hcolumn : place.column ≠ 0 := Nat.ne_of_gt inside
  rw [readDoubleQuoted, Cursor.forward_eq_skip hplace, Gap.folded_of_unbroken unbroken]
  · simp [isBlank, isBreak, hcolumn, taken]
  · simp

theorem readDoubleQuoted_letter (he : escape? e = some c) (hbreak : isBreak e = false)
    (hplace : place.rest = '\\' :: e :: rest) :
    readDoubleQuoted done gap .none place ('\\' :: e :: rest) =
      readDoubleQuoted (c :: taken done gap) {} .none (place.skip 2) rest := by
  have hreturn : e ≠ '\r' := ne_of_isBreak hbreak rfl
  have hnext : (place.skip 1).rest = e :: rest := by rw [Cursor.skip, hplace]; rfl
  rw [readDoubleQuoted_backslash done unbroken inside hplace, readDoubleQuoted,
    Cursor.forward_eq_skip hnext, Cursor.skip_skip]
  · simp only [hbreak, he, Bool.false_eq_true, if_false]
  · exact fun _ h => absurd h hreturn

theorem readDoubleQuoted_padded {width : Nat} (he : escape? e = none)
    (hlength : codeLength? e = some width) (hbreak : isBreak e = false) (hpos : 0 < width)
    (h : c.toNat < 16 ^ width)
    (hplace : place.rest = '\\' :: e :: (paddedHex width c.toNat ++ rest)) :
    readDoubleQuoted done gap .none place ('\\' :: e :: (paddedHex width c.toNat ++ rest)) =
      readDoubleQuoted (c :: taken done gap) {} .none
        (place.skip ((paddedHex width c.toNat).length + 2)) rest := by
  obtain ⟨hvalue, hdigits, hwidth⟩ := paddedHex_digits hpos h
  generalize paddedHex width c.toNat = ds at hplace hvalue hdigits hwidth ⊢
  have hreturn : e ≠ '\r' := ne_of_isBreak hbreak rfl
  have hne : ds ≠ [] := List.ne_nil_of_length_pos (hwidth ▸ hpos)
  have hletter : (place.skip 1).rest = e :: (ds ++ rest) := by rw [Cursor.skip, hplace]; rfl
  have hcode : (place.skip 2).rest = ds ++ rest := by rw [Cursor.skip, hplace]; rfl
  rw [readDoubleQuoted_backslash done unbroken inside hplace, readDoubleQuoted,
    Cursor.forward_eq_skip hletter, Cursor.skip_skip]
  · simp only [hbreak, he, hlength, Bool.false_eq_true, if_false]
    rw [← hwidth, readDoubleQuoted_code hdigits hne (hvalue ▸ charOf?_toNat c) _ hcode,
      Cursor.skip_skip, Nat.add_comm 2]
  · exact fun _ h => absurd h hreturn

end Escaped

/-- A character that stands for itself. -/
theorem readDoubleQuoted_self (hquote : c ≠ '"') (hslash : c ≠ '\\') (hbreak : isBreak c = false)
    (done : List Char) (unbroken : gap.broken = false) (inside : 0 < place.column)
    (hplace : place.rest = c :: rest) : ∃ done' gap', gap'.broken = false ∧
      taken done' gap' = c :: taken done gap ∧
      readDoubleQuoted done gap .none place (c :: rest) =
        readDoubleQuoted done' gap' .none (place.skip 1) rest := by
  have hcolumn : place.column ≠ 0 := Nat.ne_of_gt inside
  have hreturn : c ≠ '\r' := ne_of_isBreak hbreak rfl
  rw [readDoubleQuoted, Cursor.forward_eq_skip hplace]
  · by_cases hblank : isBlank c
    · refine ⟨done, { gap with blanks := c :: gap.blanks }, unbroken, rfl, ?_⟩
      simp [hquote, hblank, Gap.addBlank, unbroken]
    · refine ⟨c :: taken done gap, {}, rfl, rfl, ?_⟩
      simp [hquote, hslash, hblank, hbreak, hcolumn, taken, Gap.folded_of_unbroken unbroken]
  · exact fun _ h => absurd h hreturn

theorem readDoubleQuoted_char (c : Char) (done : List Char) (unbroken : gap.broken = false)
    (inside : 0 < place.column) (hplace : place.rest = doubleQuoteChar c ++ rest) :
    ∃ done' gap', gap'.broken = false ∧ taken done' gap' = c :: taken done gap ∧
      readDoubleQuoted done gap .none place (doubleQuoteChar c ++ rest) =
        readDoubleQuoted done' gap' .none (place.skip (doubleQuoteChar c).length) rest := by
  have hmost : c.toNat < 16 ^ 8 := by
    have hvalid : c.toNat.isValidChar := c.valid
    have hbound : c.toNat < 0x110000 := hvalid.elim (fun h => Nat.lt_trans h (by decide)) And.right
    exact Nat.lt_trans hbound (by decide)
  unfold doubleQuoteChar at hplace ⊢
  split_ifs at hplace ⊢ with hquote hslash hshown hshort hmiddle
  · exact ⟨c :: taken done gap, {}, rfl, rfl,
      readDoubleQuoted_letter done unbroken inside (by rw [hquote]; rfl) rfl hplace⟩
  · exact ⟨c :: taken done gap, {}, rfl, rfl,
      readDoubleQuoted_letter done unbroken inside (by rw [hslash]; rfl) rfl hplace⟩
  · have hbreak : isBreak c = false := by
      rw [Bool.and_eq_true, Bool.not_eq_true', Bool.not_eq_true'] at hshown
      exact hshown.2
    exact readDoubleQuoted_self hquote hslash hbreak done unbroken inside hplace
  · exact ⟨c :: taken done gap, {}, rfl, rfl,
      readDoubleQuoted_padded done unbroken inside rfl rfl rfl (by decide) hshort hplace⟩
  · exact ⟨c :: taken done gap, {}, rfl, rfl,
      readDoubleQuoted_padded done unbroken inside rfl rfl rfl (by decide) hmiddle hplace⟩
  · exact ⟨c :: taken done gap, {}, rfl, rfl,
      readDoubleQuoted_padded done unbroken inside rfl rfl rfl (by decide) hmost hplace⟩

theorem readDoubleQuoted_chars (done : List Char) (unbroken : gap.broken = false)
    (inside : 0 < place.column)
    (hplace : place.rest = cs.flatMap doubleQuoteChar ++ '"' :: rest) :
    readDoubleQuoted done gap .none place (cs.flatMap doubleQuoteChar ++ '"' :: rest) =
      some (.of (cs.reverse ++ taken done gap)
        (place.skip ((cs.flatMap doubleQuoteChar).length + 1))) := by
  induction cs generalizing done gap place with
  | nil =>
    rw [List.flatMap_nil, List.nil_append] at hplace ⊢
    rw [readDoubleQuoted, Gap.folded_of_unbroken unbroken, Cursor.forward_eq_skip hplace]
    · rfl
    · simp
  | cons c cs ih =>
    rw [List.flatMap_cons, List.append_assoc] at hplace ⊢
    obtain ⟨done', gap', unbroken', htaken, hchar⟩ :=
      readDoubleQuoted_char c done unbroken inside hplace
    rw [hchar, ih done' unbroken' (Nat.lt_of_lt_of_le inside (Nat.le_add_right ..))
      (Cursor.rest_skip hplace), htaken, Cursor.skip_skip]
    simp [Nat.add_assoc]

end DoubleQuoted

end Arbiter.Yaml
