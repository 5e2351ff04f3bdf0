import Arbiter.Proofs.Yaml.Layout
import Arbiter.Proofs.Yaml.Steps

/-!
The tokens of a written datum. The scanner finds them one collection inside of the other: behind a
datum it stands before the next line, and the collections that the datum opened are open still,
since it is the margin of that line that ends them.
-/

namespace Arbiter.Yaml

open Document Scan

mutual

/-- The tokens of a datum. A list behind the name of a field begins with its first item, since it
stands no deeper than the name. -/
def tokensOf : Bool → Datum → List Token
  | _, .null => [.scalar .plain "null"]
  | _, .flag b => [.scalar .plain (if b then "true" else "false")]
  | _, .integer n => [.scalar .plain (Text.ofInt n)]
  | _, .text s => [.scalar (styleOf s) s]
  | _, .list [] => [.flowSequence, .flowSequenceEnd]
  | behindName, .list (d :: ds) =>
    let items := .blockEntry :: (tokensOf false d ++ itemTokens ds)
    if behindName then items else .blockSequence :: (items ++ [.blockEnd])
  | _, .record [] => [.flowMapping, .flowMappingEnd]
  | _, .record ((name, d) :: fs) =>
    .blockMapping :: (.key :: .scalar (styleOf name) name :: .value ::
      (tokensOf true d ++ fieldTokens fs) ++ [.blockEnd])
termination_by structural _ d => d

def itemTokens : List Datum → List Token
  | [] => []
  | d :: ds => .blockEntry :: (tokensOf false d ++ itemTokens ds)
termination_by structural ds => ds

def fieldTokens : List (String × Datum) → List Token
  | [] => []
  | (name, d) :: fs =>
    .key :: .scalar (styleOf name) name :: .value :: (tokensOf true d ++ fieldTokens fs)
termination_by structural fs => fs

end

mutual

/-- The names of all fields of a datum. -/
def namesIn : Datum → List String
  | .null | .flag _ | .integer _ | .text _ => []
  | .list ds => namesInItems ds
  | .record fs => namesInFields fs
termination_by structural d => d

def namesInItems : List Datum → List String
  | [] => []
  | d :: ds => namesIn d ++ namesInItems ds
termination_by structural ds => ds

def namesInFields : List (String × Datum) → List String
  | [] => []
  | (name, d) :: fs => name :: (namesIn d ++ namesInFields fs)
termination_by structural fs => fs

end

/-- Names that can be found to be keys: longer ones are given up before their colon is seen. -/
def FitsKey (name : String) : Prop := (scalarChars name).length ≤ 1024

instance : DecidablePred FitsKey := fun _ => inferInstanceAs (Decidable (_ ≤ _))

section Words

theorem isOpening_of_isWord {c : Char} (h : isWord c) : isOpening c :=
  isOpening_iff.mpr ⟨isBlank_of_isWord h, isBreak_of_isWord h, ne_of_isWord h rfl⟩

theorem Written.opening {s : String} {style : Style} {cs : List Char} (h : Written s style cs) :
    ∃ c rest, cs = c :: rest ∧ isOpening c := by
  cases h with
  | plain h =>
    obtain ⟨c, rest, hs, -⟩ := h.start
    exact ⟨c, rest, hs, isOpening_of_isWord (h.word c (hs ▸ List.mem_cons_self))⟩
  | single => exact ⟨_, _, rfl, by decide⟩
  | double => exact ⟨_, _, rfl, by decide⟩

theorem isWord_of_isDigit {c : Char} (h : Text.isDigit c) : isWord c := by
  have hdigit : c.isDigit := by
    rw [Char.isDigit, Bool.and_eq_true, decide_eq_true_iff, decide_eq_true_iff]
    exact Text.isDigit_iff.mp h
  simp [isWord, Char.isAlphanum, hdigit]

theorem isPlainWord_letter (c : Char) (cs : List Char) (h : (c :: cs).all isWord) (hc : c ≠ '-') :
    IsPlainWord (c :: cs) :=
  ⟨fun d hd => List.all_eq_true.mp h d hd, c, cs, rfl, fun hdash => absurd hdash hc⟩

theorem isPlainWord_natDigits (n : Nat) : IsPlainWord (Text.natDigits n) := by
  obtain ⟨c, cs, hcs, hc⟩ := Text.natDigits_eq_cons n
  refine ⟨fun d hd => isWord_of_isDigit (Text.isDigit_of_mem_natDigits hd), c, cs, hcs, ?_⟩
  rintro rfl
  exact absurd hc (by decide)

theorem isPlainWord_ofInt (n : Int) : IsPlainWord (Text.ofInt n).toList := by
  cases n with
  | ofNat n =>
    rw [Text.toList_ofInt_ofNat]
    exact isPlainWord_natDigits n
  | negSucc n =>
    obtain ⟨c, cs, hcs, hc⟩ := Text.natDigits_eq_cons (n + 1)
    rw [Text.toList_ofInt_negSucc]
    refine ⟨?_, '-', _, rfl, fun _ => ⟨c, cs, hcs, ?_⟩⟩
    · simpa [isWord] using (isPlainWord_natDigits (n + 1)).word
    · rintro rfl
      exact absurd hc (by decide)

end Words

section OneLine

/-- What stands on a line of its own is a scalar or an empty collection. -/
inductive OneLine (cs : List Char) : List Token → Prop where
  | scalar {s : String} {style : Style} (h : Written s style cs) : OneLine cs [.scalar style s]
  | brackets {first last : Char} {token endToken : Token} (h : Brackets first last token endToken)
    (hcs : cs = [first, last]) : OneLine cs [token, endToken]

theorem oneLine_of_isInline {d : Datum} (h : isInline d) (behindName : Bool) :
    OneLine (inlineChars d) (tokensOf behindName d) := by
  cases d with
  | null =>
    have hword : IsPlainWord "null".toList := isPlainWord_letter 'n' ['u', 'l', 'l'] rfl (by decide)
    exact .scalar (.plain hword)
  | flag b =>
    cases b with
    | false =>
      have hword : IsPlainWord "false".toList :=
        isPlainWord_letter 'f' ['a', 'l', 's', 'e'] rfl (by decide)
      exact .scalar (.plain hword)
    | true =>
      have hword : IsPlainWord "true".toList :=
        isPlainWord_letter 't' ['r', 'u', 'e'] rfl (by decide)
      exact .scalar (.plain hword)
  | integer n => exact .scalar (.plain (isPlainWord_ofInt n))
  | text s => exact .scalar (written_scalarChars s)
  | list ds =>
    obtain rfl := List.isEmpty_iff.mp h
    exact .brackets .list rfl
  | record fs =>
    obtain rfl := List.isEmpty_iff.mp h
    exact .brackets .record rfl

theorem OneLine.opening {cs : List Char} {ts : List Token} (h : OneLine cs ts) :
    ∃ c rest, cs = c :: rest ∧ isOpening c := by
  cases h with
  | scalar h => exact h.opening
  | brackets h hcs => exact ⟨_, _, hcs, by cases h <;> decide⟩

end OneLine

/-- The first line begins with something that is not passed over. -/
def Leads (lines : List (List Char)) : Prop :=
  ∃ c cs rest, lines = (c :: cs) :: rest ∧ isOpening c

theorem leads_fieldBlock (name : String) (d : Datum) (lines more : List (List Char)) :
    Leads (fieldBlock name d lines ++ more) := by
  obtain ⟨c, cs, hcs, opening⟩ := (written_scalarChars name).opening
  unfold fieldBlock
  rw [hcs]
  split
  · exact ⟨c, _, _, rfl, opening⟩
  · split <;> exact ⟨c, _, _, rfl, opening⟩

theorem leads_blockLines (d : Datum) : Leads (blockLines d) := by
  by_cases hinline : isInline d
  · obtain ⟨c, cs, hcs, opening⟩ := (oneLine_of_isInline hinline true).opening
    exact ⟨c, cs, [], by rw [blockLines_of_isInline hinline, hcs], opening⟩
  · match d with
    | .list (d :: ds) =>
      obtain ⟨first, rest, hlines⟩ := List.exists_cons_of_ne_nil (blockLines_ne_nil d)
      refine ⟨'-', ' ' :: first, indent rest ++ itemLines ds, ?_, by decide⟩
      rw [blockLines, hlines]
      rfl
    | .record ((name, d) :: fs) => exact leads_fieldBlock name d _ _

section Lines

variable {n : Nat} {lines : List (List Char)} {text : List Char}

theorem Leads.hanging_eq_cons (h : Leads lines) (n : Nat) (text : List Char) :
    ∃ c cs, hanging n lines ++ text = c :: cs ∧ isOpening c := by
  obtain ⟨c, cs, rest, rfl, opening⟩ := h
  exact ⟨c, _, rfl, opening⟩

/-- Lines that lead are a line for the scanner, whatever stands below them. -/
theorem Leads.line (h : Leads lines) (n : Nat) (text : List Char) :
    StartsLine (some n) (laidOut n lines ++ text) ∧ margin (laidOut n lines ++ text) = n ∧
      body (laidOut n lines ++ text) = hanging n lines ++ text := by
  obtain ⟨c, cs, hcs, opening⟩ := h.hanging_eq_cons n text
  have hspace := ne_space_of_isOpening opening
  obtain ⟨_, _, rest, hlines, -⟩ := h
  rw [laidOut_eq_hanging n (hlines ▸ List.cons_ne_nil _ _), List.append_assoc, hcs]
  exact ⟨.line opening rfl (Nat.le_refl n), margin_line hspace, body_line hspace⟩

theorem StartsLine.mono {limit : Option Nat} (h : StartsLine limit text)
    (hle : ∀ i ∈ limit, i ≤ n) : StartsLine (some n) text := by
  cases h with
  | nothing => exact .nothing
  | line opening hlimit hm => exact .line opening rfl (Nat.le_trans hm (hle _ hlimit))

end Lines

namespace Scan

variable {s : Scan} {n m column : Nat} {lines : List (List Char)} {text : List Char}
  {indents inner : List Nat} {keyAllowed : Bool} {ts toks : List Token}

/-- The scanner is before the next line, and the tokens are those that it will have found when it
knows which collections that line ends. -/
def Awaits (text : List Char) (indents : List Nat) (least : Nat) (toks : List Token)
    (s : Scan) : Prop :=
  ∃ inner ts, Rests text (inner ++ indents) ts s ∧ (∀ i ∈ inner, least ≤ i) ∧
    inner.map (fun _ => .blockEnd) ++ ts = toks

theorem Rests.awaits (h : Rests text indents ts s) (least : Nat) : Awaits text indents least ts s :=
  ⟨[], ts, h, nofun, rfl⟩

theorem Awaits.mono (h : Awaits text indents n toks s) (hle : m ≤ n) :
    Awaits text indents m toks s := by
  obtain ⟨inner, ts, hrests, hinner, htoks⟩ := h
  exact ⟨inner, ts, hrests, fun i hi => Nat.le_trans hle (hinner i hi), htoks⟩

/-- A collection that ends with the next line. -/
theorem Awaits.close (h : Awaits text (n :: indents) (n + 1) toks s) :
    Awaits text indents n (.blockEnd :: toks) s := by
  obtain ⟨inner, ts, hrests, hinner, rfl⟩ := h
  refine ⟨inner ++ [n], ts, by rwa [List.append_assoc, List.singleton_append], ?_, ?_⟩
  · intro i hi
    rcases List.mem_append.mp hi with hi | hi
    · exact Nat.le_of_succ_le (hinner i hi)
    · exact Nat.le_of_eq (List.mem_singleton.mp hi).symm
  · simp only [List.map_const', List.length_append, List.length_singleton, List.replicate_succ,
      List.cons_append]

/-- The next line begins a part of one of these collections. -/
theorem Awaits.ready (h : Awaits (laidOut n lines ++ text) indents (n + 1) toks s)
    (leads : Leads lines) (hopen : ∀ i ∈ indents, i ≤ n) :
    Ready (hanging n lines ++ text) n indents true toks s := by
  obtain ⟨inner, ts, hrests, hinner, rfl⟩ := h
  obtain ⟨hline, hmargin, hbody⟩ := leads.line n text
  have hready := hrests.ready hline (by rwa [hmargin]) (by rwa [hmargin])
  rwa [hmargin, hbody] at hready

/-- The lines below the name of a field. -/
theorem Stands.ready_below
    (h : Stands ('\n' :: (laidOut n lines ++ text)) column indents keyAllowed ts s)
    (leads : Leads lines) (hopen : ∀ i ∈ indents, i ≤ n) :
    Ready (hanging n lines ++ text) n indents true ts s := by
  have hrests : Rests (laidOut n lines ++ text) indents ts s :=
    .ended h.rest h.candidates nofun h.indents h.tokens
  exact (hrests.awaits (n + 1)).ready leads hopen

theorem Ready.oneLine {cs : List Char} (honeLine : OneLine cs toks)
    (h : Ready (cs ++ '\n' :: text) column indents keyAllowed ts s)
    (hdeeper : ∀ i ∈ indents, i < column) (htext : StartsLine indents.head? text) :
    ∃ s', Reaches s s' ∧ Rests text indents (toks.reverse ++ ts) s' := by
  cases honeLine with
  | scalar hwritten =>
    obtain ⟨s', hgoes, hrests⟩ := h.scalar hwritten hdeeper htext
    exact ⟨s', .single hgoes, hrests⟩
  | brackets hbrackets hcs =>
    subst hcs
    obtain ⟨s', hfirst, hbracketed⟩ := h.bracketed hbrackets hdeeper
    obtain ⟨s'', hlast, hrests⟩ := hbracketed.rests hbrackets
    exact ⟨s'', .tail (.single hfirst) hlast, hrests⟩

end Scan

section Scans

/-- The scanner finds the tokens of a datum behind the margin of its first line. -/
def ScansBlock (d : Datum) : Prop :=
  ∀ ⦃n : Nat⦄ ⦃text : List Char⦄ ⦃indents : List Nat⦄ ⦃ts : List Token⦄ ⦃s : Scan⦄,
    (∀ i ∈ indents, i < n) → StartsLine indents.head? text →
    Ready (hanging n (blockLines d) ++ text) n indents true ts s →
    ∃ s', Reaches s s' ∧ Awaits text indents n ((tokensOf false d).reverse ++ ts) s'

/-- The scanner finds the tokens of a datum behind the colon of a field. -/
def ScansValue (d : Datum) : Prop :=
  ∀ ⦃n column : Nat⦄ ⦃text : List Char⦄ ⦃indents : List Nat⦄ ⦃ts : List Token⦄ ⦃s : Scan⦄,
    indents.head? = some n → (∀ i ∈ indents, i ≤ n) → n < column → StartsLine (some n) text →
    Stands (behindColon n d ++ text) column indents false ts s →
    ∃ s', Reaches s s' ∧ Awaits text indents (n + 1) ((tokensOf true d).reverse ++ ts) s'

/-- The scanner finds the tokens of further parts of an open collection. -/
def ScansParts (lines : List (List Char)) (toks : List Token) : Prop :=
  ∀ ⦃n : Nat⦄ ⦃text : List Char⦄ ⦃indents : List Nat⦄ ⦃ts : List Token⦄ ⦃s : Scan⦄,
    indents.head? = some n → (∀ i ∈ indents, i ≤ n) → StartsLine (some n) text →
    Awaits (laidOut n lines ++ text) indents (n + 1) ts s →
    ∃ s', Reaches s s' ∧ Awaits text indents (n + 1) (toks.reverse ++ ts) s'

/-- The same with the first part, which may open the collection. -/
def ScansWhole (token : Token) (lines : List (List Char)) (toks : List Token) : Prop :=
  ∀ ⦃n : Nat⦄ ⦃text : List Char⦄ ⦃indents indents' : List Nat⦄ ⦃ts ts' : List Token⦄ ⦃s : Scan⦄,
    Opened token n indents ts indents' ts' → StartsLine (some n) text →
    Ready (hanging n lines ++ text) n indents true ts s →
    ∃ s', Reaches s s' ∧ Awaits text indents' (n + 1) (toks.reverse ++ ts') s'

variable {token : Token} {lines : List (List Char)} {toks : List Token} {d : Datum}

theorem scansParts_nil : ScansParts [] [] :=
  fun _ _ _ _ s _ _ _ h => ⟨s, .refl, h⟩

theorem ScansWhole.parts (h : ScansWhole token lines toks) (leads : Leads lines) :
    ScansParts lines toks :=
  fun _ _ _ _ _ hhead hopen htext hawaits =>
    h (.further hhead hopen) htext (hawaits.ready leads hopen)

/-- A collection that stands deeper than those around it. -/
theorem ScansWhole.block (h : ScansWhole token (blockLines d) toks)
    (htoks : tokensOf false d = token :: (toks ++ [.blockEnd])) : ScansBlock d := by
  intro n text indents ts s hdeeper htext hready
  have hlimit : ∀ i ∈ indents.head?, i ≤ n := fun i hi =>
    Nat.le_of_lt (hdeeper i (List.mem_of_head? hi))
  obtain ⟨s', hreaches, hawaits⟩ := h (.first hdeeper) (htext.mono hlimit) hready
  refine ⟨s', hreaches, ?_⟩
  -- What follows stands further out, so that the collection itself ends there as well.
  have hclosed := hawaits.close
  simpa [htoks] using hclosed

theorem scansBlock_of_isInline (h : isInline d) : ScansBlock d := by
  intro n text indents ts s hdeeper htext hready
  rw [blockLines_of_isInline h, hanging_singleton, List.append_assoc,
    List.singleton_append] at hready
  obtain ⟨s', hreaches, hrests⟩ := hready.oneLine (oneLine_of_isInline h false) hdeeper htext
  exact ⟨s', hreaches, hrests.awaits n⟩

theorem scansValue_of_isInline (h : isInline d) : ScansValue d := by
  intro n column text indents ts s hhead hopen hcolumn htext hstands
  have honeLine := oneLine_of_isInline h true
  obtain ⟨c, cs, hcs, opening⟩ := honeLine.opening
  have hbehind : behindColon n d ++ text = ' ' :: c :: (cs ++ '\n' :: text) := by
    rw [behindColon_of_isInline n h, hcs]
    simp
  rw [hbehind] at hstands
  have hready := hstands.ready_behind_space opening fun i hi => by
    have hle := hopen i hi
    omega
  rw [← List.cons_append, ← hcs] at hready
  obtain ⟨s', hreaches, hrests⟩ := hready.oneLine honeLine
    (fun i hi => by
      have hle := hopen i hi
      omega)
    (by rwa [hhead])
  exact ⟨s', hreaches, hrests.awaits (n + 1)⟩

theorem startsLine_items {n : Nat} {text : List Char} (htext : StartsLine (some n) text)
    (ds : List Datum) : StartsLine (some n) (laidOut n (itemLines ds) ++ text) := by
  cases ds with
  | nil => exact htext
  | cons d ds => exact ((leads_blockLines (.list (d :: ds))).line n text).1

theorem startsLine_fields {n : Nat} {text : List Char} (htext : StartsLine (some n) text)
    (fs : List (String × Datum)) : StartsLine (some n) (laidOut n (fieldLines fs) ++ text) := by
  cases fs with
  | nil => exact htext
  | cons f fs => exact ((leads_blockLines (.record (f :: fs))).line n text).1

theorem scansWhole_items {ds : List Datum} (hd : ScansBlock d)
    (hds : ScansParts (itemLines ds) (itemTokens ds)) :
    ScansWhole .blockSequence (blockLines (.list (d :: ds))) (itemTokens (d :: ds)) := by
  intro n text indents indents' ts ts' s hopened htext hready
  have hmore := startsLine_items htext ds
  obtain ⟨c, cs, hcs, opening⟩ := (leads_blockLines d).hanging_eq_cons (n + 2)
    (laidOut n (itemLines ds) ++ text)
  rw [hanging_list, List.cons_append, List.cons_append, List.append_assoc, hcs] at hready
  obtain ⟨s₁, hdash, hready⟩ := hready.dash hopened opening
  rw [← hcs] at hready
  have hhead := hopened.head?_eq
  have hdeeper : ∀ i ∈ indents', i < n + 2 := fun i hi =>
    Nat.lt_add_right 1 (Nat.lt_succ_of_le (hopened.le i hi))
  obtain ⟨s₂, hitem, hawaits⟩ := hd hdeeper (by rwa [hhead]) hready
  obtain ⟨s₃, hrest, hawaits⟩ := hds hhead hopened.le htext (hawaits.mono (Nat.le_succ (n + 1)))
  refine ⟨s₃, (Relation.ReflTransGen.head hdash hitem).trans hrest, ?_⟩
  simpa [itemTokens] using hawaits

theorem atGap_behindColon (n : Nat) (d : Datum) (text : List Char) :
    atGap (behindColon n d ++ text) := by
  unfold behindColon
  split
  · rfl
  · split <;> rfl

theorem scansWhole_fields {name : String} {fs : List (String × Datum)} (hname : FitsKey name)
    (hd : ScansValue d) (hfs : ScansParts (fieldLines fs) (fieldTokens fs)) :
    ScansWhole .blockMapping (blockLines (.record ((name, d) :: fs)))
      (fieldTokens ((name, d) :: fs)) := by
  intro n text indents indents' ts ts' s hopened htext hready
  have hmore := startsLine_fields htext fs
  have hgap := atGap_behindColon n d (laidOut n (fieldLines fs) ++ text)
  rw [hanging_record, List.append_assoc, List.cons_append, List.append_assoc] at hready
  -- Only the second step, at the colon, opens the record or finds it open.
  obtain ⟨s₁, hkey, hkeyed⟩ := hready.keyed (written_scalarChars name) hname hgap
  obtain ⟨s₂, hcolon, hstands⟩ := hkeyed.goes hgap hopened
  have hhead := hopened.head?_eq
  obtain ⟨s₃, hvalue, hawaits⟩ :=
    hd hhead hopened.le (Nat.lt_succ_of_le hkeyed.behind) hmore hstands
  obtain ⟨s₄, hrest, hawaits⟩ := hfs hhead hopened.le htext hawaits
  refine ⟨s₄, .head hkey (.head hcolon (hvalue.trans hrest)), ?_⟩
  simpa [fieldTokens] using hawaits

theorem ScansWhole.listValue {ds : List Datum}
    (h : ScansWhole .blockSequence (blockLines (.list (d :: ds))) (itemTokens (d :: ds))) :
    ScansValue (.list (d :: ds)) := by
  intro n column text indents ts s hhead hopen hcolumn htext hstands
  -- The items stand at the column of the name, where the record is open: they begin nothing.
  exact h (.further hhead hopen) htext (hstands.ready_below (leads_blockLines _) hopen)

theorem ScansBlock.recordValue {name : String} {fs : List (String × Datum)}
    (h : ScansBlock (.record ((name, d) :: fs))) : ScansValue (.record ((name, d) :: fs)) := by
  intro n column text indents ts s hhead hopen hcolumn htext hstands
  have hdeeper : ∀ i ∈ indents, i < n + 2 := fun i hi =>
    Nat.lt_add_right 1 (Nat.lt_succ_of_le (hopen i hi))
  obtain ⟨s', hreaches, hawaits⟩ := h hdeeper (by rwa [hhead])
    (hstands.ready_below (leads_blockLines _) fun i hi => Nat.le_of_lt (hdeeper i hi))
  exact ⟨s', hreaches, hawaits.mono (Nat.le_succ (n + 1))⟩

/-- The tokens of a datum are found wherever it may stand. -/
structure Scans (d : Datum) : Prop where
  block : ScansBlock d
  value : ScansValue d

theorem scans_of_isInline (h : isInline d) : Scans d :=
  ⟨scansBlock_of_isInline h, scansValue_of_isInline h⟩

mutual

theorem scans : (d : Datum) → (∀ name ∈ namesIn d, FitsKey name) → Scans d
  | .null, _ | .flag _, _ | .integer _, _ | .text _, _ | .list [], _ | .record [], _ =>
    scans_of_isInline rfl
  | .list (d :: ds), h =>
    have ⟨hd, hds⟩ := List.forall_mem_append.mp h
    have hwhole := scansWhole_items (scans d hd).block (scansItems ds hds)
    ⟨hwhole.block rfl, hwhole.listValue⟩
  | .record ((_, d) :: fs), h =>
    have ⟨hname, hmore⟩ := List.forall_mem_cons.mp h
    have ⟨hd, hfs⟩ := List.forall_mem_append.mp hmore
    have hwhole := scansWhole_fields hname (scans d hd).value (scansFields fs hfs)
    have hblock := hwhole.block rfl
    ⟨hblock, hblock.recordValue⟩
termination_by structural d => d

theorem scansItems : (ds : List Datum) → (∀ name ∈ namesInItems ds, FitsKey name) →
    ScansParts (itemLines ds) (itemTokens ds)
  | [], _ => scansParts_nil
  | d :: ds, h =>
    have ⟨hd, hds⟩ := List.forall_mem_append.mp h
    (scansWhole_items (scans d hd).block (scansItems ds hds)).parts
      (leads_blockLines (.list (d :: ds)))
termination_by structural ds => ds

theorem scansFields : (fs : List (String × Datum)) → (∀ name ∈ namesInFields fs, FitsKey name) →
    ScansParts (fieldLines fs) (fieldTokens fs)
  | [], _ => scansParts_nil
  | (name, d) :: fs, h =>
    have ⟨hname, hmore⟩ := List.forall_mem_cons.mp h
    have ⟨hd, hfs⟩ := List.forall_mem_append.mp hmore
    (scansWhole_fields hname (scans d hd).value (scansFields fs hfs)).parts
      (leads_blockLines (.record ((name, d) :: fs)))
termination_by structural fs => fs

end

end Scans

end Arbiter.Yaml
