import Arbiter.Proofs.Yaml.Tokens

/-!
The tokens of a written text. It holds no character that no text may hold, since those that have no
picture are written as escapes, so it is scanned from its first line to its end.
-/

namespace Arbiter.Yaml

open Document

section Chars

variable {c : Char}

theorem isAllowed_of_printable (h : 0x20 ≤ c.toNat ∧ c.toNat ≤ 0x7E) : isAllowed c := by
  simp [isAllowed, h.1, h.2]

theorem isAllowed_of_between (first last : Char) (hfirst : 0x20 ≤ first.toNat)
    (hlast : last.toNat ≤ 0x7E) (h : first ≤ c ∧ c ≤ last) : isAllowed c :=
  isAllowed_of_printable ⟨Nat.le_trans hfirst h.1, Nat.le_trans h.2 hlast⟩

theorem isAllowed_of_isWord (h : isWord c) : isAllowed c := by
  have hclass : ((c.isUpper || c.isLower || c.isDigit) || c = '_' || c = '-') = true := h
  simp only [Bool.or_eq_true, decide_eq_true_iff] at hclass
  have hbetween {first last : Char} (h : (decide (first ≤ c) && decide (c ≤ last)) = true) :
      first ≤ c ∧ c ≤ last := by
    simpa using h
  rcases hclass with (((hupper | hlower) | hdigit) | rfl) | rfl
  · exact isAllowed_of_between 'A' 'Z' (by decide) (by decide) (of_decide_eq_true hupper)
  · exact isAllowed_of_between 'a' 'z' (by decide) (by decide) (hbetween hlower)
  · exact isAllowed_of_between '0' '9' (by decide) (by decide) (hbetween hdigit)
  · rfl
  · rfl

theorem isAllowed_of_isHex (h : IsHex c) : isAllowed c := by
  unfold IsHex hexValue? at h
  split_ifs at h with hdigit hlower hupper
  · exact isAllowed_of_between '0' '9' (by decide) (by decide) hdigit
  · exact isAllowed_of_between 'a' 'f' (by decide) (by decide) hlower
  · exact isAllowed_of_between 'A' 'F' (by decide) (by decide) hupper
  · cases h

/-- Characters that are shown lie in no run of hidden ones. -/
theorem not_mem_run (first last : Nat) (hrun : (first, last) ∈ Text.hiddenRuns)
    (hfirst : 0x7F ≤ first) (h : Text.isHidden c = false) : c.toNat < first ∨ last < c.toNat := by
  by_contra hin
  rw [not_or, Nat.not_lt, Nat.not_lt] at hin
  unfold Text.isHidden at h
  split_ifs at h with hlow hprintable
  · omega
  · have hany := List.any_eq_false.mp h _ hrun
    exact hany (by simpa using hin)

theorem isAllowed_of_shown (h : Text.isHidden c = false) : isAllowed c := by
  have hcontrols := not_mem_run 0x7F 0xA0 (by decide +kernel) (by decide) h
  have hmark := not_mem_run 0xFEFD 0xFF00 (by decide +kernel) (by decide) h
  have hlast := not_mem_run 0xFFFE 0xFFFF (by decide +kernel) (by decide) h
  have hlow : 0x20 ≤ c.toNat := by
    by_contra hlow
    simp [Text.isHidden, Nat.lt_of_not_le hlow] at h
  simp only [isAllowed, Bool.or_eq_true, Bool.and_eq_true, decide_eq_true_iff]
  omega

end Chars

/-- All characters of a text are allowed. -/
def Allowed (cs : List Char) : Prop := ∀ c ∈ cs, isAllowed c

section Allowed

variable {cs more : List Char} {lines moreLines : List (List Char)}

theorem allowed_of_all (h : cs.all isAllowed) : Allowed cs :=
  List.all_eq_true.mp h

theorem allowed_append : Allowed (cs ++ more) ↔ Allowed cs ∧ Allowed more :=
  List.forall_mem_append

theorem allowed_cons {c : Char} : Allowed (c :: cs) ↔ isAllowed c ∧ Allowed cs :=
  List.forall_mem_cons

theorem allowed_flatMap {α : Type} {as : List α} {f : α → List Char}
    (h : ∀ a ∈ as, Allowed (f a)) : Allowed (as.flatMap f) := by
  intro c hc
  obtain ⟨a, ha, hc⟩ := List.mem_flatMap.mp hc
  exact h a ha c hc

theorem IsPlainWord.allowed (h : IsPlainWord cs) : Allowed cs :=
  fun c hc => isAllowed_of_isWord (h.word c hc)

theorem allowed_paddedHex (width n : Nat) : Allowed (paddedHex width n) := by
  intro c hc
  rcases List.mem_append.mp hc with hc | hc
  · rw [(List.mem_replicate.mp hc).2]
    rfl
  · exact isAllowed_of_isHex ((ofHex_hexDigits n).2 c hc)

theorem allowed_doubleQuoteChar (c : Char) : Allowed (doubleQuoteChar c) := by
  have hescape (e : Char) (he : isAllowed e) (width : Nat) :
      Allowed ('\\' :: e :: paddedHex width c.toNat) :=
    allowed_cons.mpr ⟨rfl, allowed_cons.mpr ⟨he, allowed_paddedHex _ _⟩⟩
  unfold doubleQuoteChar
  split_ifs with hquote hslash hshown
  · exact allowed_of_all rfl
  · exact allowed_of_all rfl
  · rw [Bool.and_eq_true, Bool.not_eq_true'] at hshown
    exact allowed_cons.mpr ⟨isAllowed_of_shown hshown.1, nofun⟩
  · exact hescape 'x' rfl 2
  · exact hescape 'u' rfl 4
  · exact hescape 'U' rfl 8

theorem allowed_singleQuoteChar {c : Char} (h : isAllowed c) : Allowed (singleQuoteChar c) := by
  unfold singleQuoteChar
  split_ifs
  · exact allowed_of_all rfl
  · exact allowed_cons.mpr ⟨h, nofun⟩

theorem Written.allowed {s : String} {style : Style} (h : Written s style cs) : Allowed cs := by
  cases h with
  | plain h => exact h.allowed
  | single h =>
    have hchars : Allowed (s.toList.flatMap singleQuoteChar) := allowed_flatMap fun c hc => by
      have hshown := List.all_eq_true.mp h c hc
      rw [Bool.and_eq_true, Bool.not_eq_true'] at hshown
      exact allowed_singleQuoteChar (isAllowed_of_shown hshown.1)
    exact allowed_cons.mpr ⟨rfl, allowed_append.mpr ⟨hchars, allowed_of_all rfl⟩⟩
  | double =>
    have hchars : Allowed (s.toList.flatMap doubleQuoteChar) :=
      allowed_flatMap fun c _ => allowed_doubleQuoteChar c
    exact allowed_cons.mpr ⟨rfl, allowed_append.mpr ⟨hchars, allowed_of_all rfl⟩⟩

theorem OneLine.allowed {ts : List Token} (h : OneLine cs ts) : Allowed cs := by
  cases h with
  | scalar h => exact h.allowed
  | brackets h hcs =>
    subst hcs
    cases h <;> exact allowed_of_all rfl

/-- All characters of some lines are allowed. -/
def AllowedLines (lines : List (List Char)) : Prop := ∀ cs ∈ lines, Allowed cs

theorem AllowedLines.append (h : AllowedLines lines) (hmore : AllowedLines moreLines) :
    AllowedLines (lines ++ moreLines) :=
  List.forall_mem_append.mpr ⟨h, hmore⟩

theorem AllowedLines.indent (h : AllowedLines lines) : AllowedLines (Yaml.indent lines) := by
  intro cs hcs
  obtain ⟨line, hline, rfl⟩ := List.mem_map.mp hcs
  exact allowed_cons.mpr ⟨rfl, allowed_cons.mpr ⟨rfl, h line hline⟩⟩

theorem AllowedLines.itemBlock (h : AllowedLines lines) : AllowedLines (Yaml.itemBlock lines) := by
  cases lines with
  | nil => exact List.forall_mem_singleton.mpr (allowed_of_all rfl)
  | cons first rest =>
    obtain ⟨hfirst, hrest⟩ := List.forall_mem_cons.mp h
    exact List.forall_mem_cons.mpr ⟨allowed_cons.mpr ⟨rfl, allowed_cons.mpr ⟨rfl, hfirst⟩⟩,
      AllowedLines.indent hrest⟩

theorem AllowedLines.fieldBlock (h : AllowedLines lines) (name : String) (d : Datum) :
    AllowedLines (Yaml.fieldBlock name d lines) := by
  have hkey : Allowed (scalarChars name ++ [':']) :=
    allowed_append.mpr ⟨(written_scalarChars name).allowed, allowed_of_all rfl⟩
  have hflatten : Allowed (' ' :: lines.flatten) := by
    refine allowed_cons.mpr ⟨rfl, fun c hc => ?_⟩
    obtain ⟨line, hline, hc⟩ := List.mem_flatten.mp hc
    exact h line hline c hc
  unfold Yaml.fieldBlock
  split
  · exact List.forall_mem_singleton.mpr (allowed_append.mpr ⟨hkey, hflatten⟩)
  · split
    · exact List.forall_mem_cons.mpr ⟨hkey, h⟩
    · exact List.forall_mem_cons.mpr ⟨hkey, h.indent⟩

theorem allowedLines_of_isInline {d : Datum} (h : isInline d) : AllowedLines (blockLines d) := by
  rw [blockLines_of_isInline h]
  exact List.forall_mem_singleton.mpr (oneLine_of_isInline h true).allowed

mutual

theorem allowed_blockLines : (d : Datum) → AllowedLines (blockLines d)
  | .null | .flag _ | .integer _ | .text _ | .list [] | .record [] => allowedLines_of_isInline rfl
  | .list (d :: ds) => (allowed_blockLines d).itemBlock.append (allowed_itemLines ds)
  | .record ((name, d) :: fs) =>
    ((allowed_blockLines d).fieldBlock name d).append (allowed_fieldLines fs)
termination_by structural d => d

theorem allowed_itemLines : (ds : List Datum) → AllowedLines (itemLines ds)
  | [] => nofun
  | d :: ds => (allowed_blockLines d).itemBlock.append (allowed_itemLines ds)
termination_by structural ds => ds

theorem allowed_fieldLines : (fs : List (String × Datum)) → AllowedLines (fieldLines fs)
  | [] => nofun
  | (name, d) :: fs => ((allowed_blockLines d).fieldBlock name d).append (allowed_fieldLines fs)
termination_by structural fs => fs

end

theorem all_isAllowed_render (d : Datum) : (render d).toList.all isAllowed := by
  rw [render, String.toList_ofList]
  refine List.all_eq_true.mpr (allowed_flatMap fun cs hcs => ?_)
  exact allowed_append.mpr ⟨allowed_blockLines d cs hcs, allowed_of_all rfl⟩

end Allowed

theorem Scan.Awaits.runFor_end {s : Scan} {least : Nat} {toks : List Token}
    (h : Awaits [] [] least toks s) (fuel : Nat) :
    s.runFor (fuel + 1) = toks.reverse ++ [.streamEnd] := by
  obtain ⟨inner, ts, hrests, -, rfl⟩ := h
  rw [hrests.runFor_end]
  simp [List.map_const']

/-- The scan of a text that begins with something begins there. -/
theorem Leads.ready_start {lines : List (List Char)} (h : Leads lines) :
    Scan.Ready (hanging 0 lines ++ []) 0 [] true [] { cursor := { rest := hanging 0 lines } } := by
  obtain ⟨-, hmargin, hbody⟩ := h.line 0 []
  have hpassed :
      Scan.Passed (laidOut 0 lines ++ []) [] [] { cursor := { rest := hanging 0 lines } } :=
    ⟨by rw [hbody, List.append_nil], hmargin.symm, rfl, ⟨none, rfl, nofun⟩, rfl, rfl⟩
  exact ((Scan.Rests.passed hpassed).awaits 1).ready h (fun _ hi => absurd hi List.not_mem_nil)

/-- A mark of the encoding is not allowed inside of a text, so none is passed over. -/
theorem tokens_of_allowed {s : String} (h : s.toList.all isAllowed) :
    tokens s = Scan.runFor (s.toList.length + 1) { cursor := { rest := s.toList } } := by
  unfold tokens
  dsimp only
  split
  next rest hrest =>
    rw [hrest] at h
    exact absurd h (by simp [isAllowed])
  next => rw [if_pos h]

theorem tokens_render (d : Datum) (h : ∀ name ∈ namesIn d, FitsKey name) :
    tokens (render d) = tokensOf false d ++ [.streamEnd] := by
  have houter : ∀ i ∈ ([] : List Nat), i < 0 := fun _ hi => absurd hi List.not_mem_nil
  obtain ⟨s', hreaches, hawaits⟩ :=
    (scans d h).block houter .nothing (leads_blockLines d).ready_start
  rw [tokens_of_allowed (all_isAllowed_render d), toList_render]
  obtain ⟨left, hleft, hrun⟩ := hreaches.runFor (Nat.lt_succ_self _)
  obtain ⟨fuel, rfl⟩ := Nat.exists_eq_add_of_lt hleft
  rw [hrun, hawaits.runFor_end]
  simp

end Arbiter.Yaml
