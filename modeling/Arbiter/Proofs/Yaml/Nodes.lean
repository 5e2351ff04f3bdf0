import Arbiter.Proofs.Yaml.Printed

/-!
The node that the tokens of a written datum hold. The fuel of the parser is spent at most twice for
each token: once where the token is taken and once where a key or value is told from an empty place.
-/

namespace Arbiter.Yaml

open Document

mutual

/-- What the parser makes of a written datum. -/
def nodeOf : Datum → Node
  | .null => .scalar none .plain "null"
  | .flag b => .scalar none .plain (if b then "true" else "false")
  | .integer n => .scalar none .plain (Text.ofInt n)
  | .text s => .scalar none (styleOf s) s
  | .list ds => .sequence none (nodesOf ds) true
  | .record fs => .mapping none (membersOf fs) true
termination_by structural d => d

def nodesOf : List Datum → List Node
  | [] => []
  | d :: ds => nodeOf d :: nodesOf ds
termination_by structural ds => ds

def membersOf : List (String × Datum) → List (Node × Node)
  | [] => []
  | (name, d) :: fs => (.scalar none (styleOf name) name, nodeOf d) :: membersOf fs
termination_by structural fs => fs

end

theorem nodesOf_eq (ds : List Datum) : nodesOf ds = ds.map nodeOf := by
  induction ds with
  | nil => rfl
  | cons d ds ih => rw [nodesOf, ih, List.map_cons]

theorem membersOf_eq (fs : List (String × Datum)) :
    membersOf fs = fs.map fun f => (.scalar none (styleOf f.1) f.1, nodeOf f.2) := by
  induction fs with
  | nil => rfl
  | cons f fs ih => rw [membersOf, ih, List.map_cons]

section Names

/-- Tokens that are not about names of nodes. -/
def isNameless : Token → Bool
  | .anchor _ | .alias _ => false
  | _ => true

theorem number_of_nameless {ts : List Token} (h : ts.all isNameless) (names : List (String × Nat)) :
    Part.number names ts = ts.map .token := by
  induction ts with
  | nil => rfl
  | cons t ts ih =>
    rw [List.all_cons, Bool.and_eq_true] at h
    cases t <;> simp_all [Part.number, isNameless]

mutual

theorem nameless_tokensOf : (behindName : Bool) → (d : Datum) →
    (tokensOf behindName d).all isNameless
  | _, .null | _, .flag _ | _, .integer _ | _, .text _ | _, .list [] | _, .record [] => rfl
  | behindName, .list (d :: ds) => by
    have hd := nameless_tokensOf false d
    have hds := nameless_itemTokens ds
    cases behindName <;> simp [tokensOf, isNameless, hd, hds]
  | _, .record ((_, d) :: fs) => by
    have hd := nameless_tokensOf true d
    have hfs := nameless_fieldTokens fs
    simp [tokensOf, isNameless, hd, hfs]
termination_by structural _ d => d

theorem nameless_itemTokens : (ds : List Datum) → (itemTokens ds).all isNameless
  | [] => rfl
  | d :: ds => by
    have hd := nameless_tokensOf false d
    have hds := nameless_itemTokens ds
    simp [itemTokens, isNameless, hd, hds]
termination_by structural ds => ds

theorem nameless_fieldTokens : (fs : List (String × Datum)) → (fieldTokens fs).all isNameless
  | [] => rfl
  | (_, d) :: fs => by
    have hd := nameless_tokensOf true d
    have hfs := nameless_fieldTokens fs
    simp [fieldTokens, isNameless, hd, hfs]
termination_by structural fs => fs

end

mutual

theorem names_nodeOf : (d : Datum) → (nodeOf d).names = []
  | .null | .flag _ | .integer _ | .text _ => rfl
  | .list ds => names_nodesOf ds
  | .record fs => names_membersOf fs
termination_by structural d => d

theorem names_nodesOf : (ds : List Datum) → namesOfItems (nodesOf ds) = []
  | [] => rfl
  | d :: ds => by rw [nodesOf, namesOfItems, names_nodeOf d, names_nodesOf ds, List.append_nil]
termination_by structural ds => ds

theorem names_membersOf : (fs : List (String × Datum)) → namesOfMembers (membersOf fs) = []
  | [] => rfl
  | (_, d) :: fs => by
    rw [membersOf, namesOfMembers, names_nodeOf d, names_membersOf fs, List.append_nil]
    rfl
termination_by structural fs => fs

end

end Names

section Steps

variable {handles : Handles} {fuel : Nat} {indentless : Bool} {parts rest : List Part}

/-- A node begins with these tokens. -/
inductive BeginsNode : List Part → Prop where
  | scalar (style : Style) (text : String) (rest : List Part) :
    BeginsNode (.token (.scalar style text) :: rest)
  | flowSequence (rest : List Part) : BeginsNode (.token .flowSequence :: rest)
  | flowMapping (rest : List Part) : BeginsNode (.token .flowMapping :: rest)
  | blockSequence (rest : List Part) : BeginsNode (.token .blockSequence :: rest)
  | blockMapping (rest : List Part) : BeginsNode (.token .blockMapping :: rest)

/-- The value of a field begins with these tokens, which may be the first item of a list. -/
inductive BeginsValue : List Part → Prop where
  | node {parts : List Part} (h : BeginsNode parts) : BeginsValue parts
  | entry (rest : List Part) : BeginsValue (.token .blockEntry :: rest)

/-- What follows the value of a field: another field, or the end of the record. -/
inductive FollowsValue : List Part → Prop where
  | key (rest : List Part) : FollowsValue (.token .key :: rest)
  | blockEnd (rest : List Part) : FollowsValue (.token .blockEnd :: rest)

theorem node_blockSequence {ns : List Node}
    (h : blockItems handles fuel parts = ⟨ns, true, rest⟩) :
    node handles (fuel + 1) true indentless (.token .blockSequence :: parts) =
      (.sequence none ns true, rest) := by
  change (Node.sequence none (blockItems handles fuel parts).items _, _) = _
  rw [h]

theorem node_blockMapping {ms : List (Node × Node)}
    (h : blockMembers handles fuel parts = ⟨ms, true, rest⟩) :
    node handles (fuel + 1) true indentless (.token .blockMapping :: parts) =
      (.mapping none ms true, rest) := by
  change (Node.mapping none (blockMembers handles fuel parts).items _, _) = _
  rw [h]

theorem node_entry {ns : List Node}
    (h : indentlessItems handles fuel (.token .blockEntry :: parts) = ⟨ns, true, rest⟩) :
    node handles (fuel + 1) true true (.token .blockEntry :: parts) =
      (.sequence none ns true, rest) := by
  change (Node.sequence none
    (indentlessItems handles fuel (.token .blockEntry :: parts)).items _, _) = _
  rw [h]

theorem blockItems_entry (h : BeginsNode parts) :
    blockItems handles (fuel + 1) (.token .blockEntry :: parts) =
      (blockItems handles fuel (node handles fuel true false parts).2).cons
        (node handles fuel true false parts).1 := by
  cases h <;> rfl

theorem indentlessItems_entry (h : BeginsNode parts) :
    indentlessItems handles (fuel + 1) (.token .blockEntry :: parts) =
      (indentlessItems handles fuel (node handles fuel true false parts).2).cons
        (node handles fuel true false parts).1 := by
  cases h <;> rfl

theorem indentlessItems_end (h : FollowsValue rest) :
    indentlessItems handles (fuel + 1) rest = .done rest := by
  cases h <;> rfl

theorem blockMembers_key (style : Style) (name : String) (h : BeginsValue parts) :
    blockMembers handles (fuel + 3)
      (.token .key :: .token (.scalar style name) :: .token .value :: parts) =
      (blockMembers handles (fuel + 2) (node handles (fuel + 1) true true parts).2).cons
        (.scalar none style name, (node handles (fuel + 1) true true parts).1) := by
  cases h with
  | node h => cases h <;> rfl
  | entry => rfl

theorem document_of_beginsNode (h : BeginsNode parts) :
    document fuel parts = node .standard fuel true false parts := by
  cases h <;> rfl

end Steps

theorem beginsNode_tokensOf (d : Datum) (rest : List Part) :
    BeginsNode ((tokensOf false d).map .token ++ rest) := by
  match d with
  | .null | .flag _ | .integer _ | .text _ => exact .scalar _ _ _
  | .list [] => exact .flowSequence _
  | .list (_ :: _) => exact .blockSequence _
  | .record [] => exact .flowMapping _
  | .record (_ :: _) => exact .blockMapping _

theorem beginsValue_tokensOf (d : Datum) (rest : List Part) :
    BeginsValue ((tokensOf true d).map .token ++ rest) := by
  match d with
  | .null | .flag _ | .integer _ | .text _ => exact .node (.scalar _ _ _)
  | .list [] => exact .node (.flowSequence _)
  | .list (_ :: _) => exact .entry _
  | .record [] => exact .node (.flowMapping _)
  | .record (_ :: _) => exact .node (.blockMapping _)

theorem followsValue_fields (fs : List (String × Datum)) (rest : List Part) :
    FollowsValue ((fieldTokens fs).map .token ++ .token .blockEnd :: rest) := by
  cases fs with
  | nil => exact .blockEnd _
  | cons f fs => exact .key _

theorem length_tokensOf_pos (d : Datum) : 0 < (tokensOf false d).length := by
  have h := beginsNode_tokensOf d []
  cases hts : tokensOf false d with
  | nil =>
    rw [hts] at h
    cases h
  | cons => exact Nat.succ_pos _

section Parses

variable (handles : Handles)

/-- The node of a datum is parsed wherever it may stand. -/
structure Parses (d : Datum) : Prop where
  block (fuel : Nat) (indentless : Bool) (rest : List Part)
    (h : 2 * (tokensOf false d).length ≤ fuel) :
    node handles fuel true indentless ((tokensOf false d).map .token ++ rest) = (nodeOf d, rest)
  value (fuel : Nat) {rest : List Part} (h : 2 * (tokensOf true d).length ≤ fuel)
    (hrest : FollowsValue rest) :
    node handles fuel true true ((tokensOf true d).map .token ++ rest) = (nodeOf d, rest)

variable {handles : Handles}

theorem blockItems_items {ds : List Datum} (hds : ∀ d ∈ ds, Parses handles d) (rest : List Part)
    {fuel : Nat} (hpos : 0 < fuel) (h : 2 * (itemTokens ds).length ≤ fuel + 1) :
    blockItems handles fuel ((itemTokens ds).map .token ++ .token .blockEnd :: rest) =
      ⟨nodesOf ds, true, rest⟩ := by
  induction ds generalizing fuel with
  | nil =>
    obtain ⟨fuel, rfl⟩ := Nat.exists_eq_add_of_lt hpos
    rfl
  | cons d ds ih =>
    obtain ⟨hd, hds⟩ := List.forall_mem_cons.mp hds
    have hlength := length_tokensOf_pos d
    rw [itemTokens, List.length_cons, List.length_append] at h
    obtain ⟨fuel, rfl⟩ : ∃ m, fuel = m + 1 := ⟨fuel - 1, by omega⟩
    rw [itemTokens, List.map_cons, List.map_append, List.cons_append, List.append_assoc,
      blockItems_entry (beginsNode_tokensOf d _), hd.block _ _ _ (by omega),
      ih hds (by omega) (by omega)]
    rfl

theorem indentlessItems_items {ds : List Datum} (hds : ∀ d ∈ ds, Parses handles d)
    {rest : List Part} (hrest : FollowsValue rest) {fuel : Nat} (hpos : 0 < fuel)
    (h : 2 * (itemTokens ds).length ≤ fuel + 1) :
    indentlessItems handles fuel ((itemTokens ds).map .token ++ rest) =
      ⟨nodesOf ds, true, rest⟩ := by
  induction ds generalizing fuel with
  | nil =>
    obtain ⟨fuel, rfl⟩ := Nat.exists_eq_add_of_lt hpos
    exact indentlessItems_end hrest
  | cons d ds ih =>
    obtain ⟨hd, hds⟩ := List.forall_mem_cons.mp hds
    have hlength := length_tokensOf_pos d
    rw [itemTokens, List.length_cons, List.length_append] at h
    obtain ⟨fuel, rfl⟩ : ∃ m, fuel = m + 1 := ⟨fuel - 1, by omega⟩
    rw [itemTokens, List.map_cons, List.map_append, List.cons_append, List.append_assoc,
      indentlessItems_entry (beginsNode_tokensOf d _), hd.block _ _ _ (by omega),
      ih hds (by omega) (by omega)]
    rfl

theorem blockMembers_fields {fs : List (String × Datum)} (hfs : ∀ f ∈ fs, Parses handles f.2)
    (rest : List Part) {fuel : Nat} (hpos : 0 < fuel) (h : 2 * (fieldTokens fs).length ≤ fuel + 1) :
    blockMembers handles fuel ((fieldTokens fs).map .token ++ .token .blockEnd :: rest) =
      ⟨membersOf fs, true, rest⟩ := by
  induction fs generalizing fuel with
  | nil =>
    obtain ⟨fuel, rfl⟩ := Nat.exists_eq_add_of_lt hpos
    rfl
  | cons f fs ih =>
    obtain ⟨name, d⟩ := f
    obtain ⟨hd, hfs⟩ := List.forall_mem_cons.mp hfs
    have hd : Parses handles d := hd
    simp only [fieldTokens, List.length_cons, List.length_append] at h
    -- The key takes three units of fuel on its way down, of which one is gone for good.
    obtain ⟨fuel, rfl⟩ : ∃ m, fuel = m + 3 := ⟨fuel - 3, by omega⟩
    simp only [fieldTokens, List.map_cons, List.map_append, List.cons_append, List.append_assoc]
    rw [blockMembers_key _ _ (beginsValue_tokensOf d _),
      hd.value _ (by omega) (followsValue_fields fs rest), ih hfs (by omega) (by omega)]
    rfl

/-- Where a value has the tokens of a block, it is parsed as one. -/
theorem Parses.of_block {d : Datum} (hvalue : tokensOf true d = tokensOf false d)
    (hblock : ∀ (fuel : Nat) (indentless : Bool) (rest : List Part),
      2 * (tokensOf false d).length ≤ fuel →
      node handles fuel true indentless ((tokensOf false d).map .token ++ rest) =
        (nodeOf d, rest)) : Parses handles d where
  block := hblock
  value fuel rest h _ := by
    rw [hvalue] at h ⊢
    exact hblock fuel true rest h

theorem parses_of_isInline {d : Datum} (h : isInline d) : Parses handles d := by
  have hvalue : tokensOf true d = tokensOf false d := by
    match d with
    | .null | .flag _ | .integer _ | .text _ | .list [] | .record [] => rfl
  refine .of_block hvalue fun fuel indentless rest hfuel => ?_
  have hlength := length_tokensOf_pos d
  obtain ⟨fuel, rfl⟩ : ∃ m, fuel = m + 2 := ⟨fuel - 2, by omega⟩
  match d with
  | .null | .flag _ | .integer _ | .text _ | .list [] | .record [] => rfl

/-- The parts of a collection that has its own beginning and end. -/
theorem map_enclosed (token : Token) (toks : List Token) (rest : List Part) :
    (token :: (toks ++ [.blockEnd])).map Part.token ++ rest =
      .token token :: (toks.map .token ++ .token .blockEnd :: rest) := by
  simp

theorem parses_list {d : Datum} {ds : List Datum} (hds : ∀ e ∈ d :: ds, Parses handles e) :
    Parses handles (.list (d :: ds)) where
  block fuel indentless rest h := by
    have htokens : tokensOf false (.list (d :: ds)) =
        .blockSequence :: (itemTokens (d :: ds) ++ [.blockEnd]) := rfl
    rw [htokens, List.length_cons, List.length_append, List.length_singleton] at h
    obtain ⟨fuel, rfl⟩ : ∃ m, fuel = m + 1 := ⟨fuel - 1, by omega⟩
    rw [htokens, map_enclosed]
    exact node_blockSequence (blockItems_items hds rest (by omega) (by omega))
  value fuel rest h hrest := by
    have htokens : tokensOf true (.list (d :: ds)) = itemTokens (d :: ds) := rfl
    have hlength : 0 < (itemTokens (d :: ds)).length := Nat.succ_pos _
    rw [htokens] at h ⊢
    obtain ⟨fuel, rfl⟩ : ∃ m, fuel = m + 1 := ⟨fuel - 1, by omega⟩
    exact node_entry (indentlessItems_items hds hrest (by omega) h)

theorem parses_record {f : String × Datum} {fs : List (String × Datum)}
    (hfs : ∀ g ∈ f :: fs, Parses handles g.2) : Parses handles (.record (f :: fs)) := by
  have htokens : tokensOf false (.record (f :: fs)) =
      .blockMapping :: (fieldTokens (f :: fs) ++ [.blockEnd]) := rfl
  refine .of_block rfl fun fuel indentless rest h => ?_
  rw [htokens, List.length_cons, List.length_append, List.length_singleton] at h
  obtain ⟨fuel, rfl⟩ : ∃ m, fuel = m + 1 := ⟨fuel - 1, by omega⟩
  rw [htokens, map_enclosed]
  exact node_blockMapping (blockMembers_fields hfs rest (by omega) (by omega))

mutual

theorem parses : (d : Datum) → Parses handles d
  | .null | .flag _ | .integer _ | .text _ | .list [] | .record [] => parses_of_isInline rfl
  | .list (d :: ds) => parses_list (List.forall_mem_cons.mpr ⟨parses d, parsesItems ds⟩)
  | .record ((_, d) :: fs) => parses_record (List.forall_mem_cons.mpr ⟨parses d, parsesFields fs⟩)
termination_by structural d => d

theorem parsesItems : (ds : List Datum) → ∀ d ∈ ds, Parses handles d
  | [] => nofun
  | d :: ds => List.forall_mem_cons.mpr ⟨parses d, parsesItems ds⟩
termination_by structural ds => ds

theorem parsesFields : (fs : List (String × Datum)) → ∀ f ∈ fs, Parses handles f.2
  | [] => nofun
  | (_, d) :: fs => List.forall_mem_cons.mpr ⟨parses d, parsesFields fs⟩
termination_by structural fs => fs

end

end Parses

/-- A written datum is parsed into its node and nothing else. -/
theorem parse_render (d : Datum) (h : ∀ name ∈ namesIn d, FitsKey name) :
    parse (render d) = ({ root := nodeOf d, names := [] }, true) := by
  have hnameless : (tokensOf false d ++ [Token.streamEnd]).all isNameless := by
    simp [nameless_tokensOf false d, isNameless]
  have hparts : Part.number [] (tokens (render d)) =
      (tokensOf false d).map .token ++ [.token .streamEnd] := by
    rw [tokens_render d h, number_of_nameless hnameless, List.map_append]
    rfl
  have hnode (fuel : Nat) (hfuel : 2 * (tokensOf false d).length ≤ fuel) :
      document fuel ((tokensOf false d).map .token ++ [.token .streamEnd]) =
        (nodeOf d, [.token .streamEnd]) := by
    rw [document_of_beginsNode (beginsNode_tokensOf d _)]
    exact (parses d).block fuel false [.token .streamEnd] hfuel
  rw [parse, hparts, hnode _ (by simp; omega)]
  simp only [names_nodeOf, List.reverse_nil]
  rfl

end Arbiter.Yaml
