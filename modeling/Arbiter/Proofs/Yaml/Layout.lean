import Arbiter.Yaml.Printer

/-!
The text of a written datum, from a line or from behind the margin of one. Items and fields are laid
out one below the other; where the text goes on inside of one is said by its first line.
-/

namespace Arbiter.Yaml

open Document

/-- Lines behind a margin of that width. -/
def laidOut (n : Nat) (lines : List (List Char)) : List Char :=
  lines.flatMap fun cs => List.replicate n ' ' ++ (cs ++ ['\n'])

/-- Lines of which the first has its margin behind it. -/
def hanging (n : Nat) : List (List Char) → List Char
  | [] => []
  | cs :: rest => cs ++ '\n' :: laidOut n rest

section Lines

variable {lines more : List (List Char)}

theorem laidOut_append (n : Nat) : laidOut n (lines ++ more) = laidOut n lines ++ laidOut n more :=
  List.flatMap_append

theorem laidOut_indent (n : Nat) : laidOut n (indent lines) = laidOut (n + 2) lines := by
  have hmargin : List.replicate (n + 2) ' ' = List.replicate n ' ' ++ [' ', ' '] :=
    List.replicate_append_replicate.symm
  simp [laidOut, indent, List.flatMap_map, hmargin]

theorem laidOut_eq_hanging (n : Nat) (h : lines ≠ []) :
    laidOut n lines = List.replicate n ' ' ++ hanging n lines := by
  obtain ⟨first, rest, rfl⟩ := List.exists_cons_of_ne_nil h
  simp [laidOut, hanging]

theorem hanging_append (n : Nat) (h : lines ≠ []) :
    hanging n (lines ++ more) = hanging n lines ++ laidOut n more := by
  obtain ⟨first, rest, rfl⟩ := List.exists_cons_of_ne_nil h
  rw [List.cons_append, hanging, hanging, laidOut_append, List.append_assoc, List.cons_append]

@[simp] theorem hanging_singleton (n : Nat) (cs : List Char) : hanging n [cs] = cs ++ ['\n'] := rfl

theorem hanging_itemBlock (n : Nat) (h : lines ≠ []) :
    hanging n (itemBlock lines) = '-' :: ' ' :: hanging (n + 2) lines := by
  obtain ⟨first, rest, rfl⟩ := List.exists_cons_of_ne_nil h
  rw [itemBlock, hanging, laidOut_indent]
  rfl

end Lines

theorem itemBlock_ne_nil (lines : List (List Char)) : itemBlock lines ≠ [] := by
  cases lines <;> exact List.cons_ne_nil _ _

theorem fieldBlock_ne_nil (name : String) (d : Datum) (lines : List (List Char)) :
    fieldBlock name d lines ≠ [] := by
  unfold fieldBlock
  split
  · exact List.cons_ne_nil _ _
  · split <;> exact List.cons_ne_nil _ _

theorem blockLines_ne_nil : (d : Datum) → blockLines d ≠ []
  | .null | .flag _ | .integer _ | .text _ | .list [] | .record [] => List.cons_ne_nil _ _
  | .list (_ :: _) => List.append_ne_nil_of_left_ne_nil (itemBlock_ne_nil _) _
  | .record (_ :: _) => List.append_ne_nil_of_left_ne_nil (fieldBlock_ne_nil _ _ _) _

/-- The one line of a datum that has no other. -/
def inlineChars : Datum → List Char
  | .null => "null".toList
  | .flag b => if b then "true".toList else "false".toList
  | .integer n => (Text.ofInt n).toList
  | .text s => scalarChars s
  | .list _ => ['[', ']']
  | .record _ => ['\x7b', '\x7d']

theorem blockLines_of_isInline {d : Datum} (h : isInline d) : blockLines d = [inlineChars d] := by
  cases d with
  | null | flag b | integer n | text s => rfl
  | list ds =>
    obtain rfl := List.isEmpty_iff.mp h
    rfl
  | record fs =>
    obtain rfl := List.isEmpty_iff.mp h
    rfl

theorem toList_render (d : Datum) : (render d).toList = hanging 0 (blockLines d) := by
  have hlaidOut : (blockLines d).flatMap (· ++ ['\n']) = laidOut 0 (blockLines d) := rfl
  rw [render, String.toList_ofList, hlaidOut, laidOut_eq_hanging 0 (blockLines_ne_nil d)]
  rfl

section Items

variable (n : Nat) (d : Datum) (ds : List Datum)

/-- A list as it stands behind the margin of its first item. -/
theorem hanging_list : hanging n (blockLines (.list (d :: ds))) =
    '-' :: ' ' :: (hanging (n + 2) (blockLines d) ++ laidOut n (itemLines ds)) := by
  rw [blockLines, hanging_append n (itemBlock_ne_nil _), hanging_itemBlock n (blockLines_ne_nil d)]
  rfl

end Items

/-- What stands behind the colon of a field: its value on the same line, or on the lines below. -/
def behindColon (n : Nat) (d : Datum) : List Char :=
  if isInline d then ' ' :: hanging n (blockLines d)
  else match d with
    | .list _ => '\n' :: laidOut n (blockLines d)
    | _ => '\n' :: laidOut (n + 2) (blockLines d)

theorem behindColon_of_isInline (n : Nat) {d : Datum} (h : isInline d) :
    behindColon n d = ' ' :: (inlineChars d ++ ['\n']) := by
  rw [behindColon.eq_def, if_pos h, blockLines_of_isInline h, hanging_singleton]

section Fields

variable (n : Nat) (name : String) (d : Datum) (fs : List (String × Datum))

theorem hanging_fieldBlock : hanging n (fieldBlock name d (blockLines d)) =
    scalarChars name ++ ':' :: behindColon n d := by
  unfold fieldBlock behindColon
  split
  case isTrue hinline => simp [blockLines_of_isInline hinline]
  case isFalse =>
    split
    · simp [hanging]
    · simp [hanging, laidOut_indent]

/-- A record as it stands behind the margin of its first field. -/
theorem hanging_record : hanging n (blockLines (.record ((name, d) :: fs))) =
    scalarChars name ++ ':' :: (behindColon n d ++ laidOut n (fieldLines fs)) := by
  rw [blockLines, hanging_append n (fieldBlock_ne_nil _ _ _), hanging_fieldBlock, List.append_assoc,
    List.cons_append]

end Fields

end Arbiter.Yaml
