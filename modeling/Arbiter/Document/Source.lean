import Arbiter.Document.Fault
import Arbiter.Literal

/-!
Reading values from documents of any format. A format says how it shows numbers, texts, lists and
the fields of records; what a type is made of is said once, for all formats.

A document is read from its beginning to its end, so of several faults the first is found. What a
document holds is known only as far as the document is well formed.
-/

namespace Arbiter.Document

/-- Whole numbers of a fixed size. -/
structure IntegerRange where
  name : String
  min : Int
  max : Int
  deriving DecidableEq, Repr

def IntegerRange.int32 : IntegerRange := ⟨"i32", Int32.minValue.toInt, Int32.maxValue.toInt⟩
def IntegerRange.int64 : IntegerRange := ⟨"i64", Int64.minValue.toInt, Int64.maxValue.toInt⟩

def IntegerRange.check (range : IntegerRange) (n : Int) : Read Int :=
  if range.min ≤ n ∧ n ≤ range.max then .ok n
  else .fail (.wrongValue (.integer n) range.name)

/-- Things in order, as far as the document is well formed. -/
structure Run (α : Type) where
  items : List α
  closed : Bool
  deriving Repr

/-- A field of a record: its name, if it has one, the way to it, and what it holds. -/
structure Member (D : Type) where
  name : Read String
  step : Step
  value : D

/-- The fields of a record, by name or by position. -/
inductive Fields (D : Type) where
  | named (members : Run (Member D))
  | positional (values : Run D)

class Source (D : Type) where
  integer : IntegerRange → D → Read Int
  text : D → Read String
  flag : D → Read Bool
  /-- One of the given words. -/
  word : List String → D → Read String
  /-- Whether there is nothing where something may be absent. -/
  isAbsent : D → Read Bool
  list : D → Read (Run D)
  fields : String → D → Read (Fields D)
  /-- What is wrong with so many values for the fields of a record that has fewer. -/
  surplus : Nat → Cause := fun _ => .malformed

/-- A type whose values can stand in a document. -/
class Readable (α : Type) where
  read {D : Type} [Source D] : D → Read α

export Readable (read)

variable {D α δ : Type} [Source D]

/-- What is left when everything in a run was read. -/
def Run.finish {β : Type} (run : Run β) (a : α) : Read α :=
  if run.closed then .ok a else .fail .malformed

def readItems [Readable α] : Nat → List D → Read (List α)
  | _, [] => .ok []
  | i, d :: ds => do
    let a ← (read d).mapError (Fault.under (.item i))
    return a :: (← readItems (i + 1) ds)

instance : Readable Int32 where
  read d := (Source.integer .int32 d).map Int32.ofInt

instance : Readable Int64 where
  read d := (Source.integer .int64 d).map Int64.ofInt

instance : Readable String where
  read := Source.text

instance : Readable Bool where
  read := Source.flag

instance [Readable α] : Readable (List α) where
  read d := do
    let run ← Source.list d
    run.finish (← readItems 0 run.items)

instance [Readable α] : Readable (Option α) where
  read d := do
    if ← Source.isAbsent d then return none
    return some (← read d)

/-- A type with finitely many values is read from their words. -/
def readLiteral [Literal α] [Inhabited α] (d : D) : Read α := do
  let word ← Source.word (Literal.words α) d
  return (Literal.ofWord? word).getD default

/-- One field of a record that is being read into a draft. -/
structure Slot (δ : Type) where
  name : String
  isFilled : δ → Bool
  fill {D : Type} [Source D] : D → δ → Read δ

def Slot.of [Readable α] (name : String) (get : δ → Option α) (set : α → δ → δ) : Slot δ where
  name
  isFilled draft := (get draft).isSome
  fill d draft := (read d).map fun a => set a draft

/-- How a record is read: into a draft, slot by slot. What is missing in the end either has a default
or is a fault, named after the slot. -/
structure Layout (δ α : Type) where
  name : String
  slots : List (Slot δ)
  blank : δ
  finish : δ → Except String α

namespace Layout

/-- A field that has to be there. -/
def need {β : Type} (name : String) : Option β → Except String β
  | some b => .ok b
  | none => .error name

/-- Fields by name: those with names that are not known do not count, and no name may come twice. -/
def readNamed (slots : List (Slot δ)) : δ → List (Member D) → Read δ
  | draft, [] => .ok draft
  | draft, m :: ms => do
    let name ← m.name
    match slots.find? (·.name == name) with
    | none => readNamed slots draft ms
    | some slot =>
      if slot.isFilled draft then .fail (.duplicateField name)
      else
        let draft ← (slot.fill m.value draft).mapError (Fault.under m.step)
        readNamed slots draft ms

/-- Fields in the order of the slots, and what is left over of them. -/
def readPositional : Nat → List (Slot δ) → δ → List D → Read (δ × List D)
  | _, [], draft, ds => .ok (draft, ds)
  | _, _, draft, [] => .ok (draft, [])
  | i, slot :: slots, draft, d :: ds => do
    let draft ← (slot.fill d draft).mapError (Fault.under (.item i))
    readPositional (i + 1) slots draft ds

def countText (n : Nat) : String :=
  Text.ofNat n ++ (if n = 1 then " element" else " elements")

def title (layout : Layout δ α) : String := "struct " ++ layout.name

def read (layout : Layout δ α) (d : D) : Read α := do
  match ← Source.fields layout.title d with
  | .named run =>
    let draft ← readNamed layout.slots layout.blank run.items
    let draft ← run.finish draft
    match layout.finish draft with
    | .ok a => .ok a
    | .error name => .fail (.missingField name)
  | .positional run =>
    let (draft, rest) ← readPositional 0 layout.slots layout.blank run.items
    let short := run.items.length < layout.slots.length
    if short && !run.closed then .fail .malformed
    else match layout.finish draft with
      | .error name =>
        .fail (.wrongLength (layout.slots.findIdx (·.name == name))
          (layout.title ++ " with " ++ countText layout.slots.length))
      | .ok a =>
        if rest.isEmpty then run.finish a else .fail (Source.surplus D run.items.length)

end Layout

end Arbiter.Document
