import Arbiter.Document.Source
import Arbiter.Json.Tree

/-!
Reading values from JSON. A record may also be a list of its fields in order, and a word may also be
the name of the only member of a record, with null as its value.
-/

namespace Arbiter.Json

open Document

/-- The fault of a value that is of the wrong kind. A number that is too large to be read, and half
of a surrogate pair, are faults of the text. -/
def mismatch (j : Json) (expected : String) : Cause :=
  match j with
  | .null => .wrongKind .null expected
  | .flag b => .wrongKind (.flag b) expected
  | .number n =>
    match n.value with
    | none => .malformed
    | some (.integer n) => .wrongKind (.integer n) expected
    | some (.double x) => .wrongKind (.decimal (showDouble x)) expected
  | .text s => .wrongKind (.text s) expected
  | .list .. => .wrongKind .list expected
  | .record .. => .wrongKind .record expected
  | .halfPair | .malformed => .malformed

def readInteger (range : IntegerRange) (j : Json) : Read Int :=
  match j with
  | .number n =>
    match n.value with
    | some (.integer n) => range.check n
    | _ => .fail (j.mismatch range.name)
  | _ => .fail (j.mismatch range.name)

def checkWord (allowed : List String) (s : String) : Read String :=
  if allowed.contains s then .ok s else .fail (.unknownWord s allowed)

def readWord (allowed : List String) : Json → Read String
  | .text s => checkWord allowed s
  | .record ((key, v) :: others) closed => do
    let word ← match key with
      | .text s => checkWord allowed s
      | key => .fail (key.mismatch "variant identifier")
    match v with
    | .null => if others.isEmpty && closed then .ok word else .fail .malformed
    | v => .fail (v.mismatch "unit")
  | _ => .fail .malformed

def member (m : Json × Json) : Member Json :=
  match m.1 with
  | .text s => { name := .ok s, step := .field s, value := m.2 }
  | _ => { name := .fail .malformed, step := .unnamed, value := m.2 }

instance : Source Json where
  integer := readInteger
  text
    | .text s => .ok s
    | j => .fail (j.mismatch "a string")
  flag
    | .flag b => .ok b
    | j => .fail (j.mismatch "a boolean")
  word := readWord
  isAbsent
    | .null => .ok true
    | _ => .ok false
  list
    | .list items closed => .ok ⟨items, closed⟩
    | j => .fail (j.mismatch "a sequence")
  fields title
    | .record members closed => .ok (.named ⟨members.map member, closed⟩)
    | .list items closed => .ok (.positional ⟨items, closed⟩)
    | j => .fail (j.mismatch title)

/-- The value in a text that holds nothing else. -/
def decode {α : Type} [Readable α] (s : String) : Read α := do
  let (j, isWhole) := ofText s
  let a ← read j
  if isWhole then .ok a else .fail .malformed

end Arbiter.Json
