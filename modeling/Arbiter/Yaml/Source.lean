import Arbiter.Document.Source
import Arbiter.Yaml.Meaning

/-!
Reading values from YAML. Texts are read from every scalar, whatever it means; truth values and
numbers only from plain ones. A place that was left empty is an empty list or record.
-/

namespace Arbiter.Yaml

open Document

/-- The tag of a kind of scalar that has a meaning of its own. -/
def kindTag (kind : String) : String := "tag:yaml.org,2002:" ++ kind

/-- Whether a tag is one of the document's own. -/
def isOwnTag (tag : String) : Bool :=
  tag.toList.head? = some '!'

/-- The word that a tag of the document's own stands for. -/
def tagWord? (tag : Option String) : Option String :=
  match tag.map String.toList with
  | some ['!'] => some "!"
  | some ('!' :: cs) => some (String.ofList cs)
  | _ => none

/-- The fault of a text that is not what its tag promises. -/
def brokenPromise (text expected : String) : Cause :=
  .wrongValue (.text text) expected

/-- The fault of a scalar that is of the wrong kind. -/
def scalarMismatch (tag : Option String) (style : Style) (text expected : String) : Cause :=
  let asText : Cause := .wrongKind (.text text) expected
  match tag with
  | none => if style = .plain then .wrongKind (found text) expected else asText
  | some tag =>
    if tag = kindTag "bool" then
      match flag? text with
      | some b => .wrongKind (.flag b) expected
      | none => brokenPromise text "a boolean"
    else if tag = kindTag "int" then
      match foundInteger? text with
      | some n => .wrongKind n expected
      | none => brokenPromise text "an integer"
    else if tag = kindTag "float" then
      match double? text with
      | some x => .wrongKind (.decimal x.toString) expected
      | none => brokenPromise text "a float"
    else if tag = kindTag "null" then
      if isNull text then .wrongKind .nothing expected else brokenPromise text "null"
    else if isOwnTag tag && style = .plain then .wrongKind (found text) expected
    else asText

/-- Numbers and truth values are plain, or literal blocks with the tag of their kind. -/
def bearsValue (kind : String) (tag : Option String) (style : Style) : Bool :=
  style = .plain || style = .literal && tag = some (kindTag kind)

namespace Content

def withRoot (c : Content) (root : Node) : Content := { c with root }

/-- The node itself, behind its name, or that for which an alias stands. -/
def view (c : Content) : Node :=
  match c.root with
  | .alias number => bare ((c.names.lookup number).getD .missing)
  | n => bare n
where
  bare : Node → Node
    | .named _ n => n
    | n => n

def mismatch (c : Content) (expected : String) : Cause :=
  match c.view with
  | .scalar tag style text => scalarMismatch tag style text expected
  | .sequence .. => .wrongKind .list expected
  | .mapping .. => .wrongKind .record expected
  | _ => .malformed

def readInteger (range : IntegerRange) (c : Content) : Read Int :=
  match c.view with
  | .scalar tag style text =>
    if bearsValue "int" tag style then
      match int64? text with
      | some n => range.check n
      | none => .fail (c.mismatch range.name)
    else .fail (c.mismatch range.name)
  | _ => .fail (c.mismatch range.name)

def readText (expected : String) (c : Content) : Read String :=
  match c.view with
  | .scalar _ _ text => .ok text
  | _ => .fail (c.mismatch expected)

def readFlag (c : Content) : Read Bool :=
  match c.view with
  | .scalar tag style text =>
    match if bearsValue "bool" tag style then flag? text else none with
    | some b => .ok b
    | none => .fail (c.mismatch "a boolean")
  | _ => .fail (c.mismatch "a boolean")

/-- A fault in what stands behind a tag is a fault of the tagged node, but a tag that is no word is
one of what holds the node. -/
def checkTag (allowed : List String) (word : String) : Read Unit :=
  if allowed.contains word then .ok ()
  else .error { cause := .unknownWord word allowed, path := none }

/-- Nothing may stand behind a tag that is a word. -/
def readNothing (c : Content) : Read Unit :=
  match c.view with
  | .scalar _ style text =>
    if style = .plain && (text.isEmpty || isNull text) then .ok ()
    else .fail (brokenPromise text "null")
  | _ => .fail (c.mismatch "unit")

/-- A word is the text of a scalar, or a tag with nothing behind it. -/
def readWord (allowed : List String) (c : Content) : Read String :=
  let tag := match c.view with
    | .scalar tag _ _ | .sequence tag _ _ | .mapping tag _ _ => tag
    | _ => none
  match tagWord? tag with
  | some word => do
    checkTag allowed word
    c.readNothing
    return word
  | none =>
    match c.view with
    | .scalar _ _ text =>
      if allowed.contains text then .ok text else .fail (.unknownWord text allowed)
    | _ => .fail (c.mismatch "a YAML tag starting with '!'")

def isAbsent (c : Content) : Read Bool :=
  match c.view with
  | .scalar tag .plain text =>
    match tag with
    | none => .ok (text.isEmpty || isNull text)
    | some tag =>
      if tag = kindTag "null" then
        if isNull text then .ok true
        else .error { cause := brokenPromise text "null", path := none }
      else .ok false
  | .missing => .fail .malformed
  | _ => .ok false

def isEmpty (c : Content) : Bool :=
  match c.view with
  | .scalar _ .plain text => text.isEmpty
  | _ => false

def readList (c : Content) : Read (Run Content) :=
  match c.view with
  | .sequence _ items closed => .ok ⟨items.map c.withRoot, closed⟩
  | _ => if c.isEmpty then .ok ⟨[], true⟩ else .fail (c.mismatch "a sequence")

/-- The way to a field is its name, unless the name stands elsewhere. -/
def stepOf : Node → Step
  | .scalar _ _ text => .field text
  | .named _ (.scalar _ _ text) => .field text
  | _ => .unnamed

def member (c : Content) (m : Node × Node) : Member Content where
  name := (c.withRoot m.1).readText "field identifier"
  step := stepOf m.1
  value := c.withRoot m.2

def readFields (title : String) (c : Content) : Read (Fields Content) :=
  match c.view with
  | .mapping _ members closed => .ok (.named ⟨members.map c.member, closed⟩)
  | _ => if c.isEmpty then .ok (.named ⟨[], true⟩) else .fail (c.mismatch title)

instance : Source Content where
  integer := readInteger
  text := readText "a string"
  flag := readFlag
  word := readWord
  isAbsent := isAbsent
  list := readList
  fields := readFields

end Content

def decode {α : Type} [Readable α] (s : String) : Read α := do
  let (content, isWhole) := parse s
  let a ← read content
  if isWhole then .ok a else .fail .malformed

end Arbiter.Yaml
