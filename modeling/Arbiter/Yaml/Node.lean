import Arbiter.Yaml.Token

/-!
The node that a YAML text holds, as far as its tokens go. Where they end too early, or a token stands
where it cannot, the collections that are open stay open.

A node can have a name, and an alias stands for the node that has it. Names are numbered: a name that
was given before takes the number after those of all names so far, which another one may share, and
of the nodes with one number the last counts.
-/

namespace Arbiter.Yaml

inductive Node where
  | scalar (tag : Option String) (style : Style) (text : String)
  | sequence (tag : Option String) (items : List Node) (closed : Bool)
  | mapping (tag : Option String) (members : List (Node × Node)) (closed : Bool)
  | named (number : Nat) (n : Node)
  | alias (number : Nat)
  | missing
  deriving Repr

/-- What stands in a place that was left empty. -/
def Node.empty : Node := .scalar none .plain ""

/-- Tokens whose names are numbered. An alias without a node has no number. -/
inductive Part where
  | token (t : Token)
  | anchor (number : Nat)
  | alias (number : Option Nat)
  deriving Repr

namespace Part

/-- Numbers the names, of which those so far are given with their numbers. -/
def number (names : List (String × Nat)) : List Token → List Part
  | [] => []
  | .anchor name :: ts =>
    let n := names.length
    let names := (name, n) :: names.filter (·.1 != name)
    .anchor n :: number names ts
  | .alias name :: ts => .alias (names.lookup name) :: number names ts
  | t :: ts => .token t :: number names ts

end Part

/-- What the handles of tags stand for. -/
abbrev Handles := List (String × String)

def Handles.standard : Handles :=
  [("!", "!"), ("!!", "tag:yaml.org,2002:")]

/-- The tag in full; none if its handle is not known. -/
def fullTag? (handles : Handles) (t : WrittenTag) : Option String :=
  if t.handle.isEmpty then some t.suffix
  else (handles.lookup t.handle).map (· ++ t.suffix)

/-- What stands in front of a node: its number and its tag, in either order. -/
structure Properties where
  number : Option Nat := none
  tag : Option WrittenTag := none

def properties : List Part → Properties × List Part
  | .anchor n :: .token (.tag t) :: rest => ({ number := some n, tag := some t }, rest)
  | .anchor n :: rest => ({ number := some n }, rest)
  | .token (.tag t) :: .anchor n :: rest => ({ number := some n, tag := some t }, rest)
  | .token (.tag t) :: rest => ({ tag := some t }, rest)
  | rest => ({}, rest)

def Node.withNumber (n : Node) : Option Nat → Node
  | none => n
  | some number => .named number n

/-- Items up to the end of a collection: whether it was reached, and what follows. -/
structure Items (α : Type) where
  items : List α
  closed : Bool
  rest : List Part

def Items.broken {α : Type} : Items α := ⟨[], false, []⟩

def Items.done {α : Type} (rest : List Part) : Items α := ⟨[], true, rest⟩

def Items.cons {α : Type} (a : α) (i : Items α) : Items α := { i with items := a :: i.items }

/-- What follows the comma before an item, if it is not the first; nothing if the comma is missing. -/
def afterComma (first : Bool) (parts : List Part) : List Part :=
  if first then parts
  else match parts with
    | .token .flowEntry :: rest => rest
    | _ => []

mutual

/-- A node and what follows it, with enough fuel for the tokens. In a mapping without further
indentation, a sequence may begin with its first entry. -/
def node (handles : Handles) : Nat → Bool → Bool → List Part → Node × List Part
  | 0, _, _, _ => (.missing, [])
  | _, _, _, .alias (some n) :: rest => (.alias n, rest)
  | fuel + 1, block, indentless, parts =>
    let (props, parts) := properties parts
    let tag? : Option (Option String) := match props.tag with
      | none => some none
      | some t => (fullTag? handles t).map some
    match tag?, parts with
    | _, [] => (.missing, [])
    | none, _ => (.missing, [])
    | some tag, .token t :: rest =>
      let give (n : Node) (rest : List Part) : Node × List Part := (n.withNumber props.number, rest)
      match t, block with
      | .scalar style text, _ =>
        let tag := tag.filter (· != "!")
        give (.scalar tag style text) rest
      | .flowSequence, _ =>
        let i := flowItems handles fuel true rest
        give (.sequence tag i.items i.closed) i.rest
      | .flowMapping, _ =>
        let i := flowMembers handles fuel true rest
        give (.mapping tag i.items i.closed) i.rest
      | .blockSequence, true =>
        let i := blockItems handles fuel rest
        give (.sequence tag i.items i.closed) i.rest
      | .blockMapping, true =>
        let i := blockMembers handles fuel rest
        give (.mapping tag i.items i.closed) i.rest
      | _, _ =>
        if indentless && t = .blockEntry then
          let i := indentlessItems handles fuel parts
          give (.sequence tag i.items i.closed) i.rest
        else if props.number.isSome || props.tag.isSome then give (.scalar tag .plain "") parts
        else (.missing, [])
    | some tag, parts =>
      if props.number.isSome || props.tag.isSome then
        (Node.withNumber (.scalar tag .plain "") props.number, parts)
      else (.missing, [])

def blockItems (handles : Handles) : Nat → List Part → Items Node
  | 0, _ => .broken
  | fuel + 1, .token .blockEntry :: rest =>
    match rest with
    | .token .blockEntry :: _ | .token .blockEnd :: _ =>
      (blockItems handles fuel rest).cons Node.empty
    | _ =>
      let (n, rest) := node handles fuel true false rest
      (blockItems handles fuel rest).cons n
  | _, .token .blockEnd :: rest => .done rest
  | _, _ => .broken

/-- The items of a sequence that is not indented end where something other than an entry begins. -/
def indentlessItems (handles : Handles) : Nat → List Part → Items Node
  | 0, _ => .broken
  | _, [] => .broken
  | fuel + 1, .token .blockEntry :: rest =>
    match rest with
    | .token .blockEntry :: _ | .token .key :: _ | .token .value :: _ | .token .blockEnd :: _ =>
      (indentlessItems handles fuel rest).cons Node.empty
    | _ =>
      let (n, rest) := node handles fuel true false rest
      (indentlessItems handles fuel rest).cons n
  | _, rest => .done rest

/-- What stands behind the mark of a key or value in a block mapping. -/
def blockPart (handles : Handles) : Nat → List Part → Node × List Part
  | 0, _ => (.missing, [])
  | fuel + 1, parts =>
    match parts with
    | .token .key :: _ | .token .value :: _ | .token .blockEnd :: _ => (Node.empty, parts)
    | _ => node handles fuel true true parts

def blockMembers (handles : Handles) : Nat → List Part → Items (Node × Node)
  | 0, _ => .broken
  | fuel + 1, .token .key :: rest =>
    match blockPart handles fuel rest with
    | (.missing, _) => .broken
    | (key, rest) =>
      let (value, rest) := match rest with
        | .token .value :: rest => blockPart handles fuel rest
        | [] => (.missing, [])
        | rest => (Node.empty, rest)
      (blockMembers handles fuel rest).cons (key, value)
  | _, .token .blockEnd :: rest => .done rest
  | _, _ => .broken

/-- The items of a sequence in brackets. A key among them is a mapping of one member. -/
def flowItems (handles : Handles) : Nat → Bool → List Part → Items Node
  | 0, _, _ => .broken
  | _, _, .token .flowSequenceEnd :: rest => .done rest
  | fuel + 1, first, parts =>
    match afterComma first parts with
    | [] => .broken
    | .token .flowSequenceEnd :: rest => .done rest
    | .token .key :: rest =>
      let (n, rest) := pair handles fuel rest
      (flowItems handles fuel false rest).cons n
    | parts =>
      let (n, rest) := node handles fuel false false parts
      (flowItems handles fuel false rest).cons n

/-- A mapping of one member, from behind the mark of its key. Where there is no key, the token that
stands in its place is passed over. -/
def pair (handles : Handles) : Nat → List Part → Node × List Part
  | 0, _ => (.mapping none [] false, [])
  | fuel + 1, parts =>
    let (key, rest) := match parts with
      | .token .value :: rest | .token .flowEntry :: rest | .token .flowSequenceEnd :: rest =>
        (Node.empty, rest)
      | parts => node handles fuel false false parts
    match key with
    | .missing => (.mapping none [] false, [])
    | key =>
      let (value, rest) := match rest with
        | .token .value :: rest =>
          match rest with
          | .token .flowEntry :: _ | .token .flowSequenceEnd :: _ => (Node.empty, rest)
          | _ => node handles fuel false false rest
        | [] => (.missing, [])
        | rest => (Node.empty, rest)
      (.mapping none [(key, value)] (!rest.isEmpty), rest)

/-- The members of a mapping in braces. A key needs neither a mark nor a value. -/
def flowMembers (handles : Handles) : Nat → Bool → List Part → Items (Node × Node)
  | 0, _, _ => .broken
  | _, _, .token .flowMappingEnd :: rest => .done rest
  | fuel + 1, first, parts =>
    match afterComma first parts with
    | [] => .broken
    | .token .flowMappingEnd :: rest => .done rest
    | .token .key :: rest =>
      let (key, rest) := flowPart handles fuel rest true
      match key with
      | .missing => .broken
      | key =>
        let (value, rest) := match rest with
          | .token .value :: rest => flowPart handles fuel rest false
          | [] => (.missing, [])
          | rest => (Node.empty, rest)
        (flowMembers handles fuel false rest).cons (key, value)
    | parts =>
      match node handles fuel false false parts with
      | (.missing, _) => .broken
      | (key, []) => Items.broken.cons (key, .missing)
      | (key, rest) => (flowMembers handles fuel false rest).cons (key, Node.empty)

/-- What stands behind the mark of a key or value in braces. -/
def flowPart (handles : Handles) : Nat → List Part → Bool → Node × List Part
  | 0, _, _ => (.missing, [])
  | fuel + 1, parts, isKey =>
    match parts with
    | .token .flowEntry :: _ | .token .flowMappingEnd :: _ => (Node.empty, parts)
    | .token .value :: _ => if isKey then (Node.empty, parts) else node handles fuel false false parts
    | _ => node handles fuel false false parts

end

/-- Takes in the directives in front of a document. Only one may give the version, which has to be
known, and a handle may be given once. -/
def directives (version : Bool) (given : Handles) : List Part → Option (Handles × List Part)
  | .token (.directive (.version major minor)) :: rest =>
    if version || !(major = 1 && (minor = 1 || minor = 2)) then none
    else directives true given rest
  | .token (.directive (.handle name meaning)) :: rest =>
    if (given.lookup name).isSome then none else directives version ((name, meaning) :: given) rest
  | rest => some (given ++ Handles.standard, rest)

/-- Whether a document ends with this token before it has begun. -/
def endsDocument : Part → Bool
  | .token (.directive _) | .token .documentStart | .token .documentEnd | .token .streamEnd => true
  | _ => false

/-- The root of the first document and what follows it. -/
def document (fuel : Nat) (parts : List Part) : Node × List Part :=
  match parts with
  | .token (.directive _) :: _ | .token .documentStart :: _ =>
    match directives false [] parts with
    | some (handles, .token .documentStart :: rest) =>
      if rest.head?.any endsDocument then (Node.empty, rest) else node handles fuel true false rest
    | _ => (.missing, [])
  | .token .streamEnd :: _ => (Node.empty, parts)
  | _ => node .standard fuel true false parts

def isEnd (parts : List Part) : Bool :=
  match parts with
  | .token .documentEnd :: rest =>
    match rest.dropWhile (· matches .token .documentEnd) with
    | .token .streamEnd :: _ => true
    | _ => false
  | .token .streamEnd :: _ => true
  | _ => false

/-- A node and the nodes for which aliases in it stand. -/
structure Content where
  root : Node
  names : List (Nat × Node)
  deriving Repr

mutual

/-- The nodes with names, in the order in which they begin. -/
def Node.names : Node → List (Nat × Node)
  | .named number n => (number, n) :: n.names
  | .sequence _ items _ => namesOfItems items
  | .mapping _ members _ => namesOfMembers members
  | .scalar .. => []
  | .alias _ => []
  | .missing => []
termination_by structural n => n

def namesOfItems : List Node → List (Nat × Node)
  | [] => []
  | n :: ns => n.names ++ namesOfItems ns
termination_by structural ns => ns

def namesOfMembers : List (Node × Node) → List (Nat × Node)
  | [] => []
  | (key, value) :: ms => key.names ++ value.names ++ namesOfMembers ms
termination_by structural ms => ms

end

/-- The document in a text, and whether the text holds nothing else. -/
def parse (s : String) : Content × Bool :=
  let parts := Part.number [] (tokens s)
  let (root, rest) := document (2 * parts.length + 2) parts
  ({ root, names := root.names.reverse }, isEnd rest)

end Arbiter.Yaml
