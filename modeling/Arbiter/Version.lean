import Arbiter.Text.Blank
import Arbiter.Text.Integer
import Arbiter.Text.Pieces

/-! Interface versions: their order, their text and the rule by which one can serve another. -/

namespace Arbiter

/-- The version of an interface, as offered by a provider or as needed by a consumer. -/
structure Version where
  major : Int32 := 0
  minor : Int32 := 0
  deriving DecidableEq, Inhabited, Repr

namespace Version

/-- An offered version serves a required one if the majors agree and its minor is not older. -/
def serves (offered required : Version) : Bool :=
  offered.major == required.major && required.minor ≤ offered.minor

/-- Versions are ordered by major first and by minor among equal majors. -/
def before (v w : Version) : Bool :=
  v.major < w.major || v.major == w.major && v.minor < w.minor

protected def toString (v : Version) : String :=
  Text.ofInt v.major.toInt ++ "." ++ Text.ofInt v.minor.toInt

instance : ToString Version := ⟨Version.toString⟩

inductive TextFault where
  | noPoint
  | badMajor
  | badMinor
  deriving DecidableEq, Repr

def TextFault.message : TextFault → String
  | .noPoint => "version must be written as <major>.<minor>"
  | .badMajor => "major version is not an integer"
  | .badMinor => "minor version is not an integer"

def ofChars (cs : List Char) : Except TextFault Version :=
  match Text.cutOnce '.' (Text.trimChars cs) with
  | none => .error .noPoint
  | some (before, after) =>
    match Text.int32? before with
    | none => .error .badMajor
    | some major =>
      match Text.int32? after with
      | none => .error .badMinor
      | some minor => .ok { major, minor }

/-- Two whole numbers with a point between them; blank characters around the whole do not count. -/
def ofText (s : String) : Except TextFault Version :=
  ofChars s.toList

end Version

/-- A finite set of versions, held in ascending order. -/
abbrev VersionSet := List Version

namespace VersionSet

def insert (v : Version) : VersionSet → VersionSet
  | [] => [v]
  | w :: ws =>
    if v.before w then v :: w :: ws
    else if w.before v then w :: insert v ws
    else w :: ws

def ofList (vs : List Version) : VersionSet :=
  vs.foldl (fun set v => insert v set) []

end VersionSet

end Arbiter
