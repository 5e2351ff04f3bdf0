/-! Values as they are written to documents, whatever the format. -/

namespace Arbiter.Document

inductive Datum where
  | null
  | flag (b : Bool)
  | integer (n : Int)
  | text (s : String)
  | list (items : List Datum)
  /-- Fields in the order in which they are written. -/
  | record (fields : List (String × Datum))
  deriving Repr

/-- A type whose values can be written to a document. -/
class Writable (α : Type) where
  write : α → Datum

export Writable (write)

instance : Writable Bool := ⟨.flag⟩
instance : Writable Int := ⟨.integer⟩
instance : Writable Nat := ⟨fun n => .integer n⟩
instance : Writable Int32 := ⟨fun n => .integer n.toInt⟩
instance : Writable Int64 := ⟨fun n => .integer n.toInt⟩
instance : Writable String := ⟨.text⟩

instance {α : Type} [Writable α] : Writable (List α) := ⟨fun as => .list (as.map write)⟩

instance {α : Type} [Writable α] : Writable (Option α) where
  write
    | none => .null
    | some a => write a

end Arbiter.Document
