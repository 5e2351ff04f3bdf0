/-! Types with finitely many values, each written as one fixed word. -/

namespace Arbiter

class Literal (α : Type) where
  values : List α
  word : α → String

namespace Literal

variable {α : Type} [Literal α]

/-- The value that is written exactly so. -/
def ofWord? (s : String) : Option α :=
  values.find? fun a => word a == s

/-- All words of the type, in the order of its values. -/
def words (α : Type) [Literal α] : List String :=
  (values : List α).map word

end Literal

end Arbiter
