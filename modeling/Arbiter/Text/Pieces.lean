/-!
Cutting a text at a separating character, and putting pieces together again.
-/

namespace Arbiter.Text

/-- The pieces between the separators, in order. There is always one more piece than separators. -/
def cut (sep : Char) : List Char → List (List Char)
  | [] => [[]]
  | c :: rest =>
    if c = sep then [] :: cut sep rest
    else match cut sep rest with
      | [] => [[c]]
      | piece :: pieces => (c :: piece) :: pieces

/-- What stands before and after the first separator. -/
def cutOnce (sep : Char) : List Char → Option (List Char × List Char)
  | [] => none
  | c :: rest =>
    if c = sep then some ([], rest)
    else (cutOnce sep rest).map fun (before, after) => (c :: before, after)

/-- The texts one after the other, with `sep` between neighbours. -/
def join (sep : String) : List String → String
  | [] => ""
  | [s] => s
  | s :: t :: rest => s ++ sep ++ join sep (t :: rest)

theorem cut_ne_nil (sep : Char) (cs : List Char) : cut sep cs ≠ [] := by
  cases cs with
  | nil => simp [cut]
  | cons c rest =>
    simp only [cut]
    split
    · simp
    · split <;> simp

end Arbiter.Text
