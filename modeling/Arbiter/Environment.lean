/-! The environment of a process: texts under names. -/

namespace Arbiter

/-- The text of a variable, if it is set. -/
abbrev Environment := String → Option String

namespace Environment

def ofList (texts : List (String × String)) : Environment :=
  fun name => texts.lookup name

end Environment

end Arbiter
