/-!
# Commands

What the program can be asked to do: to write Swift text, or only to collect the type paths of its
inputs.
-/

namespace SwiftScribe

/-- The files that a command works on. -/
structure Inputs where
  /-- Paths of syntax trees, or patterns for them. -/
  patterns : List String
  /-- The path of the hint file. -/
  types? : Option String

/-- **A command.** Swift text or records without a path are printed. -/
inductive Command where
  /-- Write the Swift text, and the records to `typesOut?` or else over the hint file; `ast?` is
  where the syntax trees go. -/
  | swift (inputs : Inputs) (typesOut? ast? out? : Option String)
  /-- Write the records only. -/
  | types (inputs : Inputs) (out? : Option String)

/-- The files that a command works on. -/
def Command.inputs : Command → Inputs
  | .swift inputs .. => inputs
  | .types inputs _ => inputs

/-- Where a command writes the syntax trees. -/
def Command.ast? : Command → Option String
  | .swift _ _ ast? _ => ast?
  | .types .. => none

end SwiftScribe
