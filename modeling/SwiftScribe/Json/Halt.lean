import SwiftScribe.Json.Fault
import SwiftScribe.Json.Path

/-!
# Where reading stops

A reader that meets a fault tells where in the value it was, and what it had read of the value.
-/

namespace SwiftScribe.Json

/-- **Where and why a reader stopped.** -/
structure Halt where
  fault : Fault
  /-- The way to the value that could not be read. -/
  path : Path
  /-- The array or object that was being read, with the members that had been read as a whole. -/
  begun? : Option Json

namespace Halt

/-- A halt before anything is read. -/
def here (fault : Fault) : Halt := ⟨fault, [], none⟩

/-- The halt of a member, seen from the array or object that it is in. -/
def inside (halt : Halt) (place : Path) (begun : Json) : Halt :=
  { halt with path := place ++ halt.path, begun? := some begun }

end Halt

end SwiftScribe.Json
