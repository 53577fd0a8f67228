import SwiftScribe.Files.Fault
import SwiftScribe.Files.Path

/-!
# Access to files

What a program needs of the file system, in any monad: a `View` to look at it and a `Sink` to change
it. Paths are texts, relative to a working directory that the access knows.
-/

namespace SwiftScribe.Files

/-- What a path leads to. -/
inductive Kind where
  | file
  | dir
deriving DecidableEq

/-- **Looking at files.** -/
structure View (m : Type → Type) where
  /-- The text of a file. -/
  read : String → m (Except Fault String)
  /-- What a path leads to, if it leads anywhere. -/
  kind? : String → m (Option Kind)
  /-- The names in a directory, in any order. -/
  names : String → m (Except Fault (List String))

/-- **Changing files.** -/
structure Sink (m : Type → Type) where
  print : String → m Unit
  /-- Makes a directory, unless there is one already. The directory above has to be there. -/
  makeDir : String → m (Except Fault Unit)
  /-- Makes or replaces a file. The directory above has to be there. -/
  write : String → String → m (Except Fault Unit)

variable {m : Type → Type} [Monad m]

/-- Whether a path leads to a directory. -/
def View.isDir (view : View m) (path : String) : m Bool :=
  (· == some .dir) <$> view.kind? path

/-- Makes a directory, given first, and those above it where they are missing. -/
def Sink.makeDirs (sink : Sink m) : List String → m (Except Fault Unit)
  | [] => pure (.ok ())
  | dir :: above =>
    if dir == "" then pure (.ok ())
    else do
      match ← sink.makeDir dir with
      | .error .notFound =>
        match ← sink.makeDirs above with
        | .ok () => sink.makeDir dir
        | failed => pure failed
      | result => pure result

end SwiftScribe.Files
