import SwiftScribe.Files.Access
import SwiftScribe.Glob.Pattern

/-!
# The files that a pattern matches

A pattern is followed segment by segment from where it starts. At every directory the names come in
order, and what is found below a name comes before the next name (`Pattern.expand`).
-/

namespace SwiftScribe.Glob

open Files

/-- **Why a pattern leads to no files.** -/
inductive ExpandError where
  | badPattern (error : PatternError)
  | unlisted (path : String) (fault : Files.Fault)
  | noMatch (pattern : String)

def ExpandError.message : ExpandError → String
  | .badPattern error => error.message
  | .unlisted path fault =>
    "attempting to read `" ++ path ++ "` resulted in an error: " ++ fault.message
  | .noMatch pattern => "glob pattern matched no files: " ++ pattern

/-- A place that a search has come to. -/
structure Spot where
  path : String
  name : String
  isDir : Bool

/-- No directory is deeper than this, since no path has more characters. -/
def depthLimit : Nat := 4096

variable {m : Type → Type} [Monad m]

/-- One name further. What is right here goes by its name alone. -/
def Spot.enter (view : View m) (spot : Spot) (name : String) : m Spot := do
  let path := if isHere spot.path then name else join spot.path name
  return { path, name, isDir := ← view.isDir path }

/-- What is in a directory, by name. -/
def Spot.children (view : View m) (spot : Spot) : ExceptT ExpandError m (List Spot) := do
  match ← view.names spot.path with
  | .error fault => throw (.unlisted spot.path fault)
  | .ok names => (names.mergeSort (· ≤ ·)).mapM fun name => liftM (spot.enter view name)

/-- What is below a directory, at any depth: every name before what is below it. -/
def Spot.below (view : View m) : Nat → Spot → ExceptT ExpandError m (List Spot)
  | 0, _ => return []
  | depth + 1, spot => do
    let children ← spot.children view
    let found ← children.mapM fun child =>
      if child.isDir then (child :: ·) <$> Spot.below view depth child else return [child]
    return found.flatten

/-- The directory itself and the one above it, the latter first, where tokens that start with a
point match them. -/
def Spot.points (view : View m) (tokens : List Token) (spot : Spot) : m (List Spot) :=
  if tokens.head? = some (.char '.') then
    ([".." , "."].filter fun name => matchesName tokens name.toList).mapM fun name => do
      let path := join spot.path name
      return { path, name, isDir := ← view.isDir path }
  else return []

/-- **Where the parts of a pattern lead from a spot**, in order. -/
def Spot.search (view : View m) : List Part → Spot → ExceptT ExpandError m (List Spot)
  | [], spot => return [spot]
  | .literal name :: rest, spot => do
    let next ← liftM (spot.enter view name)
    let there ←
      if name == "." || name == ".." then pure spot.isDir
      else (·.isSome) <$> liftM (view.kind? next.path)
    if there then Spot.search view rest next else return []
  | .wild tokens :: rest, spot => do
    if !spot.isDir then return []
    let points ← liftM (spot.points view tokens)
    let children ← spot.children view
    let found ← (points ++ children.filter (matchesName tokens ·.name.toList)).mapM
      (Spot.search view rest)
    return found.flatten
  | [.anyDepth], spot => do
    if !spot.isDir then return []
    return (← spot.below view depthLimit).filter (·.isDir)
  | .anyDepth :: part :: rest, spot => do
    if !spot.isDir then return []
    let spots ← spot.below view depthLimit
    let found ← (spots.filter (part.accepts ·.name)).mapM (Spot.search view rest)
    return found.flatten

/-- **The paths that a pattern matches.** There has to be one. -/
def expand (view : View m) (text : String) : ExceptT ExpandError m (List String) := do
  match Pattern.parse text with
  | .error error => throw (.badPattern error)
  | .ok pattern =>
    let path := if pattern.absolute then "/" else "."
    let spots ← Spot.search view pattern.parts ⟨path, path, true⟩
    match spots.filter (!pattern.dirOnly || ·.isDir) with
    | [] => throw (.noMatch text)
    | found => return found.map (·.path)

/-- The paths that input texts stand for: a pattern for what it matches, all else for itself. -/
def expandAll (view : View m) (texts : List String) : ExceptT ExpandError m (List String) := do
  let found ← texts.mapM fun text => if isPattern text then expand view text else return [text]
  return found.flatten

end SwiftScribe.Glob
