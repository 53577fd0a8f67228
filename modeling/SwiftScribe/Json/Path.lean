import SwiftScribe.Json.Basic
import SwiftScribe.Text.Quoted

/-!
# Places in a JSON value

A path leads from the root of a value to one inside it, by the keys of objects and the indices of
arrays.
-/

namespace SwiftScribe.Json

/-- **One step of a path:** an index into an array or a key of an object. -/
inductive Key where
  | index (value : Nat)
  | name (value : String)
deriving DecidableEq

namespace Key

def text : Key → String
  | .index n => toString n
  | .name s => s

def index? : Key → Option Nat
  | .index n => some n
  | .name _ => none

def debug : Key → String
  | .index n => "Index(" ++ toString n ++ ")"
  | .name s => "Name(" ++ Text.quoted s ++ ")"

/-- The key as a JSON value. -/
def toJson : Key → Json
  | .index n => .int n
  | .name s => .str s

/-- The key that a JSON value spells: an integer that is not negative, or a string. -/
def ofJson? : Json → Option Key
  | .int n => if 0 ≤ n then some (.index n.toNat) else none
  | .str s => some (.name s)
  | _ => none

/-- Indices come before names; indices by value, names by code points. -/
def le : Key → Key → Bool
  | .index m, .index n => m ≤ n
  | .index _, .name _ => true
  | .name _, .index _ => false
  | .name s, .name t => !decide (t < s)

end Key

/-- **A path**, from the root on. -/
abbrev Path := List Key

namespace Path

/-- The path one step further. -/
def join (path : Path) (key : Key) : Path := path ++ [key]

/-- The path without its last step; none at the root. -/
def parent? (path : Path) : Option Path := if path.isEmpty then none else some path.dropLast

/-- The text of a step that is not the first. -/
def stepText : Key → String
  | .index n => "[" ++ toString n ++ "]"
  | .name s => "." ++ s

/-- **The path as text**, such as `body[0].id`; a point for the root. -/
def text : Path → String
  | [] => "."
  | .name s :: rest => s ++ String.join (rest.map stepText)
  | .index n :: rest => stepText (.index n) ++ String.join (rest.map stepText)

/-- The value one step further, if there is one. -/
def step? (value : Json) : Key → Option Json
  | .name s => match value with | .obj entries => Entries.get? entries s | _ => none
  | .index n => match value with | .arr items => items[n]? | _ => none

/-- **The value that a path leads to**, if there is one. -/
def resolve : Path → Json → Option Json
  | [], value => some value
  | key :: rest, value => (step? value key).bind (resolve rest)

end Path

end SwiftScribe.Json
