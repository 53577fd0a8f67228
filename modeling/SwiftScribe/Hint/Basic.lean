import SwiftScribe.Json.Basic
import SwiftScribe.Text.Quoted

/-!
# Hint trees

Type hints form a tree of names: what a path leads to is a type, a flag, a table of longer paths, or
nothing known. Tables list their names in increasing order, so that equal trees are equal as data;
a `HintTable` carries the proof. Hints and the records of a run are both such tables.
-/

namespace SwiftScribe

/-- **What a hint says**, where it says something. -/
inductive Leaf where
  | flag (value : Bool)
  | name (value : String)
deriving DecidableEq

namespace Leaf

/-- The leaf as it is written into generated text. -/
def text : Leaf → String
  | .flag value => if value then "true" else "false"
  | .name value => value

def debug : Leaf → String
  | .flag value => if value then "Flag(true)" else "Flag(false)"
  | .name value => "Name(" ++ Text.quoted value ++ ")"

end Leaf

/-- **A node of a hint tree.** -/
inductive Hint where
  /-- Nothing is known. -/
  | unknown
  | leaf (value : Leaf)
  | table (entries : List (String × Hint))

namespace Hint

/-- The entries of a table. -/
abbrev Entries := List (String × Hint)

namespace Entries

/-- The hint under a name. -/
def get? (entries : Entries) (name : String) : Option Hint := entries.lookup name

/-- Puts a hint under a name, at its place in the order or instead of the one that is there. -/
def set (name : String) (hint : Hint) : Entries → Entries
  | [] => [(name, hint)]
  | (key, value) :: rest =>
    if name < key then (name, hint) :: (key, value) :: rest
    else if key < name then (key, value) :: set name hint rest
    else (name, hint) :: rest

end Entries

/-! ## Order -/

mutual
/-- Every table in the tree lists its names in increasing order. -/
def Ordered : Hint → Prop
  | .unknown => True
  | .leaf _ => True
  | .table entries => OrderedEntries entries

/-- The names increase, and so they do in every table below. -/
def OrderedEntries : List (String × Hint) → Prop
  | [] => True
  | (name, hint) :: rest => (∀ entry ∈ rest, name < entry.1) ∧ Ordered hint ∧ OrderedEntries rest
end

theorem Entries.mem_set {entries : Entries} {name : String} {hint : Hint} {entry : String × Hint}
    (h : entry ∈ entries.set name hint) : entry = (name, hint) ∨ entry ∈ entries := by
  induction entries with
  | nil => simpa [Entries.set] using h
  | cons head rest ih =>
    obtain ⟨key, value⟩ := head
    simp only [Entries.set] at h
    split at h
    · simpa using h
    · split at h <;> grind

/-- Setting a name keeps the order. -/
theorem OrderedEntries.set {entries : Entries} (ordered : OrderedEntries entries) (name : String)
    {hint : Hint} (below : hint.Ordered) : OrderedEntries (entries.set name hint) := by
  induction entries with
  | nil => simp [Entries.set, OrderedEntries, below]
  | cons head rest ih =>
    obtain ⟨key, value⟩ := head
    obtain ⟨first, here, tail⟩ := ordered
    simp only [Entries.set]
    split
    · exact ⟨by grind, below, first, here, tail⟩
    · split
      · refine ⟨fun entry member => ?_, here, ih tail⟩
        rcases Entries.mem_set member with rfl | member
        · assumption
        · exact first entry member
      · have : name = key := by grind
        subst this
        exact ⟨first, below, tail⟩

theorem OrderedEntries.of_get? {entries : Entries} (ordered : OrderedEntries entries)
    {name : String} {hint : Hint} (h : entries.get? name = some hint) : hint.Ordered := by
  induction entries with
  | nil => simp [Entries.get?] at h
  | cons head rest ih =>
    obtain ⟨key, value⟩ := head
    obtain ⟨_, here, tail⟩ := ordered
    simp only [Entries.get?, List.lookup_cons] at h
    split at h
    · cases h; exact here
    · exact ih tail h

end Hint

/-- **A table of hints**, its names in increasing order at every level. -/
structure HintTable where
  entries : Hint.Entries
  ordered : Hint.OrderedEntries entries := by trivial

namespace HintTable

/-- The table with no hints. -/
def empty : HintTable where
  entries := []

def isEmpty (table : HintTable) : Bool := table.entries.isEmpty

/-- The names at the top level. -/
def keys (table : HintTable) : List String := table.entries.map (·.1)

end HintTable

/-! ## Written forms -/

namespace Hint

mutual
/-- The tree as a JSON value. -/
def toJson : Hint → Json
  | .unknown => .null
  | .leaf (.flag value) => .bool value
  | .leaf (.name value) => .str value
  | .table entries => .obj (toEntries entries)

/-- Every entry as an entry of a JSON object. -/
def toEntries : List (String × Hint) → Json.Entries
  | [] => []
  | (name, hint) :: rest => (name, toJson hint) :: toEntries rest
end

mutual
/-- Debug text of a hint. -/
def debug : Hint → String
  | .unknown => "Unknown"
  | .leaf value => value.debug
  | .table entries => "Table(\x7b" ++ ", ".intercalate (debugEntries entries) ++ "\x7d)"

/-- Debug text of every entry. -/
def debugEntries : List (String × Hint) → List String
  | [] => []
  | (name, hint) :: rest => (Text.quoted name ++ ": " ++ debug hint) :: debugEntries rest
end

end Hint

namespace HintTable

/-- The table as a JSON object. -/
def toJson (table : HintTable) : Json := .obj (Hint.toEntries table.entries)

/-- Debug text of a table. -/
def debug (table : HintTable) : String :=
  "\x7b" ++ ", ".intercalate (Hint.debugEntries table.entries) ++ "\x7d"

end HintTable

end SwiftScribe
