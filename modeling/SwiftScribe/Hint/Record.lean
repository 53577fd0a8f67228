import SwiftScribe.Hint.Basic
import SwiftScribe.Log

/-!
# Looking up, recording and merging

A path is a list of names from the outermost scope inwards. Looking a path up walks down the tables;
a leaf met on the way answers for the whole path. Recording never changes an answer: the first entry
at a path stays, and only a place where nothing is known may grow into a table. Merging follows the
same rule for whole tables.
-/

namespace SwiftScribe

/-- **A type path:** names from the outermost scope inwards. -/
abbrev TypePath := List String

namespace TypePath

/-- The path as comments show it. -/
def text (path : TypePath) : String := ", ".intercalate path

/-- The path one name further. -/
def descend (path : TypePath) (name : String) : TypePath := path ++ [name]

/-- The path of a return type. -/
def returned (path : TypePath) : TypePath := path.descend "@return"

/-- The path of generic parameters. -/
def generic (path : TypePath) : TypePath := path.descend "@generic"

/-- The path of what stands before a member. -/
def modifier (path : TypePath) : TypePath := path.descend "@prefix"

/-- The path of an initializer. -/
def initializer (path : TypePath) : TypePath := path.descend "init"

end TypePath

namespace Hint.Entries

/-- The leaf that answers for a path, if any. -/
def lookup : Entries → TypePath → Option Leaf
  | _, [] => none
  | entries, first :: rest =>
    match entries.get? first with
    | some (.table nested) => lookup nested rest
    | some (.leaf value) => some value
    | some .unknown => none
    | none => none

/-- The table under a name that may grow: the one that is there, or an empty one where nothing is
known. -/
def nested? (entries : Entries) (name : String) : Option Entries :=
  match entries.get? name with
  | none => some []
  | some .unknown => some []
  | some (.table nested) => some nested
  | some (.leaf _) => none

/-- The entries with a hint recorded at a path; none if that changes nothing. -/
def record? : TypePath → Hint → Entries → Option Entries
  | [], _, _ => none
  | [last], hint, entries =>
    if (entries.get? last).isSome then none else some (entries.set last hint)
  | first :: rest, hint, entries => do
    let nested ← entries.nested? first
    let nested ← record? rest hint nested
    return entries.set first (.table nested)

/-- The leaf that keeps a path from being recorded, and the name it stands under. -/
def blocker? : Entries → TypePath → Option (String × Leaf)
  | entries, first :: second :: rest =>
    match entries.get? first with
    | some (.leaf value) => some (first, value)
    | some (.table nested) => blocker? nested (second :: rest)
    | _ => none
  | _, _ => none

end Hint.Entries

namespace Hint

theorem Ordered.nested {entries : Entries} (ordered : OrderedEntries entries) {name : String}
    {nested : Entries} (h : entries.nested? name = some nested) : OrderedEntries nested := by
  simp only [Entries.nested?] at h
  split at h
  · cases h; trivial
  · cases h; trivial
  · cases h
    rename_i found
    exact ordered.of_get? found
  · cases h

theorem OrderedEntries.record {path : TypePath} {hint : Hint} (below : hint.Ordered)
    {entries result : Entries} (ordered : OrderedEntries entries)
    (h : Entries.record? path hint entries = some result) : OrderedEntries result := by
  fun_induction Entries.record? path hint entries generalizing result with
  | case1 => cases h
  | case2 => cases h
  | case3 => cases h; exact ordered.set _ below
  | case4 first rest hint entries _ ih =>
    obtain ⟨nested, found, h⟩ := Option.bind_eq_some_iff.1 h
    obtain ⟨grown, recorded, h⟩ := Option.bind_eq_some_iff.1 h
    cases h
    exact ordered.set _ (ih _ below (Ordered.nested ordered found) recorded)

mutual
/-- What becomes of a name that has an `existing` hint when another one comes in. A known answer
stays; nothing known gives way to a table; two tables are merged. -/
def merged (existing : Option Hint) : Hint → Hint
  | .table incoming =>
    match existing with
    | none => .table incoming
    | some .unknown => .table incoming
    | some (.table entries) => .table (mergedEntries entries incoming)
    | some (.leaf value) => .leaf value
  | .unknown => existing.getD .unknown
  | .leaf value => existing.getD (.leaf value)

/-- The entries with others merged into them, name by name. -/
def mergedEntries (entries : Entries) : List (String × Hint) → Entries
  | [] => entries
  | (name, hint) :: rest =>
    mergedEntries (entries.set name (merged (entries.get? name) hint)) rest
end

mutual
theorem Ordered.merged {existing : Option Hint} (before : ∀ hint, existing = some hint → hint.Ordered) :
    (incoming : Hint) → incoming.Ordered → (Hint.merged existing incoming).Ordered
  | .table incoming, ordered => by
    cases existing with
    | none => exact ordered
    | some hint =>
      cases hint with
      | unknown => exact ordered
      | leaf value => trivial
      | table entries => exact OrderedEntries.merged (before _ rfl) incoming ordered
  | .unknown, _ => by
    cases existing with
    | none => trivial
    | some hint => exact before hint rfl
  | .leaf value, _ => by
    cases existing with
    | none => trivial
    | some hint => exact before hint rfl

theorem OrderedEntries.merged {entries : Entries} (ordered : OrderedEntries entries) :
    (incoming : List (String × Hint)) → OrderedEntries incoming →
      OrderedEntries (Hint.mergedEntries entries incoming)
  | [], _ => ordered
  | (name, hint) :: rest, ⟨_, here, tail⟩ =>
    OrderedEntries.merged
      (ordered.set name (Ordered.merged (fun _ found => ordered.of_get? found) hint here)) rest tail
end

end Hint

namespace HintTable

/-- **The leaf that answers for a path**, if any. -/
def lookup (table : HintTable) (path : TypePath) : Option Leaf := table.entries.lookup path

/-- The text that answers for a path, if any. -/
def answer? (table : HintTable) (path : TypePath) : Option String := (table.lookup path).map Leaf.text

/-- **The table with a hint recorded at a path**; none if that changes nothing. -/
def record? (table : HintTable) (path : TypePath) (hint : Hint) (below : hint.Ordered) :
    Option HintTable :=
  match h : Hint.Entries.record? path hint table.entries with
  | none => none
  | some entries => some ⟨entries, Hint.OrderedEntries.record below table.ordered h⟩

/-- **The table with another one merged into it.** What is there already wins. -/
def merge (table other : HintTable) : HintTable :=
  ⟨Hint.mergedEntries table.entries other.entries, table.ordered.merged other.entries other.ordered⟩

end HintTable

/-! ## Resolving -/

/-- A leaf, or nothing known, as a hint. -/
def Hint.ofLeaf? : Option Leaf → Hint
  | some value => .leaf value
  | none => .unknown

theorem Hint.ordered_ofLeaf? (leaf? : Option Leaf) : (Hint.ofLeaf? leaf?).Ordered := by
  cases leaf? <;> trivial

namespace HintTable

/-- The records after a path has been looked up in the hints; none if they do not change. -/
def note? (hints records : HintTable) (path : TypePath) : Option HintTable :=
  records.record? path (.ofLeaf? (hints.lookup path)) (Hint.ordered_ofLeaf? _)

/-- **The records after a path has been looked up in the hints.** The first outcome at a path is
kept. -/
def note (hints records : HintTable) (path : TypePath) : HintTable :=
  (note? hints records path).getD records

/-- Debug text of what a lookup found. -/
def debugFound : Option Leaf → String
  | none => "None"
  | some value => "Some(" ++ value.debug ++ ")"

/-- What resolving a path logs: a leaf that is in the way, and a change of the records. -/
def noteLogs (hints records : HintTable) (path : TypePath) : List Log :=
  let blocked :=
    match records.entries.blocker? path with
    | some (name, value) =>
      [⟨.debug, "`" ++ name ++ "` already recorded as " ++ value.debug ++ "; not descending"⟩]
    | none => []
  let resolved :=
    if (note? hints records path).isSome then
      [⟨.debug, "resolved [" ++ path.text ++ "] to " ++ debugFound (hints.lookup path)⟩]
    else []
  blocked ++ resolved

end HintTable

end SwiftScribe
