import SwiftScribe.Hint.Basic
import SwiftScribe.Json.Reader
import SwiftScribe.Json.Printer
import SwiftScribe.Files.Fault

/-!
# Reading hints

A hint file is a JSON object in which every value, at every depth, is `null`, a flag, a string or
an object. Values are read in order, so one of another shape is an error even if a later entry with
the same name would replace it; otherwise the last entry of a name counts. Text after the object is
not looked at. Of two errors the one that comes first in the text is told: an entry of another shape
counts also if the text after it is not JSON.
-/

namespace SwiftScribe

namespace Hint

mutual
/-- The hint that a JSON value stands for, if it has the shape of one. -/
def ofJson? : Json → Option Hint
  | .null => some .unknown
  | .bool value => some (.leaf (.flag value))
  | .str value => some (.leaf (.name value))
  | .obj entries => (ofEntries? [] entries).map .table
  | _ => none

/-- Adds the hints of the entries of an object to a table, one after the other. -/
def ofEntries? (done : Entries) : List (String × Json) → Option Entries
  | [] => some done
  | (name, value) :: rest => do
    let hint ← ofJson? value
    ofEntries? (done.set name hint) rest
end

mutual
theorem ordered_of_ofJson? : (value : Json) → {hint : Hint} → ofJson? value = some hint → hint.Ordered
  | .null, _, h => by cases h; trivial
  | .bool _, _, h => by cases h; trivial
  | .str _, _, h => by cases h; trivial
  | .int _, _, h => by cases h
  | .double _, _, h => by cases h
  | .arr _, _, h => by cases h
  | .obj entries, _, h => by
    obtain ⟨found, made, rfl⟩ := Option.map_eq_some_iff.1 h
    exact @ordered_of_ofEntries? entries [] found trivial made

theorem ordered_of_ofEntries? : (entries : List (String × Json)) → {done result : Entries} →
    OrderedEntries done → ofEntries? done entries = some result → OrderedEntries result
  | [], _, _, ordered, h => by cases h; exact ordered
  | (name, value) :: rest, _, _, ordered, h => by
    obtain ⟨hint, here, h⟩ := Option.bind_eq_some_iff.1 h
    exact ordered_of_ofEntries? rest (ordered.set name (ordered_of_ofJson? value here)) h
end

end Hint

/-- **Why a JSON value is no table of hints.** -/
inductive ShapeError where
  /-- It is not an object. -/
  | notTable (found : Json)
  /-- The value under a name at the top level holds a number or an array at some depth. -/
  | badEntry (name : String)

namespace ShapeError

/-- How a message describes a value that is not an object. -/
def describe : Json → String
  | .null => "null"
  | .bool value => if value then "boolean `true`" else "boolean `false`"
  | .int value => "integer `" ++ toString value ++ "`"
  | .double value => "floating point `" ++ value.format .json ++ "`"
  | .str value => "string " ++ Text.quoted value
  | .arr _ => "sequence"
  | .obj _ => "map"

/-- The name at the top level that the error is about; a point for the whole table. -/
def place : ShapeError → String
  | .notTable _ => "."
  | .badEntry name => name

/-- The wording for an entry of another shape. -/
def entryMessage : String := "data did not match any variant of untagged enum TypeHint"

def message : ShapeError → String
  | .notTable found => "invalid type: " ++ describe found ++ ", expected a map"
  | .badEntry _ => entryMessage

end ShapeError

namespace HintTable

/-- Adds the hints of the entries of an object to a table; the first entry of another shape is an
error. -/
def addEntries (done : HintTable) : List (String × Json) → Except ShapeError HintTable
  | [] => .ok done
  | (name, value) :: rest =>
    match h : Hint.ofJson? value with
    | some hint =>
      addEntries ⟨done.entries.set name hint, done.ordered.set name (Hint.ordered_of_ofJson? value h)⟩
        rest
    | none => .error (.badEntry name)

/-- **The table that a JSON value stands for.** -/
def ofJson : Json → Except ShapeError HintTable
  | .obj entries => addEntries empty entries
  | found => .error (.notTable found)

end HintTable

/-- **Why a hint file cannot be used.** -/
inductive HintError where
  | unreadable (path : String) (fault : Files.Fault)
  /-- The text stops being JSON before anything of another shape is met. -/
  | notJson (halt : Json.Halt)
  /-- The value is no table of hints. -/
  | misshapen (error : ShapeError)

namespace HintError

/-- The wording for a place in a hint file. -/
def malformed (place message : String) : String :=
  "malformed hint entry at JSON path " ++ place ++ ": " ++ message

/-- The wording of the error. -/
def message : HintError → String
  | .unreadable path fault => "failed to read hint file " ++ path ++ ": " ++ fault.message
  | .notJson halt => malformed halt.path.text halt.fault.message
  | .misshapen error => malformed error.place error.message

/-- The error of a text that stops being JSON. What was read before has to have the shape of a
table. -/
def ofHalt (halt : Json.Halt) : HintError :=
  match halt.begun?.map HintTable.ofJson with
  | some (.error error) => .misshapen error
  | _ => .notJson halt

end HintError

/-- **The table that the text of a hint file stands for.** -/
def HintTable.read (text : String) : Except HintError HintTable :=
  match Json.readFirst text with
  | .ok (value, _) => (ofJson value).mapError .misshapen
  | .error halt => .error (.ofHalt halt)

end SwiftScribe
