import SwiftScribe.Double.Basic

/-!
# JSON values

A JSON value as data. Objects keep the order of their entries; integers and other numbers are kept
apart. `Json.tidy` settles repeated keys: the first place, the last value.
-/

namespace SwiftScribe

/-- **A JSON value.** Reading produces integers from `-2 ^ 63` to `2 ^ 64 - 1`; every other number is
a double. -/
inductive Json where
  | null
  | bool (value : Bool)
  | int (value : Int)
  | double (value : Double)
  | str (value : String)
  | arr (items : List Json)
  | obj (entries : List (String × Json))

namespace Json

/-- The entries of an object, in order. -/
abbrev Entries := List (String × Json)

/-- Sets a key: in place if it is there, at the end otherwise. -/
def Entries.put (key : String) (value : Json) : Entries → Entries
  | [] => [(key, value)]
  | (k, v) :: rest => if k = key then (key, value) :: rest else (k, v) :: put key value rest

/-- Entries with distinct keys: each key at its first place, with its last value. -/
def Entries.distinct (entries : Entries) : Entries :=
  entries.foldl (fun done (key, value) => done.put key value) []

/-- The value under a key, if there is one. -/
def Entries.get? (entries : Entries) (key : String) : Option Json := entries.lookup key

mutual
/-- The value with distinct keys in every object. -/
def tidy : Json → Json
  | .arr items => .arr (tidyItems items)
  | .obj entries => .obj (tidyEntries entries).distinct
  | leaf => leaf

/-- `tidy` on every item. -/
def tidyItems : List Json → List Json
  | [] => []
  | item :: rest => tidy item :: tidyItems rest

/-- `tidy` on the value of every entry. -/
def tidyEntries : List (String × Json) → Entries
  | [] => []
  | (key, value) :: rest => (key, tidy value) :: tidyEntries rest
end

mutual
/-- How many arrays and objects are open at the deepest place. -/
def depth : Json → Nat
  | .arr items => depthItems items + 1
  | .obj entries => depthEntries entries + 1
  | _ => 0

/-- The greatest depth among the items. -/
def depthItems : List Json → Nat
  | [] => 0
  | item :: rest => max (depth item) (depthItems rest)

/-- The greatest depth among the values of the entries. -/
def depthEntries : List (String × Json) → Nat
  | [] => 0
  | (_, value) :: rest => max (depth value) (depthEntries rest)
end

/-- The six kinds of JSON values. -/
inductive Kind where
  | null
  | boolean
  | number
  | string
  | array
  | object
deriving DecidableEq

/-- The kind as messages name it. -/
def Kind.name : Kind → String
  | .null => "null"
  | .boolean => "boolean"
  | .number => "number"
  | .string => "string"
  | .array => "array"
  | .object => "object"

/-- The kind of a value. -/
def kind : Json → Kind
  | .null => .null
  | .bool _ => .boolean
  | .int _ | .double _ => .number
  | .str _ => .string
  | .arr _ => .array
  | .obj _ => .object

end Json

end SwiftScribe
