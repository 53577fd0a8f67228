import SwiftScribe.Json.Basic
import SwiftScribe.Double.Layout

/-!
# JSON text

Two written forms of a value: on one line without blanks (`compact`), and with one entry a line and
two blanks for each level (`pretty`).
-/

namespace SwiftScribe.Json

/-- One character inside a JSON string. -/
def escapeChar (c : Char) : List Char :=
  match c with
  | '"' => ['\\', '"']
  | '\\' => ['\\', '\\']
  | '\x08' => ['\\', 'b']
  | '\x0c' => ['\\', 'f']
  | '\n' => ['\\', 'n']
  | '\r' => ['\\', 'r']
  | '\t' => ['\\', 't']
  | c =>
    if c.toNat < 0x20 then
      ['\\', 'u', '0', '0', Nat.digitChar (c.toNat / 16), Nat.digitChar (c.toNat % 16)]
    else [c]

/-- A JSON string with its quotes. -/
def quote (s : String) : String :=
  String.ofList ('"' :: s.toList.flatMap escapeChar ++ ['"'])

/-- The text of a value that is neither an array nor an object. -/
def leafText : Json → String
  | .bool value => if value then "true" else "false"
  | .int value => toString value
  | .double value => value.format .json
  | .str value => quote value
  | _ => "null"

mutual
/-- **The value on one line, without blanks.** -/
def compact : Json → String
  | .arr items => "[" ++ ",".intercalate (compactItems items) ++ "]"
  | .obj entries => "\x7b" ++ ",".intercalate (compactEntries entries) ++ "\x7d"
  | leaf => leaf.leafText

/-- The text of every item. -/
def compactItems : List Json → List String
  | [] => []
  | item :: rest => compact item :: compactItems rest

/-- The text of every entry. -/
def compactEntries : List (String × Json) → List String
  | [] => []
  | (key, value) :: rest => (quote key ++ ":" ++ compact value) :: compactEntries rest
end

/-- Two blanks for each level. -/
def indent (level : Nat) : String := String.ofList (List.replicate (2 * level) ' ')

/-- Lines between two brackets that stand at a level; nothing between them if there are none. -/
def bracketed (opening closing : String) (level : Nat) (members : List String) : String :=
  if members.isEmpty then opening ++ closing
  else
    opening ++ "\n" ++ ",\n".intercalate (members.map (indent (level + 1) ++ ·)) ++ "\n"
      ++ indent level ++ closing

mutual
/-- The text of a value at a level. -/
def prettyAt (level : Nat) : Json → String
  | .arr items => bracketed "[" "]" level (prettyItems (level + 1) items)
  | .obj entries => bracketed "\x7b" "\x7d" level (prettyEntries (level + 1) entries)
  | leaf => leaf.leafText

/-- The text of every item at a level. -/
def prettyItems (level : Nat) : List Json → List String
  | [] => []
  | item :: rest => prettyAt level item :: prettyItems level rest

/-- The text of every entry at a level. -/
def prettyEntries (level : Nat) : List (String × Json) → List String
  | [] => []
  | (key, value) :: rest =>
    (quote key ++ ": " ++ prettyAt level value) :: prettyEntries level rest
end

/-- **The value with one entry a line.** -/
def pretty (value : Json) : String := prettyAt 0 value

end SwiftScribe.Json
