import SwiftScribe.Json.Halt
import SwiftScribe.Json.Numeral

/-!
# Reading JSON text

A reader takes what it needs off the front of a text and hands back the rest. `readValue` reads one
value and keeps repeated keys; `Json.read` reads a whole text and settles them. Arrays and objects
are read alike, by `readMembers`; a `Container` says in what they differ. The reader allows
`nestingLimit` open arrays and objects, and its recursion is on how many more are allowed.
-/

namespace SwiftScribe.Json

/-- A reader: from a text to what it reads and the rest of the text. -/
abbrev Reader (α : Type) := List Char → Except Halt (α × List Char)

/-- A reader of something without parts, so that a fault is all there is to tell. -/
abbrev LeafReader (α : Type) := List Char → Except Fault (α × List Char)

/-- How many arrays and objects may be open at once. -/
def nestingLimit : Nat := 127

def isBlank (c : Char) : Bool := c == ' ' || c == '\n' || c == '\t' || c == '\r'

/-- The text without the blanks in front. -/
def skipBlanks (cs : List Char) : List Char := cs.dropWhile isBlank

/-- The rest of a word of which the first letter has been seen. -/
def readWord (value : Json) : List Char → LeafReader Json
  | [], cs => .ok (value, cs)
  | _ :: _, [] => .error .endOfValue
  | w :: word, c :: cs => if c = w then readWord value word cs else .error .expectedWord

/-- The value of a hexadecimal digit. -/
def hexValue? (c : Char) : Option Nat :=
  if '0' ≤ c ∧ c ≤ '9' then some (c.toNat - '0'.toNat)
  else if 'a' ≤ c ∧ c ≤ 'f' then some (c.toNat - 'a'.toNat + 10)
  else if 'A' ≤ c ∧ c ≤ 'F' then some (c.toNat - 'A'.toNat + 10)
  else none

/-- The value of four hexadecimal digits. -/
def hexUnit? (a b c d : Char) : Option Nat := do
  return (((← hexValue? a) * 16 + (← hexValue? b)) * 16 + (← hexValue? c)) * 16 + (← hexValue? d)

/-- The character that a backslash and a letter stand for. -/
def escaped? : Char → Option Char
  | '"' => some '"'
  | '\\' => some '\\'
  | '/' => some '/'
  | 'b' => some '\x08'
  | 'f' => some '\x0c'
  | 'n' => some '\n'
  | 'r' => some '\r'
  | 't' => some '\t'
  | _ => none

/-- Puts a character in front of what a string reader read. -/
def consChar (c : Char) (result : Except Fault (List Char × List Char)) :
    Except Fault (List Char × List Char) :=
  result.map fun (text, rest) => (c :: text, rest)

/-- The fault of a text that does not start with four hexadecimal digits: it may be too short. -/
def hexFault (cs : List Char) : Fault :=
  if (String.ofList cs).utf8ByteSize < 4 then .endOfString else .invalidEscape

/-- The fault of a text that does not start with an escape, after the first half of a pair. -/
def pairFault : List Char → Fault
  | [] | ['\\'] => .endOfString
  | '\\' :: 'u' :: cs => hexFault cs
  | _ => .halfPair

/-- **The contents of a string**, from after its opening quote to after its closing one. A character
beyond the first plane is escaped as a pair of surrogates; one of them alone stands for nothing. -/
def readString : LeafReader (List Char)
  | [] => .error .endOfString
  | '"' :: rest => .ok ([], rest)
  | '\\' :: 'u' :: a :: b :: c :: d :: rest =>
    match hexUnit? a b c d with
    | none => .error .invalidEscape
    | some high =>
      if high < 0xd800 ∨ 0xdfff < high then consChar (Char.ofNat high) (readString rest)
      else if 0xdc00 ≤ high then .error .loneSurrogate
      else
        match rest with
        | '\\' :: 'u' :: e :: f :: g :: h :: rest =>
          match hexUnit? e f g h with
          | none => .error .invalidEscape
          | some low =>
            if 0xdc00 ≤ low ∧ low ≤ 0xdfff then
              consChar (Char.ofNat (0x10000 + (high - 0xd800) * 0x400 + (low - 0xdc00)))
                (readString rest)
            else .error .loneSurrogate
        | rest => .error (pairFault rest)
  | '\\' :: 'u' :: rest => .error (hexFault rest)
  | ['\\'] => .error .endOfString
  | '\\' :: e :: rest =>
    match escaped? e with
    | some c => consChar c (readString rest)
    | none => .error .invalidEscape
  | c :: rest => if c.toNat < 0x20 then .error .controlCharacter else consChar c (readString rest)

/-- **A kind of container**: how a member of it is read, what stands around the members, and where a
halt among them is. -/
structure Container (α : Type) where
  member : Reader α
  build : List α → Json
  close : Char
  /-- The text ends before the closing bracket. -/
  unclosed : Fault
  /-- Neither a comma nor the closing bracket follows a member. -/
  unseparated : Fault
  /-- The place of what comes after so many members. -/
  place : Nat → Path
  /-- The place, in turn, of something that should have been a member. -/
  gap : Path

namespace Container

/-- An array; its members are known by their index. -/
def array (item : Reader Json) : Container Json where
  member := item
  build := .arr
  close := ']'
  unclosed := .endOfList
  unseparated := .expectedListSeparator
  place n := [.index n]
  gap := []

/-- The place of an entry that has no key. -/
def keyless : Path := [.name "?"]

/-- A key, the colon after it, and its value; the opening quote of the key is in front. -/
def readEntry (item : Reader Json) : Reader (String × Json)
  | '"' :: cs =>
    match readString cs with
    | .error fault => .error ⟨fault, keyless, none⟩
    | .ok (key, rest) =>
      let key := String.ofList key
      match skipBlanks rest with
      | [] => .error ⟨.endOfObject, [.name key], none⟩
      | ':' :: rest =>
        match item rest with
        | .error halt => .error { halt with path := .name key :: halt.path }
        | .ok (value, rest) => .ok ((key, value), rest)
      | _ => .error ⟨.expectedColon, [.name key], none⟩
  | _ => .error ⟨.keyNotString, keyless, none⟩

/-- An object; its members are known by their key. -/
def object (item : Reader Json) : Container (String × Json) where
  member := readEntry item
  build := .obj
  close := '\x7d'
  unclosed := .endOfObject
  unseparated := .expectedObjectSeparator
  place _ := []
  gap := keyless

end Container

/-- Puts a member in front of those that were read, whether or not all of them could be. -/
def consMember {α : Type} (first : α) :
    Except (Halt × List α) (List α × List Char) → Except (Halt × List α) (List α × List Char)
  | .ok (others, rest) => .ok (first :: others, rest)
  | .error (halt, others) => .error (halt, first :: others)

/-- **The members of a container** from the first one on, to after the closing bracket. There are at
most `limit` of them. A halt comes with the members before it. -/
def readMembers {α : Type} (kind : Container α) :
    Nat → List Char → Except (Halt × List α) (List α × List Char)
  | 0, _ => .error (⟨kind.unclosed, kind.gap, none⟩, [])
  | limit + 1, cs =>
    match kind.member cs with
    | .error halt => .error (halt, [])
    | .ok (first, rest) =>
      match skipBlanks rest with
      | [] => .error (⟨kind.unclosed, kind.gap, none⟩, [first])
      | c :: rest =>
        if c = kind.close then .ok ([first], rest)
        else if c = ',' then
          match skipBlanks rest with
          | [] => .error (⟨.endOfValue, kind.gap, none⟩, [first])
          | next :: rest =>
            if next = kind.close then .error (⟨.trailingComma, kind.gap, none⟩, [first])
            else consMember first (readMembers kind limit (next :: rest))
        else .error (⟨kind.unseparated, kind.gap, none⟩, [first])

/-- A number after its sign. -/
def readNumber (negative : Bool) (cs : List Char) : Except Fault (Json × List Char) := do
  let (numeral, rest) ← Numeral.read negative cs
  let value ← numeral.value
  .ok (value, rest)

/-- A value other than an array or an object, the first character of which is given. -/
def readLeaf (first : Char) (rest : List Char) : Except Fault (Json × List Char) :=
  match first with
  | 'n' => readWord .null ['u', 'l', 'l'] rest
  | 't' => readWord (.bool true) ['r', 'u', 'e'] rest
  | 'f' => readWord (.bool false) ['a', 'l', 's', 'e'] rest
  | '"' => (readString rest).map fun (text, rest) => (.str (String.ofList text), rest)
  | '-' => readNumber true rest
  | c => if c.isDigit then readNumber false (c :: rest) else .error .expectedValue

/-- **The array or object** after its opening bracket. -/
def readContainer {α : Type} (kind : Container α) (limit : Nat) : Reader Json := fun cs =>
  match skipBlanks cs with
  | [] => .error (Halt.inside ⟨kind.unclosed, kind.gap, none⟩ (kind.place 0) (kind.build []))
  | c :: rest =>
    if c = kind.close then .ok (kind.build [], rest)
    else
      match readMembers kind limit (c :: rest) with
      | .ok (members, rest) => .ok (kind.build members, rest)
      | .error (halt, before) =>
        .error (halt.inside (kind.place before.length) (kind.build before))

/-- **One value at the front of a text**, blanks before it skipped. At most `allowed` more arrays and
objects may be opened, and none of them has more than `limit` members. Repeated keys are kept. -/
def readValue (limit : Nat) : Nat → Reader Json
  | allowed, cs =>
    match skipBlanks cs with
    | [] => .error (.here .endOfValue)
    | first :: rest =>
      if first = '[' ∨ first = '\x7b' then
        match allowed with
        | 0 => .error (.here .tooDeep)
        | allowed + 1 =>
          if first = '[' then readContainer (.array (readValue limit allowed)) limit rest
          else readContainer (.object (readValue limit allowed)) limit rest
      else (readLeaf first rest).mapError .here

/-- **The first value of a text** and what follows it. A container has fewer members than the text
has characters, so the length of the text bounds them. -/
def readFirst (text : String) : Except Halt (Json × List Char) :=
  let cs := text.toList
  readValue cs.length nestingLimit cs

/-- **A text that is one JSON value**, as that value. -/
def read (text : String) : Except Fault Json :=
  match readFirst text with
  | .error halt => .error halt.fault
  | .ok (value, rest) =>
    if skipBlanks rest = [] then .ok value.tidy else .error .trailingText

end SwiftScribe.Json
