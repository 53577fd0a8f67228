import SwiftScribe.Json.Basic
import SwiftScribe.Double.Layout
import SwiftScribe.Text.Quoted

/-!
# Open payloads

A literal holds a value of any shape. It is the JSON value it was read from, but for integers above
the signed 64-bit range, which become doubles.
-/

namespace SwiftScribe

/-- **The payload of a literal.** -/
inductive Scalar where
  | null
  | bool (value : Bool)
  | int (value : Int)
  | double (value : Double)
  | str (value : String)
  | arr (items : List Scalar)
  | map (entries : List (String × Scalar))

namespace Scalar

/-- An integer stays one up to `2 ^ 63 - 1`. -/
def ofInt (n : Int) : Scalar := if n < 0x8000000000000000 then .int n else .double (Double.ofNat n.toNat)

mutual
/-- **The payload that a JSON value stands for.** -/
def ofJson : Json → Scalar
  | .null => .null
  | .bool value => .bool value
  | .int value => ofInt value
  | .double value => .double value
  | .str value => .str value
  | .arr items => .arr (ofItems items)
  | .obj entries => .map (ofEntries entries)

/-- The payload of every item. -/
def ofItems : List Json → List Scalar
  | [] => []
  | item :: rest => ofJson item :: ofItems rest

/-- The payload of every entry. -/
def ofEntries : List (String × Json) → List (String × Scalar)
  | [] => []
  | (key, value) :: rest => (key, ofJson value) :: ofEntries rest
end

mutual
/-- The payload as a JSON value. -/
def toJson : Scalar → Json
  | .null => .null
  | .bool value => .bool value
  | .int value => .int value
  | .double value => .double value
  | .str value => .str value
  | .arr items => .arr (toItems items)
  | .map entries => .obj (toEntries entries)

/-- Every item as a JSON value. -/
def toItems : List Scalar → List Json
  | [] => []
  | item :: rest => toJson item :: toItems rest

/-- Every entry as an entry of a JSON object. -/
def toEntries : List (String × Scalar) → List (String × Json)
  | [] => []
  | (key, value) :: rest => (key, toJson value) :: toEntries rest
end

mutual
/-- **The payload as debug text**, such as `Array([Int(1), Map(...)])`. -/
def debug : Scalar → String
  | .null => "Null"
  | .bool value => if value then "Bool(true)" else "Bool(false)"
  | .int value => "Int(" ++ toString value ++ ")"
  | .double value => "Double(" ++ value.format .debug ++ ")"
  | .str value => "String(" ++ Text.quoted value ++ ")"
  | .arr items => "Array([" ++ ", ".intercalate (debugItems items) ++ "])"
  | .map entries => "Map(\x7b" ++ ", ".intercalate (debugEntries entries) ++ "\x7d)"

/-- The debug text of every item. -/
def debugItems : List Scalar → List String
  | [] => []
  | item :: rest => debug item :: debugItems rest

/-- The debug text of every entry. -/
def debugEntries : List (String × Scalar) → List String
  | [] => []
  | (key, value) :: rest =>
    ("Name(" ++ Text.quoted key ++ "): " ++ debug value) :: debugEntries rest
end

mutual
/-- **Equality of payloads.** Doubles are compared as numbers, maps without regard to order, and an
integer never equals a double. -/
def same : Scalar → Scalar → Bool
  | .null, .null => true
  | .bool a, .bool b => a == b
  | .int a, .int b => a == b
  | .double a, .double b => a.same b
  | .str a, .str b => a == b
  | .arr a, .arr b => sameItems a b
  | .map a, .map b => a.length == b.length && sameEntries a b
  | _, _ => false

/-- Equality item by item. -/
def sameItems : List Scalar → List Scalar → Bool
  | [], [] => true
  | a :: as, b :: bs => same a b && sameItems as bs
  | _, _ => false

/-- Whether every entry of the first map has an equal one in the second. -/
def sameEntries : List (String × Scalar) → List (String × Scalar) → Bool
  | [], _ => true
  | (key, a) :: rest, other =>
    (match other.lookup key with | some b => same a b | none => false) && sameEntries rest other
end

/-- The text of a string payload. -/
def text? : Scalar → Option String
  | .str value => some value
  | _ => none

def isNull : Scalar → Bool
  | .null => true
  | _ => false

end Scalar

end SwiftScribe
