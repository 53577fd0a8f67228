import SwiftScribe.Node.Schema
import SwiftScribe.Json.Path
import SwiftScribe.Json.Printer

/-!
# Decoding

From a JSON value to the node it stands for, following the schema. Every error says at which place
of the value it arose, and the first field that fails decides. `Node.decode` looks at nothing but
the entries that the schema names.
-/

namespace SwiftScribe

/-- **Why a JSON value stands for no node.** -/
inductive DecodeError where
  /-- The `type` entry names no kind of node. -/
  | unknownKind (name : String) (path : Json.Path)
  | typeMismatch (expected found : Json.Kind) (path : Json.Path)
  | keyNotFound (key : String) (path : Json.Path)
  /-- A `null` where a value is due. -/
  | valueNotFound (expected : Json.Kind) (path : Json.Path)
  /-- A string that is none of the words of a closed set. -/
  | unknownWord (text title : String) (path : Json.Path)
deriving DecidableEq

namespace DecodeError

/-- Where the error arose. -/
def path : DecodeError → Json.Path
  | .unknownKind _ path => path
  | .typeMismatch _ _ path => path
  | .keyNotFound _ path => path
  | .valueNotFound _ path => path
  | .unknownWord _ _ path => path

/-- A kind of node that is not registered cannot be mended by another run. -/
def isFatal : DecodeError → Bool
  | .unknownKind .. => true
  | _ => false

/-- The wording of the error. -/
def message : DecodeError → String
  | .unknownKind name path => "unknown node type `" ++ name ++ "` at " ++ path.text
  | .typeMismatch expected found path =>
    "expected " ++ expected.name ++ " at " ++ path.text ++ ", found " ++ found.name
  | .keyNotFound key path => "key `" ++ key ++ "` not found at " ++ path.text
  | .valueNotFound expected path => "expected " ++ expected.name ++ " at " ++ path.text ++ ", found null"
  | .unknownWord text title path =>
    "corrupted data at " ++ path.text ++ ": `" ++ text ++ "` is not a valid " ++ title

end DecodeError

/-- **A value and its place** in the tree it is a part of. -/
structure Cursor where
  value : Json
  path : Json.Path

namespace Cursor

/-- The error of a value that is not of the expected kind. -/
def mismatch (cursor : Cursor) (expected : Json.Kind) : DecodeError :=
  if cursor.value.kind = .null then .valueNotFound expected cursor.path
  else .typeMismatch expected cursor.value.kind cursor.path

def text (cursor : Cursor) : Except DecodeError String :=
  match cursor.value with
  | .str value => .ok value
  | _ => .error (cursor.mismatch .string)

def flag (cursor : Cursor) : Except DecodeError Bool :=
  match cursor.value with
  | .bool value => .ok value
  | _ => .error (cursor.mismatch .boolean)

/-- One of the words of a closed set. -/
def word {α : Type} [Word α] (cursor : Cursor) : Except DecodeError α :=
  cursor.text.bind fun text =>
    match Word.ofSpelling? text with
    | some word => .ok word
    | none => .error (.unknownWord text (Word.title α) cursor.path)

/-- The value under a key of an object. If the object has no such key, `absent?` stands for it. -/
def field {α : Type} (cursor : Cursor) (key : String) (absent? : Option α)
    (decode : Cursor → Except DecodeError α) : Except DecodeError α :=
  match cursor.value with
  | .obj entries =>
    match Json.Entries.get? entries key, absent? with
    | some value, _ => decode ⟨value, cursor.path.join (.name key)⟩
    | none, some value => .ok value
    | none, none => .error (.keyNotFound key (cursor.path.join (.name key)))
  | _ => .error (cursor.mismatch .object)

/-- The items of an array from a certain index on. -/
def itemsFrom {α : Type} (path : Json.Path) (decode : Cursor → Except DecodeError α) :
    Nat → List Json → Except DecodeError (List α)
  | _, [] => .ok []
  | index, item :: rest => do
    let first ← decode ⟨item, path.join (.index index)⟩
    let others ← itemsFrom path decode (index + 1) rest
    return first :: others

/-- The items of an array. -/
def items {α : Type} (cursor : Cursor) (decode : Cursor → Except DecodeError α) :
    Except DecodeError (List α) :=
  match cursor.value with
  | .arr items => itemsFrom cursor.path decode 0 items
  | _ => .error (cursor.mismatch .array)

end Cursor

mutual
/-- What a value stands for under a schema. Nodes of any kind are decoded by `child`. -/
def Schema.decode (child : Cursor → Except DecodeError Node) :
    {α : Type} → Schema α → Cursor → Except DecodeError α
  | _, .text, cursor => cursor.text
  | _, .flag, cursor => cursor.flag
  | _, .scalar, cursor => .ok (Scalar.ofJson cursor.value)
  | _, @Schema.word _ _, cursor => cursor.word
  | _, .node, cursor => child cursor
  | _, .record fields, cursor => fields.decode child cursor
  | _, .optional schema, cursor =>
    if cursor.value.kind = .null then .ok none else (schema.decode child cursor).map some
  | _, .orElse schema default, cursor =>
    if cursor.value.kind = .null then .ok default else schema.decode child cursor
  | _, .list schema, cursor => cursor.items (schema.decode child)
  | _, .map f schema, cursor => (schema.decode child cursor).map f

/-- What an object makes, field by field. -/
def Fields.decode (child : Cursor → Except DecodeError Node) :
    {α : Type} → Fields α → Cursor → Except DecodeError α
  | _, .make value, _ => .ok value
  | _, .field before key schema, cursor => do
    let f ← before.decode child cursor
    let value ← cursor.field key schema.absent? (schema.decode child)
    return f value
end

/-- The node that a value of depth at most `depth` stands for. A value of depth zero is no object. -/
def Node.decodeWithin : Nat → Cursor → Except DecodeError Node
  | 0, cursor => .error (cursor.mismatch .object)
  | depth + 1, cursor => do
    let name ← cursor.field "type" none Cursor.text
    match Kind.ofName? name with
    | some kind => (Schema.ofKind kind).decode (decodeWithin depth) cursor
    | none => .error (.unknownKind name cursor.path)

/-- **The node that a JSON value stands for.** -/
def Node.decode (root : Json) : Except DecodeError Node :=
  decodeWithin root.depth ⟨root, []⟩

/-! ## Diagnosis -/

/-- **A decode error with its surroundings:** for a missing key, the text of the object that lacks
it. -/
structure Diagnosed where
  error : DecodeError
  ancestor? : Option String
deriving DecidableEq

namespace Diagnosed

/-- Looks the surroundings of an error up in the value that was decoded. -/
def of (root : Json) (error : DecodeError) : Diagnosed :=
  match error with
  | .keyNotFound _ path =>
    ⟨error, some (((path.parent?.bind (·.resolve root)).map Json.compact).getD "nil")⟩
  | _ => ⟨error, none⟩

def message (diagnosed : Diagnosed) : String :=
  match diagnosed.ancestor? with
  | some ancestor => diagnosed.error.message ++ "\n  in " ++ ancestor
  | none => diagnosed.error.message

end Diagnosed

/-- Decoding with the surroundings of an error. -/
def Node.decodeDiagnosed (root : Json) : Except Diagnosed Node :=
  (decode root).mapError (Diagnosed.of root)

end SwiftScribe
