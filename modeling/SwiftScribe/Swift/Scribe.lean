import SwiftScribe.Hint.Record
import SwiftScribe.Node.Form

/-!
# Scribes

What generation needs beside text: types of paths, texts that stand in for constructs without a
rendering, and failures. A `Scribe` provides them. Generation is written once for every scribe; the
steps of a generation come one after the other, and stop at the first failure.
-/

namespace SwiftScribe.Swift

/-- The constructs of which some shapes have no counterpart in Swift. -/
inductive Construct where
  | forInBinding
  | forOfBinding
  | functionParameter
  | functionDeclaration
  | classDeclaration
  | method
  | catchParameter
deriving DecidableEq

def Construct.name : Construct → String
  | .forInBinding => "for-in binding"
  | .forOfBinding => "for-of binding"
  | .functionParameter => "function parameter"
  | .functionDeclaration => "function declaration"
  | .classDeclaration => "class declaration"
  | .method => "method"
  | .catchParameter => "catch parameter"

/-- **Why generation fails:** a construct of a shape that cannot be expressed. -/
structure Unsupported where
  construct : Construct
  detail : String
deriving DecidableEq

def Unsupported.message (error : Unsupported) : String :=
  "unsupported " ++ error.construct.name ++ ": " ++ error.detail

/-- **What generation can do beside making text.** -/
class Scribe (m : Type → Type) extends Applicative m where
  /-- The type of a path, as far as it is known. -/
  resolve : TypePath → m (Option String)
  /-- A text in the place of a construct of some kind. -/
  standIn (kind text : String) : m String
  fail {α : Type} (construct : Construct) (detail : String) : m α

variable {m : Type → Type} [Scribe m]

/-- Text after text. -/
instance Scribe.instAppend : Append (m String) where
  append first second := (· ++ ·) <$> first <*> second

namespace Scribe

/-- Steps one after the other. -/
def all {α : Type} : List (m α) → m (List α)
  | [] => pure []
  | first :: rest => List.cons <$> first <*> all rest

/-- Texts with a separator between them. -/
def join (separator : String) (parts : List (m String)) : m String :=
  separator.intercalate <$> all parts

/-- Lines, without the empty ones. -/
def lines (parts : List (m String)) : m String :=
  (fun texts => "\n".intercalate (texts.filter (· ≠ ""))) <$> all parts

end Scribe

/-! ## Placeholders -/

/-- Puts a blank between every two characters `a` and `b`. -/
def spread (a b : Char) : List Char → List Char
  | x :: y :: rest =>
    if x = a ∧ y = b then a :: ' ' :: b :: spread a b rest else x :: spread a b (y :: rest)
  | short => short

/-- Text with no comment mark in it. -/
def withoutCommentMarks (text : String) : String :=
  String.ofList (spread '*' '/' (spread '/' '*' text.toList))

/-- **The text that stands for a construct without a rendering.** It is not valid Swift on
purpose. -/
def placeholderText (kind : String) (form : Form) : String :=
  "«" ++ kind ++ "» /* " ++ withoutCommentMarks form.debug ++ " */"

/-- A placeholder for a construct without a rendering. -/
def placeholder (kind : String) (form : Form) : m String :=
  Scribe.standIn kind (placeholderText kind form)

end SwiftScribe.Swift
