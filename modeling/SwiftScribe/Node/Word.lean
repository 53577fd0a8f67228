/-!
# Words with a closed set of spellings

Some fields of a node hold one of a few words. Each such set is a type, with the spelling of its
words in a syntax tree and their labels in debug text.
-/

namespace SwiftScribe

/-- **A closed set of words.** -/
class Word (α : Type) where
  /-- What messages call the set. -/
  title : String
  /-- The words, in order. -/
  all : List α
  /-- How a word is spelled in a syntax tree. -/
  spelling : α → String
  /-- How debug text shows a word. -/
  label : α → String

/-- The word with a given spelling, if there is one. -/
def Word.ofSpelling? {α : Type} [Word α] (text : String) : Option α :=
  (Word.all : List α).find? fun word => Word.spelling word == text

/-- How a variable is declared: by `var`, `let` or `const`. -/
inductive VariableKind where
  | functionScoped
  | blockScoped
  | constant
deriving DecidableEq

instance : Word VariableKind where
  title := "VariableKind"
  all := [.functionScoped, .blockScoped, .constant]
  spelling
    | .functionScoped => "var"
    | .blockScoped => "let"
    | .constant => "const"
  label
    | .functionScoped => "Var"
    | .blockScoped => "Let"
    | .constant => "Const"

/-- What a property of an object literal is. -/
inductive PropertyKind where
  | value
  | getter
  | setter
deriving DecidableEq

instance : Word PropertyKind where
  title := "PropertyKind"
  all := [.value, .getter, .setter]
  spelling
    | .value => "init"
    | .getter => "get"
    | .setter => "set"
  label
    | .value => "Init"
    | .getter => "Get"
    | .setter => "Set"

/-- What a member of a class is. -/
inductive MethodKind where
  | method
  | constructor
  | getter
  | setter
deriving DecidableEq

instance : Word MethodKind where
  title := "MethodKind"
  all := [.method, .constructor, .getter, .setter]
  spelling
    | .method => "method"
    | .constructor => "constructor"
    | .getter => "get"
    | .setter => "set"
  label
    | .method => "Method"
    | .constructor => "Constructor"
    | .getter => "Get"
    | .setter => "Set"

/-- The operators `++` and `--`. -/
inductive UpdateOperator where
  | increment
  | decrement
deriving DecidableEq

instance : Word UpdateOperator where
  title := "UpdateOperator"
  all := [.increment, .decrement]
  spelling
    | .increment => "++"
    | .decrement => "--"
  label
    | .increment => "Increment"
    | .decrement => "Decrement"

end SwiftScribe
