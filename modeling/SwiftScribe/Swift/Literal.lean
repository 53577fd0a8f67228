/-!
# Swift literals and names

How text becomes a Swift string literal, and a source name a Swift identifier. A literal that spans
lines is written between triple quotes.
-/

namespace SwiftScribe.Swift

/-- One character inside a string literal: quotes and backslashes get a backslash, and a carriage
return is spelled out. -/
def escapeChar (c : Char) : List Char :=
  match c with
  | '\\' => ['\\', '\\']
  | '"' => ['\\', '"']
  | '\r' => ['\\', 'r']
  | c => [c]

/-- The contents of a string literal for some raw text. -/
def escape (raw : String) : String := String.ofList (raw.toList.flatMap escapeChar)

/-- Quotes around contents that are already escaped. -/
def wrap (escaped : String) : String :=
  if '\n' ∈ escaped.toList then "\"\"\"\n" ++ escaped ++ "\n\"\"\"" else "\"" ++ escaped ++ "\""

/-- **The string literal for some raw text.** -/
def quote (raw : String) : String := wrap (escape raw)

/-- Words that cannot stand bare as an identifier. -/
def keywords : List String :=
  ["Any", "Self", "as", "associatedtype", "break", "case", "catch", "class", "continue", "default",
   "defer", "deinit", "do", "else", "enum", "extension", "fallthrough", "false", "fileprivate",
   "for", "func", "guard", "if", "import", "in", "init", "inout", "internal", "is", "let", "nil",
   "operator", "private", "protocol", "public", "repeat", "rethrows", "return", "self", "static",
   "struct", "subscript", "super", "switch", "throw", "throws", "true", "try", "typealias", "var",
   "where", "while"]

/-- **A source name as Swift spells it.** Keywords are quoted with backticks, and `undefined` is the
absent value. -/
def identifier (name : String) : String :=
  if name = "undefined" then "nil"
  else if name ∈ keywords then "`" ++ name ++ "`"
  else name

end SwiftScribe.Swift
