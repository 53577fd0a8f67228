/-!
# Faults of JSON text

Why a text is not JSON.
-/

namespace SwiftScribe.Json

/-- **What is wrong with a text that is not JSON.** -/
inductive Fault where
  /-- The text ends where a value is due. -/
  | endOfValue
  | endOfList
  | endOfObject
  | endOfString
  | expectedColon
  | expectedListSeparator
  | expectedObjectSeparator
  /-- A word that starts like `null`, `true` or `false` and goes on otherwise. -/
  | expectedWord
  | expectedValue
  | invalidEscape
  | loneSurrogate
  /-- The first half of a pair of surrogates, and no escape after it. -/
  | halfPair
  | controlCharacter
  | invalidNumber
  /-- A number above the doubles. -/
  | numberOutOfRange
  | keyNotString
  | trailingComma
  /-- Something stands after the value. -/
  | trailingText
  /-- More arrays and objects are open than the reader allows. -/
  | tooDeep
deriving DecidableEq

/-- The wording of a fault. -/
def Fault.message : Fault → String
  | .endOfValue => "EOF while parsing a value"
  | .endOfList => "EOF while parsing a list"
  | .endOfObject => "EOF while parsing an object"
  | .endOfString => "EOF while parsing a string"
  | .expectedColon => "expected `:`"
  | .expectedListSeparator => "expected `,` or `]`"
  | .expectedObjectSeparator => "expected `,` or `\x7d`"
  | .expectedWord => "expected ident"
  | .expectedValue => "expected value"
  | .invalidEscape => "invalid escape"
  | .loneSurrogate => "lone leading surrogate in hex escape"
  | .halfPair => "unexpected end of hex escape"
  | .controlCharacter => "control character (\\u0000-\\u001F) found while parsing a string"
  | .invalidNumber => "invalid number"
  | .numberOutOfRange => "number out of range"
  | .keyNotString => "key must be a string"
  | .trailingComma => "trailing comma"
  | .trailingText => "trailing characters"
  | .tooDeep => "recursion limit exceeded"

end SwiftScribe.Json
