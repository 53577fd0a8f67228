import SwiftScribe.Text.Unprintable
import SwiftScribe.Text.GraphemeExtend
import SwiftScribe.Text.Ignorable

/-!
# Quoted text

Text in double quotes, as debug text shows it: quotes, backslashes and the common controls are
escaped by a letter, characters that would not be seen on their own by their code point.
-/

namespace SwiftScribe.Text

/-- Whether a character is a mark on the one before it. Of the characters that extend the one before
them, the two halfwidth sound marks are letters and not marks. -/
def isMark (c : Char) : Bool := isGraphemeExtend c && c != '\uff9e' && c != '\uff9f'

/-- Whether a character would not be seen on its own. -/
def isUnseen (c : Char) : Bool := isMark c || isUnprintable c || isIgnorable c

/-- One character inside quotes. -/
def quotedChar (c : Char) : List Char :=
  match c with
  | '\x00' => ['\\', '0']
  | '\t' => ['\\', 't']
  | '\r' => ['\\', 'r']
  | '\n' => ['\\', 'n']
  | '"' => ['\\', '"']
  | '\\' => ['\\', '\\']
  | c =>
    if isUnseen c then ['\\', 'u', '\x7b'] ++ Nat.toDigits 16 c.toNat ++ ['\x7d'] else [c]

/-- **Text in double quotes.** -/
def quoted (s : String) : String :=
  String.ofList ('"' :: s.toList.flatMap quotedChar ++ ['"'])

end SwiftScribe.Text
