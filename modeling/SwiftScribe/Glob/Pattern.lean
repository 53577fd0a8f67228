import SwiftScribe.Files.Path

/-!
# Patterns for names

A pattern is read into tokens: `?` is any character, `*` any stretch of them, brackets hold a choice
of characters or, after `!`, a choice to avoid. Two stars are a segment of their own and stand for
any number of directories. Braces are ordinary characters.

`Pattern.parse` checks a text as a whole and then its segments one by one, so a bracket cannot reach
across a slash.
-/

namespace SwiftScribe.Glob

/-- A stretch of characters from one to another, both included. -/
structure Span where
  first : Char
  last : Char
deriving DecidableEq

def Span.contains (span : Span) (c : Char) : Bool := span.first ≤ c && c ≤ span.last

/-- **A piece of a pattern.** -/
inductive Token where
  | char (c : Char)
  | anyChar
  | oneOf (spans : List Span)
  | noneOf (spans : List Span)
  /-- Any stretch of characters. -/
  | anyText
  /-- Any number of directories. -/
  | anyDepth
deriving DecidableEq

/-! ## Matching -/

/-- Whether some final stretch of a list, the list and the empty one included, passes a test. -/
def anySuffix (test : List Char → Bool) : List Char → Bool
  | [] => test []
  | c :: cs => test (c :: cs) || anySuffix test cs

/-- Whether a token that takes one character takes this one. -/
def Token.takes : Token → Char → Bool
  | .char d, c => c == d
  | .anyChar, _ => true
  | .oneOf spans, c => spans.any (·.contains c)
  | .noneOf spans, c => !spans.any (·.contains c)
  | .anyText, _ | .anyDepth, _ => false

/-- **Whether a name matches tokens.** -/
def matchesName : List Token → List Char → Bool
  | [], cs => cs.isEmpty
  | .anyText :: rest, cs | .anyDepth :: rest, cs => anySuffix (matchesName rest) cs
  | _ :: _, [] => false
  | token :: rest, c :: cs => token.takes c && matchesName rest cs

/-! ## Reading -/

/-- What is wrong with a pattern. -/
inductive Fault where
  | manyStars
  | brokenStars
  | brokenBrackets
deriving DecidableEq

/-- The wording of a fault. -/
def Fault.message : Fault → String
  | .manyStars => "wildcards are either regular `*` or recursive `**`"
  | .brokenStars => "recursive wildcards must form a single path component"
  | .brokenBrackets => "invalid range pattern"

/-- **Why a text is no pattern**, and where. -/
structure PatternError where
  position : Nat
  fault : Fault
deriving DecidableEq

def PatternError.message (error : PatternError) : String :=
  "Pattern syntax error near position " ++ toString error.position ++ ": " ++ error.fault.message

/-- The choice that stands between brackets. -/
def spansOf : List Char → List Span
  | first :: '-' :: last :: rest => ⟨first, last⟩ :: spansOf rest
  | c :: rest => ⟨c, c⟩ :: spansOf rest
  | [] => []

/-- The characters of a choice and how many there are, given what follows its opening bracket. The
choice has at least one character, so that a closing bracket can be the first. -/
def choice? : List Char → Option (List Char)
  | [] => none
  | first :: rest =>
    if rest.contains ']' then some (first :: rest.takeWhile (· != ']')) else none

/-- The token of a bracket and how many characters it takes up, given what follows `[`. -/
def bracket? : List Char → Option (Token × Nat)
  | '!' :: cs => (choice? cs).map fun chosen => (.noneOf (spansOf chosen), chosen.length + 3)
  | cs => (choice? cs).map fun chosen => (.oneOf (spansOf chosen), chosen.length + 2)

/-- **The tokens of a pattern**, from a position on and given the character before it. -/
def tokensFrom (position : Nat) (before? : Option Char) : List Char → Except PatternError (List Token)
  | [] => .ok []
  | '?' :: cs => (tokensFrom (position + 1) (some '?') cs).map (.anyChar :: ·)
  | '*' :: '*' :: '*' :: _ => .error ⟨position + 2, .manyStars⟩
  | '*' :: '*' :: cs =>
    if before?.any (· != '/') then .error ⟨position - 1, .brokenStars⟩
    else
      match cs with
      | [] => .ok [.anyDepth]
      | '/' :: cs => (tokensFrom (position + 3) (some '/') cs).map (.anyDepth :: ·)
      | _ => .error ⟨position + 2, .brokenStars⟩
  | '*' :: cs => (tokensFrom (position + 1) (some '*') cs).map (.anyText :: ·)
  | '[' :: cs =>
    match bracket? cs with
    | none => .error ⟨position, .brokenBrackets⟩
    | some (token, taken) =>
      (tokensFrom (position + taken) (some ']') (cs.drop (taken - 1))).map (token :: ·)
  | c :: cs => (tokensFrom (position + 1) (some c) cs).map (.char c :: ·)
termination_by cs => cs.length

/-- The tokens of a text. -/
def tokens (text : String) : Except PatternError (List Token) := tokensFrom 0 none text.toList

/-- **A segment of a pattern.** -/
inductive Part where
  /-- A segment without wildcards. -/
  | literal (name : String)
  /-- Any number of directories. -/
  | anyDepth
  | wild (tokens : List Token)

/-- The characters of tokens that are all plain. -/
def plain? : List Token → Option (List Char)
  | [] => some []
  | .char c :: rest => (plain? rest).map (c :: ·)
  | _ :: _ => none

/-- What the tokens of a segment amount to. -/
def Part.ofTokens (tokens : List Token) : Part :=
  if tokens = [.anyDepth] then .anyDepth
  else
    match plain? tokens with
    | some name => .literal (String.ofList name)
    | none => .wild tokens

/-- Whether a name matches a segment. -/
def Part.accepts : Part → String → Bool
  | .literal expected, name => name == expected
  | .anyDepth, _ => true
  | .wild tokens, name => matchesName tokens name.toList

/-- **A pattern for paths.** -/
structure Pattern where
  absolute : Bool
  parts : List Part
  /-- Whether only directories match. -/
  dirOnly : Bool

/-- Parts in which no two stretches of any depth follow each other. -/
def collapse : List Part → List Part
  | [] => []
  | .anyDepth :: rest =>
    match collapse rest with
    | .anyDepth :: rest => .anyDepth :: rest
    | rest => .anyDepth :: rest
  | part :: rest => part :: collapse rest

/-- **The pattern that a text stands for.** A slash at the end asks for a directory. -/
def Pattern.parse (text : String) : Except PatternError Pattern := do
  let _ ← tokens text
  let absolute := Files.isAbsolute text
  let dirOnly := text.toList.getLast? == some '/'
  let body := if absolute then (Files.segments text).drop 1 else Files.segments text
  let parts ← (if dirOnly then body.dropLast else body).mapM fun segment =>
    Part.ofTokens <$> tokens segment
  return { absolute, parts := collapse parts, dirOnly }

/-- Whether a text is meant as a pattern. -/
def isPattern (text : String) : Bool :=
  text.toList.any fun c => c == '*' || c == '?' || c == '[' || c == '\x7b'

end SwiftScribe.Glob
