import SwiftScribe.Node.Search
import SwiftScribe.Swift.Scribe
import SwiftScribe.Swift.Literal
import SwiftScribe.Text.Alphabetic
import SwiftScribe.Text.Numeric

/-!
# Pieces of Swift text

How the parts of a construct are put together once they are rendered: blocks, operands, closures,
parameters, signatures. Where the shape of a part matters (an operand that is itself an operator
expression, a body that is already a block), the piece is given the node beside its code.
-/

namespace SwiftScribe.Swift

variable {m : Type → Type} [Scribe m]

/-- Braces around rendered statements. -/
def braces (body : String) : String := if body = "" then "\x7b\n\x7d" else "\x7b\n" ++ body ++ "\n\x7d"

/-- Parts on lines of their own, without the empty ones. -/
def stack (parts : List String) : String := "\n".intercalate (parts.filter (· ≠ ""))

/-- The type at a path, or a comment that names the path. -/
def annotation (path : TypePath) : m String :=
  (fun answer => answer.getD ("/* " ++ path.text ++ " */ Any")) <$> Scribe.resolve path

/-! ## Statements -/

/-- The body of a loop or branch as a block, whatever statement it is. -/
def bodyBlock (body : Node) (code : m String) : m String :=
  match body with
  | .blockStatement _ => code
  | _ => braces <$> code

/-- What follows an `else`: a further branch stays as it is. -/
def elseBlock (alternate : Node) (code : m String) : m String :=
  match alternate with
  | .ifStatement .. => code
  | _ => bodyBlock alternate code

/-- Parts on lines of their own if a node has parts, else the node as a whole. -/
def spreadOut (parts? : Option (List (m String))) (whole : m String) : m String :=
  match parts? with
  | some parts => Scribe.lines parts
  | none => whole

/-- A jump, to a label if there is one. -/
def jump (keyword : String) (label : Option Identifier) : String :=
  match label with
  | some label => keyword ++ " " ++ label.name
  | none => keyword

/-- The body of a `while` that stands for a `for`: the update comes last, or is deferred if the body
can skip to the next iteration. -/
def loopBody (canContinue : Bool) (body update : String) : String :=
  if update = "" then body
  else if canContinue then stack ["defer " ++ braces update, body]
  else stack [body, update]

/-- **A `for` loop** as a `while` in a scope of its own. -/
def forLoop (canContinue : Bool) (test update body : String) (init : Option String) : String :=
  let loop := "while " ++ test ++ " " ++ braces (loopBody canContinue body update)
  "do " ++ braces ("\n".intercalate (init.toList ++ [loop]))

/-- The head of a handler, and its failure if it does not bind a name. -/
def catchHead (param : Option Node) : m String :=
  match param with
  | none => pure "catch"
  | some (.identifier id) => pure ("catch let " ++ identifier id.name)
  | some other => Scribe.fail .catchParameter other.kind.name

/-- The block of a `try`; the finalizer runs on every way out. -/
def tryBlock (finalizer : Option String) (block : String) : String :=
  "do " ++ braces
    ("\n".intercalate ((finalizer.toList.map ("defer " ++ ·)) ++ [block].filter (· ≠ "")))

/-- Whether a case ends by leaving the switch. -/
def endsInJump (case : SwitchCase) : Bool :=
  match case.consequent.getLast? with
  | some (.breakStatement _) => true
  | some (.continueStatement _) => true
  | some (.returnStatement _) => true
  | some (.throwStatement _) => true
  | _ => false

/-- Whether the default case may stand last: it does already, or nothing falls into it and it falls
into nothing. -/
def defaultFits (cases : List SwitchCase) : Bool :=
  let before := cases.takeWhile (·.test.isSome)
  match cases.dropWhile (·.test.isSome) with
  | default :: _ :: _ => before.getLast?.all (fun case => !case.consequent.isEmpty) && endsInJump default
  | _ => true

/-- A case: an empty one falls through, an empty default does nothing. -/
def caseText (test : Option String) (body : String) : String :=
  match test with
  | some test => "case " ++ test ++ ":\n" ++ (if body = "" then "fallthrough" else body)
  | none => "default:\n" ++ (if body = "" then "break" else body)

/-- **The cases of a switch**, the default last. Swift wants one. -/
def orderedCases (cases : List (SwitchCase × m String)) : List (m String) :=
  let tested := cases.filter (·.1.test.isSome)
  let default := (cases.find? (·.1.test.isNone)).map (·.2)
  tested.map (·.2) ++ [default.getD (pure "default:\nbreak")]

/-! ## Expressions -/

/-- Parentheses around a text. -/
def parens (code : String) : String := "(" ++ code ++ ")"

/-- Whether a node is an operator expression, which needs grouping as an operand. -/
def isOperation : Node → Bool
  | .assignmentExpression .. => true
  | .binaryExpression .. => true
  | .conditionalExpression .. => true
  | .logicalExpression .. => true
  | _ => false

/-- An operand, grouped if it is itself an operator expression. -/
def operand (node : Node) (code : m String) : m String :=
  if isOperation node then parens <$> code else code

/-- The operand of a prefix operator. Two prefix operators in a row would read as one. -/
def prefixOperand (node : Node) (code : m String) : m String :=
  match node with
  | .unaryExpression .. => parens <$> code
  | .updateExpression .. => parens <$> code
  | _ => operand node code

/-- A binary operator between its operands. -/
def binaryText (operator left right : String) : String :=
  if operator = "===" then left ++ " == " ++ right
  else if operator = "!==" then left ++ " != " ++ right
  else if operator = "instanceof" then left ++ " is " ++ right
  else if operator = "in" then "JST.contains(" ++ left ++ ", " ++ right ++ ")"
  else left ++ " " ++ operator ++ " " ++ right

/-- A literal: `nil`, a string, or its text in the source. Regular expressions have no rendering. -/
def literalCode (literal : Literal) : m String :=
  if literal.regex.isSome then placeholder "Literal" literal.form
  else
    match literal.value with
    | .null => pure "nil"
    | .str text => pure (quote text)
    | _ => pure literal.raw

/-- The text of a piece of a template. -/
def templateText (element : TemplateElement) : String := element.value.cooked.getD element.value.raw

/-- The pieces of a template, each followed by the interpolation that belongs to it. -/
def templateBody : List TemplateElement → List (m String) → m String
  | [], _ => pure ""
  | quasi :: quasis, [] => pure (escape (templateText quasi)) ++ templateBody quasis []
  | quasi :: quasis, code :: codes =>
    pure (escape (templateText quasi) ++ "\\(") ++ code ++ pure ")" ++ templateBody quasis codes

/-- The sign of an update. -/
def updateSign : UpdateOperator → String
  | .increment => "+"
  | .decrement => "-"

def flagText (value : Bool) : String := if value then "true" else "false"

/-- The name that a parameter of a closure binds, without its default. -/
def boundName? : Node → Option String
  | .assignmentPattern left _ => left.identifierName?
  | .restElement argument => argument.identifierName?
  | other => other.identifierName?

/-- **A parameter of a closure** is a bare name; Swift infers its type. -/
def closureParameter (param : Node) : m String :=
  match boundName? param with
  | some name => pure (identifier name)
  | none => placeholder param.kind.name param.form

/-- A closure with statements. The body is rendered before the parameters. -/
def closure (params : List Node) (body : m String) : m String :=
  if params.isEmpty then braces <$> body
  else
    (fun body params => "\x7b " ++ params ++ " in\n" ++ body ++ "\n\x7d")
      <$> body <*> Scribe.join ", " (params.map closureParameter)

/-- A closure that is one expression. -/
def expressionClosure (params : List Node) (body : m String) : m String :=
  if params.isEmpty then (fun body => "\x7b " ++ body ++ " \x7d") <$> body
  else
    (fun body params => "\x7b " ++ params ++ " in " ++ body ++ " \x7d")
      <$> body <*> Scribe.join ", " (params.map closureParameter)

/-! ## Declarations -/

/-- The keyword of a variable. -/
def variableKeyword : VariableKind → String
  | .constant => "let"
  | .functionScoped => "var"
  | .blockScoped => "var"

/-- A variable with its type and its initial value, as far as they are known. With neither it is an
optional of any type. -/
def binding (name : String) (path : TypePath) (type init : Option String) : String :=
  match type, init with
  | some type, some init => name ++ " : " ++ type ++ " = " ++ init
  | some type, none => name ++ " : " ++ type
  | none, some init => name ++ " /* " ++ path.text ++ " */ = " ++ init
  | none, none => name ++ " : /* " ++ path.text ++ " */ Any? = nil"

/-- The path of a value under a key: an identifier adds its name. -/
def underKey (path : TypePath) (key : Node) : TypePath :=
  match key.identifierName? with
  | some name => path.descend name
  | none => path

/-- The failure of a parameter that is no name. -/
def badParameter (path : TypePath) (shape : Node) : m String :=
  Scribe.fail .functionParameter (shape.kind.name ++ " in [" ++ path.text ++ "]")

/-- A parameter with its type. -/
def typedParameter (path : TypePath) (id : Identifier) : m String :=
  pure ("_ " ++ identifier id.name ++ ": ") ++ annotation (path.descend id.name)

/-- The return type. Without a hint it is written only where the body returns a value. -/
def returnType (path : TypePath) (body : List Node) : m String :=
  (fun
    | some type => " -> " ++ type
    | none => if returnsValue body then " -> /* " ++ path.returned.text ++ " */ Any" else "")
    <$> Scribe.resolve path.returned

/-- The generic parameters, if there is a hint for them. -/
def genericParameters (path : TypePath) : m String :=
  (fun
    | some generic => "<" ++ generic ++ ">"
    | none => "")
    <$> Scribe.resolve path.generic

/-- **What follows the name of a function:** generic parameters, parameters, effects, the return
type and the body. An initializer has no return type. -/
def signature (path : TypePath) (params : List (m String)) (body : List Node)
    (isAsync returns : Bool) (code : m String) : m String :=
  genericParameters path ++ pure "(" ++ Scribe.join ", " params
    ++ pure (if isAsync then ") async" else ")")
    ++ (if returns then returnType path body else pure "") ++ pure " " ++ code

/-- What stands before a member: the word from the hints, and `static`. -/
def memberHead (path : TypePath) (isStatic : Bool) : m String :=
  (fun word =>
    (match word with | some word => word ++ " " | none => "") ++ (if isStatic then "static " else ""))
    <$> Scribe.resolve path.modifier

/-- Whether a text can be written as a name: a letter or underscore, then letters, numbers and
underscores. -/
def isName : List Char → Bool
  | [] => false
  | first :: rest =>
    (first == '_' || Text.isAlphabetic first)
      && rest.all fun c => c == '_' || Text.isAlphabetic c || Text.isNumeric c

/-- The name of a method: an identifier, or a string that can be written as a name. -/
def methodName? (key : Node) (computed : Bool) : Option String :=
  if computed then none
  else
    match key with
    | .identifier id => some id.name
    | .literal ⟨.str name, _, _⟩ => if isName name.toList then some name else none
    | _ => none

end SwiftScribe.Swift
