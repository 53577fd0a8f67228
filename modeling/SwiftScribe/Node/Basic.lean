import SwiftScribe.Node.Kind
import SwiftScribe.Node.Word
import SwiftScribe.Scalar

/-!
# Syntax nodes

A syntax tree as data: one constructor for each kind of node. Where the grammar fixes the shape of a
child (the body of a function, the members of a class), the child is a record; everywhere else it is
a node of any kind.
-/

namespace SwiftScribe

/-! ## Records without nodes inside -/

/-- A name. -/
structure Identifier where
  name : String
deriving DecidableEq

/-- The parts of a regular expression. -/
structure Regex where
  pattern : String
  flags : String
deriving DecidableEq

/-- A literal: its value, and its text in the source. -/
structure Literal where
  value : Scalar
  raw : String
  regex : Option Regex

/-- The text of a piece of a template, cooked if its escapes are valid. -/
structure TemplateText where
  cooked : Option String
  raw : String
deriving DecidableEq

/-- A piece of a template between two interpolations. -/
structure TemplateElement where
  value : TemplateText
  tail : Bool
deriving DecidableEq

/-- A name that a module exports, and the name it has inside. -/
structure ExportSpecifier where
  exported : Identifier
  inner : Identifier
deriving DecidableEq

/-! ## Nodes -/

mutual
/-- **A syntax node.** -/
inductive Node where
  | arrayExpression (elements : List (Option Node))
  | arrayPattern (elements : List (Option Node))
  | arrowFunctionExpression (id : Option Identifier) (params : List Node) (body : Node)
      (generator isAsync expression : Bool)
  | assignmentExpression (operator : String) (left right : Node)
  | assignmentPattern (left right : Node)
  | awaitExpression (argument : Node)
  | binaryExpression (operator : String) (left right : Node)
  | blockStatement (body : List Node)
  | breakStatement (label : Option Identifier)
  | callExpression (callee : Node) (arguments : List Node)
  | catchClause (clause : CatchClause)
  | classBody (members : List Method)
  | classDeclaration (definition : Class)
  | classExpression (definition : Class)
  | conditionalExpression (test consequent alternate : Node)
  | continueStatement (label : Option Identifier)
  | debuggerStatement
  | doWhileStatement (body test : Node)
  | emptyStatement
  | exportAllDeclaration (source : Literal)
  | exportDefaultDeclaration (declaration : Node)
  | exportNamedDeclaration (declaration : Option Node) (specifiers : List ExportSpecifier)
      (source : Option Literal)
  | exportSpecifier (specifier : ExportSpecifier)
  | expressionStatement (expression : Node) (directive : Option String)
  | forInStatement (left right body : Node) (each : Bool)
  | forOfStatement (left right body : Node)
  | forStatement (init test update : Option Node) (body : Node)
  | functionDeclaration (function : Func)
  | functionExpression (function : Func)
  | identifier (identifier : Identifier)
  | ifStatement (test consequent : Node) (alternate : Option Node)
  | importCallee
  | importSpecifier (inner : Identifier) (imported : Option Identifier)
  | labeledStatement (label : Identifier) (body : Node)
  | literal (literal : Literal)
  | logicalExpression (operator : String) (left right : Node)
  | memberExpression (computed : Bool) (object property : Node)
  | metaProperty (base property : Identifier)
  | methodDefinition (method : Method)
  | newExpression (callee : Node) (arguments : List Node)
  | objectExpression (properties : List Node)
  | objectPattern (properties : List Node)
  | program (sourceType : String) (body : List Node)
  | property (key : Node) (computed : Bool) (value : Option Node) (kind : PropertyKind)
      (method shorthand : Bool)
  | restElement (argument : Node)
  | returnStatement (argument : Option Node)
  | sequenceExpression (expressions : List Node)
  | spreadElement (argument : Node)
  | superReference
  | switchCase (case : SwitchCase)
  | switchStatement (discriminant : Node) (cases : List SwitchCase)
  | taggedTemplateExpression (tag : Node) (quasi : Template)
  | templateElement (element : TemplateElement)
  | templateLiteral (template : Template)
  | thisExpression
  | throwStatement (argument : Node)
  | tryStatement (block : List Node) (handler : Option CatchClause) (finalizer : Option (List Node))
  | unaryExpression (operator : String) (argument : Node) (isPrefix : Bool)
  | updateExpression (operator : UpdateOperator) (argument : Node) (isPrefix : Bool)
  | variableDeclaration (declarations : List Declarator) (kind : VariableKind)
  | variableDeclarator (declarator : Declarator)
  | whileStatement (test body : Node)
  | withStatement (object body : Node)
  | yieldExpression (argument : Option Node) (delegate : Bool)

/-- The function of a declaration, an expression or a method. -/
structure Func where
  id : Option Identifier
  params : List Node
  body : List Node
  generator : Bool
  isAsync : Bool
  expression : Bool

/-- The class of a declaration or an expression. -/
structure Class where
  id : Option Identifier
  superClass : Option Node
  members : List Method

/-- A member of a class. -/
structure Method where
  key : Option Node
  computed : Bool
  value : Option Func
  kind : MethodKind
  isStatic : Bool

/-- One variable of a declaration; it may be a pattern. -/
structure Declarator where
  id : Node
  init : Option Node

/-- A case of a `switch`; the default case has no test. -/
structure SwitchCase where
  test : Option Node
  consequent : List Node

/-- The handler of a `try`. -/
structure CatchClause where
  param : Option Node
  body : List Node

/-- A template: its pieces of text, and the expressions between them. -/
structure Template where
  quasis : List TemplateElement
  expressions : List Node
end

namespace Node

/-- The kind of a node. -/
def kind : Node → Kind
  | arrayExpression .. => .arrayExpression
  | arrayPattern .. => .arrayPattern
  | arrowFunctionExpression .. => .arrowFunctionExpression
  | assignmentExpression .. => .assignmentExpression
  | assignmentPattern .. => .assignmentPattern
  | awaitExpression .. => .awaitExpression
  | binaryExpression .. => .binaryExpression
  | blockStatement .. => .blockStatement
  | breakStatement .. => .breakStatement
  | callExpression .. => .callExpression
  | catchClause .. => .catchClause
  | classBody .. => .classBody
  | classDeclaration .. => .classDeclaration
  | classExpression .. => .classExpression
  | conditionalExpression .. => .conditionalExpression
  | continueStatement .. => .continueStatement
  | debuggerStatement => .debuggerStatement
  | doWhileStatement .. => .doWhileStatement
  | emptyStatement => .emptyStatement
  | exportAllDeclaration .. => .exportAllDeclaration
  | exportDefaultDeclaration .. => .exportDefaultDeclaration
  | exportNamedDeclaration .. => .exportNamedDeclaration
  | exportSpecifier .. => .exportSpecifier
  | expressionStatement .. => .expressionStatement
  | forInStatement .. => .forInStatement
  | forOfStatement .. => .forOfStatement
  | forStatement .. => .forStatement
  | functionDeclaration .. => .functionDeclaration
  | functionExpression .. => .functionExpression
  | identifier .. => .identifier
  | ifStatement .. => .ifStatement
  | importCallee => .importCallee
  | importSpecifier .. => .importSpecifier
  | labeledStatement .. => .labeledStatement
  | literal .. => .literal
  | logicalExpression .. => .logicalExpression
  | memberExpression .. => .memberExpression
  | metaProperty .. => .metaProperty
  | methodDefinition .. => .methodDefinition
  | newExpression .. => .newExpression
  | objectExpression .. => .objectExpression
  | objectPattern .. => .objectPattern
  | program .. => .program
  | property .. => .property
  | restElement .. => .restElement
  | returnStatement .. => .returnStatement
  | sequenceExpression .. => .sequenceExpression
  | spreadElement .. => .spreadElement
  | superReference => .superReference
  | switchCase .. => .switchCase
  | switchStatement .. => .switchStatement
  | taggedTemplateExpression .. => .taggedTemplateExpression
  | templateElement .. => .templateElement
  | templateLiteral .. => .templateLiteral
  | thisExpression => .thisExpression
  | throwStatement .. => .throwStatement
  | tryStatement .. => .tryStatement
  | unaryExpression .. => .unaryExpression
  | updateExpression .. => .updateExpression
  | variableDeclaration .. => .variableDeclaration
  | variableDeclarator .. => .variableDeclarator
  | whileStatement .. => .whileStatement
  | withStatement .. => .withStatement
  | yieldExpression .. => .yieldExpression

/-- The name that a node contributes to a type path, if it names anything. -/
def identifierName? : Node → Option String
  | identifier id => some id.name
  | _ => none

/-- The one identifier that the left side of a `for` loop declares, if that is its shape. -/
def singleBinding? : Node → Option Identifier
  | variableDeclaration [⟨identifier id, _⟩] _ => some id
  | _ => none

end Node

end SwiftScribe
