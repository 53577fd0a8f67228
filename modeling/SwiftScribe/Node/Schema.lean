import SwiftScribe.Node.Basic

/-!
# The schema of syntax trees

What each kind of node looks like in a syntax tree. A `Schema α` describes the JSON values that
stand for an `α`; a `Fields α` describes an object from whose entries an `α` is made. Fields are
listed in the order in which they are read.
-/

namespace SwiftScribe

mutual
/-- **A description of the JSON values that stand for an `α`.** -/
inductive Schema : Type → Type 1 where
  | text : Schema String
  | flag : Schema Bool
  /-- A value of any shape. -/
  | scalar : Schema Scalar
  /-- A word of a closed set. -/
  | word {α : Type} [Word α] : Schema α
  /-- A node of any kind, told by its `type` entry. -/
  | node : Schema Node
  /-- An object with certain fields. -/
  | record {α : Type} (fields : Fields α) : Schema α
  /-- A value that may be missing or `null`. -/
  | optional {α : Type} (schema : Schema α) : Schema (Option α)
  /-- A value that has a default where it is missing or `null`. -/
  | orElse {α : Type} (schema : Schema α) (default : α) : Schema α
  /-- An array. -/
  | list {α : Type} (schema : Schema α) : Schema (List α)
  /-- A value made from another one. -/
  | map {α β : Type} (f : α → β) (schema : Schema α) : Schema β

/-- **The entries of an object from which an `α` is made.** -/
inductive Fields : Type → Type 1 where
  /-- No entries are needed. -/
  | make {α : Type} (value : α) : Fields α
  /-- One more entry, after those before it. -/
  | field {α β : Type} (before : Fields (α → β)) (key : String) (schema : Schema α) : Fields β
end

namespace Schema

open Fields (make)

/-- What stands for a missing entry, if it may be missing. -/
def absent? : {α : Type} → Schema α → Option α
  | _, .optional _ => some none
  | _, .orElse _ default => some default
  | _, _ => none

/-- A flag that is off unless set. -/
def unset : Schema Bool := .orElse .flag false

def identifier : Schema Identifier := .record (make Identifier.mk |>.field "name" .text)

def regex : Schema Regex :=
  .record (make Regex.mk |>.field "pattern" .text |>.field "flags" .text)

def literal : Schema Literal :=
  .record (make Literal.mk |>.field "value" .scalar |>.field "raw" .text
    |>.field "regex" (.optional regex))

def templateText : Schema TemplateText :=
  .record (make TemplateText.mk |>.field "cooked" (.optional .text) |>.field "raw" .text)

def templateElement : Schema TemplateElement :=
  .record (make TemplateElement.mk |>.field "value" templateText |>.field "tail" unset)

def exportSpecifier : Schema ExportSpecifier :=
  .record (make ExportSpecifier.mk |>.field "exported" identifier |>.field "local" identifier)

/-- Nodes of any kind. -/
def nodes : Schema (List Node) := .list .node

/-- Statements in braces. -/
def block : Schema (List Node) := .record (make (fun body => body) |>.field "body" nodes)

def func : Schema Func :=
  .record (make Func.mk |>.field "id" (.optional identifier) |>.field "params" nodes
    |>.field "body" block |>.field "generator" unset |>.field "async" unset
    |>.field "expression" unset)

def method : Schema Method :=
  .record (make Method.mk |>.field "key" (.optional .node) |>.field "computed" unset
    |>.field "value" (.optional func) |>.field "kind" .word |>.field "static" unset)

/-- The members of a class. -/
def members : Schema (List Method) :=
  .record (make (fun body => body) |>.field "body" (.list method))

def classDefinition : Schema Class :=
  .record (make Class.mk |>.field "id" (.optional identifier)
    |>.field "superClass" (.optional .node) |>.field "body" members)

def declarator : Schema Declarator :=
  .record (make Declarator.mk |>.field "id" .node |>.field "init" (.optional .node))

def switchCase : Schema SwitchCase :=
  .record (make SwitchCase.mk |>.field "test" (.optional .node) |>.field "consequent" nodes)

def catchClause : Schema CatchClause :=
  .record (make CatchClause.mk |>.field "param" (.optional .node) |>.field "body" block)

def template : Schema Template :=
  .record (make Template.mk |>.field "quasis" (.list templateElement)
    |>.field "expressions" nodes)

/-- **What each kind of node looks like.** -/
def ofKind : Kind → Schema Node
  | .arrayExpression =>
    .record (make Node.arrayExpression |>.field "elements" (.list (.optional .node)))
  | .arrayPattern => .record (make Node.arrayPattern |>.field "elements" (.list (.optional .node)))
  | .arrowFunctionExpression =>
    .record (make Node.arrowFunctionExpression |>.field "id" (.optional identifier)
      |>.field "params" nodes |>.field "body" .node |>.field "generator" unset
      |>.field "async" unset |>.field "expression" unset)
  | .assignmentExpression =>
    .record (make Node.assignmentExpression |>.field "operator" .text |>.field "left" .node
      |>.field "right" .node)
  | .assignmentPattern =>
    .record (make Node.assignmentPattern |>.field "left" .node |>.field "right" .node)
  | .awaitExpression => .record (make Node.awaitExpression |>.field "argument" .node)
  | .binaryExpression =>
    .record (make Node.binaryExpression |>.field "operator" .text |>.field "left" .node
      |>.field "right" .node)
  | .blockStatement => .map Node.blockStatement block
  | .breakStatement => .record (make Node.breakStatement |>.field "label" (.optional identifier))
  | .callExpression =>
    .record (make Node.callExpression |>.field "callee" .node |>.field "arguments" nodes)
  | .catchClause => .map Node.catchClause catchClause
  | .classBody => .map Node.classBody members
  | .classDeclaration => .map Node.classDeclaration classDefinition
  | .classExpression => .map Node.classExpression classDefinition
  | .conditionalExpression =>
    .record (make Node.conditionalExpression |>.field "test" .node |>.field "consequent" .node
      |>.field "alternate" .node)
  | .continueStatement =>
    .record (make Node.continueStatement |>.field "label" (.optional identifier))
  | .debuggerStatement => .record (make Node.debuggerStatement)
  | .doWhileStatement =>
    .record (make Node.doWhileStatement |>.field "body" .node |>.field "test" .node)
  | .emptyStatement => .record (make Node.emptyStatement)
  | .exportAllDeclaration => .record (make Node.exportAllDeclaration |>.field "source" literal)
  | .exportDefaultDeclaration =>
    .record (make Node.exportDefaultDeclaration |>.field "declaration" .node)
  | .exportNamedDeclaration =>
    .record (make Node.exportNamedDeclaration |>.field "declaration" (.optional .node)
      |>.field "specifiers" (.list exportSpecifier) |>.field "source" (.optional literal))
  | .exportSpecifier => .map Node.exportSpecifier exportSpecifier
  | .expressionStatement =>
    .record (make Node.expressionStatement |>.field "expression" .node
      |>.field "directive" (.optional .text))
  | .forInStatement =>
    .record (make Node.forInStatement |>.field "left" .node |>.field "right" .node
      |>.field "body" .node |>.field "each" unset)
  | .forOfStatement =>
    .record (make Node.forOfStatement |>.field "left" .node |>.field "right" .node
      |>.field "body" .node)
  | .forStatement =>
    .record (make Node.forStatement |>.field "init" (.optional .node)
      |>.field "test" (.optional .node) |>.field "update" (.optional .node) |>.field "body" .node)
  | .functionDeclaration => .map Node.functionDeclaration func
  | .functionExpression => .map Node.functionExpression func
  | .identifier => .map Node.identifier identifier
  | .ifStatement =>
    .record (make Node.ifStatement |>.field "test" .node |>.field "consequent" .node
      |>.field "alternate" (.optional .node))
  | .importCallee => .record (make Node.importCallee)
  | .importSpecifier =>
    .record (make Node.importSpecifier |>.field "local" identifier
      |>.field "imported" (.optional identifier))
  | .labeledStatement =>
    .record (make Node.labeledStatement |>.field "label" identifier |>.field "body" .node)
  | .literal => .map Node.literal literal
  | .logicalExpression =>
    .record (make Node.logicalExpression |>.field "operator" .text |>.field "left" .node
      |>.field "right" .node)
  | .memberExpression =>
    .record (make Node.memberExpression |>.field "computed" .flag |>.field "object" .node
      |>.field "property" .node)
  | .metaProperty =>
    .record (make Node.metaProperty |>.field "meta" identifier |>.field "property" identifier)
  | .methodDefinition => .map Node.methodDefinition method
  | .newExpression =>
    .record (make Node.newExpression |>.field "callee" .node |>.field "arguments" nodes)
  | .objectExpression => .record (make Node.objectExpression |>.field "properties" nodes)
  | .objectPattern => .record (make Node.objectPattern |>.field "properties" nodes)
  | .program =>
    .record (make Node.program |>.field "sourceType" (.orElse .text "script")
      |>.field "body" nodes)
  | .property =>
    .record (make Node.property |>.field "key" .node |>.field "computed" .flag
      |>.field "value" (.optional .node) |>.field "kind" .word |>.field "method" unset
      |>.field "shorthand" unset)
  | .restElement => .record (make Node.restElement |>.field "argument" .node)
  | .returnStatement => .record (make Node.returnStatement |>.field "argument" (.optional .node))
  | .sequenceExpression => .record (make Node.sequenceExpression |>.field "expressions" nodes)
  | .spreadElement => .record (make Node.spreadElement |>.field "argument" .node)
  | .superReference => .record (make Node.superReference)
  | .switchCase => .map Node.switchCase switchCase
  | .switchStatement =>
    .record (make Node.switchStatement |>.field "discriminant" .node
      |>.field "cases" (.list switchCase))
  | .taggedTemplateExpression =>
    .record (make Node.taggedTemplateExpression |>.field "tag" .node |>.field "quasi" template)
  | .templateElement => .map Node.templateElement templateElement
  | .templateLiteral => .map Node.templateLiteral template
  | .thisExpression => .record (make Node.thisExpression)
  | .throwStatement => .record (make Node.throwStatement |>.field "argument" .node)
  | .tryStatement =>
    .record (make Node.tryStatement |>.field "block" block
      |>.field "handler" (.optional catchClause) |>.field "finalizer" (.optional block))
  | .unaryExpression =>
    .record (make Node.unaryExpression |>.field "operator" .text |>.field "argument" .node
      |>.field "prefix" (.orElse .flag true))
  | .updateExpression =>
    .record (make Node.updateExpression |>.field "operator" .word |>.field "argument" .node
      |>.field "prefix" .flag)
  | .variableDeclaration =>
    .record (make Node.variableDeclaration |>.field "declarations" (.list declarator)
      |>.field "kind" .word)
  | .variableDeclarator => .map Node.variableDeclarator declarator
  | .whileStatement => .record (make Node.whileStatement |>.field "test" .node |>.field "body" .node)
  | .withStatement => .record (make Node.withStatement |>.field "object" .node |>.field "body" .node)
  | .yieldExpression =>
    .record (make Node.yieldExpression |>.field "argument" (.optional .node)
      |>.field "delegate" unset)

end Schema

end SwiftScribe
