/-!
# Kinds of syntax nodes

The closed registry of node kinds. Each has one name, which is the `type` entry of its nodes in a
syntax tree.
-/

namespace SwiftScribe

/-- **The kinds of syntax nodes.** -/
inductive Kind where
  | arrayExpression
  | arrayPattern
  | arrowFunctionExpression
  | assignmentExpression
  | assignmentPattern
  | awaitExpression
  | binaryExpression
  | blockStatement
  | breakStatement
  | callExpression
  | catchClause
  | classBody
  | classDeclaration
  | classExpression
  | conditionalExpression
  | continueStatement
  | debuggerStatement
  | doWhileStatement
  | emptyStatement
  | exportAllDeclaration
  | exportDefaultDeclaration
  | exportNamedDeclaration
  | exportSpecifier
  | expressionStatement
  | forInStatement
  | forOfStatement
  | forStatement
  | functionDeclaration
  | functionExpression
  | identifier
  | ifStatement
  | importCallee
  | importSpecifier
  | labeledStatement
  | literal
  | logicalExpression
  | memberExpression
  | metaProperty
  | methodDefinition
  | newExpression
  | objectExpression
  | objectPattern
  | program
  | property
  | restElement
  | returnStatement
  | sequenceExpression
  | spreadElement
  | superReference
  | switchCase
  | switchStatement
  | taggedTemplateExpression
  | templateElement
  | templateLiteral
  | thisExpression
  | throwStatement
  | tryStatement
  | unaryExpression
  | updateExpression
  | variableDeclaration
  | variableDeclarator
  | whileStatement
  | withStatement
  | yieldExpression
deriving DecidableEq

namespace Kind

/-- The name of a kind in a syntax tree. -/
def name : Kind → String
  | .arrayExpression => "ArrayExpression"
  | .arrayPattern => "ArrayPattern"
  | .arrowFunctionExpression => "ArrowFunctionExpression"
  | .assignmentExpression => "AssignmentExpression"
  | .assignmentPattern => "AssignmentPattern"
  | .awaitExpression => "AwaitExpression"
  | .binaryExpression => "BinaryExpression"
  | .blockStatement => "BlockStatement"
  | .breakStatement => "BreakStatement"
  | .callExpression => "CallExpression"
  | .catchClause => "CatchClause"
  | .classBody => "ClassBody"
  | .classDeclaration => "ClassDeclaration"
  | .classExpression => "ClassExpression"
  | .conditionalExpression => "ConditionalExpression"
  | .continueStatement => "ContinueStatement"
  | .debuggerStatement => "DebuggerStatement"
  | .doWhileStatement => "DoWhileStatement"
  | .emptyStatement => "EmptyStatement"
  | .exportAllDeclaration => "ExportAllDeclaration"
  | .exportDefaultDeclaration => "ExportDefaultDeclaration"
  | .exportNamedDeclaration => "ExportNamedDeclaration"
  | .exportSpecifier => "ExportSpecifier"
  | .expressionStatement => "ExpressionStatement"
  | .forInStatement => "ForInStatement"
  | .forOfStatement => "ForOfStatement"
  | .forStatement => "ForStatement"
  | .functionDeclaration => "FunctionDeclaration"
  | .functionExpression => "FunctionExpression"
  | .identifier => "Identifier"
  | .ifStatement => "IfStatement"
  | .importCallee => "Import"
  | .importSpecifier => "ImportSpecifier"
  | .labeledStatement => "LabeledStatement"
  | .literal => "Literal"
  | .logicalExpression => "LogicalExpression"
  | .memberExpression => "MemberExpression"
  | .metaProperty => "MetaProperty"
  | .methodDefinition => "MethodDefinition"
  | .newExpression => "NewExpression"
  | .objectExpression => "ObjectExpression"
  | .objectPattern => "ObjectPattern"
  | .program => "Program"
  | .property => "Property"
  | .restElement => "RestElement"
  | .returnStatement => "ReturnStatement"
  | .sequenceExpression => "SequenceExpression"
  | .spreadElement => "SpreadElement"
  | .superReference => "Super"
  | .switchCase => "SwitchCase"
  | .switchStatement => "SwitchStatement"
  | .taggedTemplateExpression => "TaggedTemplateExpression"
  | .templateElement => "TemplateElement"
  | .templateLiteral => "TemplateLiteral"
  | .thisExpression => "ThisExpression"
  | .throwStatement => "ThrowStatement"
  | .tryStatement => "TryStatement"
  | .unaryExpression => "UnaryExpression"
  | .updateExpression => "UpdateExpression"
  | .variableDeclaration => "VariableDeclaration"
  | .variableDeclarator => "VariableDeclarator"
  | .whileStatement => "WhileStatement"
  | .withStatement => "WithStatement"
  | .yieldExpression => "YieldExpression"

/-- Every kind, in the order of the names. -/
def all : List Kind :=
  [.arrayExpression, .arrayPattern, .arrowFunctionExpression, .assignmentExpression,
   .assignmentPattern, .awaitExpression, .binaryExpression, .blockStatement, .breakStatement,
   .callExpression, .catchClause, .classBody, .classDeclaration, .classExpression,
   .conditionalExpression, .continueStatement, .debuggerStatement, .doWhileStatement,
   .emptyStatement, .exportAllDeclaration, .exportDefaultDeclaration, .exportNamedDeclaration,
   .exportSpecifier, .expressionStatement, .forInStatement, .forOfStatement, .forStatement,
   .functionDeclaration, .functionExpression, .identifier, .ifStatement, .importCallee,
   .importSpecifier, .labeledStatement, .literal, .logicalExpression, .memberExpression,
   .metaProperty, .methodDefinition, .newExpression, .objectExpression, .objectPattern, .program,
   .property, .restElement, .returnStatement, .sequenceExpression, .spreadElement,
   .superReference, .switchCase, .switchStatement, .taggedTemplateExpression, .templateElement,
   .templateLiteral, .thisExpression, .throwStatement, .tryStatement, .unaryExpression,
   .updateExpression, .variableDeclaration, .variableDeclarator, .whileStatement, .withStatement,
   .yieldExpression]

/-- The kind with a given name, if there is one. -/
def ofName? (name : String) : Option Kind := all.find? (·.name == name)

end Kind

end SwiftScribe
