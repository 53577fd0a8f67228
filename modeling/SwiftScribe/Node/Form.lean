import SwiftScribe.Node.Basic

/-!
# The uniform view of a node

`Node.form` shows every node in one shape: a name and fields. Whatever treats all kinds alike is
defined on forms: debug text (`Form.debug`) and equality (`Form.same`).
-/

namespace SwiftScribe

/-- **The uniform shape of a part of a syntax tree.** -/
inductive Form where
  /-- A record with its name and its fields, each under its key in a syntax tree. -/
  | record (name : String) (fields : List (String × Form))
  | text (value : String)
  | flag (value : Bool)
  /-- A word of a closed set: its spelling in a syntax tree, and its label. -/
  | word (spelling label : String)
  | scalar (value : Scalar)
  | absent
  | present (value : Form)
  | list (items : List Form)

namespace Form

/-- The name of a field in debug text: its key, but for a few that are spelled out. -/
def fieldLabel (key : String) : String :=
  if key = "sourceType" then "source_type"
  else if key = "superClass" then "super_class"
  else if key = "async" then "is_async"
  else if key = "static" then "is_static"
  else key

mutual
/-- **Debug text**, such as `ReturnStatement \x7b argument: None \x7d`. -/
def debug : Form → String
  | .record name fields =>
    if fields.isEmpty then name
    else name ++ " \x7b " ++ ", ".intercalate (debugFields fields) ++ " \x7d"
  | .text value => Text.quoted value
  | .flag value => if value then "true" else "false"
  | .word _ label => label
  | .scalar value => value.debug
  | .absent => "None"
  | .present value => "Some(" ++ debug value ++ ")"
  | .list items => "[" ++ ", ".intercalate (debugItems items) ++ "]"

/-- The debug text of every field. -/
def debugFields : List (String × Form) → List String
  | [] => []
  | (key, value) :: rest => (fieldLabel key ++ ": " ++ debug value) :: debugFields rest

/-- The debug text of every item. -/
def debugItems : List Form → List String
  | [] => []
  | item :: rest => debug item :: debugItems rest
end

mutual
/-- **Equality of forms**, payloads of literals being compared by `Scalar.same`. -/
def same : Form → Form → Bool
  | .record a fs, .record b gs => a == b && sameFields fs gs
  | .text a, .text b => a == b
  | .flag a, .flag b => a == b
  | .word a _, .word b _ => a == b
  | .scalar a, .scalar b => a.same b
  | .absent, .absent => true
  | .present a, .present b => same a b
  | .list as, .list bs => sameItems as bs
  | _, _ => false

/-- Equality field by field. -/
def sameFields : List (String × Form) → List (String × Form) → Bool
  | [], [] => true
  | (j, a) :: as, (k, b) :: bs => j == k && same a b && sameFields as bs
  | _, _ => false

/-- Equality item by item. -/
def sameItems : List Form → List Form → Bool
  | [], [] => true
  | a :: as, b :: bs => same a b && sameItems as bs
  | _, _ => false
end

/-- A child that may be missing. -/
def option (form : α → Form) : Option α → Form
  | none => .absent
  | some value => .present (form value)

end Form

/-! ## Words and records without nodes inside -/

/-- A word of a closed set. -/
def Form.ofWord {α : Type} [Word α] (word : α) : Form := .word (Word.spelling word) (Word.label word)

def Identifier.form (id : Identifier) : Form := .record "Identifier" [("name", .text id.name)]

def Regex.form (regex : Regex) : Form :=
  .record "LiteralRegex" [("pattern", .text regex.pattern), ("flags", .text regex.flags)]

def Literal.form (literal : Literal) : Form :=
  .record "Literal"
    [("value", .scalar literal.value), ("raw", .text literal.raw),
     ("regex", .option Regex.form literal.regex)]

def TemplateText.form (value : TemplateText) : Form :=
  .record "TemplateElementValue"
    [("cooked", .option .text value.cooked), ("raw", .text value.raw)]

def TemplateElement.form (element : TemplateElement) : Form :=
  .record "TemplateElement" [("value", element.value.form), ("tail", .flag element.tail)]

def ExportSpecifier.form (specifier : ExportSpecifier) : Form :=
  .record "ExportSpecifier"
    [("exported", specifier.exported.form), ("local", specifier.inner.form)]

/-- Statements in braces. -/
def Form.block (body : List Form) : Form := .record "BlockStatement" [("body", .list body)]

/-! ## Nodes -/

mutual
/-- **The uniform view of a node.** -/
def Node.form : Node → Form
  | .arrayExpression elements => .record "ArrayExpression" [("elements", .list (formHoles elements))]
  | .arrayPattern elements => .record "ArrayPattern" [("elements", .list (formHoles elements))]
  | .arrowFunctionExpression id params body generator isAsync expression =>
    .record "ArrowFunctionExpression"
      [("id", .option Identifier.form id), ("params", .list (formAll params)), ("body", body.form),
       ("generator", .flag generator), ("async", .flag isAsync), ("expression", .flag expression)]
  | .assignmentExpression operator left right =>
    .record "AssignmentExpression"
      [("operator", .text operator), ("left", left.form), ("right", right.form)]
  | .assignmentPattern left right =>
    .record "AssignmentPattern" [("left", left.form), ("right", right.form)]
  | .awaitExpression argument => .record "AwaitExpression" [("argument", argument.form)]
  | .binaryExpression operator left right =>
    .record "BinaryExpression"
      [("operator", .text operator), ("left", left.form), ("right", right.form)]
  | .blockStatement body => .block (formAll body)
  | .breakStatement label => .record "BreakStatement" [("label", .option Identifier.form label)]
  | .callExpression callee arguments =>
    .record "CallExpression" [("callee", callee.form), ("arguments", .list (formAll arguments))]
  | .catchClause clause => clause.form
  | .classBody members => .record "ClassBody" [("body", .list (formMembers members))]
  | .classDeclaration definition => .record "ClassDeclaration" definition.formFields
  | .classExpression definition => .record "ClassExpression" definition.formFields
  | .conditionalExpression test consequent alternate =>
    .record "ConditionalExpression"
      [("test", test.form), ("consequent", consequent.form), ("alternate", alternate.form)]
  | .continueStatement label =>
    .record "ContinueStatement" [("label", .option Identifier.form label)]
  | .debuggerStatement => .record "DebuggerStatement" []
  | .doWhileStatement body test =>
    .record "DoWhileStatement" [("body", body.form), ("test", test.form)]
  | .emptyStatement => .record "EmptyStatement" []
  | .exportAllDeclaration source => .record "ExportAllDeclaration" [("source", source.form)]
  | .exportDefaultDeclaration declaration =>
    .record "ExportDefaultDeclaration" [("declaration", declaration.form)]
  | .exportNamedDeclaration declaration specifiers source =>
    .record "ExportNamedDeclaration"
      [("declaration", formOption declaration),
       ("specifiers", .list (specifiers.map ExportSpecifier.form)),
       ("source", .option Literal.form source)]
  | .exportSpecifier specifier => specifier.form
  | .expressionStatement expression directive =>
    .record "ExpressionStatement"
      [("expression", expression.form), ("directive", .option .text directive)]
  | .forInStatement left right body each =>
    .record "ForInStatement"
      [("left", left.form), ("right", right.form), ("body", body.form), ("each", .flag each)]
  | .forOfStatement left right body =>
    .record "ForOfStatement" [("left", left.form), ("right", right.form), ("body", body.form)]
  | .forStatement init test update body =>
    .record "ForStatement"
      [("init", formOption init), ("test", formOption test), ("update", formOption update),
       ("body", body.form)]
  | .functionDeclaration function => .record "FunctionDeclaration" function.formFields
  | .functionExpression function => .record "FunctionExpression" function.formFields
  | .identifier id => id.form
  | .ifStatement test consequent alternate =>
    .record "IfStatement"
      [("test", test.form), ("consequent", consequent.form), ("alternate", formOption alternate)]
  | .importCallee => .record "Import" []
  | .importSpecifier inner imported =>
    .record "ImportSpecifier"
      [("local", inner.form), ("imported", .option Identifier.form imported)]
  | .labeledStatement label body =>
    .record "LabeledStatement" [("label", label.form), ("body", body.form)]
  | .literal literal => literal.form
  | .logicalExpression operator left right =>
    .record "LogicalExpression"
      [("operator", .text operator), ("left", left.form), ("right", right.form)]
  | .memberExpression computed object property =>
    .record "MemberExpression"
      [("computed", .flag computed), ("object", object.form), ("property", property.form)]
  | .metaProperty base property =>
    .record "MetaProperty" [("meta", base.form), ("property", property.form)]
  | .methodDefinition method => method.form
  | .newExpression callee arguments =>
    .record "NewExpression" [("callee", callee.form), ("arguments", .list (formAll arguments))]
  | .objectExpression properties =>
    .record "ObjectExpression" [("properties", .list (formAll properties))]
  | .objectPattern properties => .record "ObjectPattern" [("properties", .list (formAll properties))]
  | .program sourceType body =>
    .record "Program" [("sourceType", .text sourceType), ("body", .list (formAll body))]
  | .property key computed value kind method shorthand =>
    .record "Property"
      [("key", key.form), ("computed", .flag computed), ("value", formOption value),
       ("kind", .ofWord kind), ("method", .flag method), ("shorthand", .flag shorthand)]
  | .restElement argument => .record "RestElement" [("argument", argument.form)]
  | .returnStatement argument => .record "ReturnStatement" [("argument", formOption argument)]
  | .sequenceExpression expressions =>
    .record "SequenceExpression" [("expressions", .list (formAll expressions))]
  | .spreadElement argument => .record "SpreadElement" [("argument", argument.form)]
  | .superReference => .record "Super" []
  | .switchCase case => case.form
  | .switchStatement discriminant cases =>
    .record "SwitchStatement"
      [("discriminant", discriminant.form), ("cases", .list (formCases cases))]
  | .taggedTemplateExpression tag quasi =>
    .record "TaggedTemplateExpression" [("tag", tag.form), ("quasi", quasi.form)]
  | .templateElement element => element.form
  | .templateLiteral template => template.form
  | .thisExpression => .record "ThisExpression" []
  | .throwStatement argument => .record "ThrowStatement" [("argument", argument.form)]
  | .tryStatement block handler finalizer =>
    .record "TryStatement"
      [("block", .block (formAll block)),
       ("handler", match handler with | none => .absent | some clause => .present clause.form),
       ("finalizer",
        match finalizer with | none => .absent | some body => .present (.block (formAll body)))]
  | .unaryExpression operator argument isPrefix =>
    .record "UnaryExpression"
      [("operator", .text operator), ("argument", argument.form), ("prefix", .flag isPrefix)]
  | .updateExpression operator argument isPrefix =>
    .record "UpdateExpression"
      [("operator", .ofWord operator), ("argument", argument.form), ("prefix", .flag isPrefix)]
  | .variableDeclaration declarations kind =>
    .record "VariableDeclaration"
      [("declarations", .list (formDeclarators declarations)), ("kind", .ofWord kind)]
  | .variableDeclarator declarator => declarator.form
  | .whileStatement test body => .record "WhileStatement" [("test", test.form), ("body", body.form)]
  | .withStatement object body =>
    .record "WithStatement" [("object", object.form), ("body", body.form)]
  | .yieldExpression argument delegate =>
    .record "YieldExpression" [("argument", formOption argument), ("delegate", .flag delegate)]

/-- The view of every node. -/
def formAll : List Node → List Form
  | [] => []
  | node :: rest => node.form :: formAll rest

/-- The view of a child that may be missing. -/
def formOption : Option Node → Form
  | none => .absent
  | some node => .present node.form

/-- The view of the elements of an array, holes included. -/
def formHoles : List (Option Node) → List Form
  | [] => []
  | element :: rest => formOption element :: formHoles rest

/-- The fields of a function. -/
def Func.formFields : Func → List (String × Form)
  | ⟨id, params, body, generator, isAsync, expression⟩ =>
    [("id", .option Identifier.form id), ("params", .list (formAll params)),
     ("body", .block (formAll body)), ("generator", .flag generator), ("async", .flag isAsync),
     ("expression", .flag expression)]

/-- The fields of a class. -/
def Class.formFields : Class → List (String × Form)
  | ⟨id, superClass, members⟩ =>
    [("id", .option Identifier.form id), ("superClass", formOption superClass),
     ("body", .record "ClassBody" [("body", .list (formMembers members))])]

/-- The view of a member of a class. -/
def Method.form : Method → Form
  | ⟨key, computed, value, kind, isStatic⟩ =>
    .record "MethodDefinition"
      [("key", formOption key), ("computed", .flag computed),
       ("value",
        match value with
        | none => .absent
        | some function => .present (.record "FunctionExpression" function.formFields)),
       ("kind", .ofWord kind), ("static", .flag isStatic)]

/-- The view of every member. -/
def formMembers : List Method → List Form
  | [] => []
  | member :: rest => member.form :: formMembers rest

/-- The view of one variable of a declaration. -/
def Declarator.form : Declarator → Form
  | ⟨id, init⟩ => .record "VariableDeclarator" [("id", id.form), ("init", formOption init)]

/-- The view of every variable of a declaration. -/
def formDeclarators : List Declarator → List Form
  | [] => []
  | declarator :: rest => declarator.form :: formDeclarators rest

/-- The view of a case. -/
def SwitchCase.form : SwitchCase → Form
  | ⟨test, consequent⟩ =>
    .record "SwitchCase" [("test", formOption test), ("consequent", .list (formAll consequent))]

/-- The view of every case. -/
def formCases : List SwitchCase → List Form
  | [] => []
  | case :: rest => case.form :: formCases rest

/-- The view of a handler. -/
def CatchClause.form : CatchClause → Form
  | ⟨param, body⟩ =>
    .record "CatchClause" [("param", formOption param), ("body", .block (formAll body))]

/-- The view of a template. -/
def Template.form : Template → Form
  | ⟨quasis, expressions⟩ =>
    .record "TemplateLiteral"
      [("quasis", .list (quasis.map TemplateElement.form)),
       ("expressions", .list (formAll expressions))]
end

/-- **Debug text of a node.** -/
def Node.debug (node : Node) : String := node.form.debug

/-- **Equality of nodes.** -/
def Node.same (a b : Node) : Bool := a.form.same b.form

end SwiftScribe
