import SwiftScribe.Swift.Draft
import SwiftScribe.Swift.Live
import SwiftScribe.Swift.Piece

/-!
# Generation

The Swift text of every kind of node, for any scribe. A path runs along: declarations extend it by
their names, and types are asked for under it. Constructs without a rendering become placeholders;
shapes that have a rendering but cannot be expressed safely fail.
-/

namespace SwiftScribe

open Swift

variable {m : Type → Type} [Scribe m]

mutual
/-- **The Swift text of a node** in the scope of a path. -/
def Node.write (path : TypePath) : Node → m String
  -- expressions
  | .identifier id => pure (identifier id.name)
  | .literal literal => literalCode literal
  | .thisExpression => pure "self"
  | .superReference => pure "super"
  | .arrayExpression elements =>
    pure "[" ++ Scribe.join ", " (writeElements path "nil" elements) ++ pure "]"
  | .objectExpression properties =>
    if properties.isEmpty then pure "[:]"
    else pure "[" ++ Scribe.join ", " (writeAll path properties) ++ pure "]"
  | .property key computed value kind method shorthand =>
    if kind = .value then
      let keyCode := key.write path
      let shown :=
        match key, computed with
        | .identifier id, false => pure (quote id.name)
        | _, _ => keyCode
      let valueCode :=
        match value with
        | some value => value.write (if computed then path else underKey path key)
        | none => keyCode
      shown ++ pure " : " ++ valueCode
    else placeholder "Property" (Node.property key computed value kind method shorthand).form
  | .functionExpression function => function.writeClosure path
  | .arrowFunctionExpression _ params body _ _ _ =>
    match body.blockParts? path with
    | some parts => closure params (Scribe.lines parts)
    | none => expressionClosure params (body.write path)
  | .templateLiteral template => template.write path
  | .templateElement element => pure (quote (templateText element))
  | .memberExpression computed object property =>
    let object := operand object (object.write path)
    if computed then object ++ pure "[" ++ property.write path ++ pure "]"
    else object ++ pure "." ++ property.write path
  | .callExpression callee arguments =>
    operand callee (callee.write path) ++ pure "(" ++ Scribe.join ", " (writeAll path arguments)
      ++ pure ")"
  | .newExpression callee arguments =>
    operand callee (callee.write path) ++ pure "(" ++ Scribe.join ", " (writeAll path arguments)
      ++ pure ")"
  | .updateExpression operator argument isPrefix =>
    pure ("JST.update(" ++ updateSign operator ++ ", " ++ flagText isPrefix ++ ", 1, &")
      ++ argument.write path ++ pure ")"
  | .awaitExpression argument => pure "await " ++ operand argument (argument.write path)
  | .unaryExpression operator argument isPrefix =>
    if operator = "typeof" then pure "type(of: " ++ argument.write path ++ pure ")"
    else if operator ∈ ["!", "-", "+", "~"] then
      pure operator ++ prefixOperand argument (argument.write path)
    else placeholder "UnaryExpression" (Node.unaryExpression operator argument isPrefix).form
  | .binaryExpression operator left right =>
    binaryText operator <$> operand left (left.write path) <*> operand right (right.write path)
  | .logicalExpression operator left right =>
    binaryText operator <$> operand left (left.write path) <*> operand right (right.write path)
  | .conditionalExpression test consequent alternate =>
    operand test (test.write path) ++ pure " ? " ++ operand consequent (consequent.write path)
      ++ pure " : " ++ operand alternate (alternate.write path)
  | .assignmentExpression operator left right =>
    left.write path ++ pure (" " ++ operator ++ " ") ++ operand right (right.write path)
  -- statements
  | .blockStatement body => braces <$> Scribe.lines (writeAll path body)
  | .breakStatement label => pure (jump "break" label)
  | .continueStatement label => pure (jump "continue" label)
  | .doWhileStatement body test =>
    pure "repeat " ++ bodyBlock body (body.write path) ++ pure " while " ++ test.write path
  | .emptyStatement => pure ""
  | .expressionStatement expression directive =>
    match directive with
    | some directive => pure ("// " ++ directive)
    | none => spreadOut (expression.sequenceParts? path) (expression.write path)
  | .forStatement init test update body =>
    forLoop body.containsContinue
      <$> (match test with | some test => test.write path | none => pure "true")
      <*> (match update with
          | some update => spreadOut (update.sequenceParts? path) (update.write path)
          | none => pure "")
      <*> spreadOut (body.blockParts? path) (body.write path)
      <*> (match init with
          | some init => some <$> spreadOut (init.sequenceParts? path) (init.write path)
          | none => pure none)
  | .forInStatement left right body _ =>
    match left.singleBinding? with
    | some id =>
      pure ("for " ++ identifier id.name ++ " in JST.keys(") ++ right.write path ++ pure ") "
        ++ bodyBlock body (body.write path)
    | none => Scribe.fail .forInBinding (left.debug ++ " (expected one declared identifier)")
  | .forOfStatement left right body =>
    match left.singleBinding? with
    | some id =>
      pure ("for " ++ identifier id.name ++ " in JST.values(") ++ right.write path ++ pure ") "
        ++ bodyBlock body (body.write path)
    | none => Scribe.fail .forOfBinding (left.debug ++ " (expected one declared identifier)")
  | .ifStatement test consequent alternate =>
    pure "if " ++ test.write path ++ pure " " ++ bodyBlock consequent (consequent.write path)
      ++ (match alternate with
          | some alternate => pure " else " ++ elseBlock alternate (alternate.write path)
          | none => pure "")
  | .labeledStatement label body => pure (label.name ++ ": ") ++ body.write path
  | .returnStatement argument =>
    match argument with
    | some argument => pure "return " ++ argument.write path
    | none => pure "return"
  | .switchStatement discriminant cases =>
    if defaultFits cases then
      (fun cases discriminant => "switch " ++ discriminant ++ " " ++ braces cases)
        <$> Scribe.join "\n" (orderedCases (cases.zip (writeCases path cases)))
        <*> discriminant.write path
    else placeholder "SwitchStatement" (Node.switchStatement discriminant cases).form
  | .switchCase case => case.write path
  | .throwStatement argument => pure "throw " ++ argument.write path
  | .tryStatement block handler finalizer =>
    (fun finalizer block handler => tryBlock finalizer block ++ handler)
      <$> (match finalizer with
          | some body => (fun body => some (braces body)) <$> Scribe.lines (writeAll path body)
          | none => pure none)
      <*> Scribe.lines (writeAll path block)
      <*> (match handler with
          | some ⟨param, body⟩ =>
            pure " " ++ catchHead param ++ pure " " ++ (braces <$> Scribe.lines (writeAll path body))
          | none => pure "")
  | .whileStatement test body =>
    pure "while " ++ test.write path ++ pure " " ++ bodyBlock body (body.write path)
  -- declarations
  | .program _ body => Scribe.lines (writeAll path body)
  | .variableDeclaration declarations kind =>
    Scribe.join "\n" (writeDeclarators path (variableKeyword kind) declarations)
  | .variableDeclarator declarator => declarator.write path
  | .arrayPattern elements =>
    pure "(" ++ Scribe.join ", " (writeElements path "_" elements) ++ pure ")"
  | .assignmentPattern left right => left.write path ++ pure " = " ++ right.write path
  | .functionDeclaration function =>
    match function.id with
    | some id =>
      pure ("func " ++ identifier id.name) ++ function.writeSignature (path.descend id.name) true
    | none => Scribe.fail .functionDeclaration "no name"
  | .classDeclaration ⟨id, superClass, members⟩ =>
    match id with
    | some id =>
      let path := path.descend id.name
      pure ("class " ++ identifier id.name)
        ++ (match superClass with
            | some superClass => pure ": " ++ superClass.write path
            | none => pure "")
        ++ pure " " ++ (braces <$> Scribe.lines (writeMembers path members))
    | none => Scribe.fail .classDeclaration "no name"
  | .classBody members => braces <$> Scribe.lines (writeMembers path members)
  | .methodDefinition method => method.write path
  | .exportDefaultDeclaration declaration => declaration.write path
  | .exportNamedDeclaration declaration specifiers source =>
    match declaration with
    | some declaration => declaration.write path
    | none =>
      placeholder "ExportNamedDeclaration" (Node.exportNamedDeclaration none specifiers source).form
  -- constructs without a rendering
  | .catchClause clause => placeholder "CatchClause" clause.form
  | .classExpression definition =>
    placeholder "ClassExpression" (Node.classExpression definition).form
  | .debuggerStatement => placeholder "DebuggerStatement" Node.debuggerStatement.form
  | .exportAllDeclaration source =>
    placeholder "ExportAllDeclaration" (Node.exportAllDeclaration source).form
  | .exportSpecifier specifier => placeholder "ExportSpecifier" specifier.form
  | .importCallee => placeholder "Import" Node.importCallee.form
  | .importSpecifier inner imported =>
    placeholder "ImportSpecifier" (Node.importSpecifier inner imported).form
  | .metaProperty base property => placeholder "MetaProperty" (Node.metaProperty base property).form
  | .objectPattern properties => placeholder "ObjectPattern" (Node.objectPattern properties).form
  | .restElement argument => placeholder "RestElement" (Node.restElement argument).form
  | .sequenceExpression expressions =>
    placeholder "SequenceExpression" (Node.sequenceExpression expressions).form
  | .spreadElement argument => placeholder "SpreadElement" (Node.spreadElement argument).form
  | .taggedTemplateExpression tag quasi =>
    placeholder "TaggedTemplateExpression" (Node.taggedTemplateExpression tag quasi).form
  | .withStatement object body => placeholder "WithStatement" (Node.withStatement object body).form
  | .yieldExpression argument delegate =>
    placeholder "YieldExpression" (Node.yieldExpression argument delegate).form

/-- Every node of a list. -/
def writeAll (path : TypePath) : List Node → List (m String)
  | [] => []
  | node :: rest => node.write path :: writeAll path rest

/-- The elements of an array, with a text for its holes. -/
def writeElements (path : TypePath) (hole : String) : List (Option Node) → List (m String)
  | [] => []
  | none :: rest => pure hole :: writeElements path hole rest
  | some node :: rest => node.write path :: writeElements path hole rest

/-- The statements of a block, if a node is one. -/
def Node.blockParts? (path : TypePath) : Node → Option (List (m String))
  | .blockStatement body => some (writeAll path body)
  | _ => none

/-- The expressions of a comma sequence, if a node is one. -/
def Node.sequenceParts? (path : TypePath) : Node → Option (List (m String))
  | .sequenceExpression expressions => some (writeAll path expressions)
  | _ => none

/-- A template as a string literal with interpolations. -/
def Template.write (path : TypePath) : Template → m String
  | ⟨quasis, expressions⟩ => wrap <$> templateBody quasis (writeAll path expressions)

/-- One variable of a declaration. A pattern takes no type. -/
def Declarator.write (path : TypePath) : Declarator → m String
  | ⟨id, init⟩ =>
    match id with
    | .identifier name =>
      let path := path.descend name.name
      binding (identifier name.name) path
        <$> Scribe.resolve path
        <*> (match init with | some init => some <$> init.write path | none => pure none)
    | id =>
      id.write path
        ++ (match init with | some init => pure " = " ++ init.write path | none => pure "")

/-- The variables of a declaration, each with the keyword. -/
def writeDeclarators (path : TypePath) (keyword : String) : List Declarator → List (m String)
  | [] => []
  | declarator :: rest =>
    (pure (keyword ++ " ") ++ declarator.write path) :: writeDeclarators path keyword rest

/-- A parameter: a name, a name with a default, or a name for the rest of the arguments. -/
def Node.writeParameter (path : TypePath) : Node → m String
  | .identifier id => typedParameter path id
  | .assignmentPattern (.identifier id) right =>
    typedParameter path id ++ pure " = " ++ right.write (path.descend id.name)
  | .assignmentPattern left _ => badParameter path left
  | .restElement (.identifier id) => typedParameter path id ++ pure "..."
  | .restElement argument => badParameter path argument
  | other => badParameter path other

/-- The parameters of a function. -/
def writeParameters (path : TypePath) : List Node → List (m String)
  | [] => []
  | param :: rest => param.writeParameter path :: writeParameters path rest

/-- A function from its generic parameters to its body. -/
def Func.writeSignature (path : TypePath) (returns : Bool) : Func → m String
  | ⟨_, params, body, _, isAsync, _⟩ =>
    signature path (writeParameters path params) body isAsync returns
      (braces <$> Scribe.lines (writeAll path body))

/-- A function as a closure. -/
def Func.writeClosure (path : TypePath) : Func → m String
  | ⟨id, params, body, _, _, _⟩ =>
    let path := match id with | some id => path.descend id.name | none => path
    closure params (Scribe.lines (writeAll path body))

/-- A member of a class. A constructor goes under `init`, a method under its name. -/
def Method.write (path : TypePath) : Method → m String
  | ⟨some key, computed, some function, kind, isStatic⟩ =>
    match kind with
    | .constructor =>
      let path := path.initializer
      memberHead path isStatic ++ pure "init" ++ function.writeSignature path false
    | .method =>
      match methodName? key computed with
      | some name =>
        let path := path.descend name
        memberHead path isStatic ++ pure ("func " ++ identifier name)
          ++ function.writeSignature path true
      | none =>
        placeholder "MethodDefinition" (Method.mk key computed function kind isStatic).form
    | _ => placeholder "MethodDefinition" (Method.mk key computed function kind isStatic).form
  | _ => Scribe.fail .method "missing key or value"

/-- The members of a class. -/
def writeMembers (path : TypePath) : List Method → List (m String)
  | [] => []
  | member :: rest => member.write path :: writeMembers path rest

/-- A case of a switch. The statements are rendered before the test. -/
def SwitchCase.write (path : TypePath) : SwitchCase → m String
  | ⟨test, consequent⟩ =>
    (fun body test => caseText test body)
      <$> Scribe.lines (writeAll path consequent)
      <*> (match test with | some test => some <$> test.write path | none => pure none)

/-- The cases of a switch. -/
def writeCases (path : TypePath) : List SwitchCase → List (m String)
  | [] => []
  | case :: rest => case.write path :: writeCases path rest
end

/-- **The draft of a node.** -/
def Node.swift (path : TypePath) (node : Node) : Draft String := node.write path

/-- **The Swift text of a node on hints and records**, and the records after it. -/
def Node.generate (path : TypePath) (node : Node) (hints records : HintTable) :
    Except Unsupported String × HintTable :=
  (node.write path : Live String).perform hints records

end SwiftScribe
