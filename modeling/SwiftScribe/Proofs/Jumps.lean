import SwiftScribe.Proofs.Pieces

/-!
# The labelled jumps of a node

Where the labelled `continue`s of a node are, told twice: from the source, and from the rules that put
its text together.

* `Node.jumps`: the labelled `continue`s of a node, with the labelled loops around each, as far as
  the function reaches.
* `Node.outline`: **the outline of a node**, put together by the rules of its text.
-/

namespace SwiftScribe

open Swift

/-! ## The jumps of a node -/

/-- The cases of a switch that are written: of several default cases, only the first. -/
def written {α : Type} : List (SwitchCase × α) → List α
  | [] => []
  | (case, value) :: rest =>
    value :: if case.test.isSome then written rest
      else (rest.filter (·.1.test.isSome)).map (·.2)

mutual
/-- **The labelled `continue`s of a node**, in the order of the source. What a placeholder stands
for has none, and neither has what is not written. A loop is around its body, and not around its test
or what it goes over. -/
def Node.jumps : Node → Option String → Jumps
  -- the statements that a label may be attached to
  | .whileStatement test body, attached =>
    (test.jumps none).and ((body.jumps none).inside .whileLoop attached)
  | .doWhileStatement body test, attached =>
    ((body.jumps none).inside .repeatLoop attached).and (test.jumps none)
  | .forInStatement _ right body _, attached =>
    (right.jumps none).and ((body.jumps none).inside .forLoop attached)
  | .forOfStatement _ right body, attached =>
    (right.jumps none).and ((body.jumps none).inside .forLoop attached)
  | .forStatement init test update body, attached =>
    -- in the text the scope is around the head, too
    (((spreadJumps init).and (optionJumps test)).and (spreadJumps update)).and (body.jumps none)
      |>.inside .scope attached
  | .labeledStatement label body, _ => body.jumps (some label.name)
  | .continueStatement label, _ =>
    match label with
    | some label => fun around => [⟨label.name, around⟩]
    | none => still
  -- other statements
  | .blockStatement body, _ => .all (allJumps body)
  | .expressionStatement expression directive, _ =>
    match directive with
    | some _ => still
    | none => (expression.sequenceJumps?).getD (expression.jumps none)
  | .ifStatement test consequent alternate, _ =>
    ((test.jumps none).and (consequent.jumps none)).and (optionJumps alternate)
  | .returnStatement argument, _ => optionJumps argument
  | .throwStatement argument, _ => argument.jumps none
  | .switchStatement discriminant cases, _ =>
    if defaultFits cases then
      (discriminant.jumps none).and (.all (written (cases.zip (caseJumps cases))))
    else still
  | .switchCase case, _ => case.jumps
  | .tryStatement block handler finalizer, _ =>
    ((Jumps.all (allJumps block)).and (handlerJumps handler)).and (finalizerJumps finalizer)
  | .program _ body, _ => .all (allJumps body)
  -- expressions
  | .arrayExpression elements, _ => .all (elementJumps elements)
  | .arrayPattern elements, _ => .all (elementJumps elements)
  | .arrowFunctionExpression _ _ body _ _ _, _ => (body.jumps none).apart
  | .assignmentExpression _ left right, _ => (left.jumps none).and (right.jumps none)
  | .assignmentPattern left right, _ => (left.jumps none).and (right.jumps none)
  | .awaitExpression argument, _ => argument.jumps none
  | .binaryExpression _ left right, _ => (left.jumps none).and (right.jumps none)
  | .callExpression callee arguments, _ => (callee.jumps none).and (.all (allJumps arguments))
  | .conditionalExpression test consequent alternate, _ =>
    ((test.jumps none).and (consequent.jumps none)).and (alternate.jumps none)
  | .functionExpression function, _ => function.bodyJumps
  | .logicalExpression _ left right, _ => (left.jumps none).and (right.jumps none)
  | .memberExpression _ object property, _ => (object.jumps none).and (property.jumps none)
  | .newExpression callee arguments, _ => (callee.jumps none).and (.all (allJumps arguments))
  | .objectExpression properties, _ => .all (allJumps properties)
  | .property key _ value kind _ _, _ =>
    if kind = .value then
      (key.jumps none).and (if value.isSome then optionJumps value else key.jumps none)
    else still
  | .templateLiteral template, _ => template.jumps
  | .unaryExpression operator argument _, _ =>
    if operator = "typeof" ∨ operator ∈ ["!", "-", "+", "~"] then argument.jumps none else still
  | .updateExpression _ argument _, _ => argument.jumps none
  -- declarations
  | .classBody members, _ => .all (memberJumps members)
  | .classDeclaration ⟨_, superClass, members⟩, _ =>
    (optionJumps superClass).and (.all (memberJumps members))
  | .exportDefaultDeclaration declaration, _ => declaration.jumps none
  | .exportNamedDeclaration declaration _ _, _ => optionJumps declaration
  | .functionDeclaration function, _ => function.jumps
  | .methodDefinition method, _ => method.jumps
  | .variableDeclaration declarations _, _ => .all (declaratorJumps declarations)
  | .variableDeclarator declarator, _ => declarator.jumps
  | _, _ => still

/-- The jumps of a part that may be missing. -/
def optionJumps : Option Node → Jumps
  | none => still
  | some node => node.jumps none

/-- The jumps of a part that may be missing, where a comma sequence is spread out. -/
def spreadJumps : Option Node → Jumps
  | none => still
  | some node => (node.sequenceJumps?).getD (node.jumps none)

def allJumps : List Node → List Jumps
  | [] => []
  | node :: rest => node.jumps none :: allJumps rest

def handlerJumps : Option CatchClause → Jumps
  | none => still
  | some ⟨_, body⟩ => .all (allJumps body)

def finalizerJumps : Option (List Node) → Jumps
  | none => still
  | some body => .all (allJumps body)

def elementJumps : List (Option Node) → List Jumps
  | [] => []
  | none :: rest => still :: elementJumps rest
  | some node :: rest => node.jumps none :: elementJumps rest

/-- The jumps of a comma sequence that is spread out. -/
def Node.sequenceJumps? : Node → Option Jumps
  | .sequenceExpression expressions => some (.all (allJumps expressions))
  | _ => none

/-- A template shows as many expressions as it has pieces of text. -/
def Template.jumps : Template → Jumps
  | ⟨quasis, expressions⟩ => .all ((allJumps expressions).take quasis.length)

def Declarator.jumps : Declarator → Jumps
  | ⟨id, init⟩ => (id.jumps none).and (optionJumps init)

def declaratorJumps : List Declarator → List Jumps
  | [] => []
  | declarator :: rest => declarator.jumps :: declaratorJumps rest

/-- A function with the defaults of its parameters. -/
def Func.jumps : Func → Jumps
  | ⟨_, params, body, _, _, _⟩ =>
    ((Jumps.all (allJumps params)).and (.all (allJumps body))).apart

/-- A closure has no defaults. -/
def Func.bodyJumps : Func → Jumps
  | ⟨_, _, body, _, _, _⟩ => (Jumps.all (allJumps body)).apart

def Method.jumps : Method → Jumps
  | ⟨some key, computed, some function, kind, _⟩ =>
    match kind with
    | .constructor => function.jumps
    | .method => if (methodName? key computed).isSome then function.jumps else still
    | _ => still
  | _ => still

def memberJumps : List Method → List Jumps
  | [] => []
  | member :: rest => member.jumps :: memberJumps rest

def SwitchCase.jumps : SwitchCase → Jumps
  | ⟨test, consequent⟩ =>
    (optionJumps test).and (.all (allJumps consequent))

def caseJumps : List SwitchCase → List Jumps
  | [] => []
  | case :: rest => case.jumps :: caseJumps rest
end

/-! ## The outline of a node -/

section Outlines

variable (answers : Answers)

mutual
/-- **The outline of a node** in the scope of a path, by the rules of its text. What has no parts that
jump is just its text. -/
def Node.outline (path : TypePath) : Node → Outline
  -- the statements that a label may be attached to
  | .whileStatement test body =>
    .whileLoop (test.outline path) (.spreadOut (body.blockOutlines? path) (body.outline path))
  | .doWhileStatement body test =>
    .repeatLoop (.spreadOut (body.blockOutlines? path) (body.outline path)) (test.outline path)
  | .forInStatement left right body _ =>
    .forEach left " in JST.keys(" (right.outline path)
      (.spreadOut (body.blockOutlines? path) (body.outline path))
  | .forOfStatement left right body =>
    .forEach left " in JST.values(" (right.outline path)
      (.spreadOut (body.blockOutlines? path) (body.outline path))
  | .forStatement init test update body =>
    .steppedLoop body.containsContinue ((optionOutline path test).getD "true")
      ((spreadOutline path update).getD "")
      (.spreadOut (body.blockOutlines? path) (body.outline path)) (spreadOutline path init)
  | .labeledStatement label body => .labeled label.name ((body.outline path).exposed body)
  | .continueStatement label =>
    match label with
    | some label => .skip label.name
    | none => "continue"
  -- other statements
  | .blockStatement body => .braces (.stack (outlineAll path body))
  | .expressionStatement expression directive =>
    match directive with
    | some directive => ("// " ++ directive : String)
    | none => .spreadOut (expression.sequenceOutlines? path) (expression.outline path)
  | .ifStatement test consequent alternate =>
    "if " ++ test.outline path ++ " " ++ Outline.bodyBlock consequent (consequent.outline path)
      ++ Outline.behind " else " (elseOutline path alternate)
  | .returnStatement argument =>
    match argument with
    | some argument => "return " ++ argument.outline path
    | none => "return"
  | .switchStatement discriminant cases =>
    if defaultFits cases then
      "switch " ++ discriminant.outline path ++ " "
        ++ Outline.braces (.join "\n" (Outline.orderedCases (cases.zip (outlineCases path cases))))
    else
      .said answers (placeholder "SwitchStatement" (Node.switchStatement discriminant cases).form)
  | .switchCase case => case.outline path
  | .throwStatement argument => "throw " ++ argument.outline path
  | .tryStatement block handler finalizer =>
    Outline.tryBlock (finalizerOutline path finalizer) (.stack (outlineAll path block))
      ++ handlerOutline path handler
  | .program _ body => .stack (outlineAll path body)
  -- expressions
  | .arrayExpression elements =>
    "[" ++ Outline.join ", " (outlineElements path "nil" elements) ++ "]"
  | .arrayPattern elements =>
    "(" ++ Outline.join ", " (outlineElements path "_" elements) ++ ")"
  | .arrowFunctionExpression _ params body _ _ _ =>
    match body.blockOutlines? path with
    | some parts => .closure answers params (.stack parts)
    | none => .expressionClosure answers params (body.outline path)
  | .assignmentExpression operator left right =>
    left.outline path ++ (" " ++ operator ++ " " : String)
      ++ Outline.operand right (right.outline path)
  | .assignmentPattern left right => left.outline path ++ " = " ++ right.outline path
  | .awaitExpression argument => "await " ++ Outline.operand argument (argument.outline path)
  | .binaryExpression operator left right =>
    .binary operator (.operand left (left.outline path)) (.operand right (right.outline path))
  | .callExpression callee arguments =>
    Outline.operand callee (callee.outline path) ++ "("
      ++ Outline.join ", " (outlineAll path arguments) ++ ")"
  | .conditionalExpression test consequent alternate =>
    Outline.operand test (test.outline path) ++ " ? "
      ++ Outline.operand consequent (consequent.outline path) ++ " : "
      ++ Outline.operand alternate (alternate.outline path)
  | .functionExpression function => function.outlineClosure path
  | .logicalExpression operator left right =>
    .binary operator (.operand left (left.outline path)) (.operand right (right.outline path))
  | .memberExpression computed object property =>
    let object := Outline.operand object (object.outline path)
    if computed then object ++ "[" ++ property.outline path ++ "]"
    else object ++ "." ++ property.outline path
  | .newExpression callee arguments =>
    Outline.operand callee (callee.outline path) ++ "("
      ++ Outline.join ", " (outlineAll path arguments) ++ ")"
  | .objectExpression properties =>
    if properties.isEmpty then "[:]"
    else "[" ++ Outline.join ", " (outlineAll path properties) ++ "]"
  | .property key computed value kind method shorthand =>
    if kind = .value then
      let keyCode := key.outline path
      let valueCode := optionOutline (if computed then path else underKey path key) value
      Outline.shownKey key computed keyCode ++ " : " ++ valueCode.getD keyCode
    else
      .said answers
        (placeholder "Property" (Node.property key computed value kind method shorthand).form)
  | .templateLiteral template => template.outline path
  | .unaryExpression operator argument isPrefix =>
    if operator = "typeof" then "type(of: " ++ argument.outline path ++ ")"
    else if operator ∈ ["!", "-", "+", "~"] then
      operator ++ Outline.prefixOperand argument (argument.outline path)
    else
      .said answers
        (placeholder "UnaryExpression" (Node.unaryExpression operator argument isPrefix).form)
  | .updateExpression operator argument isPrefix =>
    ("JST.update(" ++ updateSign operator ++ ", " ++ flagText isPrefix ++ ", 1, &" : String)
      ++ argument.outline path ++ ")"
  -- declarations
  | .classBody members => .braces (.stack (outlineMembers path members))
  | .classDeclaration ⟨id, superClass, members⟩ =>
    match id with
    | some id =>
      let path := path.descend id.name
      ("class " ++ identifier id.name : String) ++ Outline.behind ": " (optionOutline path superClass)
        ++ " " ++ Outline.braces (.stack (outlineMembers path members))
    | none => ""
  | .exportDefaultDeclaration declaration => declaration.outline path
  | .exportNamedDeclaration declaration specifiers source =>
    match declaration with
    | some declaration => declaration.outline path
    | none =>
      .said answers
        (placeholder "ExportNamedDeclaration"
          (Node.exportNamedDeclaration none specifiers source).form)
  | .functionDeclaration function =>
    match function.id with
    | some id =>
      ("func " ++ identifier id.name : String)
        ++ function.outlineSignature (path.descend id.name) true
    | none => ""
  | .methodDefinition method => method.outline path
  | .variableDeclaration declarations kind =>
    .join "\n" (outlineDeclarators path (variableKeyword kind) declarations)
  | .variableDeclarator declarator => declarator.outline path
  | other => .said answers (other.write path)

/-- The outline of a part that may be missing. -/
def optionOutline (path : TypePath) : Option Node → Option Outline
  | none => none
  | some node => some (node.outline path)

/-- The outline of a part that may be missing, where a comma sequence is spread out. -/
def spreadOutline (path : TypePath) : Option Node → Option Outline
  | none => none
  | some node => some (.spreadOut (node.sequenceOutlines? path) (node.outline path))

def elseOutline (path : TypePath) : Option Node → Option Outline
  | none => none
  | some alternate => some (.elseBlock alternate (alternate.outline path))

def handlerOutline (path : TypePath) : Option CatchClause → Outline
  | none => ""
  | some ⟨param, body⟩ =>
    " " ++ Outline.said answers (catchHead param) ++ " "
      ++ Outline.braces (.stack (outlineAll path body))

def finalizerOutline (path : TypePath) : Option (List Node) → Option Outline
  | none => none
  | some body => some (.braces (.stack (outlineAll path body)))

def outlineAll (path : TypePath) : List Node → List Outline
  | [] => []
  | node :: rest => node.outline path :: outlineAll path rest

def outlineElements (path : TypePath) (hole : String) : List (Option Node) → List Outline
  | [] => []
  | none :: rest => .plain hole :: outlineElements path hole rest
  | some node :: rest => node.outline path :: outlineElements path hole rest

/-- The statements of a block, if a node is one. -/
def Node.blockOutlines? (path : TypePath) : Node → Option (List Outline)
  | .blockStatement body => some (outlineAll path body)
  | _ => none

/-- The expressions of a comma sequence, if a node is one. -/
def Node.sequenceOutlines? (path : TypePath) : Node → Option (List Outline)
  | .sequenceExpression expressions => some (outlineAll path expressions)
  | _ => none

def Template.outline (path : TypePath) : Template → Outline
  | ⟨quasis, expressions⟩ => (Outline.templateBody quasis (outlineAll path expressions)).wrap

def Declarator.outline (path : TypePath) : Declarator → Outline
  | ⟨id, init⟩ =>
    match id with
    | .identifier name =>
      let path := path.descend name.name
      .binding (identifier name.name) path (answers path) (optionOutline path init)
    | id => id.outline path ++ Outline.behind " = " (optionOutline path init)

def outlineDeclarators (path : TypePath) (keyword : String) : List Declarator → List Outline
  | [] => []
  | declarator :: rest =>
    ((keyword ++ " " : String) ++ declarator.outline path) :: outlineDeclarators path keyword rest

def Node.outlineParameter (path : TypePath) : Node → Outline
  | .identifier id => .said answers (typedParameter path id)
  | .assignmentPattern (.identifier id) right =>
    Outline.said answers (typedParameter path id) ++ " = " ++ right.outline (path.descend id.name)
  | other => .said answers (other.writeParameter path)

def outlineParameters (path : TypePath) : List Node → List Outline
  | [] => []
  | param :: rest => param.outlineParameter path :: outlineParameters path rest

/-- A function from its generic parameters to its body. -/
def Func.outlineSignature (path : TypePath) (returns : Bool) : Func → Outline
  | ⟨_, params, body, _, isAsync, _⟩ =>
    .signature answers path (outlineParameters path params) body isAsync returns
      (.braces (.stack (outlineAll path body)))

/-- A function as a closure. -/
def Func.outlineClosure (path : TypePath) : Func → Outline
  | ⟨id, params, body, _, _, _⟩ =>
    let path := match id with | some id => path.descend id.name | none => path
    .closure answers params (.stack (outlineAll path body))

def Method.outline (path : TypePath) : Method → Outline
  | ⟨some key, computed, some function, kind, isStatic⟩ =>
    match kind with
    | .constructor =>
      let path := path.initializer
      Outline.said answers (memberHead path isStatic) ++ "init"
        ++ function.outlineSignature path false
    | .method =>
      match methodName? key computed with
      | some name =>
        let path := path.descend name
        Outline.said answers (memberHead path isStatic) ++ ("func " ++ identifier name : String)
          ++ function.outlineSignature path true
      | none =>
        .said answers
          (placeholder "MethodDefinition" (Method.mk key computed function kind isStatic).form)
    | _ =>
      .said answers
        (placeholder "MethodDefinition" (Method.mk key computed function kind isStatic).form)
  | _ => ""

def outlineMembers (path : TypePath) : List Method → List Outline
  | [] => []
  | member :: rest => member.outline path :: outlineMembers path rest

def SwitchCase.outline (path : TypePath) : SwitchCase → Outline
  | ⟨test, consequent⟩ =>
    .caseText (optionOutline path test) (.stack (outlineAll path consequent))

def outlineCases (path : TypePath) : List SwitchCase → List Outline
  | [] => []
  | case :: rest => case.outline path :: outlineCases path rest
end

end Outlines

end SwiftScribe
