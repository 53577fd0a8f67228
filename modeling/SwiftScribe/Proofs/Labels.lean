import SwiftScribe.Proofs.Jumps

/-!
# Labels and the loops they name

A `continue` with a label goes back to a loop around it that the label is directly before.
Generation writes labels and jumps as they are, and a C-style `for` as a scope with a loop inside.
The label of such a loop ends up before the scope.

* `Node.write_jumps`: **the outline of a node has the text of the node and its jumps**, each with the
  same labels around.
* `Node.generate_labels`: every jump stands between the braces of the statement that its label is
  directly before: of a loop, unless it names a C-style `for`.
* `Node.label_lost`: then there is no loop with the label.
-/

namespace SwiftScribe

open Swift

/-! ## The text of a node -/

section Trees

variable {answers : Answers}

namespace Swift

/-- The jumps, the outline and the draft of one case. -/
def Matched (answers : Answers) (jumps : SwitchCase × Jumps) (outline : SwitchCase × Outline)
    (draft : SwitchCase × Draft String) : Prop :=
  jumps.1 = draft.1 ∧ outline.1 = draft.1 ∧ Tells answers jumps.2 outline.2 draft.2

variable {cases : List (SwitchCase × Jumps)} {outlines : List (SwitchCase × Outline)}
  {drafts : List (SwitchCase × Draft String)}

theorem tested_matched (h : Each (Matched answers) cases outlines drafts) :
    Each (Tells answers) ((cases.filter (·.1.test.isSome)).map (·.2))
      ((outlines.filter (·.1.test.isSome)).map (·.2))
      ((drafts.filter (·.1.test.isSome)).map (·.2)) := by
  induction h with
  | nil => exact .nil
  | @cons case outline draft cases outlines drafts hfirst _ ih =>
    obtain ⟨hcase, houtline, htells⟩ := hfirst
    rw [List.filter_cons, List.filter_cons, List.filter_cons, hcase, houtline]
    by_cases ht : draft.1.test.isSome
    · rw [if_pos ht, if_pos ht, if_pos ht]
      exact .cons htells ih
    · rw [if_neg ht, if_neg ht, if_neg ht]
      exact ih

theorem default_matched (h : Each (Matched answers) cases outlines drafts) :
    Tells answers (((cases.find? (·.1.test.isNone)).map (·.2)).getD still)
      (((outlines.find? (·.1.test.isNone)).map (·.2)).getD (.plain "default:\nbreak"))
      (((drafts.find? (·.1.test.isNone)).map (·.2)).getD (pure "default:\nbreak")) := by
  induction h with
  | nil => exact .plain _
  | @cons case outline draft cases outlines drafts hfirst _ ih =>
    obtain ⟨hcase, houtline, htells⟩ := hfirst
    rw [List.find?_cons, List.find?_cons, List.find?_cons, hcase, houtline]
    cases ht : draft.1.test.isNone with
    | true => exact htells
    | false => exact ih

/-- The default case is written last, wherever it is in the source. -/
theorem written_perm (cases : List (SwitchCase × Jumps)) (around : Around) :
    (Jumps.all ((cases.filter (·.1.test.isSome)).map (·.2)
        ++ [((cases.find? (·.1.test.isNone)).map (·.2)).getD still]) around).Perm
      (Jumps.all (written cases) around) := by
  induction cases with
  | nil => exact .nil
  | cons case rest ih =>
    obtain ⟨⟨test, consequent⟩, jumps⟩ := case
    cases test with
    | none => exact List.perm_append_comm.flatMap_right _
    | some test => exact ih.append_left _

theorem Tells.orderedCases (h : Each (Matched answers) cases outlines drafts) :
    Tells answers (.all (written cases)) (.join "\n" (Outline.orderedCases outlines))
      (Scribe.join "\n" (Swift.orderedCases drafts)) := by
  have hall := (tested_matched h).append (.cons (default_matched h) .nil)
  exact (Tells.join "\n" hall).congr (written_perm cases)

end Swift

variable {path : TypePath}

theorem Node.bodyBlock_eq (path : TypePath) (body : Node) :
    (bodyBlock body (body.write path) : Draft String) =
      braces <$> spreadOut (body.blockParts? path) (body.write path) := by
  cases body <;> rfl

/-- A comma sequence that is not spread out is no sequence. -/
theorem Node.sequence_whole {node : Node}
    (h : Tells answers (node.jumps none) (node.outline answers path) (node.write path))
    (hn : (node.sequenceParts? path : Option (List (Draft String))) = none) :
    Tells answers ((node.sequenceJumps?).getD (node.jumps none)) (node.outline answers path)
      (node.write path) := by
  cases node with
  | sequenceExpression => cases hn
  | _ => exact h

mutual
/-- **The outline of a node has the text of the node and its jumps.** -/
theorem Node.write_jumps (path : TypePath) : (node : Node) →
    TellsUnder answers node.jumps ((node.outline answers path).exposed node) (node.write path)
  -- the statements that a label may be attached to
  | .whileStatement test body => by
    have htest := (Node.write_jumps path test).tells
    have hbody := Tells.spreadOut (Node.block_jumps path body) fun _ =>
      (Node.write_jumps path body).tells
    unfold Node.write
    rw [Node.bodyBlock_eq]
    exact .whileLoop htest hbody
  | .doWhileStatement body test => by
    have htest := (Node.write_jumps path test).tells
    have hbody := Tells.spreadOut (Node.block_jumps path body) fun _ =>
      (Node.write_jumps path body).tells
    unfold Node.write
    rw [Node.bodyBlock_eq]
    exact .repeatLoop hbody htest
  | .forInStatement left right body _ => by
    have hright := (Node.write_jumps path right).tells
    have hbody := Tells.spreadOut (Node.block_jumps path body) fun _ =>
      (Node.write_jumps path body).tells
    unfold Node.write
    rw [Node.bodyBlock_eq]
    split
    · rename_i id hid
      exact .forEach hid _ hright hbody
    · exact Yields.fail _ _
  | .forOfStatement left right body => by
    have hright := (Node.write_jumps path right).tells
    have hbody := Tells.spreadOut (Node.block_jumps path body) fun _ =>
      (Node.write_jumps path body).tells
    unfold Node.write
    rw [Node.bodyBlock_eq]
    split
    · rename_i id hid
      exact .forEach hid _ hright hbody
    · exact Yields.fail _ _
  | .forStatement init test update body => by
    have hbody := Tells.spreadOut (Node.block_jumps path body) fun _ =>
      (Node.write_jumps path body).tells
    unfold Node.write
    refine .seq (.seq (.seq (.map ?test fun t ht u hu b hb i hi =>
      HoldsUnder.steppedLoop _ hi ht hu hb) ?update) hbody) ?init
    case test =>
      match test with
      | none => exact Tells.plain _
      | some test => exact (Node.write_jumps path test).tells
    case update =>
      match update with
      | none => exact Tells.plain _
      | some update =>
        exact Tells.spreadOut (Node.sequence_jumps path update)
          (Node.sequence_whole (Node.write_jumps path update).tells)
    case init =>
      match init with
      | none => exact MayTell.missing
      | some init =>
        exact MayTell.present (Tells.spreadOut (Node.sequence_jumps path init)
          (Node.sequence_whole (Node.write_jumps path init).tells))
  | .labeledStatement label body =>
    .of_tells ((Node.write_jumps path body).labeled label.name)
  | .continueStatement none => .of_tells (.plain _)
  | .continueStatement (some label) => by
    have htext : jump "continue" (some label) = "continue " ++ label.name := rfl
    refine .of_tells (Yields.pure ?_)
    rw [htext]
    exact .skip label.name
  -- other statements
  | .blockStatement body => .of_tells (.braces (.lines (writeAll_jumps path body)))
  | .expressionStatement expression (some directive) => .of_tells (.plain _)
  | .expressionStatement expression none =>
    .of_tells (Tells.spreadOut (Node.sequence_jumps path expression)
      (Node.sequence_whole (Node.write_jumps path expression).tells))
  | .ifStatement test consequent alternate => by
    have htest := ((Node.write_jumps path test).tells.after "if ").before " "
    have hconsequent := (Node.write_jumps path consequent).tells.bodyBlock consequent
    unfold Node.write
    refine .of_tells ((htest.append hconsequent).append ?_)
    match alternate with
    | none => exact .plain _
    | some alternate =>
      exact ((Node.write_jumps path alternate).tells.elseBlock alternate).after " else "
  | .returnStatement none => .of_tells (.plain _)
  | .returnStatement (some argument) => .of_tells ((Node.write_jumps path argument).tells.after _)
  | .throwStatement argument => .of_tells ((Node.write_jumps path argument).tells.after _)
  | .switchStatement discriminant cases => by
    have hdiscriminant := (Node.write_jumps path discriminant).tells
    have hcases := Tells.orderedCases (writeCases_jumps path cases)
    refine TellsUnder.of_tells (?_ : Tells answers (if defaultFits cases then _ else still)
      (if defaultFits cases then _ else _) _)
    unfold Node.write
    by_cases hfits : defaultFits cases
    · rw [if_pos hfits, if_pos hfits, if_pos hfits]
      refine Yields.seq (Yields.map hcases fun body hbody text htext => ?_) hdiscriminant
      exact ((htext.after _).before _).append hbody.braces
    · rw [if_neg hfits, if_neg hfits, if_neg hfits]
      exact .said _
  | .switchCase case => .of_tells (SwitchCase.write_jumps path case)
  | .tryStatement block handler finalizer => by
    have hblock := Tells.lines (writeAll_jumps path block)
    -- what runs on every way out comes first in the text
    have horder (around : Around) :
        (((finalizerJumps finalizer).and (.all (allJumps block))).and (handlerJumps handler)
          around).Perm ((Node.tryStatement block handler finalizer).jumps none around) := by
      show List.Perm (_ ++ _ ++ _) (_ ++ _ ++ _)
      rw [List.append_assoc]
      exact List.perm_append_comm
    unfold Node.write
    refine .of_tells (Tells.congr (.seq (.seq (.map ?finalizer fun _ hf _ hb _ hh =>
      (Holds.tryBlock hf hb).append hh) hblock) ?handler) horder)
    case finalizer =>
      match finalizer with
      | none => exact MayTell.missing
      | some body =>
        exact Yields.map (Tells.lines (writeAll_jumps path body)) fun _ ht => .present ht.braces
    case handler =>
      match handler with
      | none => exact Tells.plain _
      | some ⟨param, body⟩ =>
        have hhead : Tells answers still _ (catchHead param) := .said _
        have hbody := (Tells.lines (writeAll_jumps path body)).braces
        exact ((hhead.after " ").before " ").append hbody
  | .program _ body => .of_tells (.lines (writeAll_jumps path body))
  | .breakStatement _ => .of_tells (.said _)
  | .emptyStatement => .of_tells (.said _)
  -- expressions
  | .identifier _ => .of_tells (.said _)
  | .literal _ => .of_tells (.said _)
  | .thisExpression => .of_tells (.said _)
  | .superReference => .of_tells (.said _)
  | .templateElement _ => .of_tells (.said _)
  | .arrayExpression elements =>
    .of_tells (((Tells.join ", " (writeElements_jumps path "nil" elements)).after _).before _)
  | .arrayPattern elements =>
    .of_tells (((Tells.join ", " (writeElements_jumps path "_" elements)).after _).before _)
  | .arrowFunctionExpression _ params body _ _ _ => by
    have hwhole := (Node.write_jumps path body).tells
    have hparts := Node.block_jumps path body
    unfold Node.write
    refine TellsUnder.of_tells (?_ : Tells answers _ (match body.blockOutlines? answers path with
      | some parts => _
      | none => _) _)
    generalize body.blockOutlines? answers path = outlines? at hparts ⊢
    generalize (body.blockParts? path : Option (List (Draft String))) = drafts? at hparts ⊢
    cases hparts with
    | none => exact hwhole.expressionClosure params
    | some h => exact h.closure params
  | .assignmentExpression operator left right => by
    have hleft := (Node.write_jumps path left).tells.before (" " ++ operator ++ " ")
    have hright := (Node.write_jumps path right).tells.operand right
    exact .of_tells (hleft.append hright)
  | .assignmentPattern left right => by
    have hleft := (Node.write_jumps path left).tells.before " = "
    exact .of_tells (hleft.append (Node.write_jumps path right).tells)
  | .awaitExpression argument => by
    have hargument := (Node.write_jumps path argument).tells.operand argument
    exact .of_tells (hargument.after _)
  | .binaryExpression operator left right => by
    have hleft := (Node.write_jumps path left).tells
    exact .of_tells (.binary operator left right hleft (Node.write_jumps path right).tells)
  | .callExpression callee arguments => by
    have hcallee := (Node.write_jumps path callee).tells.operand callee
    have harguments := Tells.join ", " (writeAll_jumps path arguments)
    exact .of_tells (((hcallee.before _).append harguments).before _)
  | .conditionalExpression test consequent alternate => by
    have htest := (Node.write_jumps path test).tells.operand test
    have hconsequent := (Node.write_jumps path consequent).tells.operand consequent
    have halternate := (Node.write_jumps path alternate).tells.operand alternate
    exact .of_tells ((((htest.before _).append hconsequent).before _).append halternate)
  | .functionExpression function => .of_tells (Func.writeClosure_jumps path function)
  | .logicalExpression operator left right => by
    have hleft := (Node.write_jumps path left).tells
    exact .of_tells (.binary operator left right hleft (Node.write_jumps path right).tells)
  | .memberExpression computed object property => by
    have hobject := (Node.write_jumps path object).tells.operand object
    have hproperty := (Node.write_jumps path property).tells
    refine TellsUnder.of_tells (?_ : Tells answers _ (if computed then _ else _) _)
    unfold Node.write
    cases computed with
    | true => exact ((hobject.before _).append hproperty).before _
    | false => exact (hobject.before _).append hproperty
  | .newExpression callee arguments => by
    have hcallee := (Node.write_jumps path callee).tells.operand callee
    have harguments := Tells.join ", " (writeAll_jumps path arguments)
    exact .of_tells (((hcallee.before _).append harguments).before _)
  | .objectExpression [] => .of_tells (.plain _)
  | .objectExpression (first :: rest) => by
    have hproperties := Tells.join ", " (writeAll_jumps path (first :: rest))
    exact .of_tells ((hproperties.after _).before _)
  | .property key computed value kind method shorthand => by
    have hkey := (Node.write_jumps path key).tells
    refine TellsUnder.of_tells (?_ : Tells answers (if kind = .value then _ else still)
      (if kind = .value then _ else _) _)
    unfold Node.write
    by_cases hk : kind = .value
    · rw [if_pos hk, if_pos hk, if_pos hk]
      refine Tells.append (Tells.before ?_ " : ") ?_
      · cases key with
        | identifier id =>
          cases computed with
          | false => exact .plain _
          | true => exact hkey
        | _ => exact hkey
      · match value with
        | none => exact hkey
        | some value => exact (Node.write_jumps _ value).tells
    · rw [if_neg hk, if_neg hk, if_neg hk]
      exact .said _
  | .templateLiteral template => .of_tells (Template.write_jumps path template)
  | .unaryExpression operator argument isPrefix => by
    have hargument := (Node.write_jumps path argument).tells
    refine TellsUnder.of_tells (?_ : Tells answers
      (if operator = "typeof" ∨ operator ∈ ["!", "-", "+", "~"] then _ else still)
      (if operator = "typeof" then _ else if operator ∈ ["!", "-", "+", "~"] then _ else _) _)
    unfold Node.write
    by_cases htypeof : operator = "typeof"
    · rw [if_pos htypeof, if_pos htypeof, if_pos (.inl htypeof)]
      exact (hargument.after _).before _
    · by_cases hsign : operator ∈ ["!", "-", "+", "~"]
      · rw [if_neg htypeof, if_neg htypeof, if_pos hsign, if_pos hsign, if_pos (.inr hsign)]
        exact (hargument.prefixOperand argument).after _
      · rw [if_neg htypeof, if_neg htypeof, if_neg hsign, if_neg hsign,
          if_neg (not_or.2 ⟨htypeof, hsign⟩)]
        exact .said _
  | .updateExpression operator argument isPrefix =>
    .of_tells (((Node.write_jumps path argument).tells.after _).before _)
  -- declarations
  | .classBody members => .of_tells (.braces (.lines (writeMembers_jumps path members)))
  | .classDeclaration ⟨none, superClass, members⟩ => Yields.fail _ _
  | .classDeclaration ⟨some id, superClass, members⟩ => by
    have hbody := (Tells.lines (writeMembers_jumps (path.descend id.name) members)).braces
    unfold Node.write
    refine .of_tells (((Tells.after _ ?_).before " ").append hbody)
    match superClass with
    | none => exact .plain _
    | some superClass => exact (Node.write_jumps _ superClass).tells.after _
  | .exportDefaultDeclaration declaration => .of_tells (Node.write_jumps path declaration).tells
  | .exportNamedDeclaration none _ _ => .of_tells (.said _)
  | .exportNamedDeclaration (some declaration) _ _ =>
    .of_tells (Node.write_jumps path declaration).tells
  | .functionDeclaration ⟨none, _, _, _, _, _⟩ => Yields.fail _ _
  | .functionDeclaration ⟨some id, params, body, generator, isAsync, expression⟩ =>
    .of_tells ((Func.writeSignature_jumps _ true
      ⟨some id, params, body, generator, isAsync, expression⟩).after _)
  | .methodDefinition method => .of_tells (Method.write_jumps path method)
  | .variableDeclaration declarations kind =>
    .of_tells (.join "\n" (writeDeclarators_jumps path (variableKeyword kind) declarations))
  | .variableDeclarator declarator => .of_tells (Declarator.write_jumps path declarator)
  -- constructs without a rendering
  | .catchClause _ => .of_tells (.said _)
  | .classExpression _ => .of_tells (.said _)
  | .debuggerStatement => .of_tells (.said _)
  | .exportAllDeclaration _ => .of_tells (.said _)
  | .exportSpecifier _ => .of_tells (.said _)
  | .importCallee => .of_tells (.said _)
  | .importSpecifier .. => .of_tells (.said _)
  | .metaProperty .. => .of_tells (.said _)
  | .objectPattern _ => .of_tells (.said _)
  | .restElement _ => .of_tells (.said _)
  | .sequenceExpression _ => .of_tells (.said _)
  | .spreadElement _ => .of_tells (.said _)
  | .taggedTemplateExpression .. => .of_tells (.said _)
  | .withStatement .. => .of_tells (.said _)
  | .yieldExpression .. => .of_tells (.said _)

theorem writeAll_jumps (path : TypePath) : (nodes : List Node) →
    Each (Tells answers) (allJumps nodes) (outlineAll answers path nodes) (writeAll path nodes)
  | [] => .nil
  | node :: rest => .cons (Node.write_jumps path node).tells (writeAll_jumps path rest)

theorem writeElements_jumps (path : TypePath) (hole : String) : (elements : List (Option Node)) →
    Each (Tells answers) (elementJumps elements) (outlineElements answers path hole elements)
      (writeElements path hole elements)
  | [] => .nil
  | none :: rest => .cons (.plain _) (writeElements_jumps path hole rest)
  | some node :: rest =>
    .cons (Node.write_jumps path node).tells (writeElements_jumps path hole rest)

theorem Node.block_jumps (path : TypePath) (node : Node) :
    Option.Rel (fun outlines drafts =>
      Tells answers (node.jumps none) (.stack outlines) (Scribe.lines drafts))
      (node.blockOutlines? answers path) (node.blockParts? path) := by
  cases node with
  | blockStatement body => exact .some (.lines (writeAll_jumps path body))
  | _ => exact .none

theorem Node.sequence_jumps (path : TypePath) (node : Node) :
    Option.Rel (fun outlines drafts =>
      Tells answers ((node.sequenceJumps?).getD (node.jumps none)) (.stack outlines)
        (Scribe.lines drafts))
      (node.sequenceOutlines? answers path) (node.sequenceParts? path) := by
  cases node with
  | sequenceExpression expressions => exact .some (.lines (writeAll_jumps path expressions))
  | _ => exact .none

theorem Template.write_jumps (path : TypePath) : (template : Template) →
    Tells answers template.jumps (template.outline answers path) (template.write path)
  | ⟨quasis, expressions⟩ =>
    Yields.map (Tells.templateBody quasis (writeAll_jumps path expressions)) fun _ ht => ht.wrap

theorem Declarator.write_jumps (path : TypePath) : (declarator : Declarator) →
    Tells answers declarator.jumps (declarator.outline answers path) (declarator.write path)
  | ⟨id, none⟩ => by
    have hwhole := (Node.write_jumps path id).tells
    cases id with
    | identifier name => exact .binding _ _ .missing
    | _ => exact hwhole.append (.plain _)
  | ⟨id, some init⟩ => by
    have hwhole := (Node.write_jumps path id).tells
    have hinit (path : TypePath) := (Node.write_jumps path init).tells
    cases id with
    | identifier name => exact .binding _ _ (.present (hinit _))
    | _ => exact hwhole.append ((hinit path).after " = ")

theorem writeDeclarators_jumps (path : TypePath) (keyword : String) :
    (declarators : List Declarator) →
      Each (Tells answers) (declaratorJumps declarators)
        (outlineDeclarators answers path keyword declarators)
        (writeDeclarators path keyword declarators)
  | [] => .nil
  | declarator :: rest =>
    .cons ((Declarator.write_jumps path declarator).after _)
      (writeDeclarators_jumps path keyword rest)

theorem Node.writeParameter_jumps (path : TypePath) (param : Node) :
    Tells answers (param.jumps none) (param.outlineParameter answers path)
      (param.writeParameter path) := by
  cases param with
  | identifier id => exact .said _
  | assignmentPattern left right =>
    cases left with
    | identifier id =>
      exact ((Tells.said _).before _).append (Node.write_jumps _ right).tells
    | _ => exact .fail _ _
  | restElement argument => exact .said _
  | _ => exact .fail _ _

theorem writeParameters_jumps (path : TypePath) : (params : List Node) →
    Each (Tells answers) (allJumps params) (outlineParameters answers path params)
      (writeParameters path params)
  | [] => .nil
  | param :: rest => .cons (Node.writeParameter_jumps path param) (writeParameters_jumps path rest)

theorem Func.writeSignature_jumps (path : TypePath) (returns : Bool) : (function : Func) →
    Tells answers function.jumps (function.outlineSignature answers path returns)
      (function.writeSignature path returns)
  | ⟨_, params, body, _, isAsync, _⟩ =>
    .signature path body isAsync returns (writeParameters_jumps path params)
      (.braces (.lines (writeAll_jumps path body)))

theorem Func.writeClosure_jumps (path : TypePath) : (function : Func) →
    Tells answers function.bodyJumps (function.outlineClosure answers path)
      (function.writeClosure path)
  | ⟨_, params, body, _, _, _⟩ => .closure params (.lines (writeAll_jumps _ body))

theorem Method.write_jumps (path : TypePath) : (method : Method) →
    Tells answers method.jumps (method.outline answers path) (method.write path)
  | ⟨some key, computed, some function, kind, isStatic⟩ => by
    match kind with
    | .constructor =>
      have hhead : Tells answers still _ (memberHead path.initializer isStatic ++ pure "init") :=
        (Tells.said _).before _
      exact hhead.append (Func.writeSignature_jumps _ false function)
    | .method =>
      unfold Method.write Method.jumps Method.outline
      cases hname : methodName? key computed with
      | none => exact .said _
      | some name =>
        have hhead : Tells answers still _ (memberHead (path.descend name) isStatic) := .said _
        exact (hhead.before _).append (Func.writeSignature_jumps _ true function)
    | .getter => exact .said _
    | .setter => exact .said _
  | ⟨none, _, _, _, _⟩ => .fail _ _
  | ⟨some _, _, none, _, _⟩ => .fail _ _

theorem writeMembers_jumps (path : TypePath) : (members : List Method) →
    Each (Tells answers) (memberJumps members) (outlineMembers answers path members)
      (writeMembers path members)
  | [] => .nil
  | member :: rest => .cons (Method.write_jumps path member) (writeMembers_jumps path rest)

theorem SwitchCase.write_jumps (path : TypePath) : (case : SwitchCase) →
    Tells answers case.jumps (case.outline answers path) (case.write path)
  | ⟨test, consequent⟩ => by
    have hbody := Tells.lines (writeAll_jumps path consequent)
    unfold SwitchCase.write SwitchCase.outline
    refine Yields.seq (Yields.map hbody fun _ hb _ ht => Holds.caseText ht hb) ?_
    match test with
    | none => exact MayTell.missing
    | some test => exact MayTell.present (Node.write_jumps path test).tells

theorem writeCases_jumps (path : TypePath) : (cases : List SwitchCase) →
    Each (Matched answers) (cases.zip (caseJumps cases)) (cases.zip (outlineCases answers path cases))
      (cases.zip (writeCases path cases))
  | [] => .nil
  | case :: rest => .cons ⟨rfl, rfl, SwitchCase.write_jumps path case⟩ (writeCases_jumps path rest)
end

end Trees

/-! ## Generation -/

/-- **Labelled jumps keep their statements.** Let every labelled `continue` of a node lie in a loop
that its label is directly before. The outline of the node then has the generated text, with these
jumps and no others, and each of them stands between the braces of the statement that has its label
directly before it: of a `while`, `repeat` or `for`, unless a C-style `for` has the label, of which a
`do` is left. -/
theorem Node.generate_labels {path : TypePath} {node : Node} {hints records : HintTable}
    {text : String}
    (hlabels : ∀ skip ∈ node.jumps none [], ∃ shape, (skip.label, shape) ∈ skip.around)
    (h : (node.generate path hints records).1 = .ok text) :
    let outline := node.outline hints.answer? path
    outline.text = text ∧ (outline.skips none []).Perm (node.jumps none []) ∧
      ∀ skip ∈ outline.skips none [],
        (∃ shape, (skip.label, shape) ∈ skip.around ∧ outline.Keeps skip.label shape skip.label ∧
          Surrounds text skip.label shape skip.label) ∧
        ((skip.label, .scope) ∉ skip.around →
          ∃ shape, shape ≠ .scope ∧ (skip.label, shape) ∈ skip.around ∧
            outline.Keeps skip.label shape skip.label ∧
            Surrounds text skip.label shape skip.label) := by
  rw [Node.generate_eq] at h
  obtain ⟨htext, hskips⟩ := (Node.write_jumps path node).tells text h
  have hperm := hskips []
  refine ⟨htext, hperm, fun skip hm => ?_⟩
  obtain ⟨shape, hshape⟩ := hlabels skip (hperm.mem_iff.1 hm)
  have hkeeps := Outline.keeps hm hshape
  have hsurrounds := htext ▸ hkeeps.surrounds
  refine ⟨⟨shape, hshape, hkeeps, hsurrounds⟩, fun hscope => ?_⟩
  refine ⟨shape, ?_, hshape, hkeeps, hsurrounds⟩
  rintro rfl
  exact hscope hshape

/-- `L: while (t) { for (const x of xs) { continue L; } }` -/
def Node.labeledWhile : Node :=
  .program "script"
    [.labeledStatement ⟨"L"⟩
      (.whileStatement (.identifier ⟨"t"⟩)
        (.blockStatement
          [.forOfStatement
            (.variableDeclaration [⟨.identifier ⟨"x"⟩, none⟩] .constant) (.identifier ⟨"xs"⟩)
            (.blockStatement [.continueStatement (some ⟨"L"⟩)])]))]

/-- `L: for (;;) { continue L; }` -/
def Node.labeledFor : Node :=
  .program "script"
    [.labeledStatement ⟨"L"⟩
      (.forStatement none none none (.blockStatement [.continueStatement (some ⟨"L"⟩)]))]

/-- A jump out of an inner loop stays in the outer one, which has the label. -/
theorem Node.generate_labels_while :
    Node.labeledWhile.jumps none [] = [⟨"L", [("L", .whileLoop)]⟩] ∧
      ∃ text, (Node.labeledWhile.generate [] .empty .empty).1 = .ok text ∧
        ∃ shape, shape ≠ .scope ∧
          (Node.labeledWhile.outline HintTable.empty.answer? []).Keeps "L" shape "L" ∧
          Surrounds text "L" shape "L" := by
  have hjumps : Node.labeledWhile.jumps none [] = [⟨"L", [("L", .whileLoop)]⟩] := rfl
  have htext : (Node.labeledWhile.generate [] .empty .empty).1 =
      .ok ("L: while t \x7b\nfor x in JST.values(xs) \x7b\ncontinue L\n\x7d\n\x7d") := rfl
  have hlabels : ∀ skip ∈ Node.labeledWhile.jumps none [],
      ∃ shape, (skip.label, shape) ∈ skip.around := by
    intro skip hm
    rw [hjumps, List.mem_singleton] at hm
    exact ⟨.whileLoop, by rw [hm]; decide⟩
  obtain ⟨-, hperm, hsurrounds⟩ := Node.generate_labels hlabels htext
  have hm : ⟨"L", [("L", .whileLoop)]⟩ ∈
      (Node.labeledWhile.outline HintTable.empty.answer? []).skips none [] := by
    rw [hperm.mem_iff, hjumps]
    exact List.mem_cons_self
  obtain ⟨shape, hshape, -, hkeeps, htext'⟩ := (hsurrounds _ hm).2 (by decide)
  exact ⟨hjumps, _, htext, shape, hshape, hkeeps, htext'⟩

/-- **The label of a C-style `for` is lost to its loop:** it is directly before a scope, and no loop
of the text has a label at all. -/
theorem Node.label_lost :
    Node.labeledFor.jumps none [] = [⟨"L", [("L", .scope)]⟩] ∧
      (Node.labeledFor.outline HintTable.empty.answer? []).skips none [] =
        [⟨"L", [("L", .scope)]⟩] ∧
      ∃ text, (Node.labeledFor.generate [] .empty .empty).1 = .ok text ∧
        text = "L: do \x7b\nwhile true \x7b\ncontinue L\n\x7d\n\x7d" ∧
        (∀ (label : String) (shape : Shape),
          Includes text (label ++ ": " ++ shape.keyword ++ " ") → shape = .scope) ∧
        ∀ label shape target, Surrounds text label shape target → shape = .scope := by
  have hword (label : String) (shape : Shape)
      (h : Includes "L: do \x7b\nwhile true \x7b\ncontinue L\n\x7d\n\x7d"
        (label ++ ": " ++ shape.keyword ++ " ")) : shape = .scope := by
    have hpiece : Includes (label ++ ": " ++ shape.keyword ++ " ") (": " ++ shape.keyword ++ " ") :=
      ⟨label, "", by simp only [String.append_assoc, String.append_empty]⟩
    have hoccurs := (h.trans hpiece).occurs
    cases shape with
    | scope => rfl
    | whileLoop => exact absurd hoccurs (by decide)
    | repeatLoop => exact absurd hoccurs (by decide)
    | forLoop => exact absurd hoccurs (by decide)
  refine ⟨rfl, rfl, "L: do \x7b\nwhile true \x7b\ncontinue L\n\x7d\n\x7d", rfl, rfl, hword, ?_⟩
  rintro label shape target ⟨_, ⟨head, body, rfl, -⟩, hincludes⟩
  obtain ⟨rest, hrest⟩ := shape.write_keyword head body
  have hlabeled : Includes (label ++ ": " ++ shape.write head body)
      (label ++ ": " ++ shape.keyword ++ " ") :=
    ⟨"", rest, by rw [hrest]; simp only [String.empty_append, String.append_assoc]⟩
  exact hword label shape (hincludes.trans hlabeled)

end SwiftScribe
