import SwiftScribe.Proofs.Follows

/-!
# The trace of a generation

Generation asks for the types of paths while it goes through a syntax tree, and leaves a mark in the
records for each. `Node.write_follows`, by recursion on the tree, shows that this happens along a
trace in which neither hints nor records have a part: the paths of the draft.

* `Node.generate_eq`: generation on hints and records, told from the draft.
* `Node.generate_factors`: **generation factorises through its trace.** Whether it fails does not
  depend on hints and records, the records are noted along the trace, and the text depends on what
  the hints know about the trace alone.
* `Source.run_eq_ok_iff`: the same for a whole run.
-/

namespace SwiftScribe

open Swift

mutual
/-- **Live generation of a node follows its draft.** -/
theorem Node.write_follows (path : TypePath) :
    (node : Node) → Follows path (node.write path) (node.write path)
  -- expressions
  | .identifier _ => .pure _
  | .literal literal => .literalCode literal
  | .thisExpression => .pure _
  | .superReference => .pure _
  | .arrayExpression elements => by
    unfold Node.write
    exact .append (.append (.pure _) (.join _ (writeElements_follows path "nil" elements)))
      (.pure _)
  | .objectExpression properties => by
    unfold Node.write
    split
    · exact .pure _
    · exact .append (.append (.pure _) (.join _ (writeAll_follows path properties))) (.pure _)
  | .property key computed value kind _ _ => by
    have hkey := Node.write_follows path key
    unfold Node.write
    split
    · refine .append (.append ?_ (.pure _)) ?_
      · split
        · exact .pure _
        · exact hkey
      · match value with
        | none => exact hkey
        | some value =>
          -- a plain key extends the path, a computed one does not
          cases computed with
          | false => exact .widen (path.prefix_underKey key) (Node.write_follows _ value)
          | true => exact Node.write_follows path value
    · exact .placeholder _ _
  | .functionExpression function => by
    unfold Node.write
    exact Func.writeClosure_follows path function
  | .arrowFunctionExpression _ params body _ _ _ => by
    unfold Node.write
    have hbody := Node.write_follows path body
    have hparts := Node.blockParts_follow path body
    generalize (body.blockParts? path : Option (List (Live String))) = parts at hparts ⊢
    generalize (body.blockParts? path : Option (List (Draft String))) = partDrafts at hparts ⊢
    cases hparts with
    | none => exact .expressionClosure params hbody
    | some hparts => exact .closure params (.lines hparts)
  | .templateLiteral template => by
    unfold Node.write
    exact Template.write_follows path template
  | .templateElement _ => .pure _
  | .memberExpression computed object property => by
    have hobject := Follows.operand object (Node.write_follows path object)
    have hproperty := Node.write_follows path property
    unfold Node.write
    split
    · exact .append (.append (.append hobject (.pure _)) hproperty) (.pure _)
    · exact .append (.append hobject (.pure _)) hproperty
  | .callExpression callee arguments => by
    unfold Node.write
    exact .append (.append (.append (.operand callee (Node.write_follows path callee)) (.pure _))
      (.join _ (writeAll_follows path arguments))) (.pure _)
  | .newExpression callee arguments => by
    unfold Node.write
    exact .append (.append (.append (.operand callee (Node.write_follows path callee)) (.pure _))
      (.join _ (writeAll_follows path arguments))) (.pure _)
  | .updateExpression _ argument _ => by
    unfold Node.write
    exact .append (.append (.pure _) (Node.write_follows path argument)) (.pure _)
  | .awaitExpression argument => by
    unfold Node.write
    exact .append (.pure _) (.operand argument (Node.write_follows path argument))
  | .unaryExpression _ argument _ => by
    have hargument := Node.write_follows path argument
    unfold Node.write
    split
    · exact .append (.append (.pure _) hargument) (.pure _)
    · split
      · exact .append (.pure _) (.prefixOperand argument hargument)
      · exact .placeholder _ _
  | .binaryExpression _ left right => by
    unfold Node.write
    exact .seq (.map _ (.operand left (Node.write_follows path left)))
      (.operand right (Node.write_follows path right))
  | .logicalExpression _ left right => by
    unfold Node.write
    exact .seq (.map _ (.operand left (Node.write_follows path left)))
      (.operand right (Node.write_follows path right))
  | .conditionalExpression test consequent alternate => by
    unfold Node.write
    have htest := Follows.operand test (Node.write_follows path test)
    have hconsequent := Follows.operand consequent (Node.write_follows path consequent)
    have halternate := Follows.operand alternate (Node.write_follows path alternate)
    exact .append (.append (.append (.append htest (.pure _)) hconsequent) (.pure _)) halternate
  | .assignmentExpression _ left right => by
    unfold Node.write
    exact .append (.append (Node.write_follows path left) (.pure _))
      (.operand right (Node.write_follows path right))
  -- statements
  | .blockStatement body => by
    unfold Node.write
    exact .map _ (.lines (writeAll_follows path body))
  | .breakStatement _ => .pure _
  | .continueStatement _ => .pure _
  | .doWhileStatement body test => by
    unfold Node.write
    exact .append (.append (.append (.pure _) (.bodyBlock body (Node.write_follows path body)))
      (.pure _)) (Node.write_follows path test)
  | .emptyStatement => .pure _
  | .expressionStatement expression directive => by
    unfold Node.write
    split
    · exact .pure _
    · exact .spreadOut (Node.sequenceParts_follow path expression)
        (Node.write_follows path expression)
  | .forStatement init test update body => by
    unfold Node.write
    refine .seq (.seq (.seq (.map _ ?_) ?_)
      (.spreadOut (Node.blockParts_follow path body) (Node.write_follows path body))) ?_
    · match test with
      | none => exact .pure _
      | some test => exact Node.write_follows path test
    · match update with
      | none => exact .pure _
      | some update =>
        exact .spreadOut (Node.sequenceParts_follow path update) (Node.write_follows path update)
    · match init with
      | none => exact .pure _
      | some init =>
        have hparts := Node.sequenceParts_follow path init
        exact .map _ (.spreadOut hparts (Node.write_follows path init))
  | .forInStatement left right body _ => by
    unfold Node.write
    split
    · exact .append (.append (.append (.pure _) (Node.write_follows path right)) (.pure _))
        (.bodyBlock body (Node.write_follows path body))
    · exact .fail _ _
  | .forOfStatement left right body => by
    unfold Node.write
    split
    · exact .append (.append (.append (.pure _) (Node.write_follows path right)) (.pure _))
        (.bodyBlock body (Node.write_follows path body))
    · exact .fail _ _
  | .ifStatement test consequent alternate => by
    unfold Node.write
    refine .append (.append (.append (.append (.pure _) (Node.write_follows path test)) (.pure _))
      (.bodyBlock consequent (Node.write_follows path consequent))) ?_
    match alternate with
    | none => exact .pure _
    | some alternate =>
      exact .append (.pure _) (.elseBlock alternate (Node.write_follows path alternate))
  | .labeledStatement _ body => by
    unfold Node.write
    exact .append (.pure _) (Node.write_follows path body)
  | .returnStatement none => .pure _
  | .returnStatement (some argument) => by
    unfold Node.write
    exact .append (.pure _) (Node.write_follows path argument)
  | .switchStatement discriminant cases => by
    unfold Node.write
    split
    · exact .seq (.map _ (.join _ (Follows.orderedCases cases (writeCases_follows path cases))))
        (Node.write_follows path discriminant)
    · exact .placeholder _ _
  | .switchCase case => by
    unfold Node.write
    exact SwitchCase.write_follows path case
  | .throwStatement argument => by
    unfold Node.write
    exact .append (.pure _) (Node.write_follows path argument)
  | .tryStatement block handler finalizer => by
    unfold Node.write
    refine .seq (.seq (.map _ ?_) (.lines (writeAll_follows path block))) ?_
    · match finalizer with
      | none => exact .pure _
      | some body => exact .map _ (.lines (writeAll_follows path body))
    · match handler with
      | none => exact .pure _
      | some ⟨param, body⟩ =>
        exact .append (.append (.append (.pure _) (.catchHead param)) (.pure _))
          (.map _ (.lines (writeAll_follows path body)))
  | .whileStatement test body => by
    unfold Node.write
    exact .append (.append (.append (.pure _) (Node.write_follows path test)) (.pure _))
      (.bodyBlock body (Node.write_follows path body))
  -- declarations
  | .program _ body => by
    unfold Node.write
    exact .lines (writeAll_follows path body)
  | .variableDeclaration declarations kind => by
    unfold Node.write
    exact .join _ (writeDeclarators_follows path (variableKeyword kind) declarations)
  | .variableDeclarator declarator => by
    unfold Node.write
    exact Declarator.write_follows path declarator
  | .arrayPattern elements => by
    unfold Node.write
    exact .append (.append (.pure _) (.join _ (writeElements_follows path "_" elements))) (.pure _)
  | .assignmentPattern left right => by
    unfold Node.write
    exact .append (.append (Node.write_follows path left) (.pure _)) (Node.write_follows path right)
  | .functionDeclaration function => by
    unfold Node.write
    split
    · exact .append (.pure _) (.descend (Func.writeSignature_follows _ true function))
    · exact .fail _ _
  | .classDeclaration ⟨id, superClass, members⟩ => by
    unfold Node.write
    match id with
    | none => exact .fail _ _
    | some id =>
      refine .descend (.append (.append (.append (.pure _) ?_) (.pure _))
        (.map _ (.lines (writeMembers_follows _ members))))
      match superClass with
      | none => exact .pure _
      | some superClass => exact .append (.pure _) (Node.write_follows _ superClass)
  | .classBody members => by
    unfold Node.write
    exact .map _ (.lines (writeMembers_follows path members))
  | .methodDefinition method => by
    unfold Node.write
    exact Method.write_follows path method
  | .exportDefaultDeclaration declaration => by
    unfold Node.write
    exact Node.write_follows path declaration
  | .exportNamedDeclaration none _ _ => .placeholder _ _
  | .exportNamedDeclaration (some declaration) _ _ => by
    unfold Node.write
    exact Node.write_follows path declaration
  -- constructs without a rendering
  | .catchClause _ => .placeholder _ _
  | .classExpression _ => .placeholder _ _
  | .debuggerStatement => .placeholder _ _
  | .exportAllDeclaration _ => .placeholder _ _
  | .exportSpecifier _ => .placeholder _ _
  | .importCallee => .placeholder _ _
  | .importSpecifier _ _ => .placeholder _ _
  | .metaProperty _ _ => .placeholder _ _
  | .objectPattern _ => .placeholder _ _
  | .restElement _ => .placeholder _ _
  | .sequenceExpression _ => .placeholder _ _
  | .spreadElement _ => .placeholder _ _
  | .taggedTemplateExpression _ _ => .placeholder _ _
  | .withStatement _ _ => .placeholder _ _
  | .yieldExpression _ _ => .placeholder _ _

theorem writeAll_follows (path : TypePath) :
    (nodes : List Node) → FollowsAll path (writeAll path nodes) (writeAll path nodes)
  | [] => .nil
  | node :: rest => .cons (Node.write_follows path node) (writeAll_follows path rest)

theorem writeElements_follows (path : TypePath) (hole : String) :
    (elements : List (Option Node)) →
      FollowsAll path (writeElements path hole elements) (writeElements path hole elements)
  | [] => .nil
  | none :: rest => .cons (.pure hole) (writeElements_follows path hole rest)
  | some node :: rest =>
    .cons (Node.write_follows path node) (writeElements_follows path hole rest)

theorem Node.blockParts_follow (path : TypePath) (node : Node) :
    Option.Rel (FollowsAll path) (node.blockParts? path) (node.blockParts? path) := by
  cases node with
  | blockStatement body => exact .some (writeAll_follows path body)
  | _ => exact .none

theorem Node.sequenceParts_follow (path : TypePath) (node : Node) :
    Option.Rel (FollowsAll path) (node.sequenceParts? path) (node.sequenceParts? path) := by
  cases node with
  | sequenceExpression expressions => exact .some (writeAll_follows path expressions)
  | _ => exact .none

theorem Template.write_follows (path : TypePath) :
    (template : Template) → Follows path (template.write path) (template.write path)
  | ⟨quasis, expressions⟩ => by
    unfold Template.write
    exact .map _ (.templateBody quasis (writeAll_follows path expressions))

theorem Declarator.write_follows (path : TypePath) :
    (declarator : Declarator) → Follows path (declarator.write path) (declarator.write path)
  | ⟨id, init⟩ => by
    have hid := Node.write_follows path id
    unfold Declarator.write
    split
    · rename_i name
      refine .seq (.map _ (.resolve (path.above_descend name.name))) ?_
      match init with
      | none => exact .pure _
      | some init => exact .map _ (.descend (Node.write_follows _ init))
    · refine .append hid ?_
      match init with
      | none => exact .pure _
      | some init => exact .append (.pure _) (Node.write_follows path init)

theorem writeDeclarators_follows (path : TypePath) (keyword : String) :
    (declarators : List Declarator) →
      FollowsAll path (writeDeclarators path keyword declarators)
        (writeDeclarators path keyword declarators)
  | [] => .nil
  | declarator :: rest =>
    .cons (.append (.pure _) (Declarator.write_follows path declarator))
      (writeDeclarators_follows path keyword rest)

theorem Node.writeParameter_follows (path : TypePath) (param : Node) :
    Follows path (param.writeParameter path) (param.writeParameter path) := by
  cases param with
  | identifier id => exact .typedParameter id
  | assignmentPattern left right =>
    cases left with
    | identifier id =>
      exact .append (.append (.typedParameter id) (.pure _)) (.descend (Node.write_follows _ right))
    | _ => exact .badParameter _
  | restElement argument =>
    cases argument with
    | identifier id => exact .append (.typedParameter id) (.pure _)
    | _ => exact .badParameter _
  | _ => exact .badParameter _

theorem writeParameters_follows (path : TypePath) :
    (params : List Node) →
      FollowsAll path (writeParameters path params) (writeParameters path params)
  | [] => .nil
  | param :: rest =>
    .cons (Node.writeParameter_follows path param) (writeParameters_follows path rest)

theorem Func.writeSignature_follows (path : TypePath) (returns : Bool) :
    (function : Func) →
      Follows path (function.writeSignature path returns) (function.writeSignature path returns)
  | ⟨_, params, body, _, isAsync, _⟩ => by
    unfold Func.writeSignature
    exact .signature body isAsync returns (writeParameters_follows path params)
      (.map _ (.lines (writeAll_follows path body)))

theorem Func.writeClosure_follows (path : TypePath) :
    (function : Func) → Follows path (function.writeClosure path) (function.writeClosure path)
  | ⟨none, params, body, _, _, _⟩ => by
    unfold Func.writeClosure
    exact .closure params (.lines (writeAll_follows path body))
  | ⟨some _, params, body, _, _, _⟩ => by
    unfold Func.writeClosure
    exact .descend (.closure params (.lines (writeAll_follows _ body)))

theorem Method.write_follows (path : TypePath) :
    (method : Method) → Follows path (method.write path) (method.write path)
  | ⟨some key, computed, some function, kind, isStatic⟩ => by
    unfold Method.write
    split
    · exact .descend (.append (.append (.memberHead isStatic) (.pure _))
        (Func.writeSignature_follows _ false function))
    · split
      · exact .descend (.append (.append (.memberHead isStatic) (.pure _))
          (Func.writeSignature_follows _ true function))
      · exact .placeholder _ _
    · exact .placeholder _ _
  | ⟨none, _, _, _, _⟩ => .fail _ _
  | ⟨some _, _, none, _, _⟩ => .fail _ _

theorem writeMembers_follows (path : TypePath) :
    (members : List Method) →
      FollowsAll path (writeMembers path members) (writeMembers path members)
  | [] => .nil
  | member :: rest => .cons (Method.write_follows path member) (writeMembers_follows path rest)

theorem SwitchCase.write_follows (path : TypePath) :
    (case : SwitchCase) → Follows path (case.write path) (case.write path)
  | ⟨test, consequent⟩ => by
    unfold SwitchCase.write
    refine .seq (.map _ (.lines (writeAll_follows path consequent))) ?_
    match test with
    | none => exact .pure _
    | some test => exact .map _ (Node.write_follows path test)

theorem writeCases_follows (path : TypePath) :
    (cases : List SwitchCase) → FollowsAll path (writeCases path cases) (writeCases path cases)
  | [] => .nil
  | case :: rest => .cons (SwitchCase.write_follows path case) (writeCases_follows path rest)
end

/-! ## What a generation depends on -/

/-- **Generation, told from the draft.** -/
theorem Node.generate_eq (path : TypePath) (node : Node) (hints records : HintTable) :
    node.generate path hints records =
      ((node.swift path).run hints.answer?, hints.noteAll records (node.swift path).paths) :=
  (node.write_follows path).perform hints records

theorem Swift.Draft.run_congr {α : Type} (draft : Draft α) {a b : Answers}
    (agree : ∀ path ∈ draft.paths, a path = b path) : draft.run a = draft.run b := by
  unfold Draft.run
  cases h : draft.outcome with
  | error e => rfl
  | ok f => exact congrArg Except.ok (draft.reads f h a b agree)

/-- The result of a draft without its value does not depend on the answers. -/
theorem Swift.Draft.verdict_run {α : Type} (draft : Draft α) (answers : Answers) :
    (draft.run answers).map (fun _ => ()) = draft.outcome.map fun _ => () := by
  unfold Draft.run
  cases draft.outcome <;> rfl

/-- Hints that know the same about some paths answer alike for them. -/
theorem HintTable.answer?_congr {hints other : HintTable} {paths : List TypePath}
    (agree : ∀ path ∈ paths, hints.lookup path = other.lookup path) :
    ∀ path ∈ paths, hints.answer? path = other.answer? path := by
  intro path hm
  unfold HintTable.answer?
  rw [agree path hm]

/-- **Generation factorises through a trace that hints and records have no part in.** The trace is
the list of paths of the draft, all of them beyond the path of the node. -/
theorem Node.generate_factors (node : Node) (path : TypePath) :
    (∀ asked ∈ (node.swift path).paths, path.Above asked) ∧
      (∃ verdict : Except Unsupported Unit, ∀ hints records,
        (node.generate path hints records).1.map (fun _ => ()) = verdict) ∧
      (∀ hints records, (node.generate path hints records).2 =
        (node.swift path).paths.foldl hints.note records) ∧
      (∀ hints other records others,
        (∀ asked ∈ (node.swift path).paths, hints.lookup asked = other.lookup asked) →
          (node.generate path hints records).1 = (node.generate path other others).1) := by
  refine ⟨(node.write_follows path).above, ⟨(node.swift path).outcome.map fun _ => (), ?_⟩, ?_, ?_⟩
  · intro hints records
    rw [Node.generate_eq, Swift.Draft.verdict_run]
  · intro hints records
    rw [Node.generate_eq]
    rfl
  · intro hints other records others agree
    rw [Node.generate_eq, Node.generate_eq]
    exact Swift.Draft.run_congr _ (HintTable.answer?_congr agree)

/-! ## Runs -/

namespace Source

/-- **The paths that a run on a source asks for**, in order. -/
def asked (source : Source) : List TypePath :=
  match source.draft with
  | .ok draft => draft.paths
  | .error _ => []

/-- **A run, told from the draft of its source.** -/
theorem run_eq_ok_iff {hints : HintTable} {source : Source} {output : Output} :
    source.run hints = .ok output ↔
      ∃ draft code, source.draft = .ok draft ∧ draft.run hints.answer? = .ok code ∧
        output = ⟨source.assemble code, hints.noteAll .empty source.asked⟩ := by
  unfold run asked draft
  cases Node.decodeDiagnosed source.ast with
  | error e => simp [Except.map]
  | ok node =>
    simp only [Node.generate_eq, Except.map]
    cases h : (node.swift source.path).run hints.answer? with
    | error e => simp [h]
    | ok code => simp [h, eq_comm]

/-- The records of a run are noted along what it asks for. -/
theorem records_of_run {hints : HintTable} {source : Source} {output : Output}
    (h : source.run hints = .ok output) :
    output.records = hints.noteAll .empty source.asked := by
  obtain ⟨draft, code, -, -, rfl⟩ := run_eq_ok_iff.1 h
  rfl

theorem above_of_asked {source : Source} {asked : TypePath} (h : asked ∈ source.asked) :
    source.path.Above asked := by
  unfold Source.asked Source.draft at h
  cases hd : Node.decodeDiagnosed source.ast with
  | error e =>
    rw [hd] at h
    cases h
  | ok node =>
    rw [hd] at h
    exact (node.write_follows source.path).above asked h

end Source

end SwiftScribe
