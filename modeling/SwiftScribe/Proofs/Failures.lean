import SwiftScribe.Proofs.Parts
import SwiftScribe.Proofs.Reach
import SwiftScribe.Proofs.Stable

/-!
# What generation fails on

Generation puts a placeholder wherever a construct has no rendering. It fails on a closed list of
shapes only: those that have a rendering, but no safe one.

* `Node.Offends`: **the shapes that fail**, each with the construct that the error names.
* `FailsIn`: a draft fails on certain constructs only; this survives every way of putting drafts
  together.
* `Node.failsIn_write`: one level of generation, if the nodes inside fail on these constructs only.
* `Node.generate_error_offends`: generation fails only where a shape of the list occurs, and its error
  names the construct.
-/

namespace SwiftScribe

open Swift NodePart

/-! ## The shapes -/

namespace Node

/-- A declaration of exactly one name. -/
def DeclaresName (left : Node) : Prop :=
  ∃ id init kind, left = .variableDeclaration [⟨.identifier id, init⟩] kind

/-- A name, a name with a default, or a name for the rest of the arguments. -/
def IsParameter (param : Node) : Prop :=
  (∃ id, param = .identifier id) ∨ (∃ id right, param = .assignmentPattern (.identifier id) right) ∨
    ∃ id, param = .restElement (.identifier id)

/-- **The shapes on which generation fails**, with the construct that is named. -/
def Offends : Node → Construct → Prop
  | .forInStatement left _ _ _, .forInBinding => ¬ left.DeclaresName
  | .forOfStatement left _ _, .forOfBinding => ¬ left.DeclaresName
  | .functionDeclaration function, .functionDeclaration => function.id = none
  | .classDeclaration definition, .classDeclaration => definition.id = none
  | .functionDeclaration function, .functionParameter => ∃ param ∈ function.params, ¬ param.IsParameter
  | .methodDefinition method, .functionParameter =>
    ∃ function, method.value = some function ∧ ∃ param ∈ function.params, ¬ param.IsParameter
  | .methodDefinition method, .method => method.key = none ∨ method.value = none
  | .tryStatement _ handler _, .catchParameter =>
    ∃ clause param, handler = some clause ∧ clause.param = some param ∧ ∀ id, param ≠ .identifier id
  | _, _ => False

/-- No construct of a node has a shape on which generation fails. -/
def Expressible (node : Node) : Prop := ∀ construct, ¬ node.Offends construct

theorem not_declaresName {left : Node} (h : left.singleBinding? = none) : ¬ left.DeclaresName := by
  rintro ⟨id, init, kind, rfl⟩
  cases h

end Node

/-! ## Drafts that fail on certain constructs only -/

/-- **A draft fails on certain constructs only.** -/
def FailsIn (S : Construct → Prop) {α : Type} (draft : Draft α) : Prop :=
  ∀ error, draft.outcome = .error error → S error.construct

namespace FailsIn

variable {S : Construct → Prop} {α β : Type}

theorem pure (value : α) : FailsIn S (Pure.pure value : Draft α) := nofun

theorem resolve (path : TypePath) : FailsIn S (Scribe.resolve path : Draft (Option String)) := nofun

theorem fail {construct : Construct} (h : S construct) (detail : String) :
    FailsIn S (Scribe.fail construct detail : Draft α) := by
  rintro error ⟨⟩
  exact h

theorem map (g : α → β) {draft : Draft α} (h : FailsIn S draft) : FailsIn S (g <$> draft) := by
  intro error herror
  have houtcome : (g <$> draft).outcome = draft.outcome.map fun f answers => g (f answers) := rfl
  rw [houtcome] at herror
  cases ho : draft.outcome with
  | error e =>
    rw [ho] at herror
    cases herror
    exact h error ho
  | ok f => rw [ho] at herror; cases herror

theorem seq {first : Draft (α → β)} {second : Draft α} (hf : FailsIn S first)
    (hs : FailsIn S second) : FailsIn S (first <*> second) := by
  intro error h
  cases ho : first.outcome with
  | error e =>
    rw [(Draft.events_seq_error ho second).2] at h
    cases h
    exact hf error ho
  | ok g =>
    rw [(Draft.events_seq_ok ho second).2] at h
    cases hsecond : second.outcome with
    | error e =>
      rw [hsecond] at h
      cases h
      exact hs error hsecond
    | ok f => rw [hsecond] at h; cases h

theorem stable : Stable (FailsIn S) where
  pure := pure
  placeholder _ _ := nofun
  map := map
  seq := seq

end FailsIn

/-! ## One level of generation -/

/-- Every node inside a node fails on certain constructs only. -/
def Node.Confined (S : Construct → Prop) (node : Node) : Prop :=
  node.Everywhere fun inner => ∀ path, FailsIn S (inner.write path)

namespace Node.Confined

variable {S : Construct → Prop} {path : TypePath}

theorem write {node : Node} (h : node.Confined S) (path : TypePath) : FailsIn S (node.write path) :=
  (everywhere_iff.1 h).1 path

theorem parts {node : Node} (h : node.Confined S) : ∀ part ∈ node.parts, part.node.Confined S :=
  (everywhere_iff.1 h).2

theorem body {statements : List Node} (h : (Node.blockStatement statements).Confined S) :
    ∀ node ∈ statements, node.Confined S := by
  simpa [Node.parts] using h.parts

theorem all {nodes : List Node} (h : ∀ node ∈ nodes, node.Confined S) :
    ∀ draft ∈ writeAll path nodes, FailsIn S draft := by
  intro draft hm
  rw [writeAll_eq_map] at hm
  obtain ⟨node, hnode, rfl⟩ := List.mem_map.1 hm
  exact (h node hnode).write path

theorem elements (hole : String) {elements : List (Option Node)}
    (h : ∀ element ∈ elements, ∀ node ∈ element, node.Confined S) :
    ∀ draft ∈ writeElements path hole elements, FailsIn S draft := by
  intro draft hm
  rw [writeElements_eq_map] at hm
  obtain ⟨element, helement, rfl⟩ := List.mem_map.1 hm
  cases element with
  | none => exact .pure _
  | some node => exact (h _ helement node rfl).write path

theorem spreadBlock {node : Node} (h : node.Confined S) :
    FailsIn S (spreadOut (node.blockParts? path) (node.write path)) := by
  refine FailsIn.stable.spreadOut (fun drafts hdrafts => ?_) (h.write path)
  cases node with
  | blockStatement statements => cases hdrafts; exact all h.body
  | _ => cases hdrafts

theorem spreadSequence {node : Node} (h : node.Confined S) :
    FailsIn S (spreadOut (node.sequenceParts? path) (node.write path)) := by
  refine FailsIn.stable.spreadOut (fun drafts hdrafts => ?_) (h.write path)
  cases node with
  | sequenceExpression expressions =>
    cases hdrafts
    exact all (by simpa [Node.parts] using h.parts)
  | _ => cases hdrafts

/-! ### Functions -/

/-- **A parameter fails only if it is of another shape.** -/
theorem parameter {param : Node} (h : param.Confined S)
    (hp : ¬ param.IsParameter → S .functionParameter) : FailsIn S (param.writeParameter path) := by
  have htyped (id : Identifier) : FailsIn S (typedParameter path id : Draft String) :=
    FailsIn.stable.typedParameter id (.resolve _)
  have hbad (shape : Node) (hne : ¬ param.IsParameter) :
      FailsIn S (badParameter path shape : Draft String) := .fail (hp hne) _
  cases param with
  | identifier id => exact htyped id
  | assignmentPattern left right =>
    cases left with
    | identifier id =>
      have hright : right.Confined S := by
        have hparts := h.parts
        simp [Node.parts, or_imp, forall_and] at hparts
        exact hparts.2
      exact FailsIn.stable.append (FailsIn.stable.append (htyped id) (.pure _)) (hright.write _)
    | _ => exact hbad _ (by simp [IsParameter])
  | restElement argument =>
    cases argument with
    | identifier id => exact FailsIn.stable.append (htyped id) (.pure _)
    | _ => exact hbad _ (by simp [IsParameter])
  | _ => exact hbad _ (by simp [IsParameter])

theorem signature {function : Func} (h : ∀ part ∈ function.parts, part.node.Confined S)
    (hp : ∀ param ∈ function.params, ¬ param.IsParameter → S .functionParameter) (returns : Bool) :
    FailsIn S (function.writeSignature path returns) := by
  obtain ⟨id, params, body, generator, isAsync, expression⟩ := function
  simp [Func.parts, or_imp, forall_and] at h
  obtain ⟨-, hparams, hbody⟩ := h
  unfold Func.writeSignature
  refine FailsIn.stable.signature body isAsync returns (.resolve _) (.resolve _) (fun draft hm => ?_)
    (.map _ (FailsIn.stable.lines (all hbody.body)))
  rw [writeParameters_eq_map] at hm
  obtain ⟨param, hparam, rfl⟩ := List.mem_map.1 hm
  exact (hparams param hparam).parameter (hp param hparam)

theorem closure {function : Func} (h : ∀ part ∈ function.parts, part.node.Confined S) :
    FailsIn S (function.writeClosure path) := by
  obtain ⟨id, params, body, generator, isAsync, expression⟩ := function
  simp [Func.parts, or_imp, forall_and] at h
  unfold Func.writeClosure
  exact FailsIn.stable.closure params (FailsIn.stable.lines (all h.2.2.body))

/-! ### Records that are nodes -/

theorem method {method : Method} (hself : ∀ c, (Node.methodDefinition method).Offends c → S c)
    (h : ∀ part ∈ (Node.methodDefinition method).parts, part.node.Confined S) :
    FailsIn S (method.write path) := by
  obtain ⟨key, computed, value, kind, isStatic⟩ := method
  cases key with
  | none => exact .fail (hself .method (.inl rfl)) _
  | some key =>
    cases value with
    | none => exact .fail (hself .method (.inr rfl)) _
    | some function =>
      have hparams (param : Node) (hm : param ∈ function.params) (hne : ¬ param.IsParameter) :
          S .functionParameter := hself .functionParameter ⟨function, rfl, param, hm, hne⟩
      simp [Node.parts, or_imp, forall_and] at h
      have hfunction (path : TypePath) (returns : Bool) :
          FailsIn S (function.writeSignature path returns) := signature h.2.parts hparams returns
      have hhead (path : TypePath) : FailsIn S (memberHead path isStatic : Draft String) :=
        FailsIn.stable.memberHead isStatic (.resolve _)
      have st : Stable (FailsIn S) := FailsIn.stable
      unfold Method.write
      split
      · exact st.append (st.append (hhead _) (.pure _)) (hfunction _ _)
      · split
        · exact st.append (st.append (hhead _) (.pure _)) (hfunction _ _)
        · exact st.placeholder _ _
      · exact st.placeholder _ _

theorem members {members : List Method}
    (h : ∀ member ∈ members, (Node.methodDefinition member).Confined S) :
    ∀ draft ∈ writeMembers path members, FailsIn S draft := by
  intro draft hm
  rw [writeMembers_eq_map] at hm
  obtain ⟨member, hmember, rfl⟩ := List.mem_map.1 hm
  have hwrite := (h member hmember).write path
  rwa [Node.write] at hwrite

theorem declarator {declarator : Declarator}
    (h : ∀ part ∈ (Node.variableDeclarator declarator).parts, part.node.Confined S) :
    FailsIn S (declarator.write path) := by
  obtain ⟨id, init⟩ := declarator
  simp [Node.parts, or_imp, forall_and] at h
  obtain ⟨hid, hinit⟩ := h
  have st : Stable (FailsIn S) := FailsIn.stable
  unfold Declarator.write
  split
  · refine .seq (.map _ (.resolve _)) ?_
    cases init with
    | none => exact .pure _
    | some init => exact .map _ ((hinit init rfl).write _)
  · refine st.append (hid.write path) ?_
    cases init with
    | none => exact .pure _
    | some init => exact st.append (.pure _) ((hinit init rfl).write path)

theorem switchCase {case : SwitchCase}
    (h : ∀ part ∈ (Node.switchCase case).parts, part.node.Confined S) :
    FailsIn S (case.write path) := by
  obtain ⟨test, consequent⟩ := case
  simp [Node.parts, or_imp, forall_and] at h
  obtain ⟨htest, hconsequent⟩ := h
  unfold SwitchCase.write
  refine .seq (.map _ (FailsIn.stable.lines (all hconsequent))) ?_
  cases test with
  | none => exact .pure _
  | some test => exact .map _ ((htest test rfl).write path)

theorem template {template : Template}
    (h : ∀ part ∈ (Node.templateLiteral template).parts, part.node.Confined S) :
    FailsIn S (template.write path) := by
  obtain ⟨quasis, expressions⟩ := template
  simp [Node.parts, or_imp, forall_and] at h
  unfold Template.write
  exact .map _ (FailsIn.stable.templateBody quasis (all h.2))

/-- The handler of a `try` fails only if it binds something else than a name. -/
theorem handler {param : Option Node} {body : List Node}
    (hc : ∀ other ∈ param, (∀ id, other ≠ .identifier id) → S .catchParameter)
    (h : (Node.catchClause ⟨param, body⟩).Confined S) :
    FailsIn S (Pure.pure " " ++ catchHead param ++ Pure.pure " "
      ++ (braces <$> Scribe.lines (writeAll path body)) : Draft String) := by
  have hparts := h.parts
  simp [Node.parts, or_imp, forall_and] at hparts
  have hhead : FailsIn S (catchHead param : Draft String) := by
    unfold catchHead
    split
    · exact .pure _
    · exact .pure _
    · rename_i other hother
      exact .fail (hc other rfl hother) _
  have st : Stable (FailsIn S) := FailsIn.stable
  exact st.append (st.append (st.append (.pure _) hhead) (.pure _))
    (.map _ (st.lines (all hparts.2.body)))

end Node.Confined

open Node.Confined

/-- **A node fails on certain constructs only**, if its own shape does and all nodes inside do. -/
theorem Node.failsIn_write {S : Construct → Prop} {node : Node}
    (hself : ∀ c, node.Offends c → S c) (h : ∀ part ∈ node.parts, part.node.Confined S)
    (path : TypePath) : FailsIn S (node.write path) := by
  have st : Stable (FailsIn S) := FailsIn.stable
  cases node with
  -- expressions
  | identifier _ => exact .pure _
  | literal literal => exact st.literalCode literal
  | thisExpression => exact .pure _
  | superReference => exact .pure _
  | arrayExpression items =>
    simp [Node.parts] at h
    unfold Node.write
    exact st.append (st.append (.pure _) (st.join _ (elements _ h))) (.pure _)
  | objectExpression properties =>
    simp [Node.parts] at h
    unfold Node.write
    split
    · exact .pure _
    · exact st.append (st.append (.pure _) (st.join _ (all h))) (.pure _)
  | property key computed value kind _ _ =>
    simp [Node.parts, or_imp, forall_and] at h
    obtain ⟨hkey, hvalue⟩ := h
    unfold Node.write
    split
    · refine st.append (st.append ?_ (.pure _)) ?_
      · split
        · exact .pure _
        · exact hkey.write path
      · cases value with
        | none => exact hkey.write path
        | some value => exact (hvalue value rfl).write _
    · exact st.placeholder _ _
  | functionExpression function =>
    unfold Node.write
    exact closure h
  | arrowFunctionExpression _ params body _ _ _ =>
    simp [Node.parts, or_imp, forall_and] at h
    obtain ⟨-, -, hbody⟩ := h
    unfold Node.write
    split
    · rename_i parts hparts
      refine st.closure params (st.lines ?_)
      cases body with
      | blockStatement statements => cases hparts; exact all hbody.body
      | _ => cases hparts
    · exact st.expressionClosure params (hbody.write path)
  | templateLiteral _ =>
    unfold Node.write
    exact template h
  | templateElement _ => exact .pure _
  | memberExpression computed object name =>
    simp [Node.parts, or_imp, forall_and] at h
    obtain ⟨hobject, hname⟩ := h
    have hoperand := st.operand object (hobject.write path)
    unfold Node.write
    split
    · exact st.append (st.append (st.append hoperand (.pure _)) (hname.write path)) (.pure _)
    · exact st.append (st.append hoperand (.pure _)) (hname.write path)
  | callExpression callee arguments | newExpression callee arguments =>
    simp [Node.parts, or_imp, forall_and] at h
    obtain ⟨hcallee, harguments⟩ := h
    unfold Node.write
    exact st.append (st.append (st.append (st.operand callee (hcallee.write path)) (.pure _))
      (st.join _ (all harguments))) (.pure _)
  | updateExpression _ argument _ =>
    simp [Node.parts] at h
    unfold Node.write
    exact st.append (st.append (.pure _) (h.write path)) (.pure _)
  | awaitExpression argument =>
    simp [Node.parts] at h
    unfold Node.write
    exact st.append (.pure _) (st.operand argument (h.write path))
  | unaryExpression _ argument _ =>
    simp [Node.parts] at h
    unfold Node.write
    split
    · exact st.append (st.append (.pure _) (h.write path)) (.pure _)
    · split
      · exact st.append (.pure _) (st.prefixOperand argument (h.write path))
      · exact st.placeholder _ _
  | binaryExpression _ left right | logicalExpression _ left right =>
    simp [Node.parts, or_imp, forall_and] at h
    obtain ⟨hleft, hright⟩ := h
    unfold Node.write
    exact .seq (.map _ (st.operand left (hleft.write path))) (st.operand right (hright.write path))
  | conditionalExpression test consequent alternate =>
    simp [Node.parts, or_imp, forall_and] at h
    obtain ⟨htest, hconsequent, halternate⟩ := h
    unfold Node.write
    exact st.append (st.append (st.append (st.append (st.operand test (htest.write path)) (.pure _))
      (st.operand consequent (hconsequent.write path))) (.pure _))
      (st.operand alternate (halternate.write path))
  | assignmentExpression _ left right =>
    simp [Node.parts, or_imp, forall_and] at h
    obtain ⟨hleft, hright⟩ := h
    unfold Node.write
    exact st.append (st.append (hleft.write path) (.pure _)) (st.operand right (hright.write path))
  -- statements
  | blockStatement _ =>
    simp [Node.parts] at h
    unfold Node.write
    exact .map _ (st.lines (all h))
  | breakStatement _ => exact .pure _
  | continueStatement _ => exact .pure _
  | doWhileStatement body test =>
    simp [Node.parts, or_imp, forall_and] at h
    obtain ⟨hbody, htest⟩ := h
    unfold Node.write
    exact st.append (st.append (st.append (.pure _) (st.bodyBlock body (hbody.write path))) (.pure _))
      (htest.write path)
  | emptyStatement => exact .pure _
  | expressionStatement expression directive =>
    simp [Node.parts] at h
    unfold Node.write
    split
    · exact .pure _
    · exact h.spreadSequence
  | forStatement init test update body =>
    simp [Node.parts, or_imp, forall_and] at h
    obtain ⟨hinit, htest, hupdate, hbody⟩ := h
    unfold Node.write
    refine .seq (.seq (.seq (.map _ ?_) ?_) hbody.spreadBlock) ?_
    · cases test with
      | none => exact .pure _
      | some test => exact (htest test rfl).write path
    · cases update with
      | none => exact .pure _
      | some update => exact (hupdate update rfl).spreadSequence
    · cases init with
      | none => exact .pure _
      | some init => exact .map _ (hinit init rfl).spreadSequence
  | forInStatement left right body _ =>
    simp [Node.parts, or_imp, forall_and] at h
    obtain ⟨-, hright, hbody⟩ := h
    unfold Node.write
    split
    · exact st.append (st.append (st.append (.pure _) (hright.write path)) (.pure _))
        (st.bodyBlock body (hbody.write path))
    · rename_i hnone
      exact .fail (hself .forInBinding (not_declaresName hnone)) _
  | forOfStatement left right body =>
    simp [Node.parts, or_imp, forall_and] at h
    obtain ⟨-, hright, hbody⟩ := h
    unfold Node.write
    split
    · exact st.append (st.append (st.append (.pure _) (hright.write path)) (.pure _))
        (st.bodyBlock body (hbody.write path))
    · rename_i hnone
      exact .fail (hself .forOfBinding (not_declaresName hnone)) _
  | ifStatement test consequent alternate =>
    simp [Node.parts, or_imp, forall_and] at h
    obtain ⟨htest, hconsequent, halternate⟩ := h
    unfold Node.write
    refine st.append (st.append (st.append (st.append (.pure _) (htest.write path)) (.pure _))
      (st.bodyBlock consequent (hconsequent.write path))) ?_
    cases alternate with
    | none => exact .pure _
    | some alternate =>
      exact st.append (.pure _) (st.elseBlock alternate ((halternate alternate rfl).write path))
  | labeledStatement _ body =>
    simp [Node.parts, or_imp, forall_and] at h
    unfold Node.write
    exact st.append (.pure _) (h.2.write path)
  | returnStatement argument =>
    simp [Node.parts] at h
    unfold Node.write
    cases argument with
    | none => exact .pure _
    | some argument => exact st.append (.pure _) ((h argument rfl).write path)
  | switchStatement discriminant cases =>
    simp [Node.parts, or_imp, forall_and] at h
    obtain ⟨hdiscriminant, hcases⟩ := h
    unfold Node.write
    split
    · refine .seq (.map _ (st.join _ (st.orderedCases fun case hm => ?_))) (hdiscriminant.write path)
      rw [writeCases_eq_map] at hm
      obtain ⟨found, hfound, heq⟩ := List.mem_map.1 (List.of_mem_zip hm).2
      rw [← heq]
      exact Confined.switchCase (hcases found hfound).parts
    · exact st.placeholder _ _
  | switchCase _ =>
    unfold Node.write
    exact Confined.switchCase h
  | throwStatement argument =>
    simp [Node.parts] at h
    unfold Node.write
    exact st.append (.pure _) (h.write path)
  | tryStatement block clause? finalizer =>
    simp [Node.parts, or_imp, forall_and] at h
    obtain ⟨hblock, hhandler, hfinalizer⟩ := h
    unfold Node.write
    refine .seq (.seq (.map _ ?_) (st.lines (all hblock.body))) ?_
    · cases finalizer with
      | none => exact .pure _
      | some body => exact .map _ (st.lines (all (hfinalizer body rfl).body))
    · cases clause? with
      | none => exact .pure _
      | some clause =>
        obtain ⟨param, body⟩ := clause
        refine handler (fun other hother hne => ?_) (hhandler _ rfl)
        exact hself .catchParameter ⟨_, other, rfl, hother, hne⟩
  | whileStatement test body =>
    simp [Node.parts, or_imp, forall_and] at h
    obtain ⟨htest, hbody⟩ := h
    unfold Node.write
    exact st.append (st.append (st.append (.pure _) (htest.write path)) (.pure _))
      (st.bodyBlock body (hbody.write path))
  -- declarations
  | program _ body =>
    simp [Node.parts] at h
    unfold Node.write
    exact st.lines (all h)
  | variableDeclaration declarations kind =>
    simp [Node.parts] at h
    unfold Node.write
    refine st.join _ fun draft hm => ?_
    rw [writeDeclarators_eq_map] at hm
    obtain ⟨found, hfound, rfl⟩ := List.mem_map.1 hm
    exact st.append (.pure _) (declarator (h found hfound).parts)
  | variableDeclarator _ =>
    unfold Node.write
    exact declarator h
  | arrayPattern items =>
    simp [Node.parts] at h
    unfold Node.write
    exact st.append (st.append (.pure _) (st.join _ (elements _ h))) (.pure _)
  | assignmentPattern left right =>
    simp [Node.parts, or_imp, forall_and] at h
    obtain ⟨hleft, hright⟩ := h
    unfold Node.write
    exact st.append (st.append (hleft.write path) (.pure _)) (hright.write path)
  | functionDeclaration function =>
    have hparams (param : Node) (hm : param ∈ function.params) (hne : ¬ param.IsParameter) :
        S .functionParameter := hself .functionParameter ⟨param, hm, hne⟩
    unfold Node.write
    split
    · exact st.append (.pure _) (signature h hparams true)
    · rename_i hnone
      exact .fail (hself .functionDeclaration hnone) _
  | classDeclaration definition =>
    obtain ⟨id, superClass, members⟩ := definition
    simp [Node.parts, Class.parts, or_imp, forall_and] at h
    obtain ⟨-, hsuper, hbody⟩ := h
    have hparts := hbody.parts
    simp [Node.parts] at hparts
    unfold Node.write
    cases id with
    | none => exact .fail (hself .classDeclaration rfl) _
    | some id =>
      refine st.append (st.append (st.append (.pure _) ?_) (.pure _))
        (.map _ (st.lines (Confined.members hparts)))
      cases superClass with
      | none => exact .pure _
      | some superClass => exact st.append (.pure _) ((hsuper superClass rfl).write _)
  | classBody _ =>
    simp [Node.parts] at h
    unfold Node.write
    exact .map _ (st.lines (Confined.members h))
  | methodDefinition _ =>
    unfold Node.write
    exact Confined.method hself h
  | exportDefaultDeclaration declaration =>
    simp [Node.parts] at h
    unfold Node.write
    exact h.write path
  | exportNamedDeclaration declaration _ _ =>
    simp [Node.parts, or_imp, forall_and] at h
    unfold Node.write
    cases declaration with
    | none => exact st.placeholder _ _
    | some declaration => exact (h.1 declaration rfl).write path
  -- constructs without a rendering
  | _ => exact st.placeholder _ _

/-! ## Whole trees -/

namespace Node

/-- A node has at most some levels. -/
def Levels (n : Nat) (node : Node) : Prop := node.form.depth ≤ n

/-- The parts of a node have a level less. -/
theorem levels_parts {n : Nat} {node : Node} (h : node.Levels n) :
    ∀ part ∈ node.parts, part.node.Levels (n - 1) := by
  have hpos : 1 ≤ n := Nat.le_trans node.one_le_depth_form h
  cases node with
  | tryStatement block handler finalizer =>
    rw [Levels, Form.depth_tryStatement_le_iff] at h
    simp only [parts, List.forall_mem_append, forall_held_iff]
    simp [Levels, Node.form]
    grind
  | catchClause part | exportSpecifier part | switchCase part | templateLiteral part
  | variableDeclarator part =>
    cases part
    simp only [parts, List.forall_mem_append, forall_held_iff, forall_heldEach_iff,
      forall_child_iff, forall_children_iff]
    simp [Levels, Node.form, CatchClause.form, ExportSpecifier.form, SwitchCase.form, Template.form,
      Declarator.form] at h ⊢
    grind
  | methodDefinition method =>
    obtain ⟨key, computed, value, kind, isStatic⟩ := method
    simp only [parts, List.forall_mem_append, forall_held_iff, forall_child_iff]
    cases value <;> simp [Levels, Node.form, Method.form] at h ⊢ <;> grind
  | functionDeclaration function | functionExpression function =>
    cases function
    simp only [parts, Func.parts, List.forall_mem_append, forall_held_iff, forall_children_iff]
    simp [Levels, Node.form, Func.formFields] at h ⊢
    grind
  | classDeclaration definition | classExpression definition =>
    cases definition
    simp only [parts, Class.parts, List.forall_mem_append, forall_held_iff, forall_child_iff]
    simp [Levels, Node.form, Class.formFields] at h ⊢
    grind
  | debuggerStatement | emptyStatement | identifier _ | importCallee | literal _ | superReference
  | templateElement _ | thisExpression => exact List.forall_mem_nil _
  | _ =>
    simp only [parts, List.forall_mem_append, forall_held_iff, forall_heldEach_iff, forall_child_iff,
      forall_children_iff, forall_among_iff]
    simp [Levels, Node.form, Form.block] at h ⊢
    grind

/-- **Every node inside fails on certain constructs only**, if these are all that shapes inside offend.
The induction is on the levels of the node. -/
theorem confined_of_offends {S : Construct → Prop} (n : Nat) : ∀ node : Node, node.Levels n →
    (node.Everywhere fun inner => ∀ c, inner.Offends c → S c) → node.Confined S := by
  induction n with
  | zero =>
    intro node hn _
    have := node.one_le_depth_form
    rw [Levels] at hn
    omega
  | succ n ih =>
    intro node hn hs
    obtain ⟨hself, hinside⟩ := everywhere_iff.1 hs
    have hparts (part : NodePart) (hp : part ∈ node.parts) : part.node.Confined S :=
      ih part.node (levels_parts hn part hp) (hinside part hp)
    exact everywhere_iff.2 ⟨failsIn_write hself hparts, hparts⟩

/-- **Generation fails only on the shapes of the list.** If none of them occurs in a node, there is a
text on any hints and records. If there is none, the error names a construct of which an offending
shape occurs. -/
theorem generate_error_offends (node : Node) (path : TypePath) (hints records : HintTable) :
    ((∀ inner, node.Contains inner → inner.Expressible) →
      ∃ text, (node.generate path hints records).1 = .ok text) ∧
      ∀ error, (node.generate path hints records).1 = .error error →
        ∃ inner, node.Contains inner ∧ inner.Offends error.construct := by
  have hconfined := confined_of_offends (S := fun c => ∃ inner, node.Contains inner ∧ inner.Offends c)
    node.form.depth node (Nat.le_refl _) fun inner hi c hc => ⟨inner, hi, hc⟩
  have herror : ∀ error, (node.generate path hints records).1 = .error error →
      ∃ inner, node.Contains inner ∧ inner.Offends error.construct := by
    intro error h
    rw [Node.generate_eq] at h
    cases ho : (node.swift path).outcome with
    | error e =>
      simp only [Draft.run, ho] at h
      cases h
      exact hconfined.write path error ho
    | ok f => simp only [Draft.run, ho] at h; cases h
  refine ⟨fun hnone => ?_, herror⟩
  cases h : (node.generate path hints records).1 with
  | ok text => exact ⟨text, rfl⟩
  | error error =>
    obtain ⟨inner, hi, hc⟩ := herror error h
    exact absurd hc (hnone inner hi _)

/-- A loop over the values of `xs` that binds one name. -/
def loop : Node :=
  .forOfStatement (.variableDeclaration [⟨.identifier ⟨"x"⟩, none⟩] .constant) (.identifier ⟨"xs"⟩)
    (.blockStatement [])

/-- A class with a method that takes an object apart. -/
def classWithPattern : Node :=
  .classDeclaration ⟨some ⟨"C"⟩, none,
    [⟨some (.identifier ⟨"m"⟩), false, some ⟨none, [.objectPattern []], [], false, false, false⟩,
      .method, false⟩]⟩

theorem generate_error_offends_examples :
    (∀ inner, loop.Contains inner → inner.Expressible) ∧
      (∃ text, (loop.generate [] .empty .empty).1 = .ok text) ∧
      (classWithPattern.generate [] .empty .empty).1 =
        .error ⟨.functionParameter, "ObjectPattern in [C, m]"⟩ ∧
      ∃ inner, classWithPattern.Contains inner ∧ inner.Offends .functionParameter := by
  have hname (name : String) : (Node.identifier ⟨name⟩).Everywhere Expressible :=
    everywhere_iff.2 ⟨fun _ h => h, nofun⟩
  have hvariable : (Node.variableDeclarator ⟨.identifier ⟨"x"⟩, none⟩).Everywhere Expressible :=
    everywhere_iff.2 ⟨fun _ h => h, by simpa [parts, or_imp, forall_and] using hname "x"⟩
  have hdeclaration : (Node.variableDeclaration [⟨.identifier ⟨"x"⟩, none⟩] .constant).Everywhere
      Expressible := everywhere_iff.2 ⟨fun _ h => h, by simpa [parts] using hvariable⟩
  have hbody : (Node.blockStatement []).Everywhere Expressible :=
    everywhere_iff.2 ⟨fun _ h => h, by simp [parts]⟩
  have hloop : loop.Everywhere Expressible := by
    refine everywhere_iff.2 ⟨fun construct h => ?_, ?_⟩
    · cases construct with
      | forOfBinding => exact h ⟨_, _, _, rfl⟩
      | _ => exact h
    · simpa [loop, parts, or_imp, forall_and] using ⟨hdeclaration, hname "xs", hbody⟩
  have herror : (classWithPattern.generate [] .empty .empty).1 =
      .error ⟨.functionParameter, "ObjectPattern in [C, m]"⟩ := by
    rfl
  exact ⟨hloop, (generate_error_offends loop [] .empty .empty).1 hloop, herror,
    (generate_error_offends classWithPattern [] .empty .empty).2 _ herror⟩

end Node

end SwiftScribe
