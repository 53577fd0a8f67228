import SwiftScribe.Proofs.Nesting
import SwiftScribe.Proofs.Stable
import SwiftScribe.Proofs.Trace

/-!
# How long the paths of a generation are

A path gets a name longer only where generation goes at least one level down in the syntax tree. So
the nesting of a tree pays for the paths that are asked for.

* `Reach.stable`, `Reach.signature`: paths stay below a length through every way in which generation
  puts drafts together.
* `Node.reach_write`: **a path goes on from the path of a node by fewer names than the node has
  levels**, and one more at most.
* `Source.length_asked`: no path of a named source is longer than its syntax tree is deep.
-/

namespace SwiftScribe

namespace Swift

variable {α β : Type}

/-- **A draft asks for paths below some length only.** -/
def Reach (n : Nat) (draft : Draft α) : Prop := ∀ asked ∈ draft.paths, asked.length < n

namespace Reach

variable {n : Nat}

theorem pure (value : α) : Reach n (pure value) := fun _ h => absurd h List.not_mem_nil

theorem fail (construct : Construct) (detail : String) :
    Reach n (Scribe.fail construct detail : Draft α) := fun _ h => absurd h List.not_mem_nil

theorem placeholder (kind : String) (form : Form) : Reach n (Swift.placeholder kind form) :=
  fun _ h => absurd h List.not_mem_nil

theorem resolve {asked : TypePath} (h : asked.length < n) : Reach n (Scribe.resolve asked) := by
  intro other hother
  rw [List.mem_singleton.1 hother]
  exact h

theorem map (g : α → β) {draft : Draft α} (h : Reach n draft) : Reach n (g <$> draft) := h

theorem seq {first : Draft (α → β)} {second : Draft α} (hf : Reach n first) (hs : Reach n second) :
    Reach n (first <*> second) := Asks.seq hf hs

/-- What all pieces are made of keeps below a length, and so do they. -/
theorem stable : Stable (Reach n) := Asks.stable _

theorem append {first second : Draft String} (hf : Reach n first) (hs : Reach n second) :
    Reach n (first ++ second) := stable.append hf hs

theorem join (separator : String) {drafts : List (Draft String)}
    (h : ∀ draft ∈ drafts, Reach n draft) : Reach n (Scribe.join separator drafts) :=
  stable.join separator h

theorem lines {drafts : List (Draft String)} (h : ∀ draft ∈ drafts, Reach n draft) :
    Reach n (Scribe.lines drafts) := stable.lines h

/-! ## Pieces -/

section Pieces

variable {draft : Draft String}

theorem bodyBlock (body : Node) (h : Reach n draft) : Reach n (Swift.bodyBlock body draft) :=
  stable.bodyBlock body h

theorem elseBlock (alternate : Node) (h : Reach n draft) :
    Reach n (Swift.elseBlock alternate draft) := stable.elseBlock alternate h

theorem spreadOut {parts : Option (List (Draft String))}
    (hp : ∀ drafts ∈ parts, ∀ draft ∈ drafts, Reach n draft) (h : Reach n draft) :
    Reach n (Swift.spreadOut parts draft) := stable.spreadOut hp h

theorem operand (node : Node) (h : Reach n draft) : Reach n (Swift.operand node draft) :=
  stable.operand node h

theorem prefixOperand (node : Node) (h : Reach n draft) :
    Reach n (Swift.prefixOperand node draft) := stable.prefixOperand node h

theorem closure (params : List Node) (h : Reach n draft) : Reach n (Swift.closure params draft) :=
  stable.closure params h

theorem expressionClosure (params : List Node) (h : Reach n draft) :
    Reach n (Swift.expressionClosure params draft) := stable.expressionClosure params h

end Pieces

theorem catchHead (param : Option Node) : Reach n (Swift.catchHead param) := by
  unfold Swift.catchHead
  split
  · exact pure _
  · exact pure _
  · exact fail _ _

theorem literalCode (literal : Literal) : Reach n (Swift.literalCode literal) :=
  stable.literalCode literal

theorem templateBody (quasis : List TemplateElement) {drafts : List (Draft String)}
    (h : ∀ draft ∈ drafts, Reach n draft) : Reach n (Swift.templateBody quasis drafts) :=
  stable.templateBody quasis h

theorem orderedCases {cases : List (SwitchCase × Draft String)}
    (h : ∀ case ∈ cases, Reach n case.2) : ∀ draft ∈ Swift.orderedCases cases, Reach n draft :=
  stable.orderedCases h

variable {path : TypePath}

theorem typedParameter (id : Identifier) (h : path.length + 1 < n) :
    Reach n (Swift.typedParameter path id) := by
  refine stable.typedParameter id (resolve ?_)
  simpa [TypePath.descend] using h

theorem badParameter (shape : Node) : Reach n (Swift.badParameter path shape) := fail _ _

theorem memberHead (isStatic : Bool) (h : path.length + 1 < n) :
    Reach n (Swift.memberHead path isStatic) := by
  refine stable.memberHead isStatic (resolve ?_)
  simpa [TypePath.modifier, TypePath.descend] using h

theorem signature {params : List (Draft String)} (body : List Node) (isAsync returns : Bool)
    {code : Draft String} (h : path.length + 1 < n) (hp : ∀ draft ∈ params, Reach n draft)
    (hc : Reach n code) : Reach n (Swift.signature path params body isAsync returns code) := by
  refine stable.signature body isAsync returns (resolve ?_) (resolve ?_) hp hc
  · simpa [TypePath.generic, TypePath.descend] using h
  · simpa [TypePath.returned, TypePath.descend] using h

end Reach

end Swift

open Swift

/-! ## Generation of lists -/

section Lists

variable {m : Type → Type} [Scribe m] (path : TypePath)

theorem writeAll_eq_map (nodes : List Node) :
    (writeAll path nodes : List (m String)) = nodes.map fun node => node.write path := by
  induction nodes with
  | nil => rfl
  | cons node rest ih => rw [writeAll, ih, List.map_cons]

theorem writeElements_eq_map (hole : String) (elements : List (Option Node)) :
    (writeElements path hole elements : List (m String)) =
      elements.map fun
        | none => pure hole
        | some node => node.write path := by
  induction elements with
  | nil => rfl
  | cons element rest ih => cases element <;> rw [writeElements, ih, List.map_cons]

theorem writeDeclarators_eq_map (keyword : String) (declarators : List Declarator) :
    (writeDeclarators path keyword declarators : List (m String)) =
      declarators.map fun declarator => pure (keyword ++ " ") ++ declarator.write path := by
  induction declarators with
  | nil => rfl
  | cons declarator rest ih => rw [writeDeclarators, ih, List.map_cons]

theorem writeParameters_eq_map (params : List Node) :
    (writeParameters path params : List (m String)) =
      params.map fun param => param.writeParameter path := by
  induction params with
  | nil => rfl
  | cons param rest ih => rw [writeParameters, ih, List.map_cons]

theorem writeMembers_eq_map (members : List Method) :
    (writeMembers path members : List (m String)) =
      members.map fun member => member.write path := by
  induction members with
  | nil => rfl
  | cons member rest ih => rw [writeMembers, ih, List.map_cons]

theorem writeCases_eq_map (cases : List SwitchCase) :
    (writeCases path cases : List (m String)) = cases.map fun case => case.write path := by
  induction cases with
  | nil => rfl
  | cons case rest ih => rw [writeCases, ih, List.map_cons]

end Lists

/-! ## Nodes -/

/-- A node is at least one level deep. -/
theorem Node.one_le_depth_form (node : Node) : 1 ≤ node.form.depth := by
  have hrecord (name : String) (fields : List (String × Form)) :
      1 ≤ (Form.record name fields).depth := by
    rw [Form.depth]
    omega
  cases node with
  | catchClause clause => cases clause; exact hrecord _ _
  | methodDefinition method =>
    obtain ⟨key, computed, value, kind, isStatic⟩ := method
    cases value <;> exact hrecord _ _
  | switchCase case => cases case; exact hrecord _ _
  | templateLiteral template => cases template; exact hrecord _ _
  | variableDeclarator declarator => cases declarator; exact hrecord _ _
  | tryStatement block handler finalizer =>
    cases handler <;> cases finalizer <;> exact hrecord _ _
  | _ => exact hrecord _ _

theorem two_le_depth_formFields (function : Func) : 2 ≤ Form.depthFields function.formFields := by
  obtain ⟨id, params, body, generator, isAsync, expression⟩ := function
  simp only [Func.formFields, Form.block, Form.depthFields, Form.depth]
  omega

/-- Nodes of less than some depth keep below a length where the depth and the path allow for it. -/
def ReachBelow (n limit : Nat) : Prop :=
  ∀ depth < limit, ∀ (node : Node) (path : TypePath), node.form.depth ≤ depth →
    path.length + depth ≤ n → Reach n (node.write path)

namespace ReachBelow

variable {n limit depth : Nat} {path : TypePath}

/-! ### Lists -/

theorem all (h : ReachBelow n limit) (hl : depth < limit) (hn : path.length + depth ≤ n)
    {nodes : List Node} (hd : ∀ node ∈ nodes, node.form.depth ≤ depth) :
    ∀ draft ∈ writeAll path nodes, Reach n draft := by
  intro draft hm
  rw [writeAll_eq_map] at hm
  obtain ⟨node, hnode, rfl⟩ := List.mem_map.1 hm
  exact h depth hl node path (hd node hnode) hn

theorem elements (h : ReachBelow n limit) (hl : depth < limit) (hn : path.length + depth ≤ n)
    (hole : String) {elements : List (Option Node)}
    (hd : ∀ node? ∈ elements, ∀ node ∈ node?, node.form.depth ≤ depth) :
    ∀ draft ∈ writeElements path hole elements, Reach n draft := by
  intro draft hm
  rw [writeElements_eq_map] at hm
  obtain ⟨element, helement, rfl⟩ := List.mem_map.1 hm
  cases element with
  | none => exact .pure _
  | some node => exact h depth hl node path (hd _ helement node rfl) hn

/-- The statements of a block, two levels down. -/
theorem block (h : ReachBelow n limit) (hl : depth ≤ limit) (hn : path.length + depth ≤ n)
    {body : List Node} (hd : (Form.block (formAll body)).depth ≤ depth) :
    ∀ draft ∈ writeAll path body, Reach n draft := by
  simp [Form.block] at hd
  exact h.all (by omega) (by omega) hd.2.2

theorem blockParts (h : ReachBelow n limit) (hl : depth ≤ limit) (hn : path.length + depth ≤ n)
    {node : Node} (hd : node.form.depth ≤ depth) :
    ∀ drafts ∈ (node.blockParts? path : Option (List (Draft String))),
      ∀ draft ∈ drafts, Reach n draft := by
  intro drafts hdrafts
  cases node with
  | blockStatement body => cases hdrafts; exact h.block hl hn hd
  | _ => cases hdrafts

theorem sequenceParts (h : ReachBelow n limit) (hl : depth ≤ limit) (hn : path.length + depth ≤ n)
    {node : Node} (hd : node.form.depth ≤ depth) :
    ∀ drafts ∈ (node.sequenceParts? path : Option (List (Draft String))),
      ∀ draft ∈ drafts, Reach n draft := by
  intro drafts hdrafts
  cases node with
  | sequenceExpression expressions =>
    cases hdrafts
    simp [Node.form] at hd
    exact h.all (by omega) (by omega) hd.2.2
  | _ => cases hdrafts

/-! ### Records -/

/-- A parameter is asked for one name further, and its default is rendered there. -/
theorem parameter (h : ReachBelow n limit) (hl : depth ≤ limit) (hn : path.length + depth < n)
    {param : Node} (hd : param.form.depth ≤ depth) : Reach n (param.writeParameter path) := by
  have hone := param.one_le_depth_form
  cases param with
  | identifier id => exact .typedParameter id (by omega)
  | assignmentPattern left right =>
    cases left with
    | identifier id =>
      simp [Node.form] at hd
      refine .append (.append (.typedParameter id (by omega)) (.pure _)) ?_
      refine h (depth - 1) (by omega) right _ hd.2.2 ?_
      simp only [TypePath.descend, List.length_append, List.length_singleton]
      omega
    | _ => exact .badParameter _
  | restElement argument =>
    cases argument with
    | identifier id => exact .append (.typedParameter id (by omega)) (.pure _)
    | _ => exact .badParameter _
  | _ => exact .badParameter _

theorem signature (h : ReachBelow n limit) (hl : depth ≤ limit) (hn : path.length + depth ≤ n)
    {function : Func} (hd : Form.depthFields function.formFields ≤ depth) (returns : Bool) :
    Reach n (function.writeSignature path returns) := by
  obtain ⟨id, params, body, generator, isAsync, expression⟩ := function
  simp [Func.formFields, Form.block] at hd
  obtain ⟨-, ⟨hlist, hparams⟩, hrecord, hblock, hbody⟩ := hd
  unfold Func.writeSignature
  refine .signature body isAsync returns (by omega) (fun draft hm => ?_) (.map _ (.lines ?_))
  · rw [writeParameters_eq_map] at hm
    obtain ⟨param, hparam, rfl⟩ := List.mem_map.1 hm
    exact h.parameter (by omega) (by omega) (hparams param hparam)
  · exact h.all (by omega) (by omega) hbody

theorem closure (h : ReachBelow n limit) (hl : depth ≤ limit) (hn : path.length + depth ≤ n)
    {function : Func} (hd : Form.depthFields function.formFields ≤ depth) :
    Reach n (function.writeClosure path) := by
  obtain ⟨id, params, body, generator, isAsync, expression⟩ := function
  simp [Func.formFields, Form.block] at hd
  obtain ⟨-, -, hrecord, hblock, hbody⟩ := hd
  unfold Func.writeClosure
  refine .closure params (.lines (h.all (by omega) ?_ hbody))
  cases id with
  | none => simp only; omega
  | some id => simp only [TypePath.descend, List.length_append, List.length_singleton]; omega

theorem member (h : ReachBelow n limit) (hl : depth ≤ limit) (hn : path.length + depth ≤ n)
    {method : Method} (hd : method.form.depth ≤ depth) : Reach n (method.write path) := by
  obtain ⟨key, computed, value, kind, isStatic⟩ := method
  cases key with
  | none => exact .fail _ _
  | some key =>
    cases value with
    | none => exact .fail _ _
    | some function =>
      simp [Method.form] at hd
      obtain ⟨-, -, hvalue, hfields⟩ := hd
      have hlong := two_le_depth_formFields function
      have hdescend (name : String) : Reach n (memberHead (path.descend name) isStatic) ∧
          ∀ returns, Reach n (function.writeSignature (path.descend name) returns) := by
        have hlength : (path.descend name).length = path.length + 1 := by simp [TypePath.descend]
        exact ⟨.memberHead isStatic (by omega), h.signature (by omega) (by omega) hfields⟩
      unfold Method.write
      split
      · obtain ⟨hhead, hsignature⟩ := hdescend "init"
        exact .append (.append hhead (.pure _)) (hsignature false)
      · split
        · rename_i name _
          obtain ⟨hhead, hsignature⟩ := hdescend name
          exact .append (.append hhead (.pure _)) (hsignature true)
        · exact .placeholder _ _
      · exact .placeholder _ _

theorem members (h : ReachBelow n limit) (hl : depth ≤ limit) (hn : path.length + depth ≤ n)
    {members : List Method} (hd : ∀ member ∈ members, member.form.depth ≤ depth) :
    ∀ draft ∈ writeMembers path members, Reach n draft := by
  intro draft hm
  rw [writeMembers_eq_map] at hm
  obtain ⟨member, hmember, rfl⟩ := List.mem_map.1 hm
  exact h.member hl hn (hd member hmember)

theorem declarator (h : ReachBelow n limit) (hl : depth ≤ limit) (hn : path.length + depth ≤ n)
    {declarator : Declarator} (hd : declarator.form.depth ≤ depth) :
    Reach n (declarator.write path) := by
  obtain ⟨id, init⟩ := declarator
  simp [Declarator.form] at hd
  obtain ⟨hdepth, hid, hinit⟩ := hd
  have hone := id.one_le_depth_form
  unfold Declarator.write
  split
  · rename_i name
    have hlength : (path.descend name.name).length = path.length + 1 := by simp [TypePath.descend]
    refine .seq (.map _ (.resolve (by omega))) ?_
    cases init with
    | none => exact .pure _
    | some init => exact .map _ (h (depth - 1) (by omega) init _ (hinit init rfl) (by omega))
  · refine .append (h (depth - 1) (by omega) id path hid (by omega)) ?_
    cases init with
    | none => exact .pure _
    | some init =>
      exact .append (.pure _) (h (depth - 1) (by omega) init path (hinit init rfl) (by omega))

theorem switchCase (h : ReachBelow n limit) (hl : depth ≤ limit) (hn : path.length + depth ≤ n)
    {case : SwitchCase} (hd : case.form.depth ≤ depth) : Reach n (case.write path) := by
  obtain ⟨test, consequent⟩ := case
  simp [SwitchCase.form] at hd
  obtain ⟨hdepth, htest, hlist, hconsequent⟩ := hd
  unfold SwitchCase.write
  refine .seq (.map _ (.lines (h.all (by omega) (by omega) hconsequent))) ?_
  cases test with
  | none => exact .pure _
  | some test => exact .map _ (h (depth - 1) (by omega) test path (htest test rfl) (by omega))

theorem template (h : ReachBelow n limit) (hl : depth ≤ limit) (hn : path.length + depth ≤ n)
    {template : Template} (hd : template.form.depth ≤ depth) : Reach n (template.write path) := by
  obtain ⟨quasis, expressions⟩ := template
  simp [Template.form] at hd
  obtain ⟨hdepth, -, hlist, hexpressions⟩ := hd
  unfold Template.write
  exact .map _ (.templateBody quasis (h.all (by omega) (by omega) hexpressions))

/-! ### One level -/

/-- **Nodes of some depth keep below a length if those of less depth do.** -/
theorem node (h : ReachBelow n depth) (hn : path.length + depth ≤ n) {node : Node}
    (hd : node.form.depth ≤ depth) : Reach n (node.write path) := by
  have hpos : 1 ≤ depth := Nat.le_trans node.one_le_depth_form hd
  have here (child : Node) (hc : child.form.depth ≤ depth - 1) : Reach n (child.write path) :=
    h (depth - 1) (by omega) child path hc (by omega)
  have hdescend (name : String) : (path.descend name).length = path.length + 1 := by
    simp [TypePath.descend]
  have hall (body : List Node) (hb : ∀ node ∈ body, node.form.depth ≤ depth - 1 - 1) :
      ∀ draft ∈ writeAll path body, Reach n draft := h.all (by omega) (by omega) hb
  have hsequence (child : Node) (hc : child.form.depth ≤ depth - 1) :
      Reach n (spreadOut (child.sequenceParts? path) (child.write path)) :=
    .spreadOut (h.sequenceParts (by omega) (by omega) hc) (here child hc)
  have hblock (child : Node) (hc : child.form.depth ≤ depth - 1) :
      Reach n (spreadOut (child.blockParts? path) (child.write path)) :=
    .spreadOut (h.blockParts (by omega) (by omega) hc) (here child hc)
  cases node with
  -- expressions
  | identifier _ => exact .pure _
  | literal literal => exact .literalCode literal
  | thisExpression => exact .pure _
  | superReference => exact .pure _
  | arrayExpression elements =>
    simp [Node.form] at hd
    unfold Node.write
    exact .append (.append (.pure _) (.join _ (h.elements (by omega) (by omega) _ hd.2.2)))
      (.pure _)
  | objectExpression properties =>
    simp [Node.form] at hd
    unfold Node.write
    split
    · exact .pure _
    · exact .append (.append (.pure _) (.join _ (hall properties hd.2.2))) (.pure _)
  | property key computed value kind _ _ =>
    simp [Node.form] at hd
    obtain ⟨-, hkey, hvalue⟩ := hd
    unfold Node.write
    split
    · refine .append (.append ?_ (.pure _)) ?_
      · split
        · exact .pure _
        · exact here key hkey
      · cases value with
        | none => exact here key hkey
        | some value =>
          refine h (depth - 1) (by omega) value _ (hvalue value rfl) ?_
          -- a plain key adds a name, and stands one level down
          have hunder : (underKey path key).length ≤ path.length + 1 := by
            unfold underKey
            split
            · exact Nat.le_of_eq (hdescend _)
            · omega
          cases computed <;> simp only [Bool.false_eq_true, if_true, if_false] <;> omega
    · exact .placeholder _ _
  | functionExpression function =>
    simp [Node.form] at hd
    unfold Node.write
    exact h.closure (by omega) (by omega) hd.2
  | arrowFunctionExpression _ params body _ _ _ =>
    simp [Node.form] at hd
    obtain ⟨-, -, -, hbody⟩ := hd
    unfold Node.write
    split
    · rename_i parts hp
      exact .closure params (.lines (h.blockParts (by omega) (by omega) hbody parts hp))
    · exact .expressionClosure params (here body hbody)
  | templateLiteral template =>
    unfold Node.write
    exact h.template (Nat.le_refl _) hn hd
  | templateElement _ => exact .pure _
  | memberExpression computed object property =>
    simp [Node.form] at hd
    obtain ⟨-, hobject, hproperty⟩ := hd
    unfold Node.write
    split
    · exact .append (.append (.append (.operand object (here object hobject)) (.pure _))
        (here property hproperty)) (.pure _)
    · exact .append (.append (.operand object (here object hobject)) (.pure _))
        (here property hproperty)
  | callExpression callee arguments | newExpression callee arguments =>
    simp [Node.form] at hd
    obtain ⟨-, hcallee, -, harguments⟩ := hd
    unfold Node.write
    exact .append (.append (.append (.operand callee (here callee hcallee)) (.pure _))
      (.join _ (hall arguments harguments))) (.pure _)
  | updateExpression _ argument _ =>
    simp [Node.form] at hd
    unfold Node.write
    exact .append (.append (.pure _) (here argument hd.2)) (.pure _)
  | awaitExpression argument =>
    simp [Node.form] at hd
    unfold Node.write
    exact .append (.pure _) (.operand argument (here argument hd.2))
  | unaryExpression _ argument _ =>
    simp [Node.form] at hd
    unfold Node.write
    split
    · exact .append (.append (.pure _) (here argument hd.2)) (.pure _)
    · split
      · exact .append (.pure _) (.prefixOperand argument (here argument hd.2))
      · exact .placeholder _ _
  | binaryExpression _ left right | logicalExpression _ left right =>
    simp [Node.form] at hd
    obtain ⟨-, hleft, hright⟩ := hd
    unfold Node.write
    exact .seq (.map _ (.operand left (here left hleft))) (.operand right (here right hright))
  | conditionalExpression test consequent alternate =>
    simp [Node.form] at hd
    obtain ⟨-, htest, hconsequent, halternate⟩ := hd
    unfold Node.write
    exact .append (.append (.append (.append (.operand test (here test htest)) (.pure _))
      (.operand consequent (here consequent hconsequent))) (.pure _))
      (.operand alternate (here alternate halternate))
  | assignmentExpression _ left right =>
    simp [Node.form] at hd
    obtain ⟨-, hleft, hright⟩ := hd
    unfold Node.write
    exact .append (.append (here left hleft) (.pure _)) (.operand right (here right hright))
  -- statements
  | blockStatement body =>
    unfold Node.write
    exact .map _ (.lines (h.block (Nat.le_refl _) hn hd))
  | breakStatement _ => exact .pure _
  | continueStatement _ => exact .pure _
  | doWhileStatement body test =>
    simp [Node.form] at hd
    obtain ⟨-, hbody, htest⟩ := hd
    unfold Node.write
    exact .append (.append (.append (.pure _) (.bodyBlock body (here body hbody))) (.pure _))
      (here test htest)
  | emptyStatement => exact .pure _
  | expressionStatement expression directive =>
    simp [Node.form] at hd
    unfold Node.write
    split
    · exact .pure _
    · exact hsequence expression hd.2
  | forStatement init test update body =>
    simp [Node.form] at hd
    obtain ⟨-, hinit, htest, hupdate, hbody⟩ := hd
    unfold Node.write
    refine .seq (.seq (.seq (.map _ ?_) ?_) (hblock body hbody)) ?_
    · cases test with
      | none => exact .pure _
      | some test => exact here test (htest test rfl)
    · cases update with
      | none => exact .pure _
      | some update => exact hsequence update (hupdate update rfl)
    · cases init with
      | none => exact .pure _
      | some init => exact .map _ (hsequence init (hinit init rfl))
  | forInStatement left right body _ =>
    simp [Node.form] at hd
    obtain ⟨-, -, hright, hbody⟩ := hd
    unfold Node.write
    split
    · exact .append (.append (.append (.pure _) (here right hright)) (.pure _))
        (.bodyBlock body (here body hbody))
    · exact .fail _ _
  | forOfStatement left right body =>
    simp [Node.form] at hd
    obtain ⟨-, -, hright, hbody⟩ := hd
    unfold Node.write
    split
    · exact .append (.append (.append (.pure _) (here right hright)) (.pure _))
        (.bodyBlock body (here body hbody))
    · exact .fail _ _
  | ifStatement test consequent alternate =>
    simp [Node.form] at hd
    obtain ⟨-, htest, hconsequent, halternate⟩ := hd
    unfold Node.write
    refine .append (.append (.append (.append (.pure _) (here test htest)) (.pure _))
      (.bodyBlock consequent (here consequent hconsequent))) ?_
    cases alternate with
    | none => exact .pure _
    | some alternate =>
      exact .append (.pure _) (.elseBlock alternate (here alternate (halternate alternate rfl)))
  | labeledStatement _ body =>
    simp [Node.form] at hd
    unfold Node.write
    exact .append (.pure _) (here body hd.2.2)
  | returnStatement argument =>
    simp [Node.form] at hd
    unfold Node.write
    cases argument with
    | none => exact .pure _
    | some argument => exact .append (.pure _) (here argument (hd.2 argument rfl))
  | switchStatement discriminant cases =>
    simp [Node.form] at hd
    obtain ⟨-, hdiscriminant, -, hcases⟩ := hd
    unfold Node.write
    split
    · refine .seq (.map _ (.join _ (.orderedCases fun case hm => ?_)))
        (here discriminant hdiscriminant)
      rw [writeCases_eq_map] at hm
      obtain ⟨found, hfound, heq⟩ := List.mem_map.1 (List.of_mem_zip hm).2
      rw [← heq]
      exact h.switchCase (by omega) (by omega) (hcases found hfound)
    · exact .placeholder _ _
  | switchCase case =>
    unfold Node.write
    exact h.switchCase (Nat.le_refl _) hn hd
  | throwStatement argument =>
    simp [Node.form] at hd
    unfold Node.write
    exact .append (.pure _) (here argument hd.2)
  | tryStatement block handler finalizer =>
    obtain ⟨-, hblock, hhandler, hfinalizer⟩ := Form.depth_tryStatement_le_iff.1 hd
    unfold Node.write
    refine .seq (.seq (.map _ ?_) (.lines (h.block (by omega) (by omega) hblock))) ?_
    · cases finalizer with
      | none => exact .pure _
      | some body => exact .map _ (.lines (h.block (by omega) (by omega) (hfinalizer body rfl)))
    · cases handler with
      | none => exact .pure _
      | some clause =>
        obtain ⟨param, body⟩ := clause
        have hclause := hhandler _ rfl
        simp [CatchClause.form] at hclause
        exact .append (.append (.append (.pure _) (.catchHead param)) (.pure _))
          (.map _ (.lines (h.block (by omega) (by omega) hclause.2.2)))
  | whileStatement test body =>
    simp [Node.form] at hd
    obtain ⟨-, htest, hbody⟩ := hd
    unfold Node.write
    exact .append (.append (.append (.pure _) (here test htest)) (.pure _))
      (.bodyBlock body (here body hbody))
  -- declarations
  | program _ body =>
    simp [Node.form] at hd
    unfold Node.write
    exact .lines (hall body hd.2.2)
  | variableDeclaration declarations kind =>
    simp [Node.form] at hd
    obtain ⟨-, -, hdeclarations⟩ := hd
    unfold Node.write
    refine .join _ fun draft hm => ?_
    rw [writeDeclarators_eq_map] at hm
    obtain ⟨declarator, hdeclarator, rfl⟩ := List.mem_map.1 hm
    exact .append (.pure _)
      (h.declarator (by omega) (by omega) (hdeclarations declarator hdeclarator))
  | variableDeclarator declarator =>
    unfold Node.write
    exact h.declarator (Nat.le_refl _) hn hd
  | arrayPattern elements =>
    simp [Node.form] at hd
    unfold Node.write
    exact .append (.append (.pure _) (.join _ (h.elements (by omega) (by omega) _ hd.2.2)))
      (.pure _)
  | assignmentPattern left right =>
    simp [Node.form] at hd
    obtain ⟨-, hleft, hright⟩ := hd
    unfold Node.write
    exact .append (.append (here left hleft) (.pure _)) (here right hright)
  | functionDeclaration function =>
    simp [Node.form] at hd
    unfold Node.write
    split
    · rename_i id _
      have := hdescend id.name
      exact .append (.pure _) (h.signature (by omega) (by omega) hd.2 true)
    · exact .fail _ _
  | classDeclaration definition =>
    obtain ⟨id, superClass, members⟩ := definition
    simp [Node.form, Class.formFields] at hd
    obtain ⟨-, -, hsuper, -, -, hmembers⟩ := hd
    unfold Node.write
    cases id with
    | none => exact .fail _ _
    | some id =>
      have := hdescend id.name
      refine .append (.append (.append (.pure _) ?_) (.pure _))
        (.map _ (.lines (h.members (by omega) (by omega) hmembers)))
      cases superClass with
      | none => exact .pure _
      | some superClass =>
        exact .append (.pure _)
          (h (depth - 1) (by omega) superClass _ (hsuper superClass rfl) (by omega))
  | classBody members =>
    simp [Node.form] at hd
    unfold Node.write
    exact .map _ (.lines (h.members (by omega) (by omega) hd.2.2))
  | methodDefinition method =>
    unfold Node.write
    exact h.member (Nat.le_refl _) hn hd
  | exportDefaultDeclaration declaration =>
    simp [Node.form] at hd
    unfold Node.write
    exact here declaration hd.2
  | exportNamedDeclaration declaration _ _ =>
    simp [Node.form] at hd
    unfold Node.write
    cases declaration with
    | none => exact .placeholder _ _
    | some declaration => exact here declaration (hd.2.1 declaration rfl)
  -- constructs without a rendering
  | _ => exact .placeholder _ _

end ReachBelow

/-- **A path goes on from the path of a node by at most as many names as the node has levels.** -/
theorem Node.reach_write {n : Nat} (depth : Nat) (node : Node) (path : TypePath)
    (hd : node.form.depth ≤ depth) (hn : path.length + depth ≤ n) : Reach n (node.write path) := by
  induction depth using Nat.strongRecOn generalizing node path with
  | ind depth ih => exact ReachBelow.node ih hn hd

/-- **No path of a named source is longer than its syntax tree is deep.** -/
theorem Source.length_asked {source : Source} {asked : TypePath} (h : asked ∈ source.asked) :
    asked.length < source.path.length + source.ast.depth := by
  unfold Source.asked Source.draft at h
  cases hd : Node.decodeDiagnosed source.ast with
  | error e =>
    rw [hd] at h
    cases h
  | ok node =>
    rw [hd] at h
    have hdecode : Node.decode source.ast = .ok node := by
      unfold Node.decodeDiagnosed at hd
      cases hn : Node.decode source.ast with
      | error e => rw [hn] at hd; cases hd
      | ok found => rw [hn] at hd; cases hd; rfl
    exact Node.reach_write _ node source.path (Node.depth_form_le hdecode) (Nat.le_refl _) asked h

end SwiftScribe
