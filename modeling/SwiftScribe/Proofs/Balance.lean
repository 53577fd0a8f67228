import SwiftScribe.Proofs.Neutral

/-!
# Generated text is balanced

The text of a syntax tree leaves everything open as it is, if the words that are copied from the
tree, the hints and the path do.

* `Node.Tame`: the trees whose names, numbers and operators can be copied.
* `Node.neutral_write`: **the text of a tame tree is neutral**, by recursion on the tree.
* `Node.generate_balanced`: hence a lexer ends outside of all brackets, literals and comments.
-/

namespace SwiftScribe

open Swift

/-! ## Tame trees -/

/-- **The operators of the source.** -/
def operators : List String :=
  ["=", "+=", "-=", "*=", "/=", "%=", "**=", "<<=", ">>=", ">>>=", "&=", "|=", "^=", "&&=", "||=",
   "??=", "==", "!=", "===", "!==", "<", "<=", ">", ">=", "<<", ">>", ">>>", "+", "-", "*", "/",
   "%", "**", "&", "|", "^", "~", "!", "&&", "||", "??", "++", "--", "?", ":", "?.", "=>", ",",
   "...", "in", "instanceof", "typeof", "void", "delete", "new", "await", "yield"]

theorem clean_of_mem_operators {operator : String} (h : operator ∈ operators) : Clean operator := by
  have hclean : ∀ operator ∈ operators, Clean operator := by decide
  exact hclean operator h

/-- **The words of a record are words of both languages:** a name and the text of a number are
plain, an operator is one of the source, and no statement is a directive. The texts of strings,
templates and regular expressions may be any. -/
def Form.Tame : Form → Prop
  | .record name fields =>
    (name = "Identifier" → ∀ text, ("name", .text text) ∈ fields → Plain text) ∧
    (name = "Literal" → ("regex", .absent) ∈ fields →
      (∀ text, ("value", .scalar (.str text)) ∉ fields) →
        ∀ raw, ("raw", .text raw) ∈ fields → Plain raw) ∧
    (∀ operator, ("operator", .text operator) ∈ fields → operator ∈ operators) ∧
    (name = "ExpressionStatement" → ("directive", .absent) ∈ fields)
  | _ => True

/-- **A tree whose words are words of both languages**, down to every leaf. -/
def Node.Tame (node : Node) : Prop := node.form.Every Form.Tame

section Words

@[simp] theorem Form.tame_text (value : String) : Form.Tame (.text value) := trivial

@[simp] theorem Form.tame_flag (value : Bool) : Form.Tame (.flag value) := trivial

@[simp] theorem Form.tame_scalar (value : Scalar) : Form.Tame (.scalar value) := trivial

@[simp] theorem Form.tame_ofWord {α : Type} [Word α] (word : α) :
    Form.Tame (.ofWord word) := trivial

theorem Identifier.plain_of_tame {id : Identifier} (h : id.form.Every Form.Tame) : Plain id.name :=
  (Form.every_record_iff.1 h).1.1 rfl id.name List.mem_cons_self

theorem Literal.plain_of_tame {literal : Literal} (h : literal.form.Every Form.Tame)
    (hr : literal.regex = none) (hv : literal.value.text? = none) : Plain literal.raw := by
  have hrecord := (Form.every_record_iff.1 h).1.2.1 rfl
  refine hrecord (by simp [hr, Form.option]) (fun text hm => ?_) literal.raw (by simp)
  have hvalue : .str text = literal.value := by simpa using hm
  rw [← hvalue] at hv
  cases hv

variable {node key : Node} {path : TypePath}

theorem Node.plain_identifierName (h : node.Tame) : ∀ name ∈ node.identifierName?, Plain name := by
  cases node with
  | identifier id =>
    rintro name ⟨⟩
    exact Identifier.plain_of_tame h
  | _ => nofun

theorem Node.plain_boundName (h : node.Tame) : ∀ name ∈ boundName? node, Plain name := by
  cases node with
  | assignmentPattern left right =>
    simp [Node.Tame, Node.form] at h
    exact Node.plain_identifierName h.2.1
  | restElement argument =>
    simp [Node.Tame, Node.form] at h
    exact Node.plain_identifierName h.2
  | identifier id => exact Node.plain_identifierName h
  | _ => nofun

theorem Node.plain_singleBinding (h : node.Tame) : ∀ id ∈ node.singleBinding?, Plain id.name := by
  intro id hid
  unfold Node.singleBinding? at hid
  split at hid
  · cases hid
    simp [Node.Tame, Node.form, formDeclarators, Form.EveryItem, Declarator.form] at h
    exact Identifier.plain_of_tame h.2.2.1
  · cases hid

theorem tame_of_block {body : List Node} (h : (Form.block (formAll body)).Every Form.Tame) :
    ∀ node ∈ body, node.Tame := by
  simp [Form.block] at h
  exact h.2

theorem Func.plain_id {function : Func} (h : Form.EveryField Form.Tame function.formFields) :
    ∀ id ∈ function.id, Plain id.name := by
  obtain ⟨id, params, body, generator, isAsync, expression⟩ := function
  simp [Func.formFields] at h
  exact fun id hid => Identifier.plain_of_tame (h.1 id hid)

theorem plain_of_isName {chars : List Char} (h : isName chars) : ∀ c ∈ chars, isPlain c := by
  cases chars with
  | nil => nofun
  | cons first rest =>
    simp only [isName, Bool.and_eq_true, Bool.or_eq_true, beq_iff_eq, List.all_eq_true] at h
    intro c hc
    unfold isPlain
    rcases List.mem_cons.1 hc with rfl | hc
    · rcases h.1 with rfl | h
      · rfl
      · simp [h]
    · rcases h.2 c hc with (rfl | h) | h
      · rfl
      · simp [h]
      · simp [h]

theorem Node.plain_methodName (h : key.Tame) {computed : Bool} :
    ∀ name ∈ methodName? key computed, Plain name := by
  intro name hname
  unfold methodName? at hname
  split at hname
  · cases hname
  split at hname
  · cases hname
    exact Identifier.plain_of_tame h
  · split at hname
    · rename_i hchars
      cases hname
      exact plain_of_isName hchars
    · cases hname
  · cases hname

theorem Swift.CleanPath.underKey (hp : CleanPath path) (h : key.Tame) :
    CleanPath (underKey path key) := by
  unfold Swift.underKey
  split
  · rename_i name hname
    exact hp.descend (Node.plain_identifierName h name hname).clean
  · exact hp

end Words

/-! ## Trees -/

section Trees

variable {answers : Answers}

mutual
/-- **The text of a tame tree leaves everything open as it is.** -/
theorem Node.neutral_write (ha : CleanAnswers answers) {path : TypePath} (hp : CleanPath path) :
    (node : Node) → node.Tame → Yields answers Neutral (node.write path)
  -- expressions
  | .identifier id, h => by
    unfold Node.write
    exact .pure (solid_identifier (Identifier.plain_of_tame h)).loose
  | .literal literal, h => by
    unfold Node.write
    exact .literalCode (Literal.plain_of_tame h)
  | .thisExpression, _ | .superReference, _ => by
    unfold Node.write
    exact (Yields.piece (by decide)).loose
  | .arrayExpression elements, h => by
    simp [Node.Tame, Node.form] at h
    have helements := neutral_writeElements ha hp "nil" (by decide) elements h.2
    unfold Node.write
    exact (Yields.join helements).between [.square] (by decide) (by decide)
  | .objectExpression properties, h => by
    simp [Node.Tame, Node.form] at h
    have hproperties := neutral_writeAll ha hp properties h.2
    unfold Node.write
    split
    · exact (Yields.piece (by decide)).loose
    · exact (Yields.join hproperties).between [.square] (by decide) (by decide)
  | .property key computed value kind method shorthand, h => by
    simp [Node.Tame, Node.form] at h
    obtain ⟨-, hkey, hvalue⟩ := h
    have hcode := Node.neutral_write ha hp key hkey
    unfold Node.write
    split
    · refine .joined ?_ (by decide) ?_
      · split
        · exact .pure (neutral_quote _)
        · exact hcode
      · match value with
        | none => exact hcode
        | some value =>
          have hinner : CleanPath (if computed then path else underKey path key) := by
            split
            · exact hp
            · exact hp.underKey hkey
          exact Node.neutral_write ha hinner value (hvalue value rfl)
    · exact .placeholder (by decide) (.property key computed value kind method shorthand)
  | .functionExpression function, h => by
    simp [Node.Tame, Node.form] at h
    unfold Node.write
    exact Func.neutral_writeClosure ha hp function h.2
  | .arrowFunctionExpression id params body _ _ _, h => by
    simp [Node.Tame, Node.form] at h
    obtain ⟨-, -, hparams, hbody⟩ := h
    have hnames : ∀ param ∈ params, ∀ name ∈ boundName? param, Plain name :=
      fun param hm => Node.plain_boundName (hparams param hm)
    unfold Node.write
    split
    · rename_i parts hparts
      exact .closure hnames (.lines (Node.neutral_blockParts ha hp body hbody parts hparts))
    · exact .expressionClosure hnames (Node.neutral_write ha hp body hbody)
  | .templateLiteral template, h => by
    unfold Node.write
    exact Template.neutral_write ha hp template h
  | .templateElement element, _ => by
    unfold Node.write
    exact .pure (neutral_quote _)
  | .memberExpression computed object property, h => by
    simp [Node.Tame, Node.form] at h
    obtain ⟨-, hobject, hproperty⟩ := h
    have hobject := (Node.neutral_write ha hp object hobject).operand object
    have hproperty := Node.neutral_write ha hp property hproperty
    unfold Node.write
    split
    · exact hobject.enclosed [.square] (by decide) hproperty (by decide)
    · exact hobject.joined (by decide) hproperty
  | .callExpression callee arguments, h | .newExpression callee arguments, h => by
    simp [Node.Tame, Node.form] at h
    obtain ⟨-, hcallee, harguments⟩ := h
    have hcallee := (Node.neutral_write ha hp callee hcallee).operand callee
    have harguments := Yields.join (neutral_writeAll ha hp arguments harguments)
    unfold Node.write
    exact hcallee.enclosed [.round] (by decide) harguments (by decide)
  | .updateExpression operator argument isPrefix, h => by
    simp [Node.Tame, Node.form] at h
    have hargument := Node.neutral_write ha hp argument h.2
    unfold Node.write
    refine hargument.between [.round] ?_ (by decide)
    cases operator <;> cases isPrefix <;> decide
  | .awaitExpression argument, h => by
    simp [Node.Tame, Node.form] at h
    have hargument := Node.neutral_write ha hp argument h.2
    unfold Node.write
    exact .andThen (.piece (by decide)) (hargument.operand argument)
  | .unaryExpression operator argument isPrefix, h => by
    simp [Node.Tame, Node.form] at h
    have hargument := Node.neutral_write ha hp argument h.2
    unfold Node.write
    split
    · exact hargument.between [.round] (by decide) (by decide)
    split
    · rename_i hsign
      have hsigns : ∀ sign ∈ ["!", "-", "+", "~"], glide [] sign.toList = some [] := by decide
      exact .andThen (.piece (hsigns operator hsign)) (hargument.prefixOperand argument)
    · exact .placeholder (by decide) (.unaryExpression operator argument isPrefix)
  | .binaryExpression operator left right, h | .logicalExpression operator left right, h => by
    simp [Node.Tame, Node.form] at h
    obtain ⟨hrecord, hleft, hright⟩ := h
    have hleft := Node.neutral_write ha hp left hleft
    have hright := Node.neutral_write ha hp right hright
    have hoperator := clean_of_mem_operators (hrecord.2.2.1 operator List.mem_cons_self)
    unfold Node.write
    exact .binaryText hoperator left right hleft hright
  | .conditionalExpression test consequent alternate, h => by
    simp [Node.Tame, Node.form] at h
    obtain ⟨-, htest, hconsequent, halternate⟩ := h
    have htest := (Node.neutral_write ha hp test htest).operand test
    have hconsequent := (Node.neutral_write ha hp consequent hconsequent).operand consequent
    have halternate := (Node.neutral_write ha hp alternate halternate).operand alternate
    unfold Node.write
    exact (htest.joined (by decide) hconsequent).joined (by decide) halternate
  | .assignmentExpression operator left right, h => by
    simp [Node.Tame, Node.form] at h
    obtain ⟨hrecord, hleft, hright⟩ := h
    have hleft := Node.neutral_write ha hp left hleft
    have hright := (Node.neutral_write ha hp right hright).operand right
    have hoperator := clean_of_mem_operators (hrecord.2.2.1 operator List.mem_cons_self)
    unfold Node.write
    refine .andThen (.append hleft (.pure (P := (· = _)) rfl) fun _ _ hl hb => ?_) hright
    rw [hb, ← String.append_assoc, ← String.append_assoc]
    exact ((hl.close (by decide)).append hoperator.neutral).close (by decide)
  -- statements
  | .blockStatement body, h => by
    unfold Node.write
    exact (Yields.lines (neutral_writeAll ha hp body (tame_of_block h))).braces
  | .breakStatement label, h | .continueStatement label, h => by
    simp [Node.Tame, Node.form] at h
    unfold Node.write
    exact .pure (neutral_jump (by decide) fun id hm => Identifier.plain_of_tame (h.2 id hm))
  | .doWhileStatement body test, h => by
    simp [Node.Tame, Node.form] at h
    obtain ⟨-, hbody, htest⟩ := h
    have hbody := (Node.neutral_write ha hp body hbody).bodyBlock body
    have htest := Node.neutral_write ha hp test htest
    unfold Node.write
    exact (Yields.andThen (.piece (by decide)) hbody).joined (by decide) htest
  | .emptyStatement, _ => by
    unfold Node.write
    exact .pure neutral_empty
  | .expressionStatement expression directive, h => by
    simp [Node.Tame, Node.form] at h
    obtain ⟨hrecord, hexpression⟩ := h
    have hnone : directive = none := by
      have := hrecord.2.2.2 rfl
      cases directive <;> simp_all [Form.option]
    have hwhole := Node.neutral_write ha hp expression hexpression
    have hparts := Node.neutral_sequenceParts ha hp expression hexpression
    subst hnone
    unfold Node.write
    exact .spreadOut hparts hwhole
  | .forStatement init test update body, h => by
    simp [Node.Tame, Node.form] at h
    obtain ⟨-, hinit, htest, hupdate, hbody⟩ := h
    have hblock := Node.neutral_blockParts ha hp body hbody
    have hbody := Node.neutral_write ha hp body hbody
    unfold Node.write
    refine .seq (.seq (.seq (.map (P := Neutral) ?_ fun _ ht _ hu _ hb _ hi =>
      neutral_forLoop _ ht hu hb hi) ?_) (.spreadOut hblock hbody)) ?_
    · match test with
      | none => exact (Yields.piece (by decide)).loose
      | some test => exact Node.neutral_write ha hp test (htest test rfl)
    · match update with
      | none => exact .pure neutral_empty
      | some update =>
        have hparts := Node.neutral_sequenceParts ha hp update (hupdate update rfl)
        exact .spreadOut hparts (Node.neutral_write ha hp update (hupdate update rfl))
    · match init with
      | none => exact .pure nofun
      | some init =>
        have hparts := Node.neutral_sequenceParts ha hp init (hinit init rfl)
        have hwhole := Node.neutral_write ha hp init (hinit init rfl)
        refine (Yields.spreadOut hparts hwhole).map fun text ht => ?_
        rintro _ ⟨⟩
        exact ht
  | .forInStatement left right body _, h | .forOfStatement left right body, h => by
    simp [Node.Tame, Node.form] at h
    obtain ⟨-, hleft, hright, hbody⟩ := h
    have hright := Node.neutral_write ha hp right hright
    have hbody := (Node.neutral_write ha hp body hbody).bodyBlock body
    unfold Node.write
    split
    · rename_i id hid
      have hname := Node.plain_singleBinding hleft id hid
      exact .eachLoop hname (by decide) hright hbody
    · exact .fail _ _
  | .ifStatement test consequent alternate, h => by
    simp [Node.Tame, Node.form] at h
    obtain ⟨-, htest, hconsequent, halternate⟩ := h
    have htest := Node.neutral_write ha hp test htest
    have hconsequent := (Node.neutral_write ha hp consequent hconsequent).bodyBlock consequent
    unfold Node.write
    refine .andTrail (.joined (.andThen (.piece (by decide)) htest) (by decide) hconsequent) ?_
    match alternate with
    | none => exact .pure trails_empty
    | some alternate =>
      have halternate := Node.neutral_write ha hp alternate (halternate alternate rfl)
      exact (halternate.elseBlock alternate).trails (by decide)
  | .labeledStatement label body, h => by
    simp [Node.Tame, Node.form] at h
    obtain ⟨-, hlabel, hbody⟩ := h
    have hlabel : Solid [] [] (label.name ++ ": ") :=
      (Identifier.plain_of_tame hlabel).solid.append (.of_glide (by decide))
    unfold Node.write
    exact .andThen (.pure hlabel) (Node.neutral_write ha hp body hbody)
  | .returnStatement argument, h => by
    simp [Node.Tame, Node.form] at h
    unfold Node.write
    match argument with
    | none => exact (Yields.piece (by decide)).loose
    | some argument =>
      exact .andThen (.piece (by decide)) (Node.neutral_write ha hp argument (h.2 argument rfl))
  | .switchStatement discriminant cases, h => by
    simp [Node.Tame, Node.form] at h
    obtain ⟨-, hdiscriminant, hcases⟩ := h
    have hdiscriminant := Node.neutral_write ha hp discriminant hdiscriminant
    have hcases := neutral_writeCases ha hp cases hcases
    unfold Node.write
    split
    · have hordered : ∀ draft ∈ orderedCases (cases.zip (writeCases path cases)),
          Yields answers Neutral draft :=
        .orderedCases fun case hm => hcases case.2 (List.of_mem_zip hm).2
      refine .seq ((Yields.joinLines hordered).map fun body hbody text htext => ?_) hdiscriminant
      have hhead : Solid [] [] ("switch " ++ text ++ " ") :=
        htext.between [] (by decide) (by decide)
      exact hhead.append (neutral_braces hbody)
    · exact .placeholder (by decide) (.switchStatement discriminant cases)
  | .switchCase case, h => by
    unfold Node.write
    exact SwitchCase.neutral_write ha hp case h
  | .throwStatement argument, h => by
    simp [Node.Tame, Node.form] at h
    unfold Node.write
    exact .andThen (.piece (by decide)) (Node.neutral_write ha hp argument h.2)
  | .tryStatement block handler finalizer, h => by
    obtain ⟨-, hblock, hhandler, hfinalizer⟩ := every_tryStatement_iff.1 h
    have hblock := Yields.lines (neutral_writeAll ha hp block (tame_of_block hblock))
    unfold Node.write
    refine .seq (P := Trails) (.seq (.map (P := fun text? => ∀ text ∈ text?, Neutral text) ?_
      fun _ hf _ hb _ hh => hh _ (neutral_tryBlock hf hb)) hblock) ?_
    · match finalizer with
      | none => exact .pure nofun
      | some body =>
        have hbody := neutral_writeAll ha hp body (tame_of_block (hfinalizer body rfl))
        refine (Yields.lines hbody).map fun text ht => ?_
        rintro _ ⟨⟩
        exact neutral_braces ht
    · match handler with
      | none => exact .pure trails_empty
      | some ⟨param, body⟩ =>
        have hclause := hhandler _ rfl
        simp [CatchClause.form] at hclause
        obtain ⟨-, hparam, hbody⟩ := hclause
        have hhead : Yields answers Neutral (catchHead param : Draft String) :=
          .catchHead fun id hid => Identifier.plain_of_tame (hparam _ hid)
        have hbody := (Yields.lines (neutral_writeAll ha hp body (tame_of_block hbody))).braces
        exact (hhead.trails (by decide)).trailOn (by decide) hbody
  | .whileStatement test body, h => by
    simp [Node.Tame, Node.form] at h
    obtain ⟨-, htest, hbody⟩ := h
    have htest := Node.neutral_write ha hp test htest
    have hbody := (Node.neutral_write ha hp body hbody).bodyBlock body
    unfold Node.write
    exact (Yields.andThen (.piece (by decide)) htest).joined (by decide) hbody
  -- declarations
  | .program _ body, h => by
    simp [Node.Tame, Node.form] at h
    unfold Node.write
    exact .lines (neutral_writeAll ha hp body h.2)
  | .variableDeclaration declarations kind, h => by
    simp [Node.Tame, Node.form] at h
    have hkeyword : glide [] (variableKeyword kind ++ " ").toList = some [] := by
      cases kind <;> decide
    unfold Node.write
    exact .joinLines (neutral_writeDeclarators ha hp _ hkeyword declarations h.2)
  | .variableDeclarator declarator, h => by
    unfold Node.write
    exact Declarator.neutral_write ha hp declarator h
  | .arrayPattern elements, h => by
    simp [Node.Tame, Node.form] at h
    have helements := neutral_writeElements ha hp "_" (by decide) elements h.2
    unfold Node.write
    exact (Yields.join helements).between [.round] (by decide) (by decide)
  | .assignmentPattern left right, h => by
    simp [Node.Tame, Node.form] at h
    obtain ⟨-, hleft, hright⟩ := h
    have hleft := Node.neutral_write ha hp left hleft
    unfold Node.write
    exact hleft.joined (by decide) (Node.neutral_write ha hp right hright)
  | .functionDeclaration function, h => by
    simp [Node.Tame, Node.form] at h
    unfold Node.write
    split
    · rename_i id hid
      have hname := Func.plain_id h.2 id hid
      have hhead : Solid [] [] ("func " ++ identifier id.name) :=
        Leads.append (.of_glide (by decide)) (solid_identifier hname)
      exact .andThen (.pure hhead)
        (Func.neutral_writeSignature ha (hp.descend hname.clean) true function h.2)
    · exact .fail _ _
  | .classDeclaration ⟨id, superClass, members⟩, h => by
    simp [Node.Tame, Node.form, Class.formFields] at h
    obtain ⟨-, hid, hsuper, -, hmembers⟩ := h
    unfold Node.write
    match id with
    | none => exact .fail _ _
    | some id =>
      have hname := Identifier.plain_of_tame (hid id rfl)
      have hinner := hp.descend hname.clean
      have hhead : Solid [] [] ("class " ++ identifier id.name) :=
        Leads.append (.of_glide (by decide)) (solid_identifier hname)
      have hbody := (Yields.lines (neutral_writeMembers ha hinner members hmembers)).braces
      refine .joined (.andThen (.pure hhead) ?_) (by decide) hbody
      match superClass with
      | none => exact .pure neutral_empty
      | some superClass =>
        exact .andThen (.piece (by decide))
          (Node.neutral_write ha hinner superClass (hsuper superClass rfl))
  | .classBody members, h => by
    simp [Node.Tame, Node.form] at h
    unfold Node.write
    exact (Yields.lines (neutral_writeMembers ha hp members h.2)).braces
  | .methodDefinition method, h => by
    unfold Node.write
    exact Method.neutral_write ha hp method h
  | .exportDefaultDeclaration declaration, h => by
    simp [Node.Tame, Node.form] at h
    unfold Node.write
    exact Node.neutral_write ha hp declaration h.2
  | .exportNamedDeclaration declaration specifiers source, h => by
    simp [Node.Tame, Node.form] at h
    unfold Node.write
    match declaration with
    | none => exact .placeholder (by decide) (.exportNamedDeclaration none specifiers source)
    | some declaration => exact Node.neutral_write ha hp declaration (h.2.1 declaration rfl)
  -- constructs without a rendering
  | .catchClause clause, _ => .placeholder (by decide) (.catchClause clause)
  | .classExpression definition, _ => .placeholder (by decide) (.classExpression definition)
  | .debuggerStatement, _ => .placeholder (by decide) .debuggerStatement
  | .exportAllDeclaration source, _ => .placeholder (by decide) (.exportAllDeclaration source)
  | .exportSpecifier specifier, _ => .placeholder (by decide) (.exportSpecifier specifier)
  | .importCallee, _ => .placeholder (by decide) .importCallee
  | .importSpecifier inner imported, _ => .placeholder (by decide) (.importSpecifier inner imported)
  | .metaProperty base property, _ => .placeholder (by decide) (.metaProperty base property)
  | .objectPattern properties, _ => .placeholder (by decide) (.objectPattern properties)
  | .restElement argument, _ => .placeholder (by decide) (.restElement argument)
  | .sequenceExpression expressions, _ =>
    .placeholder (by decide) (.sequenceExpression expressions)
  | .spreadElement argument, _ => .placeholder (by decide) (.spreadElement argument)
  | .taggedTemplateExpression tag quasi, _ =>
    .placeholder (by decide) (.taggedTemplateExpression tag quasi)
  | .withStatement object body, _ => .placeholder (by decide) (.withStatement object body)
  | .yieldExpression argument delegate, _ =>
    .placeholder (by decide) (.yieldExpression argument delegate)

theorem neutral_writeAll (ha : CleanAnswers answers) {path : TypePath} (hp : CleanPath path) :
    (nodes : List Node) → (∀ node ∈ nodes, node.Tame) →
      ∀ draft ∈ writeAll path nodes, Yields answers Neutral draft
  | [], _ => nofun
  | node :: rest, h => by
    obtain ⟨hnode, hrest⟩ := List.forall_mem_cons.1 h
    unfold writeAll
    exact List.forall_mem_cons.2
      ⟨Node.neutral_write ha hp node hnode, neutral_writeAll ha hp rest hrest⟩

theorem neutral_writeElements (ha : CleanAnswers answers) {path : TypePath} (hp : CleanPath path)
    (hole : String) (hh : glide [] hole.toList = some []) :
    (elements : List (Option Node)) → (∀ node? ∈ elements, ∀ node ∈ node?, node.Tame) →
      ∀ draft ∈ writeElements path hole elements, Yields answers Neutral draft
  | [], _ => nofun
  | none :: rest, h => by
    obtain ⟨-, hrest⟩ := List.forall_mem_cons.1 h
    unfold writeElements
    exact List.forall_mem_cons.2
      ⟨(Yields.piece hh).loose, neutral_writeElements ha hp hole hh rest hrest⟩
  | some node :: rest, h => by
    obtain ⟨hnode, hrest⟩ := List.forall_mem_cons.1 h
    unfold writeElements
    have hfirst := Node.neutral_write ha hp node (hnode node rfl)
    exact List.forall_mem_cons.2 ⟨hfirst, neutral_writeElements ha hp hole hh rest hrest⟩

theorem Node.neutral_blockParts (ha : CleanAnswers answers) {path : TypePath}
    (hp : CleanPath path) (node : Node) (h : node.Tame) :
    ∀ drafts ∈ (node.blockParts? path : Option (List (Draft String))),
      ∀ draft ∈ drafts, Yields answers Neutral draft := by
  intro drafts hdrafts
  cases node with
  | blockStatement body => cases hdrafts; exact neutral_writeAll ha hp body (tame_of_block h)
  | _ => cases hdrafts

theorem Node.neutral_sequenceParts (ha : CleanAnswers answers) {path : TypePath}
    (hp : CleanPath path) (node : Node) (h : node.Tame) :
    ∀ drafts ∈ (node.sequenceParts? path : Option (List (Draft String))),
      ∀ draft ∈ drafts, Yields answers Neutral draft := by
  intro drafts hdrafts
  cases node with
  | sequenceExpression expressions =>
    cases hdrafts
    simp [Node.Tame, Node.form] at h
    exact neutral_writeAll ha hp expressions h.2
  | _ => cases hdrafts

theorem Template.neutral_write (ha : CleanAnswers answers) {path : TypePath} (hp : CleanPath path) :
    (template : Template) → template.form.Every Form.Tame →
      Yields answers Neutral (template.write path)
  | ⟨quasis, expressions⟩, h => by
    simp [Template.form] at h
    have hparts := neutral_writeAll ha hp expressions h.2.2
    unfold Template.write
    exact (Yields.templateBody quasis hparts).map fun _ ht => ht.wrap

theorem Declarator.neutral_write (ha : CleanAnswers answers) {path : TypePath}
    (hp : CleanPath path) : (declarator : Declarator) → declarator.form.Every Form.Tame →
      Yields answers Neutral (declarator.write path)
  | ⟨id, init⟩, h => by
    simp [Declarator.form] at h
    obtain ⟨-, hid, hinit⟩ := h
    have hwhole := Node.neutral_write ha hp id hid
    unfold Declarator.write
    split
    · rename_i name
      have hname := Identifier.plain_of_tame hid
      -- the value stands under the name
      have hinner := hp.descend hname.clean
      refine .seq ((Yields.resolve ha _).map fun type ht value hv =>
        neutral_binding (solid_identifier hname) hinner ht hv) ?_
      match init with
      | none => exact .pure nofun
      | some init =>
        refine (Node.neutral_write ha hinner init (hinit init rfl)).map fun text ht => ?_
        rintro _ ⟨⟩
        exact ht
    · refine hwhole.andTrail ?_
      match init with
      | none => exact .pure trails_empty
      | some init =>
        exact (Node.neutral_write ha hp init (hinit init rfl)).trails (by decide)

theorem neutral_writeDeclarators (ha : CleanAnswers answers) {path : TypePath}
    (hp : CleanPath path) (keyword : String) (hk : glide [] (keyword ++ " ").toList = some []) :
    (declarators : List Declarator) →
      (∀ declarator ∈ declarators, declarator.form.Every Form.Tame) →
      ∀ draft ∈ writeDeclarators path keyword declarators, Yields answers Neutral draft
  | [], _ => nofun
  | declarator :: rest, h => by
    obtain ⟨hdeclarator, hrest⟩ := List.forall_mem_cons.1 h
    unfold writeDeclarators
    exact List.forall_mem_cons.2
      ⟨.andThen (.piece hk) (Declarator.neutral_write ha hp declarator hdeclarator),
        neutral_writeDeclarators ha hp keyword hk rest hrest⟩

theorem Node.neutral_writeParameter (ha : CleanAnswers answers) {path : TypePath}
    (hp : CleanPath path) (param : Node) (h : param.Tame) :
    Yields answers Neutral (param.writeParameter path) := by
  cases param with
  | identifier id => exact .typedParameter ha hp (Identifier.plain_of_tame h)
  | assignmentPattern left right =>
    simp [Node.Tame, Node.form] at h
    cases left with
    | identifier id =>
      have hname := Identifier.plain_of_tame h.2.1
      have hright := Node.neutral_write ha (hp.descend hname.clean) right h.2.2
      exact (Yields.typedParameter ha hp hname).joined (by decide) hright
    | _ => exact .fail _ _
  | restElement argument =>
    simp [Node.Tame, Node.form] at h
    cases argument with
    | identifier id =>
      have hname := Identifier.plain_of_tame h.2
      exact ((Yields.typedParameter ha hp hname).close (by decide)).loose
    | _ => exact .fail _ _
  | _ => exact .fail _ _

theorem neutral_writeParameters (ha : CleanAnswers answers) {path : TypePath}
    (hp : CleanPath path) : (params : List Node) → (∀ param ∈ params, param.Tame) →
      ∀ draft ∈ writeParameters path params, Yields answers Neutral draft
  | [], _ => nofun
  | param :: rest, h => by
    obtain ⟨hparam, hrest⟩ := List.forall_mem_cons.1 h
    unfold writeParameters
    exact List.forall_mem_cons.2
      ⟨Node.neutral_writeParameter ha hp param hparam, neutral_writeParameters ha hp rest hrest⟩

theorem Func.neutral_writeSignature (ha : CleanAnswers answers) {path : TypePath}
    (hp : CleanPath path) (returns : Bool) :
    (function : Func) → Form.EveryField Form.Tame function.formFields →
      Yields answers Neutral (function.writeSignature path returns)
  | ⟨id, params, body, _, isAsync, _⟩, h => by
    simp [Func.formFields] at h
    obtain ⟨-, hparams, hbody⟩ := h
    have hparams := neutral_writeParameters ha hp params hparams
    have hbody := (Yields.lines (neutral_writeAll ha hp body (tame_of_block hbody))).braces
    unfold Func.writeSignature
    exact .signature ha hp body isAsync returns hparams hbody

theorem Func.neutral_writeClosure (ha : CleanAnswers answers) {path : TypePath}
    (hp : CleanPath path) : (function : Func) → Form.EveryField Form.Tame function.formFields →
      Yields answers Neutral (function.writeClosure path)
  | ⟨id, params, body, _, _, _⟩, h => by
    simp [Func.formFields] at h
    obtain ⟨hid, hparams, hbody⟩ := h
    have hnames : ∀ param ∈ params, ∀ name ∈ boundName? param, Plain name :=
      fun param hm => Node.plain_boundName (hparams param hm)
    unfold Func.writeClosure
    refine .closure hnames (.lines (neutral_writeAll ha ?_ body (tame_of_block hbody)))
    -- only a closure with a name of its own extends the path
    cases id with
    | none => exact hp
    | some id => exact hp.descend (Identifier.plain_of_tame (hid id rfl)).clean

theorem Method.neutral_write (ha : CleanAnswers answers) {path : TypePath} (hp : CleanPath path) :
    (method : Method) → method.form.Every Form.Tame → Yields answers Neutral (method.write path)
  | ⟨some key, computed, some function, kind, isStatic⟩, h => by
    simp [Method.form] at h
    obtain ⟨-, hkey, -, hfields⟩ := h
    unfold Method.write
    split
    · have hinner : CleanPath path.initializer := hp.descend (by decide)
      have hsignature := Func.neutral_writeSignature ha hinner false function hfields
      exact .andThen (.andThen (.memberHead ha isStatic) (.piece (by decide))) hsignature
    · split
      · rename_i name hname
        have hplain := Node.plain_methodName hkey name hname
        have hinner := hp.descend hplain.clean
        have hhead : Solid [] [] ("func " ++ identifier name) :=
          Leads.append (.of_glide (by decide)) (solid_identifier hplain)
        have hsignature := Func.neutral_writeSignature ha hinner true function hfields
        exact .andThen (.andThen (.memberHead ha isStatic) (.pure hhead)) hsignature
      · exact .placeholder (by decide) (.methodDefinition ⟨key, computed, function, _, isStatic⟩)
    · exact .placeholder (by decide) (.methodDefinition ⟨key, computed, function, _, isStatic⟩)
  | ⟨none, _, _, _, _⟩, _ => .fail _ _
  | ⟨some _, _, none, _, _⟩, _ => .fail _ _

theorem neutral_writeMembers (ha : CleanAnswers answers) {path : TypePath} (hp : CleanPath path) :
    (members : List Method) → (∀ member ∈ members, member.form.Every Form.Tame) →
      ∀ draft ∈ writeMembers path members, Yields answers Neutral draft
  | [], _ => nofun
  | member :: rest, h => by
    obtain ⟨hmember, hrest⟩ := List.forall_mem_cons.1 h
    unfold writeMembers
    exact List.forall_mem_cons.2
      ⟨Method.neutral_write ha hp member hmember, neutral_writeMembers ha hp rest hrest⟩

theorem SwitchCase.neutral_write (ha : CleanAnswers answers) {path : TypePath}
    (hp : CleanPath path) : (case : SwitchCase) → case.form.Every Form.Tame →
      Yields answers Neutral (case.write path)
  | ⟨test, consequent⟩, h => by
    simp [SwitchCase.form] at h
    obtain ⟨-, htest, hconsequent⟩ := h
    have hbody := Yields.lines (neutral_writeAll ha hp consequent hconsequent)
    unfold SwitchCase.write
    refine .seq (hbody.map fun _ hb _ ht => neutral_caseText ht hb) ?_
    match test with
    | none => exact .pure nofun
    | some test =>
      refine (Node.neutral_write ha hp test (htest test rfl)).map fun text ht => ?_
      rintro _ ⟨⟩
      exact ht

theorem neutral_writeCases (ha : CleanAnswers answers) {path : TypePath} (hp : CleanPath path) :
    (cases : List SwitchCase) → (∀ case ∈ cases, case.form.Every Form.Tame) →
      ∀ draft ∈ writeCases path cases, Yields answers Neutral draft
  | [], _ => nofun
  | case :: rest, h => by
    obtain ⟨hcase, hrest⟩ := List.forall_mem_cons.1 h
    unfold writeCases
    exact List.forall_mem_cons.2
      ⟨SwitchCase.neutral_write ha hp case hcase, neutral_writeCases ha hp rest hrest⟩
end

end Trees

/-! ## Generation -/

theorem HintTable.cleanAnswers {hints : HintTable}
    (h : ∀ path name, hints.lookup path = some (.name name) → Clean name) :
    CleanAnswers hints.answer? := by
  intro path text htext
  obtain ⟨leaf, hleaf, rfl⟩ := Option.map_eq_some_iff.1 htext
  cases leaf with
  | name name => exact h path name hleaf
  | flag value => cases value <;> decide

/-- **Generated text is balanced:** a lexer of Swift ends outside of all brackets, string literals
and comments, for every tame tree, and for hints and a path with clean names. -/
theorem Node.generate_balanced {node : Node} {path : TypePath} {hints records : HintTable}
    {text : String} (hn : node.Tame)
    (hh : ∀ path name, hints.lookup path = some (.name name) → Clean name)
    (hp : ∀ name ∈ path, Clean name) (h : (node.generate path hints records).1 = .ok text) :
    Balanced text := by
  rw [Node.generate_eq] at h
  have hneutral := Node.neutral_write (HintTable.cleanAnswers hh) hp node hn
  exact (hneutral text h).balanced

/-- A template with a quote and an open bracket in its text, around a closure. -/
def Node.tangled : Node :=
  .variableDeclaration
    [⟨.identifier ⟨"x"⟩,
      some (.templateLiteral ⟨[⟨⟨some "\"(", "\"("⟩, false⟩, ⟨⟨none, ""⟩, true⟩],
        [.functionExpression ⟨none, [], [.returnStatement none], false, false, false⟩]⟩)⟩] .constant

/-- A hint for everything in one file. -/
def HintTable.oneType : HintTable :=
  ⟨[("a.js", .leaf (.name "String"))], by simp [Hint.OrderedEntries, Hint.Ordered]⟩

/-- The closure has lines of its own, so the literal spans lines. -/
theorem Node.generate_balanced_tangled :
    (Node.tangled.generate ["a.js"] .oneType .empty).1 =
        .ok "let x : String = \"\"\"\n\\\"(\\(\x7b\nreturn\n\x7d)\n\"\"\"" ∧
      Balanced "let x : String = \"\"\"\n\\\"(\\(\x7b\nreturn\n\x7d)\n\"\"\"" := by
  have htame : Node.tangled.Tame := by
    have hname : Plain "x" := by decide
    simp [Node.tangled, Node.Tame, Form.Tame, Node.form, formDeclarators, Declarator.form,
      Form.EveryItem, Template.form, formAll, Func.formFields, Form.block, Form.option, formOption,
      Identifier.form, TemplateElement.form, TemplateText.form, Form.ofWord, Form.Every, hname]
  have hhints : ∀ path name, HintTable.oneType.lookup path = some (.name name) → Clean name := by
    intro path name h
    cases path with
    | nil => cases h
    | cons first rest =>
      simp only [HintTable.lookup, HintTable.oneType, Hint.Entries.lookup, Hint.Entries.get?,
        List.lookup_cons, List.lookup_nil] at h
      cases hf : first == "a.js" with
      | false =>
        rw [hf] at h
        cases h
      | true =>
        rw [hf] at h
        cases h
        decide
  have hpath : ∀ name ∈ ["a.js"], Clean name := by
    intro name hm
    rw [List.mem_singleton.1 hm]
    decide
  have hrun : (Node.tangled.generate ["a.js"] .oneType .empty).1 =
      .ok "let x : String = \"\"\"\n\\\"(\\(\x7b\nreturn\n\x7d)\n\"\"\"" := by rfl
  exact ⟨hrun, Node.generate_balanced htame hhints hpath hrun⟩

end SwiftScribe
