import SwiftScribe.Proofs.Lexer

/-!
# Debug text inside comments

A placeholder shows the debug text of a node in a comment. Whatever strings the node holds, the text
stays on one line and does not end the comment.

* `Form.Every`: what holds of every part of a form, read off part by part.
* `Node.oneLine_debug`: **debug text of a node is one line.**
* `unmarked_withoutCommentMarks`: after both replacements no comment mark is left.
* `Node.solid_placeholder`: a placeholder leaves everything open as it is.
-/

namespace SwiftScribe

open Swift

/-! ## What holds of every part of a form -/

namespace Form

mutual
/-- **A check passes for every record, word, text, flag and payload in a form.** -/
def Every (check : Form → Prop) : Form → Prop
  | .record name fields => check (.record name fields) ∧ EveryField check fields
  | .list items => EveryItem check items
  | .present value => Every check value
  | .absent => True
  | other => check other

/-- The check passes for every part of every field. -/
def EveryField (check : Form → Prop) : List (String × Form) → Prop
  | [] => True
  | (_, value) :: rest => Every check value ∧ EveryField check rest

/-- The check passes for every part of every item. -/
def EveryItem (check : Form → Prop) : List Form → Prop
  | [] => True
  | item :: rest => Every check item ∧ EveryItem check rest
end

variable {check : Form → Prop}

@[simp] theorem every_record_iff {name : String} {fields : List (String × Form)} :
    Every check (.record name fields) ↔ check (.record name fields) ∧ EveryField check fields := by
  rw [Every]

@[simp] theorem every_list_iff {items : List Form} :
    Every check (.list items) ↔ EveryItem check items := by
  rw [Every]

@[simp] theorem every_present_iff {value : Form} :
    Every check (.present value) ↔ Every check value := by
  rw [Every]

@[simp] theorem every_absent : Every check .absent := trivial

@[simp] theorem every_text_iff {value : String} : Every check (.text value) ↔ check (.text value) :=
  Iff.rfl

@[simp] theorem every_flag_iff {value : Bool} : Every check (.flag value) ↔ check (.flag value) :=
  Iff.rfl

@[simp] theorem every_scalar_iff {value : Scalar} :
    Every check (.scalar value) ↔ check (.scalar value) := Iff.rfl

@[simp] theorem every_ofWord_iff {α : Type} [Word α] {word : α} :
    Every check (.ofWord word) ↔ check (.ofWord word) := Iff.rfl

@[simp] theorem everyField_nil : EveryField check [] := trivial

@[simp] theorem everyField_cons_iff {key : String} {value : Form} {rest : List (String × Form)} :
    EveryField check ((key, value) :: rest) ↔ Every check value ∧ EveryField check rest := by
  rw [EveryField]

@[simp] theorem everyItem_map_iff {α : Type} {form : α → Form} {items : List α} :
    EveryItem check (items.map form) ↔ ∀ item ∈ items, Every check (form item) := by
  induction items with
  | nil => simp [EveryItem]
  | cons item rest ih => simp [EveryItem, ih]

@[simp] theorem every_option_iff {α : Type} {form : α → Form} {item? : Option α} :
    Every check (.option form item?) ↔ ∀ item ∈ item?, Every check (form item) := by
  cases item? <;> simp [Form.option]

end Form

section Parts

variable {check : Form → Prop}

@[simp] theorem every_formAll_iff {nodes : List Node} :
    Form.EveryItem check (formAll nodes) ↔ ∀ node ∈ nodes, node.form.Every check := by
  induction nodes with
  | nil => simp [formAll, Form.EveryItem]
  | cons node rest ih => simp [formAll, Form.EveryItem, ih]

@[simp] theorem every_formOption_iff {node? : Option Node} :
    (formOption node?).Every check ↔ ∀ node ∈ node?, node.form.Every check := by
  cases node? <;> simp [formOption]

@[simp] theorem every_formHoles_iff {elements : List (Option Node)} :
    Form.EveryItem check (formHoles elements) ↔
      ∀ node? ∈ elements, ∀ node ∈ node?, node.form.Every check := by
  induction elements with
  | nil => simp [formHoles, Form.EveryItem]
  | cons node? rest ih => simp [formHoles, Form.EveryItem, ih]

@[simp] theorem every_formMembers_iff {members : List Method} :
    Form.EveryItem check (formMembers members) ↔ ∀ member ∈ members, member.form.Every check := by
  induction members with
  | nil => simp [formMembers, Form.EveryItem]
  | cons member rest ih => simp [formMembers, Form.EveryItem, ih]

@[simp] theorem every_formDeclarators_iff {declarators : List Declarator} :
    Form.EveryItem check (formDeclarators declarators) ↔
      ∀ declarator ∈ declarators, declarator.form.Every check := by
  induction declarators with
  | nil => simp [formDeclarators, Form.EveryItem]
  | cons declarator rest ih => simp [formDeclarators, Form.EveryItem, ih]

@[simp] theorem every_formCases_iff {cases : List SwitchCase} :
    Form.EveryItem check (formCases cases) ↔ ∀ case ∈ cases, case.form.Every check := by
  induction cases with
  | nil => simp [formCases, Form.EveryItem]
  | cons case rest ih => simp [formCases, Form.EveryItem, ih]

theorem every_tryStatement_iff {block : List Node} {handler : Option CatchClause}
    {finalizer : Option (List Node)} :
    (Node.tryStatement block handler finalizer).form.Every check ↔
      check (Node.tryStatement block handler finalizer).form ∧
        (Form.block (formAll block)).Every check ∧
        (∀ clause ∈ handler, clause.form.Every check) ∧
        ∀ body ∈ finalizer, (Form.block (formAll body)).Every check := by
  cases handler <;> cases finalizer <;> simp [Node.form]

end Parts

/-! ## One line -/

/-- **A text on one line.** -/
def OneLine (chars : List Char) : Prop := ∀ c ∈ chars, isBreak c = false

instance (chars : List Char) : Decidable (OneLine chars) := List.decidableBAll _ chars

@[simp] theorem oneLine_append {a b : List Char} : OneLine (a ++ b) ↔ OneLine a ∧ OneLine b := by
  simp [OneLine, or_imp, forall_and]

@[simp] theorem oneLine_cons {c : Char} {chars : List Char} :
    OneLine (c :: chars) ↔ isBreak c = false ∧ OneLine chars := by
  simp [OneLine]

@[simp] theorem oneLine_nil : OneLine [] := nofun

theorem oneLine_commas {texts : List String} (h : ∀ text ∈ texts, OneLine text.toList) :
    OneLine (", ".intercalate texts).toList := by
  induction texts with
  | nil => simp
  | cons first more ih =>
    cases more with
    | nil => simpa using h
    | cons second more =>
      have hfirst := h first List.mem_cons_self
      have hmore := ih fun text hm => h text (List.mem_cons_of_mem _ hm)
      rw [String.intercalate_cons_cons]
      simpa [isBreak, hfirst] using hmore

/-! ### Numbers -/

theorem isBreak_digitChar (d : Nat) : isBreak d.digitChar = false := by
  simp only [Nat.digitChar, apply_ite isBreak]
  simp [isBreak]

theorem oneLine_toDigits {base : Nat} (hb : 1 < base) (n : Nat) :
    OneLine (Nat.toDigits base n) := by
  induction n using Nat.strongRecOn with
  | ind n ih =>
    rw [Nat.toDigits_eq_if hb]
    split
    · simp [isBreak_digitChar]
    · have hlt : n / base < n := Nat.div_lt_self (by omega) hb
      simp [isBreak_digitChar, ih _ hlt]

theorem oneLine_int (n : Int) : OneLine (toString n).toList := by
  rw [Int.toString_eq_repr, Int.repr_eq_if]
  split
  · simpa using oneLine_toDigits (by decide) _
  · simpa [isBreak] using oneLine_toDigits (by decide) _

theorem oneLine_positional {digits : List Char} (h : OneLine digits) (exponent : Int) :
    OneLine (Double.positional digits exponent) := by
  have hzeros (n : Nat) : OneLine (List.replicate n '0') := by
    intro c hc
    rw [List.eq_of_mem_replicate hc]
    rfl
  have htake (n : Nat) : OneLine (digits.take n) := fun c hc => h c (List.mem_of_mem_take hc)
  have hdrop (n : Nat) : OneLine (digits.drop n) := fun c hc => h c (List.mem_of_mem_drop hc)
  unfold Double.positional
  split
  · simp [h, hzeros, isBreak]
  · dsimp only
    split
    · simp [htake, hdrop, isBreak]
    · simp [h, hzeros, isBreak]

theorem oneLine_scientific {plus : String} {digits : List Char} (hp : OneLine plus.toList)
    (h : OneLine digits) (leading : Int) : OneLine (Double.scientific plus digits leading) := by
  have hplus : OneLine (if leading < 0 then "" else plus).toList := by
    split
    · simp
    · exact hp
  unfold Double.scientific
  simp only [oneLine_append, oneLine_cons, hplus, oneLine_int, and_true]
  refine ⟨?_, rfl⟩
  split
  · simpa [isBreak] using h
  · exact h

theorem oneLine_format (x : Double) : OneLine (x.format .debug).toList := by
  unfold Double.format
  dsimp only
  generalize x.shortest Double.Layout.debug.tie = decimal
  have hdigits : OneLine (Nat.toDigits 10 decimal.digits) := oneLine_toDigits (by decide) _
  have hpositional := oneLine_positional hdigits decimal.exponent
  have hplus : OneLine Double.Layout.debug.plus.toList := by decide
  have hscientific := oneLine_scientific hplus hdigits
  rw [String.toList_ofList]
  split
  · refine oneLine_cons.2 ⟨rfl, ?_⟩
    split
    · exact hpositional
    · exact hscientific _
  · split
    · exact hpositional
    · exact hscientific _

/-! ### Strings and payloads -/

theorem oneLine_quotedChar (c : Char) : OneLine (Text.quotedChar c) := by
  unfold Text.quotedChar
  split
  case _ => decide
  case _ => decide
  case _ => decide
  case _ => decide
  case _ => decide
  case _ => decide
  case _ hreturn hnew _ _ =>
    split
    · simpa [isBreak] using oneLine_toDigits (by decide) _
    · simpa [isBreak] using ⟨hnew, hreturn⟩

theorem oneLine_quoted (text : String) : OneLine (Text.quoted text).toList := by
  have hinside : OneLine (text.toList.flatMap Text.quotedChar) := by
    intro c hc
    obtain ⟨d, -, hd⟩ := List.mem_flatMap.1 hc
    exact oneLine_quotedChar d c hd
  simpa [Text.quoted, isBreak] using hinside

mutual
theorem Scalar.oneLine_debug : (value : Scalar) → OneLine value.debug.toList
  | .null => by
    unfold Scalar.debug
    decide
  | .bool value => by
    unfold Scalar.debug
    cases value <;> decide
  | .int value => by
    unfold Scalar.debug
    simpa [isBreak] using oneLine_int value
  | .double value => by
    unfold Scalar.debug
    simpa [isBreak] using oneLine_format value
  | .str value => by
    unfold Scalar.debug
    simpa [isBreak] using oneLine_quoted value
  | .arr items => by
    unfold Scalar.debug
    simpa [isBreak] using oneLine_commas (Scalar.oneLine_debugItems items)
  | .map entries => by
    unfold Scalar.debug
    simpa [isBreak] using oneLine_commas (Scalar.oneLine_debugEntries entries)

theorem Scalar.oneLine_debugItems :
    (items : List Scalar) → ∀ text ∈ Scalar.debugItems items, OneLine text.toList
  | [] => nofun
  | item :: rest => by
    unfold Scalar.debugItems
    exact List.forall_mem_cons.2 ⟨Scalar.oneLine_debug item, Scalar.oneLine_debugItems rest⟩

theorem Scalar.oneLine_debugEntries :
    (entries : List (String × Scalar)) → ∀ text ∈ Scalar.debugEntries entries, OneLine text.toList
  | [] => nofun
  | (key, value) :: rest => by
    unfold Scalar.debugEntries
    refine List.forall_mem_cons.2 ⟨?_, Scalar.oneLine_debugEntries rest⟩
    simpa [isBreak] using ⟨oneLine_quoted key, Scalar.oneLine_debug value⟩
end

/-! ### Forms -/

namespace Form

/-- **The names and labels of a part of a form are on one line.** -/
def OneLabel : Form → Prop
  | .record name fields => OneLine name.toList ∧ ∀ field ∈ fields, OneLine field.1.toList
  | .word _ label => OneLine label.toList
  | _ => True

@[simp] theorem oneLabel_record_iff {name : String} {fields : List (String × Form)} :
    OneLabel (.record name fields) ↔
      OneLine name.toList ∧ ∀ field ∈ fields, OneLine field.1.toList := Iff.rfl

@[simp] theorem oneLabel_text (value : String) : OneLabel (.text value) := trivial

@[simp] theorem oneLabel_flag (value : Bool) : OneLabel (.flag value) := trivial

@[simp] theorem oneLabel_scalar (value : Scalar) : OneLabel (.scalar value) := trivial

theorem oneLine_fieldLabel {key : String} (h : OneLine key.toList) :
    OneLine (fieldLabel key).toList := by
  unfold fieldLabel
  split
  · decide
  split
  · decide
  split
  · decide
  split
  · decide
  · exact h

mutual
/-- Debug text is one line if the names and labels are. -/
theorem oneLine_debug : (form : Form) → form.Every OneLabel → OneLine form.debug.toList
  | .record name fields, h => by
    obtain ⟨⟨hname, hkeys⟩, hfields⟩ := every_record_iff.1 h
    unfold debug
    split
    · exact hname
    · have hinside := oneLine_commas (oneLine_debugFields fields hkeys hfields)
      simpa [isBreak, hname] using hinside
  | .text value, _ => by
    unfold debug
    exact oneLine_quoted value
  | .flag value, _ => by
    unfold debug
    cases value <;> decide
  | .word _ _, h => by
    unfold debug
    exact h
  | .scalar value, _ => by
    unfold debug
    exact value.oneLine_debug
  | .absent, _ => by
    unfold debug
    decide
  | .present value, h => by
    unfold debug
    simpa [isBreak] using oneLine_debug value (every_present_iff.1 h)
  | .list items, h => by
    unfold debug
    simpa [isBreak] using
      oneLine_commas (oneLine_debugItems items (every_list_iff.1 h))

theorem oneLine_debugFields : (fields : List (String × Form)) →
    (∀ field ∈ fields, OneLine field.1.toList) → EveryField OneLabel fields →
      ∀ text ∈ debugFields fields, OneLine text.toList
  | [], _, _ => nofun
  | (key, value) :: rest, hkeys, h => by
    obtain ⟨hkey, hkeys⟩ := List.forall_mem_cons.1 hkeys
    obtain ⟨hvalue, hrest⟩ := everyField_cons_iff.1 h
    unfold debugFields
    refine List.forall_mem_cons.2 ⟨?_, oneLine_debugFields rest hkeys hrest⟩
    simpa [isBreak, oneLine_fieldLabel hkey] using oneLine_debug value hvalue

theorem oneLine_debugItems : (items : List Form) → EveryItem OneLabel items →
    ∀ text ∈ debugItems items, OneLine text.toList
  | [], _ => nofun
  | item :: rest, h => by
    unfold EveryItem at h
    unfold debugItems
    exact List.forall_mem_cons.2 ⟨oneLine_debug item h.1, oneLine_debugItems rest h.2⟩
end

end Form

/-! ### Nodes -/

section Labels

open Form (OneLabel)

@[simp] theorem oneLabel_variableKind (kind : VariableKind) : (Form.ofWord kind).OneLabel := by
  cases kind <;> simp +decide [Form.ofWord, OneLabel]

@[simp] theorem oneLabel_propertyKind (kind : PropertyKind) : (Form.ofWord kind).OneLabel := by
  cases kind <;> simp +decide [Form.ofWord, OneLabel]

@[simp] theorem oneLabel_methodKind (kind : MethodKind) : (Form.ofWord kind).OneLabel := by
  cases kind <;> simp +decide [Form.ofWord, OneLabel]

@[simp] theorem oneLabel_updateOperator (operator : UpdateOperator) :
    (Form.ofWord operator).OneLabel := by
  cases operator <;> simp +decide [Form.ofWord, OneLabel]

@[simp] theorem Identifier.oneLabel_form (id : Identifier) : id.form.Every OneLabel := by
  simp +decide [Identifier.form]

@[simp] theorem Literal.oneLabel_form (literal : Literal) : literal.form.Every OneLabel := by
  simp +decide [Literal.form, Regex.form]

@[simp] theorem TemplateElement.oneLabel_form (element : TemplateElement) :
    element.form.Every OneLabel := by
  simp +decide [TemplateElement.form, TemplateText.form]

@[simp] theorem ExportSpecifier.oneLabel_form (specifier : ExportSpecifier) :
    specifier.form.Every OneLabel := by
  simp +decide [ExportSpecifier.form]

theorem oneLabel_block {body : List Node} (h : ∀ node ∈ body, node.form.Every OneLabel) :
    (Form.block (formAll body)).Every OneLabel := by
  simpa +decide [Form.block] using h

mutual
/-- The names and labels in the form of a node are on one line. -/
theorem Node.oneLabel_form : (node : Node) → node.form.Every OneLabel
  -- at most one child
  | .identifier id => id.oneLabel_form
  | .literal literal => literal.oneLabel_form
  | .templateElement element => element.oneLabel_form
  | .exportSpecifier specifier => specifier.oneLabel_form
  | .thisExpression | .superReference | .importCallee | .emptyStatement | .debuggerStatement
  | .breakStatement _ | .continueStatement _ | .metaProperty _ _ | .importSpecifier _ _
  | .exportAllDeclaration _ => by
    simp +decide [Node.form]
  | .awaitExpression child | .restElement child | .spreadElement child | .throwStatement child
  | .updateExpression _ child _ | .unaryExpression _ child _ | .labeledStatement _ child
  | .exportDefaultDeclaration child | .expressionStatement child _ => by
    simp +decide [Node.form, child.oneLabel_form]
  | .returnStatement child | .yieldExpression child _ | .exportNamedDeclaration child _ _ => by
    simpa +decide [Node.form] using oneLabel_option child
  -- several children
  | .assignmentExpression _ left right | .binaryExpression _ left right
  | .logicalExpression _ left right | .assignmentPattern left right | .memberExpression _ left right
  | .whileStatement left right | .doWhileStatement left right | .withStatement left right => by
    simp +decide [Node.form, left.oneLabel_form, right.oneLabel_form]
  | .conditionalExpression first second third | .forInStatement first second third _
  | .forOfStatement first second third => by
    simp +decide [Node.form, first.oneLabel_form, second.oneLabel_form, third.oneLabel_form]
  | .ifStatement test consequent alternate => by
    simpa +decide [Node.form, test.oneLabel_form, consequent.oneLabel_form] using
      oneLabel_option alternate
  | .forStatement init test update body => by
    have hinit := oneLabel_option init
    have htest := oneLabel_option test
    have hupdate := oneLabel_option update
    simpa +decide [Node.form, body.oneLabel_form] using ⟨hinit, htest, hupdate⟩
  | .property key _ value _ _ _ => by
    simpa +decide [Node.form, key.oneLabel_form] using oneLabel_option value
  -- lists of children
  | .arrayExpression elements | .arrayPattern elements => by
    simpa +decide [Node.form] using oneLabel_holes elements
  | .blockStatement body => oneLabel_block (oneLabel_all body)
  | .program _ children | .objectExpression children | .objectPattern children
  | .sequenceExpression children => by
    simpa +decide [Node.form] using oneLabel_all children
  | .callExpression callee arguments | .newExpression callee arguments => by
    simpa +decide [Node.form, callee.oneLabel_form] using oneLabel_all arguments
  | .arrowFunctionExpression _ params body _ _ _ => by
    simpa +decide [Node.form, body.oneLabel_form] using oneLabel_all params
  | .switchStatement discriminant cases => by
    simpa +decide [Node.form, discriminant.oneLabel_form] using oneLabel_cases cases
  | .variableDeclaration declarations _ => by
    simpa +decide [Node.form] using oneLabel_declarators declarations
  | .classBody members => by
    simpa +decide [Node.form] using oneLabel_members members
  -- records
  | .catchClause clause => clause.oneLabel_form
  | .switchCase case => case.oneLabel_form
  | .variableDeclarator declarator => declarator.oneLabel_form
  | .templateLiteral template => template.oneLabel_form
  | .methodDefinition method => method.oneLabel_form
  | .taggedTemplateExpression tag quasi => by
    simp +decide [Node.form, tag.oneLabel_form, quasi.oneLabel_form]
  | .functionDeclaration function => function.oneLabel_record "FunctionDeclaration" (by decide)
  | .functionExpression function => function.oneLabel_record "FunctionExpression" (by decide)
  | .classDeclaration definition => definition.oneLabel_record "ClassDeclaration" (by decide)
  | .classExpression definition => definition.oneLabel_record "ClassExpression" (by decide)
  | .tryStatement block handler finalizer => by
    refine every_tryStatement_iff.2 ⟨?_, oneLabel_block (oneLabel_all block), ?_, ?_⟩
    · cases handler <;> cases finalizer <;> simp +decide [Node.form]
    · match handler with
      | none => nofun
      | some clause => exact fun _ h => by cases h; exact clause.oneLabel_form
    · match finalizer with
      | none => nofun
      | some body => exact fun _ h => by cases h; exact oneLabel_block (oneLabel_all body)

theorem oneLabel_all : (nodes : List Node) → ∀ node ∈ nodes, node.form.Every OneLabel
  | [] => nofun
  | node :: rest => List.forall_mem_cons.2 ⟨node.oneLabel_form, oneLabel_all rest⟩

theorem oneLabel_option : (node? : Option Node) → ∀ node ∈ node?, node.form.Every OneLabel
  | none => nofun
  | some node => fun _ h => by cases h; exact node.oneLabel_form

theorem oneLabel_holes :
    (elements : List (Option Node)) → ∀ node? ∈ elements, ∀ node ∈ node?, node.form.Every OneLabel
  | [] => nofun
  | node? :: rest => List.forall_mem_cons.2 ⟨oneLabel_option node?, oneLabel_holes rest⟩

theorem Func.oneLabel_record (name : String) (hname : OneLine name.toList) :
    (function : Func) → (Form.record name function.formFields).Every OneLabel
  | ⟨id, params, body, _, _, _⟩ => by
    have hbody := oneLabel_block (oneLabel_all body)
    simpa +decide [Func.formFields, hname, hbody] using oneLabel_all params

theorem Class.oneLabel_record (name : String) (hname : OneLine name.toList) :
    (definition : Class) → (Form.record name definition.formFields).Every OneLabel
  | ⟨_, superClass, members⟩ => by
    have hsuper := oneLabel_option superClass
    simpa +decide [Class.formFields, hname] using ⟨hsuper, oneLabel_members members⟩

theorem Method.oneLabel_form : (method : Method) → method.form.Every OneLabel
  | ⟨key, _, none, _, _⟩ => by
    simpa +decide [Method.form] using oneLabel_option key
  | ⟨key, _, some function, _, _⟩ => by
    have hkey := oneLabel_option key
    have hfunction := function.oneLabel_record "FunctionExpression" (by decide)
    rw [Method.form]
    refine Form.every_record_iff.2 ⟨by simp +decide, ?_⟩
    simpa only [Form.everyField_cons_iff, every_formOption_iff, Form.every_flag_iff,
      Form.every_present_iff, Form.every_ofWord_iff, oneLabel_methodKind, Form.oneLabel_flag,
      Form.everyField_nil, and_true, true_and] using ⟨hkey, hfunction⟩

theorem oneLabel_members : (members : List Method) → ∀ member ∈ members, member.form.Every OneLabel
  | [] => nofun
  | member :: rest => List.forall_mem_cons.2 ⟨member.oneLabel_form, oneLabel_members rest⟩

theorem Declarator.oneLabel_form : (declarator : Declarator) → declarator.form.Every OneLabel
  | ⟨id, init⟩ => by
    simpa +decide [Declarator.form, id.oneLabel_form] using oneLabel_option init

theorem oneLabel_declarators :
    (declarators : List Declarator) → ∀ declarator ∈ declarators, declarator.form.Every OneLabel
  | [] => nofun
  | declarator :: rest =>
    List.forall_mem_cons.2 ⟨declarator.oneLabel_form, oneLabel_declarators rest⟩

theorem SwitchCase.oneLabel_form : (case : SwitchCase) → case.form.Every OneLabel
  | ⟨test, consequent⟩ => by
    have htest := oneLabel_option test
    simpa +decide [SwitchCase.form] using ⟨htest, oneLabel_all consequent⟩

theorem oneLabel_cases : (cases : List SwitchCase) → ∀ case ∈ cases, case.form.Every OneLabel
  | [] => nofun
  | case :: rest => List.forall_mem_cons.2 ⟨case.oneLabel_form, oneLabel_cases rest⟩

theorem CatchClause.oneLabel_form : (clause : CatchClause) → clause.form.Every OneLabel
  | ⟨param, body⟩ => by
    have hbody := oneLabel_block (oneLabel_all body)
    simpa +decide [CatchClause.form, hbody] using oneLabel_option param

theorem Template.oneLabel_form : (template : Template) → template.form.Every OneLabel
  | ⟨quasis, expressions⟩ => by
    simpa +decide [Template.form] using oneLabel_all expressions
end

end Labels

/-- **Debug text of a node is one line**, whatever strings it holds. -/
theorem Node.oneLine_debug (node : Node) : OneLine node.debug.toList :=
  node.form.oneLine_debug node.oneLabel_form

/-! ## No comment marks -/

section Spread

variable {R : Char → Char → Prop} {a b : Char}

theorem head?_spread (a b : Char) (chars : List Char) : (spread a b chars).head? = chars.head? := by
  fun_cases spread a b chars with
  | case1 x y rest h => simp [h.1]
  | case2 x y rest h => simp
  | case3 short h => rfl

theorem mem_of_mem_spread {c : Char} {chars : List Char} (h : c ∈ spread a b chars) :
    c = ' ' ∨ c ∈ chars := by
  fun_induction spread a b chars with
  | case1 x y rest hxy ih =>
    obtain ⟨rfl, rfl⟩ := hxy
    grind
  | case2 x y rest hxy ih => grind
  | case3 short hshort => exact .inr h

/-- What holds between neighbours still does, if a blank may stand anywhere. -/
theorem isChain_spread {chars : List Char} (h : chars.IsChain R) (hl : ∀ c, R c ' ')
    (hr : ∀ c, R ' ' c) : (spread a b chars).IsChain R := by
  fun_induction spread a b chars with
  | case1 x y rest hxy ih =>
    have hrest : rest.IsChain R := h.tail.tail
    -- what stands after `b` did so before, and `a` now stands before a blank
    have hb : (b :: spread a b rest).IsChain R := by
      rw [hxy.2] at h
      refine (ih hrest).cons fun d hd => ?_
      rw [head?_spread] at hd
      exact h.tail.rel_head? hd
    exact (hb.cons (by simpa using hr b)).cons (by simpa using hl a)
  | case2 x y rest hxy ih =>
    refine (ih h.tail).cons fun d hd => ?_
    rw [head?_spread] at hd
    exact h.rel_head? hd
  | case3 short hshort => exact h

/-- The two characters do not stand next to each other any more. -/
theorem isChain_spread_ne (hab : a ≠ b) (hb : b ≠ ' ') (ha : a ≠ ' ') (chars : List Char) :
    (spread a b chars).IsChain fun c d => ¬ (c = a ∧ d = b) := by
  fun_induction spread a b chars with
  | case1 x y rest hxy ih =>
    have hlast : (b :: spread a b rest).IsChain fun c d => ¬ (c = a ∧ d = b) :=
      ih.cons fun d _ h => hab h.1.symm
    exact (hlast.cons (by simp [ha.symm])).cons (by simp [hb.symm])
  | case2 x y rest hxy ih =>
    refine ih.cons fun d hd => ?_
    rw [head?_spread] at hd
    cases hd
    exact hxy
  | case3 short hshort =>
    match short, hshort with
    | [], _ => exact .nil
    | [c], _ => exact .singleton c
    | c :: d :: rest, h => exact absurd rfl (h c d rest)

end Spread

/-- **Both replacements leave no comment mark:** the second does not bring back what the first took
away. -/
theorem unmarked_withoutCommentMarks (text : String) :
    Unmarked (withoutCommentMarks text).toList := by
  unfold withoutCommentMarks
  rw [String.toList_ofList]
  have hopening : (spread '*' '/' (spread '/' '*' text.toList)).IsChain
      fun c d => ¬ (c = '/' ∧ d = '*') :=
    isChain_spread (isChain_spread_ne (by decide) (by decide) (by decide) _) (by simp) (by simp)
  have hclosing := isChain_spread_ne (by decide : '*' ≠ '/') (by decide) (by decide)
    (spread '/' '*' text.toList)
  rw [List.isChain_iff_forall_rel_of_append_cons_cons] at hopening hclosing
  exact List.isChain_iff_forall_rel_of_append_cons_cons.2 fun c d before after h =>
    ⟨hopening h, hclosing h⟩

theorem oneLine_withoutCommentMarks {text : String} (h : OneLine text.toList) :
    OneLine (withoutCommentMarks text).toList := by
  unfold withoutCommentMarks
  rw [String.toList_ofList]
  intro c hc
  rcases mem_of_mem_spread hc with rfl | hc
  · rfl
  rcases mem_of_mem_spread hc with rfl | hc
  · rfl
  · exact h c hc

/-- **A placeholder leaves everything open as it is**, whatever its node holds. -/
theorem Node.solid_placeholder {kind : String} (hk : glide [] kind.toList = some []) (node : Node) :
    Solid [] [] (placeholderText kind node.form) := by
  have hline := oneLine_withoutCommentMarks node.oneLine_debug
  have hreturn : '\r' ∉ (withoutCommentMarks node.debug).toList := fun hm => by
    simpa [isBreak] using hline _ hm
  have hname : Solid [] [] ("«" ++ kind) := Leads.append (.of_glide (by decide)) (.of_glide hk)
  exact hname.thenComment ['»', ' '] [] (by decide) (by decide) (by decide) (by decide)
    (unmarked_withoutCommentMarks _) hreturn

end SwiftScribe
