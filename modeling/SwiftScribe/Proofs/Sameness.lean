import SwiftScribe.Proofs.Alike

/-!
# Decoding sees only the schema

What a schema reads off two values that it cannot tell apart makes the same node, and the kinds of the
nodes inside are the same as well. So decoding ends with the same node on both, or with one error.

* `Form.same_record_iff`, `Form.same_list`: when forms are the same.
* `Schema.same_of_ofKind`: nodes whose fields are the same are the same, for every kind.
* `Node.decode_alike`: **decoding cannot tell values that are alike apart.**
-/

namespace SwiftScribe

/-! ## The same nodes -/

section Forms

open Form

@[simp] theorem Form.same_record_iff {name other : String} {fields others : List (String × Form)} :
    (Form.record name fields).same (.record other others) = true ↔
      name = other ∧ sameFields fields others = true := by
  show (name == other && sameFields fields others) = true ↔ _
  rw [Bool.and_eq_true, beq_iff_eq]

@[simp] theorem Form.sameFields_nil : sameFields [] [] = true := rfl

@[simp] theorem Form.sameFields_cons_iff {key name : String} {value other : Form}
    {rest others : List (String × Form)} :
    sameFields ((key, value) :: rest) ((name, other) :: others) = true ↔
      (key = name ∧ value.same other = true) ∧ sameFields rest others = true := by
  show (key == name && value.same other && sameFields rest others) = true ↔ _
  rw [Bool.and_eq_true, Bool.and_eq_true, beq_iff_eq]

@[simp] theorem Form.same_text_iff {value other : String} :
    (Form.text value).same (.text other) = true ↔ value = other :=
  beq_iff_eq

@[simp] theorem Form.same_flag_iff {value other : Bool} :
    (Form.flag value).same (.flag other) = true ↔ value = other :=
  beq_iff_eq

@[simp] theorem Form.same_scalar_iff {value other : Scalar} :
    (Form.scalar value).same (.scalar other) = true ↔ value.same other = true :=
  Iff.rfl

@[simp] theorem Form.same_ofWord_self {α : Type} [Word α] (word : α) :
    (Form.ofWord word).same (.ofWord word) = true :=
  same_text_iff.2 rfl

theorem Form.same_option {α : Type} {form : α → Form} {same : α → α → Prop} {item other : Option α}
    (h : Option.Rel same item other) (hs : ∀ a b, same a b → (form a).same (form b) = true) :
    (Form.option form item).same (.option form other) = true := by
  cases h with
  | none => rfl
  | some h => exact hs _ _ h

theorem Form.same_list {α : Type} {form : α → Form} {same : α → α → Prop} {items others : List α}
    (h : List.Forall₂ same items others) (hs : ∀ a b, same a b → (form a).same (form b) = true) :
    (Form.list (items.map form)).same (.list (others.map form)) = true := by
  show sameItems (items.map form) (others.map form) = true
  induction h with
  | nil => rfl
  | cons hhead _ ih => exact Bool.and_eq_true_iff.2 ⟨hs _ _ hhead, ih⟩

theorem formAll_eq_map (nodes : List Node) : formAll nodes = nodes.map Node.form := by
  induction nodes with
  | nil => rfl
  | cons node rest ih => rw [formAll, List.map_cons, ih]

theorem formOption_eq (node? : Option Node) : formOption node? = .option Node.form node? := by
  cases node? <;> rfl

theorem formHoles_eq_map (elements : List (Option Node)) :
    formHoles elements = elements.map (Form.option Node.form) := by
  induction elements with
  | nil => rfl
  | cons element rest ih => rw [formHoles, List.map_cons, ih, formOption_eq]

theorem formMembers_eq_map (members : List Method) :
    formMembers members = members.map Method.form := by
  induction members with
  | nil => rfl
  | cons member rest ih => rw [formMembers, List.map_cons, ih]

theorem formDeclarators_eq_map (declarators : List Declarator) :
    formDeclarators declarators = declarators.map Declarator.form := by
  induction declarators with
  | nil => rfl
  | cons declarator rest ih => rw [formDeclarators, List.map_cons, ih]

theorem formCases_eq_map (cases : List SwitchCase) : formCases cases = cases.map SwitchCase.form := by
  induction cases with
  | nil => rfl
  | cons case rest ih => rw [formCases, List.map_cons, ih]

end Forms

namespace Schema

/-! ### Records -/

@[simp] theorem same_node_iff {a b : Node} : node.Same a b ↔ a.form.same b.form = true := Iff.rfl

theorem same_of_option {a b : Option Node} (h : (optional node).Same a b) :
    (formOption a).same (formOption b) = true := by
  rw [formOption_eq, formOption_eq]
  exact Form.same_option h fun _ _ h => h

theorem same_of_nodes {a b : List Node} (h : nodes.Same a b) :
    (Form.list (formAll a)).same (.list (formAll b)) = true := by
  rw [formAll_eq_map, formAll_eq_map]
  exact Form.same_list h fun _ _ h => h

theorem same_of_holes {a b : List (Option Node)} (h : (list (optional node)).Same a b) :
    (Form.list (formHoles a)).same (.list (formHoles b)) = true := by
  rw [formHoles_eq_map, formHoles_eq_map]
  exact Form.same_list h fun _ _ h => Form.same_option h fun _ _ h => h

theorem eq_of_unset {a b : Bool} (h : unset.Same a b) : a = b := by
  rcases h with h | h <;> exact h

theorem same_of_identifier {a b : Identifier} (h : identifier.Same a b) :
    a.form.same b.form = true := by
  obtain ⟨name, _, rfl, rfl, rfl⟩ := h
  simp [Identifier.form]

theorem same_of_name {a b : Option Identifier} (h : (optional identifier).Same a b) :
    (Form.option Identifier.form a).same (.option Identifier.form b) = true :=
  Form.same_option h fun _ _ => same_of_identifier

theorem same_of_regex {a b : Regex} (h : regex.Same a b) : a.form.same b.form = true := by
  obtain ⟨pattern, _, rfl, flags, _, rfl, rfl, rfl⟩ := h
  simp [Regex.form]

theorem same_of_literal {a b : Literal} (h : literal.Same a b) : a.form.same b.form = true := by
  obtain ⟨value, value', hvalue, raw, _, rfl, regex, regex', hregex, rfl, rfl⟩ := h
  have hvalue : value.same value' = true := hvalue
  have hregex := Form.same_option hregex fun _ _ => same_of_regex
  simp [Literal.form, hvalue, hregex]

theorem same_of_templateText {a b : TemplateText} (h : templateText.Same a b) :
    a.form.same b.form = true := by
  obtain ⟨cooked, cooked', hcooked, raw, _, rfl, rfl, rfl⟩ := h
  have hcooked : (Form.option .text cooked).same (.option .text cooked') = true :=
    Form.same_option hcooked fun _ _ h => Form.same_text_iff.2 h
  simpa [TemplateText.form] using hcooked

theorem same_of_templateElement {a b : TemplateElement} (h : templateElement.Same a b) :
    a.form.same b.form = true := by
  obtain ⟨value, value', hvalue, tail, tail', htail, rfl, rfl⟩ := h
  simpa [TemplateElement.form, eq_of_unset htail] using same_of_templateText hvalue

theorem same_of_exportSpecifier {a b : ExportSpecifier} (h : exportSpecifier.Same a b) :
    a.form.same b.form = true := by
  obtain ⟨exported, exported', hexported, inner, inner', hinner, rfl, rfl⟩ := h
  simpa [ExportSpecifier.form] using ⟨same_of_identifier hexported, same_of_identifier hinner⟩

theorem same_of_block {a b : List Node} (h : block.Same a b) :
    (Form.block (formAll a)).same (.block (formAll b)) = true := by
  obtain ⟨body, body', hbody, rfl, rfl⟩ := h
  simpa [Form.block] using same_of_nodes hbody

theorem same_of_func {a b : Func} (h : func.Same a b) :
    Form.sameFields a.formFields b.formFields = true := by
  obtain ⟨id, id', hid, params, params', hparams, body, body', hbody, generator, generator', hg,
    isAsync, isAsync', ha, expression, expression', he, rfl, rfl⟩ := h
  simpa [Func.formFields, eq_of_unset hg, eq_of_unset ha, eq_of_unset he] using
    ⟨same_of_name hid, same_of_nodes hparams, same_of_block hbody⟩

theorem same_of_method {a b : Method} (h : method.Same a b) : a.form.same b.form = true := by
  obtain ⟨key, key', hkey, computed, computed', hc, value, value', hvalue, kind, _, rfl, isStatic,
    isStatic', hs, rfl, rfl⟩ := h
  have hkey := same_of_option hkey
  cases hvalue with
  | none => simp [Method.form, eq_of_unset hc, eq_of_unset hs, hkey, Form.same]
  | some hvalue =>
    simp [Method.form, eq_of_unset hc, eq_of_unset hs, hkey, Form.same, same_of_func hvalue]

theorem same_of_members {a b : List Method} (h : members.Same a b) :
    (Form.record "ClassBody" [("body", .list (formMembers a))]).same
      (.record "ClassBody" [("body", .list (formMembers b))]) = true := by
  obtain ⟨body, body', hbody, rfl, rfl⟩ := h
  rw [formMembers_eq_map, formMembers_eq_map]
  simpa using Form.same_list hbody fun _ _ => same_of_method

theorem same_of_classDefinition {a b : Class} (h : classDefinition.Same a b) :
    Form.sameFields a.formFields b.formFields = true := by
  obtain ⟨id, id', hid, superClass, superClass', hsuper, body, body', hbody, rfl, rfl⟩ := h
  have hbody := same_of_members hbody
  simpa [Class.formFields] using ⟨same_of_name hid, same_of_option hsuper, by simpa using hbody⟩

theorem same_of_declarator {a b : Declarator} (h : declarator.Same a b) :
    a.form.same b.form = true := by
  obtain ⟨id, id', hid, init, init', hinit, rfl, rfl⟩ := h
  simpa [Declarator.form] using ⟨hid, same_of_option hinit⟩

theorem same_of_switchCase {a b : SwitchCase} (h : switchCase.Same a b) :
    a.form.same b.form = true := by
  obtain ⟨test, test', htest, consequent, consequent', hconsequent, rfl, rfl⟩ := h
  simpa [SwitchCase.form] using ⟨same_of_option htest, same_of_nodes hconsequent⟩

theorem same_of_catchClause {a b : CatchClause} (h : catchClause.Same a b) :
    a.form.same b.form = true := by
  obtain ⟨param, param', hparam, body, body', hbody, rfl, rfl⟩ := h
  simpa [CatchClause.form] using ⟨same_of_option hparam, same_of_block hbody⟩

theorem same_of_template {a b : Template} (h : template.Same a b) : a.form.same b.form = true := by
  obtain ⟨quasis, quasis', hquasis, expressions, expressions', hexpressions, rfl, rfl⟩ := h
  have hquasis := Form.same_list hquasis fun _ _ => same_of_templateElement
  simpa [Template.form, hquasis] using same_of_nodes hexpressions

/-- **Nodes of a kind whose fields are the same are the same.** The kinds are grouped by the shape of
their fields. -/
theorem same_of_ofKind {kind : Kind} {a b : Node} (h : (ofKind kind).Same a b) :
    a.same b = true := by
  unfold Node.same
  cases kind with
  | debuggerStatement | emptyStatement | importCallee | superReference | thisExpression =>
    obtain ⟨rfl, rfl⟩ := h
    simp [Node.form]
  | awaitExpression | exportDefaultDeclaration | restElement | spreadElement | throwStatement =>
    obtain ⟨part, part', hpart, rfl, rfl⟩ := h
    simpa [Node.form] using hpart
  | returnStatement =>
    obtain ⟨part, part', hpart, rfl, rfl⟩ := h
    simpa [Node.form] using same_of_option hpart
  | arrayExpression | arrayPattern =>
    obtain ⟨part, part', hpart, rfl, rfl⟩ := h
    simpa [Node.form] using same_of_holes hpart
  | objectExpression | objectPattern | sequenceExpression =>
    obtain ⟨part, part', hpart, rfl, rfl⟩ := h
    simpa [Node.form] using same_of_nodes hpart
  | assignmentPattern | doWhileStatement | whileStatement | withStatement =>
    obtain ⟨first, first', hfirst, second, second', hsecond, rfl, rfl⟩ := h
    simpa [Node.form] using ⟨hfirst, hsecond⟩
  | callExpression | newExpression =>
    obtain ⟨callee, callee', hcallee, arguments, arguments', harguments, rfl, rfl⟩ := h
    simpa [Node.form] using ⟨hcallee, same_of_nodes harguments⟩
  | assignmentExpression | binaryExpression | logicalExpression | memberExpression =>
    obtain ⟨word, _, rfl, left, left', hleft, right, right', hright, rfl, rfl⟩ := h
    simpa [Node.form] using ⟨hleft, hright⟩
  | conditionalExpression | forOfStatement =>
    obtain ⟨first, first', hfirst, second, second', hsecond, third, third', hthird, rfl, rfl⟩ := h
    simpa [Node.form] using ⟨hfirst, hsecond, hthird⟩
  | ifStatement =>
    obtain ⟨test, test', htest, yes, yes', hyes, no, no', hno, rfl, rfl⟩ := h
    simpa [Node.form] using ⟨htest, hyes, same_of_option hno⟩
  | unaryExpression =>
    obtain ⟨operator, _, rfl, argument, argument', hargument, isPrefix, isPrefix', hp, rfl, rfl⟩ := h
    have hp : isPrefix = isPrefix' := hp.elim id id
    simpa [Node.form, hp] using hargument
  | updateExpression =>
    obtain ⟨operator, _, rfl, argument, argument', hargument, isPrefix, _, rfl, rfl, rfl⟩ := h
    simpa [Node.form] using hargument
  | expressionStatement =>
    obtain ⟨expression, expression', hexpression, directive, directive', hdirective, rfl, rfl⟩ := h
    have hdirective : (Form.option .text directive).same (.option .text directive') = true :=
      Form.same_option hdirective fun _ _ h => Form.same_text_iff.2 h
    simpa [Node.form] using ⟨hexpression, hdirective⟩
  | yieldExpression =>
    obtain ⟨argument, argument', hargument, delegate, delegate', hd, rfl, rfl⟩ := h
    simpa [Node.form, eq_of_unset hd] using same_of_option hargument
  | program =>
    obtain ⟨sourceType, sourceType', hs, body, body', hbody, rfl, rfl⟩ := h
    have hs : sourceType = sourceType' := hs.elim id id
    simpa [Node.form, hs] using same_of_nodes hbody
  | forInStatement =>
    obtain ⟨left, left', hleft, right, right', hright, body, body', hbody, each, each', he, rfl,
      rfl⟩ := h
    simpa [Node.form, eq_of_unset he] using ⟨hleft, hright, hbody⟩
  | forStatement =>
    obtain ⟨init, init', hinit, test, test', htest, update, update', hupdate, body, body', hbody, rfl,
      rfl⟩ := h
    simpa [Node.form] using
      ⟨same_of_option hinit, same_of_option htest, same_of_option hupdate, hbody⟩
  | property =>
    obtain ⟨key, key', hkey, computed, _, rfl, value, value', hvalue, kind, _, rfl, method, method',
      hm, shorthand, shorthand', hs, rfl, rfl⟩ := h
    simpa [Node.form, eq_of_unset hm, eq_of_unset hs] using ⟨hkey, same_of_option hvalue⟩
  | arrowFunctionExpression =>
    obtain ⟨id, id', hid, params, params', hparams, body, body', hbody, generator, generator', hg,
      isAsync, isAsync', ha, expression, expression', he, rfl, rfl⟩ := h
    simpa [Node.form, eq_of_unset hg, eq_of_unset ha, eq_of_unset he] using
      ⟨same_of_name hid, same_of_nodes hparams, hbody⟩
  | breakStatement | continueStatement =>
    obtain ⟨label, label', hlabel, rfl, rfl⟩ := h
    simpa [Node.form] using same_of_name hlabel
  | labeledStatement =>
    obtain ⟨label, label', hlabel, body, body', hbody, rfl, rfl⟩ := h
    simpa [Node.form] using ⟨same_of_identifier hlabel, hbody⟩
  | importSpecifier =>
    obtain ⟨inner, inner', hinner, imported, imported', himported, rfl, rfl⟩ := h
    simpa [Node.form] using ⟨same_of_identifier hinner, same_of_name himported⟩
  | metaProperty =>
    obtain ⟨base, base', hbase, property, property', hproperty, rfl, rfl⟩ := h
    simpa [Node.form] using ⟨same_of_identifier hbase, same_of_identifier hproperty⟩
  | exportAllDeclaration =>
    obtain ⟨source, source', hsource, rfl, rfl⟩ := h
    simpa [Node.form] using same_of_literal hsource
  | exportNamedDeclaration =>
    obtain ⟨declaration, declaration', hdeclaration, specifiers, specifiers', hspecifiers, source,
      source', hsource, rfl, rfl⟩ := h
    have hspecifiers := Form.same_list hspecifiers fun _ _ => same_of_exportSpecifier
    have hsource := Form.same_option hsource fun _ _ => same_of_literal
    simpa [Node.form] using ⟨same_of_option hdeclaration, hspecifiers, hsource⟩
  | variableDeclaration =>
    obtain ⟨declarations, declarations', hdeclarations, kind, _, rfl, rfl, rfl⟩ := h
    simpa [Node.form, formDeclarators_eq_map] using
      Form.same_list hdeclarations fun _ _ => same_of_declarator
  | switchStatement =>
    obtain ⟨discriminant, discriminant', hdiscriminant, cases, cases', hcases, rfl, rfl⟩ := h
    simpa [Node.form, formCases_eq_map] using
      ⟨hdiscriminant, Form.same_list hcases fun _ _ => same_of_switchCase⟩
  | tryStatement =>
    obtain ⟨block, block', hblock, handler, handler', hhandler, finalizer, finalizer', hfinalizer, rfl,
      rfl⟩ := h
    have hblock := same_of_block hblock
    cases hhandler <;> cases hfinalizer <;>
      simp_all [Node.form, Form.same, same_of_catchClause, same_of_block]
  | taggedTemplateExpression =>
    obtain ⟨tag, tag', htag, quasi, quasi', hquasi, rfl, rfl⟩ := h
    simpa [Node.form] using ⟨htag, same_of_template hquasi⟩
  | functionDeclaration | functionExpression =>
    obtain ⟨function, function', hfunction, rfl, rfl⟩ := h
    simpa [Node.form] using same_of_func hfunction
  | classDeclaration | classExpression =>
    obtain ⟨definition, definition', hdefinition, rfl, rfl⟩ := h
    simpa [Node.form] using same_of_classDefinition hdefinition
  | identifier => obtain ⟨_, _, h, rfl, rfl⟩ := h; exact same_of_identifier h
  | literal => obtain ⟨_, _, h, rfl, rfl⟩ := h; exact same_of_literal h
  | exportSpecifier => obtain ⟨_, _, h, rfl, rfl⟩ := h; exact same_of_exportSpecifier h
  | blockStatement => obtain ⟨_, _, h, rfl, rfl⟩ := h; exact same_of_block h
  | classBody => obtain ⟨_, _, h, rfl, rfl⟩ := h; exact same_of_members h
  | methodDefinition => obtain ⟨_, _, h, rfl, rfl⟩ := h; exact same_of_method h
  | variableDeclarator => obtain ⟨_, _, h, rfl, rfl⟩ := h; exact same_of_declarator h
  | switchCase => obtain ⟨_, _, h, rfl, rfl⟩ := h; exact same_of_switchCase h
  | catchClause => obtain ⟨_, _, h, rfl, rfl⟩ := h; exact same_of_catchClause h
  | templateElement => obtain ⟨_, _, h, rfl, rfl⟩ := h; exact same_of_templateElement h
  | templateLiteral => obtain ⟨_, _, h, rfl, rfl⟩ := h; exact same_of_template h

end Schema

/-! ## Nodes -/

theorem Kind.ofName?_name (kind : Kind) : Kind.ofName? kind.name = some kind := by
  cases kind <;> rfl

namespace Json

theorem Reordered.field_type {entries others : Entries}
    (h : (Json.obj entries).Reordered (.obj others)) (path : Path) :
    Cursor.field ⟨.obj entries, path⟩ "type" none Cursor.text =
      Cursor.field ⟨.obj others, path⟩ "type" none Cursor.text := by
  cases h with
  | leaf => rfl
  | obj _ hk h =>
    have hmissing : entries.get? "type" = none ↔ others.get? "type" = none := by
      rw [Entries.get?_eq_none_iff, Entries.get?_eq_none_iff, hk.mem_iff]
    cases hv : entries.get? "type" with
    | none => simp only [Cursor.field, hv, hmissing.1 hv]
    | some value =>
      cases ho : others.get? "type" with
      | none => simp [hmissing.2 ho] at hv
      | some other =>
        rw [Cursor.field_of_entry hv, Cursor.field_of_entry ho]
        exact Cursor.text_congr (h _ _ _ hv ho)

/-- Objects that are alike name the same kind of node, and are alike for the schema of that kind. -/
theorem AlikeWithin.type {levels : Nat} {entries others : Entries}
    (h : (Json.obj entries).AlikeWithin levels (.obj others)) (path : Path) :
    Cursor.field ⟨.obj entries, path⟩ "type" none Cursor.text =
        Cursor.field ⟨.obj others, path⟩ "type" none Cursor.text ∧
      ∀ kind, Cursor.field ⟨.obj entries, path⟩ "type" none Cursor.text = .ok kind.name →
        ∃ within, (Schema.ofKind kind).Alike (AlikeWithin within) (.obj entries) (.obj others) := by
  have hcases : (Json.obj entries).Reordered (.obj others) ∨ ∃ within named,
      entries.get? "type" = some (.str (SwiftScribe.Kind.name named)) ∧
        others.get? "type" = some (.str named.name) ∧
        (Schema.ofKind named).Alike (AlikeWithin within) (.obj entries) (.obj others) := by
    cases levels with
    | zero => exact .inl h
    | succ levels =>
      rcases h with h | ⟨named, _, _, ⟨⟩, ⟨⟩, hv, ho, h⟩
      · exact .inl h
      · exact .inr ⟨levels, named, hv, ho, h⟩
  rcases hcases with h | ⟨within, named, hv, ho, h⟩
  · refine ⟨h.field_type path, fun kind _ => ⟨levels, ?_⟩⟩
    exact Schema.alike_of_reordered (blind_alikeWithin levels) (.ofKind kind) h
  · rw [Cursor.field_of_entry hv, Cursor.field_of_entry ho]
    refine ⟨rfl, fun kind hkind => ⟨within, ?_⟩⟩
    have hname : named.name = kind.name := Except.ok.inj hkind
    have hsome : some named = some kind := by
      rw [← SwiftScribe.Kind.ofName?_name named, hname, SwiftScribe.Kind.ofName?_name]
    exact Option.some.inj hsome ▸ h

end Json

namespace Node

theorem decodeWithin_of_not_object {value : Json} (hne : value.kind ≠ .object) (depth : Nat)
    (path : Json.Path) :
    decodeWithin depth ⟨value, path⟩ = .error (Cursor.mismatch ⟨value, path⟩ .object) := by
  cases depth with
  | zero => rfl
  | succ depth => rw [decodeWithin, Cursor.field_of_not_object hne]; rfl

/-- **Nodes that are alike are decoded alike.** The induction is on the depth that is left on one side;
the other side may have another depth, since entries that nobody looks at have a depth too. -/
theorem agreeWithin_decodeWithin (depth : Nat) : ∀ depth' levels,
    AgreeWithin (Json.AlikeWithin levels) (decodeWithin depth) (decodeWithin depth') depth
      depth' := by
  induction depth with
  | zero =>
    intro depth' levels value other path h hd hd'
    have hk := (Json.blind_alikeWithin levels).kind_eq h
    have hne : value.kind ≠ .object := by
      intro hobj
      obtain ⟨entries, rfl⟩ := Json.eq_obj_of_kind hobj
      rw [Json.depth] at hd
      omega
    rw [decodeWithin_of_not_object hne, decodeWithin_of_not_object (hk ▸ hne),
      Cursor.mismatch_congr hk]
    exact .error _
  | succ depth ih =>
    intro depth' levels value other path h hd hd'
    have hk := (Json.blind_alikeWithin levels).kind_eq h
    by_cases hobj : value.kind = .object
    · obtain ⟨entries, rfl⟩ := Json.eq_obj_of_kind hobj
      obtain ⟨others, rfl⟩ := Json.eq_obj_of_kind (hk.symm.trans hobj)
      obtain ⟨depth', rfl⟩ : ∃ n, depth' = n + 1 := by
        rw [Json.depth] at hd'
        exact ⟨depth' - 1, by omega⟩
      obtain ⟨htype, hkind⟩ := h.type path
      rw [decodeWithin, decodeWithin, ← htype]
      cases hname : Cursor.field ⟨.obj entries, path⟩ "type" none Cursor.text with
      | error e => exact .error e
      | ok name =>
        simp only [bind, Except.bind]
        cases hof : Kind.ofName? name with
        | none => exact .error _
        | some kind =>
          obtain rfl := Kind.name_of_ofName? hof
          obtain ⟨within, halike⟩ := hkind kind hname
          exact ((Schema.ofObject_ofKind kind).agree_decode (Json.blind_alikeWithin within)
            (ih depth' within) hd hd' halike).imp fun _ _ => Schema.same_of_ofKind
    · rw [decodeWithin_of_not_object hobj, decodeWithin_of_not_object (hk ▸ hobj),
        Cursor.mismatch_congr hk]
      exact .error _

/-- **Decoding sees only the schema:** on values that differ in nothing that the schema looks at, it
ends with nodes that are the same, or with one and the same error at one and the same place. -/
theorem decode_alike {value other : Json} (h : value.Alike other) :
    (∃ node node', Node.decode value = .ok node ∧ Node.decode other = .ok node' ∧
        node.same node' = true) ∨
      ∃ error, Node.decode value = .error error ∧ Node.decode other = .error error := by
  obtain ⟨levels, h⟩ := h
  have hagree := agreeWithin_decodeWithin value.depth other.depth levels value other [] h
    (Nat.le_refl _) (Nat.le_refl _)
  unfold Node.decode
  generalize decodeWithin value.depth ⟨value, []⟩ = first at hagree ⊢
  generalize decodeWithin other.depth ⟨other, []⟩ = second at hagree ⊢
  cases hagree with
  | ok hsame => exact .inl ⟨_, _, rfl, rfl, hsame⟩
  | error e => exact .inr ⟨e, rfl, rfl⟩

/-- A program of one statement, whose literal holds a map. -/
def plain : Json :=
  .obj [("type", .str "Program"), ("body", .arr [.obj [("type", .str "ExpressionStatement"),
    ("expression", .obj [("type", .str "Literal"),
      ("value", .obj [("a", .int 1), ("b", .null)]), ("raw", .str "x")])]])]

/-- The same program with its entries in another order, a place of the source in the literal, and
`null` for what may be missing. -/
def ornate : Json :=
  .obj [("sourceType", .null), ("body", .arr [.obj [("directive", .null),
    ("expression", .obj [("raw", .str "x"), ("loc", .arr [.obj [("line", .int 1)]]),
      ("value", .obj [("b", .null), ("a", .int 1)]), ("regex", .null), ("type", .str "Literal")]),
    ("type", .str "ExpressionStatement")]]), ("type", .str "Program")]

theorem decode_alike_ornate :
    plain.Alike ornate ∧
      ((∃ node node', Node.decode plain = .ok node ∧ Node.decode ornate = .ok node' ∧
          node.same node' = true) ∨
        ∃ error, Node.decode plain = .error error ∧ Node.decode ornate = .error error) := by
  have hmap : (Json.obj [("a", .int 1), ("b", .null)]).Reordered
      (.obj [("b", .null), ("a", .int 1)]) := by
    refine .obj (by decide) (by decide) fun key value other hv ho => ?_
    rw [Json.Entries.get?_cons, Json.Entries.get?_cons] at hv ho
    by_cases ha : key = "a"
    · subst ha
      cases hv
      cases ho
      exact .leaf _ rfl
    · rw [if_neg ha] at hv
      split at hv
      · rename_i hb
        subst hb
        cases hv
        cases ho
        exact .leaf _ rfl
      · cases hv
  have h : plain.Alike ornate := by
    refine ⟨3, .inr ⟨.program, _, _, rfl, rfl, rfl, rfl, .inr ⟨_, _, rfl, rfl, ⟨trivial, ?_⟩, ?_⟩⟩⟩
    · exact ⟨rfl, rfl⟩
    · refine .inr ⟨_, _, rfl, rfl, .cons ?_ .nil⟩
      refine .inr ⟨.expressionStatement, _, _, rfl, rfl, rfl, rfl,
        .inr ⟨_, _, rfl, rfl, ⟨trivial, ?_⟩, ?_⟩⟩
      · refine .inr ⟨.literal, _, _, rfl, rfl, rfl, rfl,
          .inr ⟨_, _, rfl, rfl, ⟨⟨trivial, ?_⟩, ?_⟩, ?_⟩⟩
        · exact hmap
        · exact .leaf _ rfl
        · exact ⟨rfl, rfl⟩
      · exact ⟨rfl, rfl⟩
  exact ⟨h, decode_alike h⟩

end Node

end SwiftScribe
