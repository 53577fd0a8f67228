import SwiftScribe.Proofs.Culprit
import SwiftScribe.Node.Form

/-!
# How deep a syntax tree is

The nesting of a node is counted on its uniform view: every record and every list is one level, as
every object and every array of a JSON value is.

* `Schema.makes_of_decode`: a schema makes its values from parts that are no deeper than what was
  read.
* `Node.depth_form_le`: **a decoded node is no deeper than the value it was decoded from.**
-/

namespace SwiftScribe

namespace Form

mutual
/-- **How many records and lists are open at the deepest place.** -/
def depth : Form → Nat
  | .record _ fields => depthFields fields + 1
  | .list items => depthItems items + 1
  | .present value => depth value
  | _ => 0

/-- The greatest depth among the fields. -/
def depthFields : List (String × Form) → Nat
  | [] => 0
  | (_, value) :: rest => max (depth value) (depthFields rest)

/-- The greatest depth among the items. -/
def depthItems : List Form → Nat
  | [] => 0
  | item :: rest => max (depth item) (depthItems rest)
end

end Form

/-! ## Depth of the parts of a node -/

section Parts

variable {n : Nat}

namespace Form

@[simp] theorem depth_record_le_iff {name : String} {fields : List (String × Form)} :
    (Form.record name fields).depth ≤ n ↔ 1 ≤ n ∧ depthFields fields ≤ n - 1 := by
  rw [depth]
  omega

@[simp] theorem depth_list_le_iff {items : List Form} :
    (Form.list items).depth ≤ n ↔ 1 ≤ n ∧ depthItems items ≤ n - 1 := by
  rw [depth]
  omega

@[simp] theorem depth_present (value : Form) : (Form.present value).depth = value.depth := by
  rw [depth]

@[simp] theorem depth_absent : Form.absent.depth = 0 := rfl

@[simp] theorem depth_text (value : String) : (Form.text value).depth = 0 := rfl

@[simp] theorem depth_flag (value : Bool) : (Form.flag value).depth = 0 := rfl

@[simp] theorem depth_scalar (value : Scalar) : (Form.scalar value).depth = 0 := rfl

@[simp] theorem depth_ofWord {α : Type} [Word α] (word : α) : (Form.ofWord word).depth = 0 := rfl

@[simp] theorem depthFields_nil : depthFields [] = 0 := rfl

@[simp] theorem depthFields_cons_le_iff {key : String} {value : Form}
    {rest : List (String × Form)} :
    depthFields ((key, value) :: rest) ≤ n ↔ value.depth ≤ n ∧ depthFields rest ≤ n := by
  rw [depthFields, Nat.max_le]

@[simp] theorem depthItems_cons_le_iff {item : Form} {rest : List Form} :
    depthItems (item :: rest) ≤ n ↔ item.depth ≤ n ∧ depthItems rest ≤ n := by
  rw [depthItems, Nat.max_le]

@[simp] theorem depthItems_map_le_iff {α : Type} {form : α → Form} {items : List α} :
    depthItems (items.map form) ≤ n ↔ ∀ item ∈ items, (form item).depth ≤ n := by
  induction items with
  | nil => simp [depthItems]
  | cons item rest ih => simp [ih]

@[simp] theorem depth_option_le_iff {α : Type} {form : α → Form} {item? : Option α} :
    (Form.option form item?).depth ≤ n ↔ ∀ item ∈ item?, (form item).depth ≤ n := by
  cases item? <;> simp [Form.option]

end Form

@[simp] theorem depth_formAll_le_iff {nodes : List Node} :
    Form.depthItems (formAll nodes) ≤ n ↔ ∀ node ∈ nodes, node.form.depth ≤ n := by
  induction nodes with
  | nil => simp [formAll, Form.depthItems]
  | cons node rest ih => simp [formAll, ih]

@[simp] theorem depth_formOption_le_iff {node? : Option Node} :
    (formOption node?).depth ≤ n ↔ ∀ node ∈ node?, node.form.depth ≤ n := by
  cases node? <;> simp [formOption]

@[simp] theorem depth_formHoles_le_iff {elements : List (Option Node)} :
    Form.depthItems (formHoles elements) ≤ n ↔
      ∀ node? ∈ elements, ∀ node ∈ node?, node.form.depth ≤ n := by
  induction elements with
  | nil => simp [formHoles, Form.depthItems]
  | cons node? rest ih => simp [formHoles, ih]

@[simp] theorem depth_formMembers_le_iff {members : List Method} :
    Form.depthItems (formMembers members) ≤ n ↔ ∀ member ∈ members, member.form.depth ≤ n := by
  induction members with
  | nil => simp [formMembers, Form.depthItems]
  | cons member rest ih => simp [formMembers, ih]

@[simp] theorem depth_formDeclarators_le_iff {declarators : List Declarator} :
    Form.depthItems (formDeclarators declarators) ≤ n ↔
      ∀ declarator ∈ declarators, declarator.form.depth ≤ n := by
  induction declarators with
  | nil => simp [formDeclarators, Form.depthItems]
  | cons declarator rest ih => simp [formDeclarators, ih]

@[simp] theorem depth_formCases_le_iff {cases : List SwitchCase} :
    Form.depthItems (formCases cases) ≤ n ↔ ∀ case ∈ cases, case.form.depth ≤ n := by
  induction cases with
  | nil => simp [formCases, Form.depthItems]
  | cons case rest ih => simp [formCases, ih]

theorem Form.depth_tryStatement_le_iff {block : List Node} {handler : Option CatchClause}
    {finalizer : Option (List Node)} :
    (Node.tryStatement block handler finalizer).form.depth ≤ n ↔
      1 ≤ n ∧ (Form.block (formAll block)).depth ≤ n - 1 ∧
        (∀ clause ∈ handler, clause.form.depth ≤ n - 1) ∧
        ∀ body ∈ finalizer, (Form.block (formAll body)).depth ≤ n - 1 := by
  cases handler <;> cases finalizer <;> simp [Node.form]

end Parts

/-! ## What a schema makes -/

mutual
/-- **What a schema can make of values of at most some depth**, as far as depth is concerned. -/
def Schema.Makes : {α : Type} → Schema α → Nat → α → Prop
  | _, .node, depth, node => node.form.depth ≤ depth
  | _, .record fields, depth, made => fields.Makes depth fun value => value = made
  | _, .optional schema, depth, made => ∀ value ∈ made, schema.Makes depth value
  | _, .orElse schema default, depth, made => made = default ∨ schema.Makes depth made
  | _, .list schema, depth, made => 1 ≤ depth ∧ ∀ item ∈ made, schema.Makes (depth - 1) item
  | _, .map f schema, depth, made => ∃ value, schema.Makes depth value ∧ f value = made
  | _, _, _, _ => True

/-- Something that passes a test can be made of an object of at most some depth. The values of its
fields are one level below. -/
def Fields.Makes : {α : Type} → Fields α → Nat → (α → Prop) → Prop
  | _, .make value, _, passes => passes value
  | _, .field before _ schema, depth, passes =>
    before.Makes depth fun f =>
      1 ≤ depth ∧ ∃ value, schema.Makes (depth - 1) value ∧ passes (f value)
end

theorem Schema.makes_of_absent {α : Type} {schema : Schema α} {depth : Nat} {value : α}
    (h : schema.absent? = some value) : schema.Makes depth value := by
  cases schema with
  | optional schema =>
    cases h
    simp [Schema.Makes]
  | orElse schema default =>
    cases h
    exact .inl rfl
  | _ => cases h

/-- A field of an object: its entry, or what stands for a missing one. -/
theorem Cursor.cases_of_field {α : Type} {cursor : Cursor} {key : String} {absent? : Option α}
    {decode : Cursor → Except DecodeError α} {result : α}
    (h : cursor.field key absent? decode = .ok result) :
    ∃ entries, cursor.value = .obj entries ∧
      ((∃ value, Json.Entries.get? entries key = some value ∧
          decode ⟨value, cursor.path.join (.name key)⟩ = .ok result) ∨
        absent? = some result) := by
  unfold field at h
  split at h
  · rename_i entries hv
    refine ⟨entries, hv, ?_⟩
    cases hg : Json.Entries.get? entries key with
    | some value => exact .inl ⟨value, rfl, by simpa [hg] using h⟩
    | none => cases absent? <;> simp_all
  · cases h

theorem Cursor.ok_of_itemsFrom {α : Type} {path : Json.Path}
    {decode : Cursor → Except DecodeError α} {items : List Json} {start : Nat} {results : List α}
    (h : itemsFrom path decode start items = .ok results) {result : α} (hm : result ∈ results) :
    ∃ cursor, cursor.value ∈ items ∧ decode cursor = .ok result := by
  induction items generalizing start results with
  | nil => cases h; cases hm
  | cons item rest ih =>
    rw [itemsFrom] at h
    cases hd : decode ⟨item, path.join (.index start)⟩ with
    | error e => rw [hd] at h; cases h
    | ok first =>
      cases hr : itemsFrom path decode (start + 1) rest with
      | error e => rw [hd, hr] at h; cases h
      | ok others =>
        rw [hd, hr] at h
        cases h
        rcases List.mem_cons.1 hm with rfl | hm
        · exact ⟨_, List.mem_cons_self, hd⟩
        · obtain ⟨cursor, hc, hdecode⟩ := ih hr hm
          exact ⟨cursor, List.mem_cons_of_mem _ hc, hdecode⟩

/-- No node is deeper than what it is decoded from. -/
def KeepsDepth (child : Cursor → Except DecodeError Node) : Prop :=
  ∀ cursor node, child cursor = .ok node → node.form.depth ≤ cursor.value.depth

section Decoding

variable {child : Cursor → Except DecodeError Node}

mutual
/-- **A schema makes its values from parts that are no deeper than what was read.** -/
theorem Schema.makes_of_decode (hchild : KeepsDepth child) :
    {α : Type} → (schema : Schema α) → {cursor : Cursor} → {depth : Nat} → {result : α} →
      cursor.value.depth ≤ depth → schema.decode child cursor = .ok result →
      schema.Makes depth result
  | _, .text, _, _, _, _, _ => by simp only [Schema.Makes]
  | _, .flag, _, _, _, _, _ => by simp only [Schema.Makes]
  | _, .scalar, _, _, _, _, _ => by simp only [Schema.Makes]
  | _, @Schema.word _ _, _, _, _, _, _ => by simp only [Schema.Makes]
  | _, .node, cursor, _, result, hd, h => by
    rw [Schema.decode] at h
    exact Nat.le_trans (hchild cursor result h) hd
  | _, .record fields, _, _, _, hd, h => Fields.makes_of_decode hchild fields hd h rfl
  | _, .optional schema, cursor, _, _, hd, h => by
    rw [Schema.decode] at h
    split at h
    · cases h
      simp [Schema.Makes]
    · cases hs : schema.decode child cursor with
      | error e => rw [hs] at h; cases h
      | ok value =>
        rw [hs] at h
        cases h
        intro other hother
        cases hother
        exact Schema.makes_of_decode hchild schema hd hs
  | _, .orElse schema default, _, _, _, hd, h => by
    rw [Schema.decode] at h
    split at h
    · cases h
      exact .inl rfl
    · exact .inr (Schema.makes_of_decode hchild schema hd h)
  | _, .list schema, cursor, depth, _, hd, h => by
    rw [Schema.decode, Cursor.items] at h
    split at h
    · rename_i items hv
      rw [hv, Json.depth] at hd
      refine ⟨by omega, fun result hm => ?_⟩
      obtain ⟨item, hi, hdecode⟩ := Cursor.ok_of_itemsFrom h hm
      have hitem : item.value.depth ≤ depth - 1 := by
        have := Json.depth_of_mem hi
        omega
      exact Schema.makes_of_decode hchild schema hitem hdecode
    · cases h
  | _, .map f schema, cursor, _, _, hd, h => by
    rw [Schema.decode] at h
    cases hs : schema.decode child cursor with
    | error e => rw [hs] at h; cases h
    | ok value =>
      rw [hs] at h
      cases h
      exact ⟨value, Schema.makes_of_decode hchild schema hd hs, rfl⟩

theorem Fields.makes_of_decode (hchild : KeepsDepth child) :
    {α : Type} → (fields : Fields α) → {cursor : Cursor} → {depth : Nat} → {result : α} →
      {passes : α → Prop} → cursor.value.depth ≤ depth → fields.decode child cursor = .ok result →
      passes result → fields.Makes depth passes
  | _, .make value, _, _, _, _, _, h, hp => by
    cases h
    exact hp
  | _, .field before key schema, cursor, depth, _, _, hd, h, hp => by
    rw [Fields.decode] at h
    cases hb : before.decode child cursor with
    | error e => rw [hb] at h; cases h
    | ok f =>
      cases hf : cursor.field key schema.absent? (schema.decode child) with
      | error e => rw [hb, hf] at h; cases h
      | ok value =>
        rw [hb, hf] at h
        cases h
        obtain ⟨entries, hv, hcases⟩ := Cursor.cases_of_field hf
        refine Fields.makes_of_decode hchild before hd hb ?_
        rw [hv, Json.depth] at hd
        refine ⟨by omega, value, ?_, hp⟩
        rcases hcases with ⟨entry, hg, hdecode⟩ | habsent
        · have hentry : entry.depth ≤ depth - 1 := by
            have := Json.depth_of_get? hg
            omega
          exact Schema.makes_of_decode hchild schema hentry hdecode
        · exact Schema.makes_of_absent habsent
end

end Decoding

/-! ## Nodes -/

section Records

variable {depth : Nat}

namespace Schema

theorem depth_of_identifier {id : Identifier} (h : identifier.Makes depth id) :
    id.form.depth ≤ depth := by
  obtain ⟨hd, -⟩ := h
  simpa [Identifier.form] using hd

theorem depth_of_regex {regex : Regex} (h : Schema.regex.Makes depth regex) :
    regex.form.depth ≤ depth := by
  obtain ⟨hd, -⟩ := h
  simpa [Regex.form] using hd

theorem depth_of_literal {literal : Literal} (h : Schema.literal.Makes depth literal) :
    literal.form.depth ≤ depth := by
  obtain ⟨hd, value, -, -, raw, -, -, regex, hregex, rfl⟩ := h
  have hform := fun found hf => depth_of_regex (hregex found hf)
  simpa [Literal.form, hd] using hform

theorem depth_of_templateText {text : TemplateText} (h : templateText.Makes depth text) :
    text.form.depth ≤ depth := by
  obtain ⟨hd, -⟩ := h
  simpa [TemplateText.form] using hd

theorem depth_of_templateElement {element : TemplateElement}
    (h : templateElement.Makes depth element) : element.form.depth ≤ depth := by
  obtain ⟨hd, value, hvalue, -, tail, -, rfl⟩ := h
  simpa [TemplateElement.form, hd] using depth_of_templateText hvalue

theorem depth_of_exportSpecifier {specifier : ExportSpecifier}
    (h : exportSpecifier.Makes depth specifier) : specifier.form.depth ≤ depth := by
  obtain ⟨hd, exported, hexported, -, inner, hinner, rfl⟩ := h
  simpa [ExportSpecifier.form, hd] using ⟨depth_of_identifier hexported, depth_of_identifier hinner⟩

theorem depth_of_block {body : List Node} (h : block.Makes depth body) :
    (Form.block (formAll body)).depth ≤ depth := by
  obtain ⟨hd, body, hbody, rfl⟩ := h
  simpa [Form.block, hd, nodes, Schema.Makes] using hbody

theorem depth_of_func {function : Func} (h : func.Makes depth function) :
    1 ≤ depth ∧ Form.depthFields function.formFields ≤ depth - 1 := by
  obtain ⟨hd, id, hid, -, params, hparams, -, body, hbody, -, _, -, -, _, -, -, _, -, rfl⟩ := h
  have hid := fun found hf => depth_of_identifier (hid found hf)
  simpa [Func.formFields, hd] using ⟨hid, hparams, depth_of_block hbody⟩

theorem depth_of_method {method : Method} (h : Schema.method.Makes depth method) :
    method.form.depth ≤ depth := by
  obtain ⟨hd, key, hkey, -, _, -, -, value, hvalue, -, _, -, -, _, -, rfl⟩ := h
  have hvalue := fun found hf => depth_of_func (hvalue found hf)
  cases value with
  | none => simpa [Method.form, hd, Schema.Makes] using hkey
  | some function => simpa [Method.form, hd] using ⟨hkey, hvalue function rfl⟩

theorem depth_of_members {members : List Method} (h : Schema.members.Makes depth members) :
    (Form.record "ClassBody" [("body", .list (formMembers members))]).depth ≤ depth := by
  obtain ⟨hd, members, ⟨hlist, hmembers⟩, rfl⟩ := h
  have hmembers := fun member hm => depth_of_method (hmembers member hm)
  simpa [hd, hlist] using hmembers

theorem depth_of_classDefinition {definition : Class} (h : classDefinition.Makes depth definition) :
    1 ≤ depth ∧ Form.depthFields definition.formFields ≤ depth - 1 := by
  obtain ⟨hd, id, hid, -, superClass, hsuper, -, members, hmembers, rfl⟩ := h
  have hid := fun found hf => depth_of_identifier (hid found hf)
  have hmembers := depth_of_members hmembers
  simpa [Class.formFields, hd] using ⟨hid, hsuper, by simpa using hmembers⟩

theorem depth_of_declarator {declarator : Declarator}
    (h : Schema.declarator.Makes depth declarator) : declarator.form.depth ≤ depth := by
  obtain ⟨hd, id, hid, -, init, hinit, rfl⟩ := h
  simpa [Declarator.form, hd] using ⟨hid, hinit⟩

theorem depth_of_switchCase {case : SwitchCase} (h : switchCase.Makes depth case) :
    case.form.depth ≤ depth := by
  obtain ⟨hd, test, htest, -, consequent, hconsequent, rfl⟩ := h
  simpa [SwitchCase.form, hd] using ⟨htest, hconsequent⟩

theorem depth_of_catchClause {clause : CatchClause} (h : catchClause.Makes depth clause) :
    clause.form.depth ≤ depth := by
  obtain ⟨hd, param, hparam, -, body, hbody, rfl⟩ := h
  simpa [CatchClause.form, hd] using ⟨hparam, depth_of_block hbody⟩

theorem depth_of_template {template : Template} (h : Schema.template.Makes depth template) :
    template.form.depth ≤ depth := by
  obtain ⟨hd, quasis, ⟨hlist, hquasis⟩, -, expressions, hexpressions, rfl⟩ := h
  have hquasis := fun quasi hq => depth_of_templateElement (hquasis quasi hq)
  simpa [Template.form, hd] using ⟨⟨hlist, hquasis⟩, hexpressions⟩

/-- **Every kind of node is no deeper than the object that its schema describes.** The kinds are
grouped by the shape of their fields. -/
theorem depth_of_makes {kind : Kind} {node : Node} (hd : 1 ≤ depth)
    (h : (ofKind kind).Makes depth node) : node.form.depth ≤ depth := by
  cases kind with
  | debuggerStatement | emptyStatement | importCallee | superReference | thisExpression =>
    obtain rfl := h
    simpa [Node.form] using hd
  | awaitExpression | exportDefaultDeclaration | restElement | spreadElement | throwStatement
  | returnStatement | arrayExpression | arrayPattern | objectExpression | objectPattern
  | sequenceExpression =>
    obtain ⟨-, part, hpart, rfl⟩ := h
    simpa [Node.form, hd, nodes, Schema.Makes] using hpart
  | assignmentPattern | callExpression | newExpression | doWhileStatement | whileStatement
  | withStatement =>
    obtain ⟨-, first, hfirst, -, second, hsecond, rfl⟩ := h
    simpa [Node.form, hd, nodes, Schema.Makes] using And.intro hfirst hsecond
  | assignmentExpression | binaryExpression | logicalExpression | memberExpression =>
    obtain ⟨-, _, -, -, left, hleft, -, right, hright, rfl⟩ := h
    simpa [Node.form, hd, Schema.Makes] using And.intro hleft hright
  | conditionalExpression | forOfStatement | ifStatement =>
    obtain ⟨-, first, hfirst, -, second, hsecond, -, third, hthird, rfl⟩ := h
    simpa [Node.form, hd, Schema.Makes] using And.intro hfirst (And.intro hsecond hthird)
  | unaryExpression | updateExpression =>
    obtain ⟨-, _, -, -, argument, hargument, -, _, -, rfl⟩ := h
    simpa [Node.form, hd, Schema.Makes] using hargument
  | expressionStatement | yieldExpression =>
    obtain ⟨-, part, hpart, -, _, -, rfl⟩ := h
    simpa [Node.form, hd, Schema.Makes] using hpart
  | program =>
    obtain ⟨-, _, -, -, body, hbody, rfl⟩ := h
    simpa [Node.form, hd, nodes, Schema.Makes] using hbody
  | forInStatement =>
    obtain ⟨-, left, hleft, -, right, hright, -, body, hbody, -, _, -, rfl⟩ := h
    simpa [Node.form, hd, Schema.Makes] using And.intro hleft (And.intro hright hbody)
  | forStatement =>
    obtain ⟨-, init, hinit, -, test, htest, -, update, hupdate, -, body, hbody, rfl⟩ := h
    simpa [Node.form, hd, Schema.Makes] using
      And.intro hinit (And.intro htest (And.intro hupdate hbody))
  | property =>
    obtain ⟨-, key, hkey, -, _, -, -, value, hvalue, -, _, -, -, _, -, -, _, -, rfl⟩ := h
    simpa [Node.form, hd, Schema.Makes] using And.intro hkey hvalue
  | arrowFunctionExpression =>
    obtain ⟨-, id, hid, -, params, hparams, -, body, hbody, -, _, -, -, _, -, -, _, -, rfl⟩ := h
    have hid := fun found hf => depth_of_identifier (hid found hf)
    simpa [Node.form, hd, nodes, Schema.Makes] using And.intro hid (And.intro hparams hbody)
  | breakStatement | continueStatement =>
    obtain ⟨-, label, hlabel, rfl⟩ := h
    have hlabel := fun found hf => depth_of_identifier (hlabel found hf)
    simpa [Node.form, hd] using hlabel
  | labeledStatement =>
    obtain ⟨-, label, hlabel, -, body, hbody, rfl⟩ := h
    simpa [Node.form, hd, Schema.Makes] using And.intro (depth_of_identifier hlabel) hbody
  | importSpecifier =>
    obtain ⟨-, inner, hinner, -, imported, himported, rfl⟩ := h
    have himported := fun found hf => depth_of_identifier (himported found hf)
    simpa [Node.form, hd] using And.intro (depth_of_identifier hinner) himported
  | metaProperty =>
    obtain ⟨-, base, hbase, -, property, hproperty, rfl⟩ := h
    simpa [Node.form, hd] using
      And.intro (depth_of_identifier hbase) (depth_of_identifier hproperty)
  | identifier => obtain ⟨id, hid, rfl⟩ := h; exact depth_of_identifier hid
  | literal => obtain ⟨literal, hliteral, rfl⟩ := h; exact depth_of_literal hliteral
  | exportAllDeclaration =>
    obtain ⟨-, source, hsource, rfl⟩ := h
    simpa [Node.form, hd] using depth_of_literal hsource
  | exportNamedDeclaration =>
    obtain ⟨-, declaration, hdeclaration, -, specifiers, ⟨hlist, hspecifiers⟩, -, source, hsource,
      rfl⟩ := h
    have hspecifiers := fun found hf => depth_of_exportSpecifier (hspecifiers found hf)
    have hsource := fun found hf => depth_of_literal (hsource found hf)
    simpa [Node.form, hd, hlist, Schema.Makes] using
      And.intro hdeclaration (And.intro hspecifiers hsource)
  | exportSpecifier =>
    obtain ⟨specifier, hspecifier, rfl⟩ := h
    exact depth_of_exportSpecifier hspecifier
  | blockStatement => obtain ⟨body, hbody, rfl⟩ := h; exact depth_of_block hbody
  | functionDeclaration | functionExpression =>
    obtain ⟨function, hfunction, rfl⟩ := h
    simpa [Node.form] using depth_of_func hfunction
  | classBody => obtain ⟨members, hmembers, rfl⟩ := h; exact depth_of_members hmembers
  | classDeclaration | classExpression =>
    obtain ⟨definition, hdefinition, rfl⟩ := h
    simpa [Node.form] using depth_of_classDefinition hdefinition
  | methodDefinition => obtain ⟨method, hmethod, rfl⟩ := h; exact depth_of_method hmethod
  | variableDeclarator =>
    obtain ⟨declarator, hdeclarator, rfl⟩ := h
    exact depth_of_declarator hdeclarator
  | variableDeclaration =>
    obtain ⟨-, declarators, ⟨hlist, hdeclarators⟩, -, _, -, rfl⟩ := h
    have hdeclarators := fun found hf => depth_of_declarator (hdeclarators found hf)
    simpa [Node.form, hd, hlist] using hdeclarators
  | switchCase => obtain ⟨case, hcase, rfl⟩ := h; exact depth_of_switchCase hcase
  | switchStatement =>
    obtain ⟨-, discriminant, hdiscriminant, -, cases, ⟨hlist, hcases⟩, rfl⟩ := h
    have hcases := fun found hf => depth_of_switchCase (hcases found hf)
    simpa [Node.form, hd, hlist, Schema.Makes] using And.intro hdiscriminant hcases
  | catchClause => obtain ⟨clause, hclause, rfl⟩ := h; exact depth_of_catchClause hclause
  | tryStatement =>
    obtain ⟨-, block, hblock, -, handler, hhandler, -, finalizer, hfinalizer, rfl⟩ := h
    have hhandler := fun found hf => depth_of_catchClause (hhandler found hf)
    have hfinalizer := fun found hf => depth_of_block (hfinalizer found hf)
    exact Form.depth_tryStatement_le_iff.2 ⟨hd, depth_of_block hblock, hhandler, hfinalizer⟩
  | templateElement =>
    obtain ⟨element, helement, rfl⟩ := h
    exact depth_of_templateElement helement
  | templateLiteral => obtain ⟨template, htemplate, rfl⟩ := h; exact depth_of_template htemplate
  | taggedTemplateExpression =>
    obtain ⟨-, tag, htag, -, quasi, hquasi, rfl⟩ := h
    simpa [Node.form, hd, Schema.Makes] using And.intro htag (depth_of_template hquasi)

end Schema

end Records

/-- **A decoded node is no deeper than what it was decoded from.** -/
theorem Node.keepsDepth_decodeWithin (limit : Nat) : KeepsDepth (Node.decodeWithin limit) := by
  induction limit with
  | zero => rintro cursor node ⟨⟩
  | succ limit ih =>
    intro cursor node h
    rw [decodeWithin] at h
    cases hname : cursor.field "type" none Cursor.text with
    | error e => rw [hname] at h; cases h
    | ok name =>
      rw [hname] at h
      cases hkind : Kind.ofName? name with
      | none => simp [bind, Except.bind, hkind] at h
      | some kind =>
        simp only [bind, Except.bind, hkind] at h
        obtain ⟨entries, value, hv, -⟩ := Cursor.entry_of_field hname
        have hd : 1 ≤ cursor.value.depth := by
          rw [hv, Json.depth]
          omega
        exact Schema.depth_of_makes hd (Schema.makes_of_decode ih _ (Nat.le_refl _) h)

theorem Node.depth_form_le {root : Json} {node : Node} (h : Node.decode root = .ok node) :
    node.form.depth ≤ root.depth :=
  Node.keepsDepth_decodeWithin root.depth ⟨root, []⟩ node h

end SwiftScribe
