import SwiftScribe.Proofs.Trace

/-!
# The text of formulas

Expressions that are built from names by operators, accesses and calls ask for no type and never
fail. Their text depends on nothing but the expression, so it can be told without a draft.

* `Node.formula`, `Node.IsFormula`: the text, and the expressions that have one.
* `Node.generate_formula`: **generation writes this text**, on any hints and records.
* `identifier_unique`: a name can be read back from the beginning of a text.
-/

namespace SwiftScribe

open Swift

/-! ## Texts -/

/-- The text of an operand: operator expressions are grouped. -/
def Node.grouped (node : Node) (text : String) : String :=
  if isOperation node then parens text else text

/-- Whether an expression has a prefix operator of its own. -/
def Node.isSigned : Node → Bool
  | .unaryExpression .. => true
  | .updateExpression .. => true
  | _ => false

/-- The text of an operand behind a prefix operator: what begins with another is grouped, too. -/
def Node.behindSign (node : Node) (text : String) : String :=
  if isOperation node || node.isSigned then parens text else text

mutual
/-- **The text of a formula.** -/
def Node.formula : Node → String
  | .identifier id => identifier id.name
  | .unaryExpression operator argument _ => operator ++ argument.behindSign argument.formula
  | .awaitExpression argument => "await " ++ argument.grouped argument.formula
  | .memberExpression computed object property =>
    if computed then object.grouped object.formula ++ "[" ++ property.formula ++ "]"
    else object.grouped object.formula ++ "." ++ property.formula
  | .callExpression callee arguments =>
    callee.grouped callee.formula ++ "(" ++ ", ".intercalate (formulas arguments) ++ ")"
  | .binaryExpression operator left right =>
    binaryText operator (left.grouped left.formula) (right.grouped right.formula)
  | .logicalExpression operator left right =>
    binaryText operator (left.grouped left.formula) (right.grouped right.formula)
  | .conditionalExpression test consequent alternate =>
    test.grouped test.formula ++ " ? " ++ consequent.grouped consequent.formula
      ++ " : " ++ alternate.grouped alternate.formula
  | .assignmentExpression operator left right =>
    left.formula ++ (" " ++ operator ++ " ") ++ right.grouped right.formula
  | _ => ""

/-- The texts of some formulas. -/
def formulas : List Node → List String
  | [] => []
  | node :: rest => node.formula :: formulas rest
end

/-- The prefix operators that are written as they are. -/
def signs : List String := ["!", "-", "+", "~"]

/-- **The expressions that are built from names** by operators, accesses and calls. -/
inductive Node.IsFormula : Node → Prop
  | name (id : Identifier) : IsFormula (.identifier id)
  | sign {operator : String} {argument : Node} {isPrefix : Bool} (ho : operator ∈ signs)
    (h : argument.IsFormula) : IsFormula (.unaryExpression operator argument isPrefix)
  | wait {argument : Node} (h : argument.IsFormula) : IsFormula (.awaitExpression argument)
  | access {computed : Bool} {object name : Node} (ho : object.IsFormula) (hn : name.IsFormula) :
    IsFormula (.memberExpression computed object name)
  | call {callee : Node} {arguments : List Node} (hc : callee.IsFormula)
    (ha : ∀ argument ∈ arguments, argument.IsFormula) :
    IsFormula (.callExpression callee arguments)
  | binary {operator : String} {left right : Node} (hl : left.IsFormula) (hr : right.IsFormula) :
    IsFormula (.binaryExpression operator left right)
  | logical {operator : String} {left right : Node} (hl : left.IsFormula) (hr : right.IsFormula) :
    IsFormula (.logicalExpression operator left right)
  | conditional {test consequent alternate : Node} (ht : test.IsFormula)
    (hc : consequent.IsFormula) (ha : alternate.IsFormula) :
    IsFormula (.conditionalExpression test consequent alternate)
  | assignment {operator : String} {left right : Node} (hl : left.IsFormula)
    (hr : right.IsFormula) : IsFormula (.assignmentExpression operator left right)

/-! ## Generation -/

namespace Swift

variable {α β : Type} {answers : Answers}

/-- **A draft makes a given result**, whatever it asks. -/
def Gives (answers : Answers) (value : α) (draft : Draft α) : Prop := draft.run answers = .ok value

namespace Gives

theorem pure (value : α) : Gives answers value (pure value) := rfl

theorem map {value : α} {draft : Draft α} (g : α → β) (h : Gives answers value draft) :
    Gives answers (g value) (g <$> draft) := by
  have hrun : (g <$> draft).run answers = (draft.run answers).map g := by
    show (draft.outcome.map _).map _ = (draft.outcome.map _).map _
    cases draft.outcome <;> rfl
  unfold Gives
  rw [hrun, h]
  rfl

theorem seq {g : α → β} {value : α} {first : Draft (α → β)} {second : Draft α}
    (hf : Gives answers g first) (hs : Gives answers value second) :
    Gives answers (g value) (first <*> second) := by
  unfold Gives Draft.run at *
  cases ho : first.outcome with
  | error e => rw [ho] at hf; cases hf
  | ok made =>
    rw [ho] at hf
    rw [(Draft.events_seq_ok ho second).2]
    cases hsecond : second.outcome with
    | error e => rw [hsecond] at hs; cases hs
    | ok found =>
      rw [hsecond] at hs
      cases hf
      cases hs
      rfl

variable {a b text : String} {first second draft : Draft String}

theorem append (hf : Gives answers a first) (hs : Gives answers b second) :
    Gives answers (a ++ b) (first ++ second) := seq (map _ hf) hs

theorem operand (node : Node) (h : Gives answers text draft) :
    Gives answers (node.grouped text) (Swift.operand node draft) := by
  unfold Swift.operand Node.grouped
  split
  · exact h.map parens
  · exact h

theorem prefixOperand (node : Node) (h : Gives answers text draft) :
    Gives answers (node.behindSign text) (Swift.prefixOperand node draft) := by
  cases node with
  | unaryExpression => exact h.map parens
  | updateExpression => exact h.map parens
  | _ => exact h.operand _

theorem all {nodes : List Node} {path : TypePath}
    (h : ∀ node ∈ nodes, Gives answers node.formula (node.write path)) :
    Gives answers (formulas nodes) (Scribe.all (writeAll path nodes)) := by
  induction nodes with
  | nil => exact pure []
  | cons node rest ih =>
    have hrest := ih fun other hm => h other (List.mem_cons_of_mem _ hm)
    exact seq ((h node List.mem_cons_self).map _) hrest

end Gives

end Swift

/-- The draft of a formula makes its text. -/
theorem Node.gives_formula (answers : Answers) (path : TypePath) {node : Node}
    (h : node.IsFormula) : Gives answers node.formula (node.write path) := by
  induction h with
  | name id => exact .pure _
  | @sign operator argument isPrefix ho _ ih =>
    have htypeof : operator ≠ "typeof" := by
      rintro rfl
      exact absurd ho (by decide)
    unfold Node.write Node.formula
    rw [if_neg htypeof, if_pos (show operator ∈ ["!", "-", "+", "~"] from ho)]
    exact (Gives.pure operator).append (ih.prefixOperand argument)
  | @wait argument _ ih =>
    unfold Node.write Node.formula
    exact (Gives.pure "await ").append (ih.operand argument)
  | @access computed object name _ _ iho ihn =>
    have hobject := iho.operand object
    unfold Node.write Node.formula
    split
    · exact ((hobject.append (.pure "[")).append ihn).append (.pure "]")
    · exact (hobject.append (.pure ".")).append ihn
  | @call callee arguments _ _ ihc iha =>
    have harguments := (Gives.all iha).map ", ".intercalate
    unfold Node.write Node.formula
    exact (((ihc.operand callee).append (.pure "(")).append harguments).append (.pure ")")
  | @binary operator left right _ _ ihl ihr =>
    unfold Node.write Node.formula
    exact .seq ((ihl.operand left).map (binaryText operator)) (ihr.operand right)
  | @logical operator left right _ _ ihl ihr =>
    unfold Node.write Node.formula
    exact .seq ((ihl.operand left).map (binaryText operator)) (ihr.operand right)
  | @conditional test consequent alternate _ _ _ iht ihc iha =>
    have hboth := ((iht.operand test).append (.pure " ? ")).append (ihc.operand consequent)
    unfold Node.write Node.formula
    exact (hboth.append (.pure " : ")).append (iha.operand alternate)
  | @assignment operator left right _ _ ihl ihr =>
    unfold Node.write Node.formula
    exact (ihl.append (.pure (" " ++ operator ++ " "))).append (ihr.operand right)

/-- **Generation writes the text of a formula**, on any hints and records. -/
theorem Node.generate_formula {node : Node} (h : node.IsFormula) (path : TypePath)
    (hints records : HintTable) : (node.generate path hints records).1 = .ok node.formula := by
  rw [Node.generate_eq]
  exact Node.gives_formula hints.answer? path h

/-! ## Reading back -/

section Reading

variable {α : Type} {Fits : α → Prop} {Follows : List Char → Prop} {write : α → List Char} {a : α}

/-- **A value can be read back** from the beginning of a text: whatever else of its sort is written
there, with something behind it that may follow, is the same. -/
def ReadsBack (Fits : α → Prop) (Follows : List Char → Prop) (write : α → List Char) (a : α) :
    Prop :=
  ∀ b, Fits b → ∀ rest more, Follows rest → Follows more →
    write a ++ rest = write b ++ more → a = b ∧ rest = more

/-- Nothing else is written in the same way. -/
theorem ReadsBack.injective (h : ReadsBack Fits Follows write a) (hend : Follows []) {b : α}
    (hb : Fits b) (heq : write a = write b) : a = b :=
  (h b hb [] [] hend hend (by rw [heq])).1

end Reading

/-! ## Names -/

/-- Whether a character may stand in a name of the source: ASCII letters and digits, `_` and `$`.
Beyond ASCII any character may. -/
def isNameChar (c : Char) : Bool := c.isAlphanum || c == '_' || c == '$' || 128 ≤ c.toNat

/-- **A name of the source.** -/
structure Named (name : String) : Prop where
  nonempty : name.toList ≠ []
  chars : ∀ c ∈ name.toList, isNameChar c

instance (name : String) : Decidable (Named name) :=
  have := List.decidableBAll (fun c => isNameChar c = true) name.toList
  decidable_of_iff (name.toList ≠ [] ∧ ∀ c ∈ name.toList, isNameChar c)
    ⟨fun h => ⟨h.1, h.2⟩, fun h => ⟨h.nonempty, h.chars⟩⟩

/-- **What follows does not go on with a name.** -/
def Unnamed (rest : List Char) : Prop := ∀ c ∈ rest.head?, ¬ isNameChar c

/-- **The front of a text is determined** by what its characters have in common, if the rest does
not go on with such a character. -/
theorem front_unique {p : Char → Prop} {front other rest more : List Char}
    (hf : ∀ c ∈ front, p c) (ho : ∀ c ∈ other, p c) (hr : ∀ c ∈ rest.head?, ¬ p c)
    (hm : ∀ c ∈ more.head?, ¬ p c) (h : front ++ rest = other ++ more) :
    front = other ∧ rest = more := by
  induction front generalizing other with
  | nil =>
    cases other with
    | nil => exact ⟨rfl, h⟩
    | cons d other =>
      -- the other front goes on where the rest begins
      have hd : d ∈ rest.head? := by
        rw [List.nil_append] at h
        rw [h]
        rfl
      exact absurd (ho d List.mem_cons_self) (hr d hd)
  | cons c front ih =>
    cases other with
    | nil =>
      have hc : c ∈ more.head? := by
        rw [List.nil_append] at h
        rw [← h]
        rfl
      exact absurd (hf c List.mem_cons_self) (hm c hc)
    | cons d other =>
      rw [List.cons_append, List.cons_append, List.cons.injEq] at h
      obtain ⟨rfl, htail⟩ := h
      obtain ⟨rfl, hrest⟩ := ih (fun c hc => hf c (List.mem_cons_of_mem _ hc))
        (fun c hc => ho c (List.mem_cons_of_mem _ hc)) htail
      exact ⟨rfl, hrest⟩

/-- **A name is written in backticks, if it is a keyword, or as a name** that no keyword is written
as, except that `undefined` is `nil`. -/
theorem identifier_cases {name : String} (h : Named name) :
    (name ∈ keywords ∧ (identifier name).toList = '`' :: (name.toList ++ ['`'])) ∨
      Named (identifier name) ∧ (name = "undefined" ∧ identifier name = "nil" ∨
        name ∉ keywords ∧ identifier name = name) := by
  unfold identifier
  by_cases hu : name = "undefined"
  · rw [if_pos hu]
    exact .inr ⟨by decide, .inl ⟨hu, rfl⟩⟩
  · rw [if_neg hu]
    by_cases hk : name ∈ keywords
    · rw [if_pos hk]
      exact .inl ⟨hk, by simp⟩
    · rw [if_neg hk]
      exact .inr ⟨h, .inr ⟨hk, rfl⟩⟩

/-- A name begins with a backtick or a character of a name. -/
theorem identifier_begins {name : String} (h : Named name) :
    ∃ c tail, (identifier name).toList = c :: tail ∧ (c = '`' ∨ isNameChar c) := by
  rcases identifier_cases h with ⟨-, htext⟩ | ⟨hname, -⟩
  · exact ⟨'`', _, htext, .inl rfl⟩
  · obtain ⟨c, tail, htext⟩ := List.exists_cons_of_ne_nil hname.nonempty
    have hc : isNameChar c := hname.chars c (htext ▸ List.mem_cons_self)
    exact ⟨c, tail, htext, .inr hc⟩

/-- **A name can be read back** from the beginning of a text that does not go on with a name. -/
theorem identifier_unique {name other : String} (hn : Named name) (ho : Named other)
    {rest more : List Char} (hr : Unnamed rest) (hm : Unnamed more)
    (h : (identifier name).toList ++ rest = (identifier other).toList ++ more) :
    name = other ∧ rest = more := by
  have hquote : ¬ isNameChar '`' := by decide
  -- no name of the source begins with a backtick
  have hmixed {text : String} (ht : Named text) (front back tail : List Char) :
      text.toList ++ back ≠ '`' :: (front ++ ['`']) ++ tail := by
    intro heq
    cases hc : text.toList with
    | nil => exact ht.nonempty hc
    | cons c chars =>
      rw [hc] at heq
      have hfirst : c = '`' := by simpa using (List.cons.inj heq).1
      exact hquote (hfirst ▸ ht.chars c (by rw [hc]; exact List.mem_cons_self))
  rcases identifier_cases hn with ⟨-, htext⟩ | ⟨hname, hcase⟩ <;>
    rcases identifier_cases ho with ⟨-, hother⟩ | ⟨hname', hcase'⟩
  · rw [htext, hother] at h
    simp only [List.cons_append, List.cons.injEq, true_and, List.append_assoc] at h
    obtain ⟨hchars, htail⟩ := front_unique (p := fun c => isNameChar c) hn.chars ho.chars
      (by simpa using hquote) (by simpa using hquote) h
    exact ⟨String.toList_inj.1 hchars, by simpa using htail⟩
  · rw [htext] at h
    exact absurd h.symm (hmixed hname' _ _ _)
  · rw [hother] at h
    exact absurd h (hmixed hname _ _ _)
  · obtain ⟨hchars, htail⟩ := front_unique (p := fun c => isNameChar c) hname.chars hname'.chars
      hr hm h
    have hsame : identifier name = identifier other := String.toList_inj.1 hchars
    -- only `undefined` is written as a keyword
    have hnil : "nil" ∈ keywords := by decide
    rcases hcase with ⟨rfl, hi⟩ | ⟨hk, hi⟩ <;> rcases hcase' with ⟨rfl, hi'⟩ | ⟨hk', hi'⟩
    · exact ⟨rfl, htail⟩
    · exact absurd (hi' ▸ hsame ▸ hi ▸ hnil) hk'
    · exact absurd (hi ▸ hsame ▸ hi' ▸ hnil) hk
    · exact ⟨by rw [← hi, hsame, hi'], htail⟩

end SwiftScribe
