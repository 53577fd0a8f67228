import SwiftScribe.Proofs.Formulas

/-!
# The grouping of operators

Which operator of a text takes which operands depends on the precedences that a language gives to
its operators. Generation relies on none: an operator expression that is an operand stands in
parentheses, and so does a prefix operator behind another. The text alone tells the grouping.

* `Node.Compound`: names under prefix operators, binary and logical operators, conditionals, and
  assignments to names.
* `further_unique`: the symbols and operands behind a first operand can be told apart.
* `Node.Compound.readable`: a whole expression, an operand, and an operand behind a prefix operator
  can be read back from the beginning of a text.
* `Node.generate_grouping`: **expressions with one text are the same**.
-/

namespace SwiftScribe

open Swift

/-! ## Operators -/

/-- The binary operators that are written between their operands. -/
def binaryOperators : List String :=
  ["===", "!==", "<", "<=", ">", ">=", "<<", ">>", ">>>", "+", "-", "*", "/", "%", "**", "&", "|",
    "^", "instanceof"]

def logicalOperators : List String := ["&&", "||", "??"]

def assignmentOperators : List String :=
  ["=", "+=", "-=", "*=", "/=", "%=", "**=", "<<=", ">>=", ">>>=", "&=", "|=", "^=", "&&=", "||=",
    "??="]

/-- How a binary operator is written. -/
def spelling (operator : String) : String :=
  if operator = "===" then "=="
  else if operator = "!==" then "!="
  else if operator = "instanceof" then "is"
  else operator

/-- The binary operator that is written in some way. -/
def spelled (symbol : String) : String :=
  if symbol = "==" then "==="
  else if symbol = "!=" then "!=="
  else if symbol = "is" then "instanceof"
  else symbol

theorem spelled_spelling :
    ∀ operator ∈ binaryOperators, spelled (spelling operator) = operator := by
  decide

/-- No two of the operators between two operands are written in the same way. -/
theorem spelling_disjoint :
    (∀ operator ∈ logicalOperators, operator ∉ binaryOperators.map spelling) ∧
      ∀ operator ∈ assignmentOperators,
        operator ∉ binaryOperators.map spelling ∧ operator ∉ logicalOperators := by
  decide

/-- No operator has a blank inside. -/
theorem blank_notMem :
    (∀ operator ∈ binaryOperators, ' ' ∉ (spelling operator).toList) ∧
      (∀ operator ∈ logicalOperators, ' ' ∉ operator.toList) ∧
        ∀ operator ∈ assignmentOperators, ' ' ∉ operator.toList := by
  decide

theorem binaryText_eq {operator : String} (h : operator ∈ binaryOperators ++ logicalOperators)
    (left right : String) :
    binaryText operator left right = left ++ " " ++ spelling operator ++ " " ++ right := by
  have hin : operator ≠ "in" := by
    rintro rfl
    exact absurd h (by decide)
  unfold binaryText spelling
  split_ifs <;> simp only [String.append_assoc] <;> rfl

/-- A prefix operator is one character. -/
theorem signs_length : ∀ operator ∈ signs, operator.toList.length = 1 := by decide

/-! ## Expressions -/

/-- **The expressions made of names by operators.** -/
inductive Node.Compound : Node → Prop
  | name {id : Identifier} (h : Named id.name) : Compound (.identifier id)
  | sign {operator : String} {argument : Node} (ho : operator ∈ signs) (h : argument.Compound) :
    Compound (.unaryExpression operator argument true)
  | binary {operator : String} {left right : Node} (ho : operator ∈ binaryOperators)
    (hl : left.Compound) (hr : right.Compound) : Compound (.binaryExpression operator left right)
  | logical {operator : String} {left right : Node} (ho : operator ∈ logicalOperators)
    (hl : left.Compound) (hr : right.Compound) : Compound (.logicalExpression operator left right)
  | conditional {test consequent alternate : Node} (ht : test.Compound) (hc : consequent.Compound)
    (ha : alternate.Compound) : Compound (.conditionalExpression test consequent alternate)
  | assignment {operator : String} {id : Identifier} {right : Node}
    (ho : operator ∈ assignmentOperators) (hi : Named id.name) (hr : right.Compound) :
    Compound (.assignmentExpression operator (.identifier id) right)

theorem Node.Compound.isFormula {node : Node} (h : node.Compound) : node.IsFormula := by
  induction h with
  | name => exact .name _
  | sign ho _ ih => exact .sign ho ih
  | binary _ _ _ ihl ihr => exact .binary ihl ihr
  | logical _ _ _ ihl ihr => exact .logical ihl ihr
  | conditional _ _ _ iht ihc iha => exact .conditional iht ihc iha
  | assignment _ _ _ ihr => exact .assignment (.name _) ihr

/-- The first operand of an operator between operands; any other expression is its own. -/
def Node.firstOperand : Node → Node
  | .binaryExpression _ left _ => left
  | .logicalExpression _ left _ => left
  | .conditionalExpression test _ _ => test
  | .assignmentExpression _ left _ => left
  | node => node

/-- The further operands, each with the symbol before it. -/
def Node.furtherOperands : Node → List (String × Node)
  | .binaryExpression operator _ right => [(spelling operator, right)]
  | .logicalExpression operator _ right => [(operator, right)]
  | .conditionalExpression _ consequent alternate => [("?", consequent), (":", alternate)]
  | .assignmentExpression operator _ right => [(operator, right)]
  | _ => []

/-- The expression of a first operand and further ones. -/
def Node.rebuild (first : Node) : List (String × Node) → Node
  | [(symbol, right)] =>
    if symbol ∈ binaryOperators.map spelling then .binaryExpression (spelled symbol) first right
    else if symbol ∈ logicalOperators then .logicalExpression symbol first right
    else .assignmentExpression symbol first right
  | [(_, consequent), (_, alternate)] => .conditionalExpression first consequent alternate
  | _ => first

/-- **The symbols tell which kind of expression it is.** -/
theorem Node.Compound.rebuild_operands {node : Node} (h : node.Compound) :
    node.firstOperand.rebuild node.furtherOperands = node := by
  cases h with
  | name => rfl
  | sign => rfl
  | @binary operator left right ho =>
    have hmem : spelling operator ∈ binaryOperators.map spelling := List.mem_map_of_mem ho
    show (if _ then _ else _) = _
    rw [if_pos hmem, spelled_spelling operator ho]
    rfl
  | logical ho =>
    show (if _ then _ else _) = _
    rw [if_neg (spelling_disjoint.1 _ ho), if_pos ho]
    rfl
  | conditional => rfl
  | assignment ho =>
    obtain ⟨hbinary, hlogical⟩ := spelling_disjoint.2 _ ho
    show (if _ then _ else _) = _
    rw [if_neg hbinary, if_neg hlogical]
    rfl

/-- The operands are expressions of this sort, and no symbol has a blank inside. -/
theorem Node.Compound.parts {node : Node} (h : node.Compound) :
    node.firstOperand.Compound ∧
      ∀ part ∈ node.furtherOperands, ' ' ∉ part.1.toList ∧ part.2.Compound := by
  have hone {symbol : String} {right : Node} (hs : ' ' ∉ symbol.toList) (hr : right.Compound) :
      ∀ part ∈ [(symbol, right)], ' ' ∉ part.1.toList ∧ part.2.Compound := by
    intro part hp
    rw [List.mem_singleton] at hp
    subst hp
    exact ⟨hs, hr⟩
  cases h with
  | name hn => exact ⟨.name hn, fun _ hp => absurd hp List.not_mem_nil⟩
  | sign ho hx => exact ⟨.sign ho hx, fun _ hp => absurd hp List.not_mem_nil⟩
  | binary ho hl hr => exact ⟨hl, hone (blank_notMem.1 _ ho) hr⟩
  | logical ho hl hr => exact ⟨hl, hone (blank_notMem.2.1 _ ho) hr⟩
  | conditional ht hc ha =>
    refine ⟨ht, fun part hp => ?_⟩
    rcases List.mem_cons.1 hp with rfl | hp
    · exact ⟨(by decide : ' ' ∉ "?".toList), hc⟩
    · exact hone (by decide) ha part hp
  | assignment ho hi hr => exact ⟨.name hi, hone (blank_notMem.2.2 _ ho) hr⟩

/-! ## Texts -/

/-- What may follow an operand: the end, a blank or a closing parenthesis. -/
def FollowsOperand (rest : List Char) : Prop := ∀ c ∈ rest.head?, c = ' ' ∨ c = ')'

/-- What may follow a whole expression: the end or a closing parenthesis. -/
def FollowsWhole (rest : List Char) : Prop := ∀ c ∈ rest.head?, c = ')'

theorem FollowsOperand.unnamed {rest : List Char} (h : FollowsOperand rest) : Unnamed rest := by
  intro c hc
  rcases h c hc with rfl | rfl <;> decide

/-- The text of a whole expression. -/
def Node.letters (node : Node) : List Char := node.formula.toList

/-- The text of an expression, in parentheses where it has to be grouped. -/
def Node.enclosed (groups : Node → Bool) (node : Node) : List Char :=
  if groups node then '(' :: (node.letters ++ [')']) else node.letters

/-- The text of an operand. -/
def Node.operandText : Node → List Char := Node.enclosed isOperation

/-- The text of an operand behind a prefix operator. -/
def Node.behindText : Node → List Char :=
  Node.enclosed fun node => isOperation node || node.isSigned

theorem toList_parens (text : String) : (parens text).toList = '(' :: (text.toList ++ [')']) := by
  unfold parens
  rw [String.toList_append, String.toList_append]
  rfl

theorem Node.toList_grouped (node : Node) :
    (node.grouped node.formula).toList = node.operandText := by
  unfold Node.grouped Node.operandText Node.enclosed
  split
  · exact toList_parens _
  · rfl

theorem Node.toList_behindSign (node : Node) :
    (node.behindSign node.formula).toList = node.behindText := by
  unfold Node.behindSign Node.behindText Node.enclosed
  split
  · exact toList_parens _
  · rfl

/-- An expression can be read back as an operand that is written in some way. -/
abbrev ReadsAsOperand (write : Node → List Char) : Node → Prop :=
  ReadsBack Node.Compound FollowsOperand write

/-- An expression can be read back where it stands alone or in parentheses. -/
abbrev ReadsAsWhole : Node → Prop := ReadsBack Node.Compound FollowsWhole Node.letters

/-- The text of further operands. -/
def furtherText : List (String × Node) → List Char
  | [] => []
  | (symbol, node) :: rest =>
    ' ' :: (symbol.toList ++ ' ' :: (node.operandText ++ furtherText rest))

/-- **An expression is written as its first operand and the further ones.** -/
theorem Node.Compound.letters_eq {node : Node} (h : node.Compound) :
    node.letters = node.firstOperand.operandText ++ furtherText node.furtherOperands := by
  unfold Node.letters
  cases h with
  | name => exact (List.append_nil _).symm
  | sign => exact (List.append_nil _).symm
  | @binary operator left right ho =>
    rw [Node.formula, binaryText_eq (List.mem_append_left _ ho)]
    simp [String.toList_append, Node.toList_grouped, Node.firstOperand, Node.furtherOperands,
      furtherText]
  | @logical operator left right ho =>
    have hsame : spelling operator = operator :=
      (show ∀ operator ∈ logicalOperators, spelling operator = operator by decide) _ ho
    rw [Node.formula, binaryText_eq (List.mem_append_right _ ho), hsame]
    simp [String.toList_append, Node.toList_grouped, Node.firstOperand, Node.furtherOperands,
      furtherText]
  | conditional =>
    rw [Node.formula]
    simp [String.toList_append, Node.toList_grouped, Node.firstOperand, Node.furtherOperands,
      furtherText]
  | @assignment operator id right =>
    have hleft : (Node.identifier id).formula.toList = (Node.identifier id).operandText := rfl
    rw [Node.formula]
    simp [String.toList_append, Node.toList_grouped, hleft, Node.firstOperand, Node.furtherOperands,
      furtherText]

/-! ## The beginning of a text -/

/-- What the first character of a text tells. -/
inductive Beginning where
  | group
  | sign
  | name
deriving DecidableEq

def Beginning.of (c : Char) : Beginning :=
  if c = '(' then .group else if c ∈ ['!', '-', '+', '~'] then .sign else .name

/-- What an expression begins with. -/
def Node.beginning (groups : Node → Bool) (node : Node) : Beginning :=
  if groups node then .group else if node.isSigned then .sign else .name

section Beginnings

variable {groups : Node → Bool} (hgroups : ∀ node, isOperation node → groups node)
include hgroups

theorem Node.Compound.begins {node : Node} (h : node.Compound) :
    ∃ c tail, node.enclosed groups = c :: tail ∧ Beginning.of c = node.beginning groups := by
  unfold Node.enclosed Node.beginning
  by_cases hg : groups node
  · rw [if_pos hg, if_pos hg]
    exact ⟨'(', _, rfl, rfl⟩
  · rw [if_neg hg, if_neg hg]
    have hno : ¬ isOperation node := fun ho => hg (hgroups _ ho)
    cases h with
    | @name id hn =>
      obtain ⟨c, tail, htext, hc⟩ := identifier_begins hn
      refine ⟨c, tail, htext, ?_⟩
      unfold Beginning.of
      rw [if_neg (by rintro rfl; revert hc; decide), if_neg]
      · rfl
      · intro hsign
        simp only [List.mem_cons, List.not_mem_nil, or_false] at hsign
        rcases hsign with rfl | rfl | rfl | rfl <;> exact absurd hc (by decide)
    | @sign operator argument ho =>
      unfold Node.letters Node.formula
      rw [String.toList_append]
      unfold signs at ho
      simp only [List.mem_cons, List.not_mem_nil, or_false] at ho
      rcases ho with rfl | rfl | rfl | rfl <;> exact ⟨_, _, rfl, rfl⟩
    | binary => exact absurd rfl hno
    | logical => exact absurd rfl hno
    | conditional => exact absurd rfl hno
    | assignment => exact absurd rfl hno

/-- **Expressions with one text begin in the same way.** -/
theorem beginning_eq {a b : Node} (ha : a.Compound) (hb : b.Compound) {rest more : List Char}
    (h : a.enclosed groups ++ rest = b.enclosed groups ++ more) :
    a.beginning groups = b.beginning groups := by
  obtain ⟨c, tail, htext, hc⟩ := ha.begins hgroups
  obtain ⟨d, other, hother, hd⟩ := hb.begins hgroups
  rw [htext, hother, List.cons_append, List.cons_append, List.cons.injEq] at h
  rw [← hc, ← hd, h.1]

/-- A group can be read back if what is inside can. -/
theorem readsBack_group {a : Node} (ha : a.Compound) (hg : groups a)
    (h : ReadsAsWhole a) :
    ReadsAsOperand (Node.enclosed groups) a := by
  intro b hb rest more _ _ heq
  have hgb : groups b := by
    have hbegin := beginning_eq hgroups ha hb heq
    unfold Node.beginning at hbegin
    rw [if_pos hg] at hbegin
    by_contra hno
    rw [if_neg hno] at hbegin
    split at hbegin <;> cases hbegin
  have hclose (tail : List Char) : FollowsWhole (')' :: tail) := by
    rintro c ⟨⟩
    rfl
  unfold Node.enclosed at heq
  rw [if_pos hg, if_pos hgb] at heq
  simp only [List.cons_append, List.append_assoc, List.cons.injEq, true_and] at heq
  obtain ⟨hab, hrest⟩ := h b hb _ _ (hclose rest) (hclose more) heq
  exact ⟨hab, by simpa using hrest⟩

/-- A name can be read back. -/
theorem readsBack_name {id : Identifier} (hn : Named id.name) (hg : ¬ groups (.identifier id)) :
    ReadsAsOperand (Node.enclosed groups) (.identifier id) := by
  intro b hb rest more hr hm heq
  have hbegin : Beginning.name = b.beginning groups := by
    rw [← beginning_eq hgroups (.name hn) hb heq, Node.beginning, if_neg hg]
    rfl
  unfold Node.beginning at hbegin
  by_cases hgb : groups b
  · rw [if_pos hgb] at hbegin
    cases hbegin
  · have hno : ¬ isOperation b := fun ho => hgb (hgroups _ ho)
    rw [if_neg hgb] at hbegin
    unfold Node.enclosed at heq
    rw [if_neg hg, if_neg hgb] at heq
    cases hb with
    | @name other ho =>
      obtain ⟨hname, hrest⟩ := identifier_unique hn ho hr.unnamed hm.unnamed heq
      exact ⟨congrArg Node.identifier (congrArg Identifier.mk hname), hrest⟩
    | sign => cases hbegin
    | binary => exact absurd rfl hno
    | logical => exact absurd rfl hno
    | conditional => exact absurd rfl hno
    | assignment => exact absurd rfl hno

end Beginnings

/-- A prefix operator can be read back if its operand can. -/
theorem readsBack_sign {operator : String} {argument : Node} (ho : operator ∈ signs)
    (ha : argument.Compound) (h : ReadsAsOperand Node.behindText argument) :
    ReadsAsOperand Node.operandText
      (.unaryExpression operator argument true) := by
  intro b hb rest more hr hm heq
  have hbegin := beginning_eq (fun _ h => h) (.sign ho ha) hb heq
  cases hb with
  | @sign operator' argument' ho' ha' =>
    have htext (operator : String) (argument : Node) :
        (Node.unaryExpression operator argument true).operandText
          = operator.toList ++ argument.behindText := by
      rw [← Node.toList_behindSign, ← String.toList_append]
      rfl
    have hlength : operator.toList.length = operator'.toList.length := by
      rw [signs_length _ ho, signs_length _ ho']
    rw [htext, htext, List.append_assoc, List.append_assoc] at heq
    obtain ⟨hoperator, hargument⟩ := List.append_inj heq hlength
    obtain ⟨rfl, hrest⟩ := h argument' ha' rest more hr hm hargument
    rw [String.toList_inj.1 hoperator]
    exact ⟨rfl, hrest⟩
  | name => cases hbegin
  | binary => cases hbegin
  | logical => cases hbegin
  | conditional => cases hbegin
  | assignment => cases hbegin

/-! ## Reading back -/

/-- What follows an operand is a further operand, or what follows the whole. -/
theorem followsOperand_further (tail : List (String × Node)) {rest : List Char}
    (h : FollowsWhole rest) : FollowsOperand (furtherText tail ++ rest) := by
  intro c hc
  cases tail with
  | nil => exact .inr (h c hc)
  | cons part tail =>
    have hblank : ' ' = c := by simpa [furtherText] using hc
    exact .inl hblank.symm

/-- Nothing that follows a whole expression begins like a further operand. -/
theorem FollowsWhole.ne_further {rest more : List Char} (h : FollowsWhole rest)
    (part : String × Node) (tail : List (String × Node)) :
    rest ≠ furtherText (part :: tail) ++ more := by
  rintro rfl
  have hblank : ' ' = ')' := h ' ' rfl
  exact absurd hblank (by decide)

/-- **Further operands can be told apart:** a symbol ends at the next blank, and an operand where it
ends. -/
theorem further_unique {tail other : List (String × Node)} {rest more : List Char}
    (hs : ∀ part ∈ tail, ' ' ∉ part.1.toList)
    (hback : ∀ part ∈ tail, ReadsAsOperand Node.operandText part.2)
    (ho : ∀ part ∈ other, ' ' ∉ part.1.toList ∧ part.2.Compound)
    (hr : FollowsWhole rest) (hm : FollowsWhole more)
    (h : furtherText tail ++ rest = furtherText other ++ more) : tail = other ∧ rest = more := by
  induction tail generalizing other with
  | nil =>
    cases other with
    | nil => exact ⟨rfl, h⟩
    | cons part other => exact absurd h (hr.ne_further part other)
  | cons part tail ih =>
    cases other with
    | nil => exact absurd h.symm (hm.ne_further part tail)
    | cons part' other =>
      obtain ⟨symbol, node⟩ := part
      obtain ⟨symbol', node'⟩ := part'
      obtain ⟨hsymbol', hnode'⟩ := ho _ List.mem_cons_self
      have hsymbol : ' ' ∉ symbol.toList := hs _ List.mem_cons_self
      have hblank (text : List Char) : ∀ c ∈ (' ' :: text).head?, ¬ (c ≠ ' ') := by
        rintro c ⟨⟩
        simp
      simp only [furtherText, List.cons_append, List.append_assoc, List.cons.injEq, true_and] at h
      -- the symbols end at the first blank, and only then the operands can be compared
      obtain ⟨hsame, hnodes⟩ := front_unique (p := fun c => c ≠ ' ')
        (fun c hc he => hsymbol (he ▸ hc)) (fun c hc he => hsymbol' (he ▸ hc))
        (hblank _) (hblank _) h
      obtain ⟨hnode, htails⟩ := hback _ List.mem_cons_self node' hnode' _ _
        (followsOperand_further tail hr) (followsOperand_further other hm) (List.cons.inj hnodes).2
      obtain ⟨rfl, hrest⟩ := ih (fun p hp => hs p (List.mem_cons_of_mem _ hp))
        (fun p hp => hback p (List.mem_cons_of_mem _ hp))
        (fun p hp => ho p (List.mem_cons_of_mem _ hp)) htails
      have hpart : (symbol, node) = (symbol', node') :=
        Prod.ext (String.toList_inj.1 hsame) hnode
      exact ⟨by rw [hpart], hrest⟩

/-- A whole expression can be read back if its operands can. -/
theorem readsBack_whole {a : Node} (ha : a.Compound)
    (hfirst : ReadsAsOperand Node.operandText a.firstOperand)
    (htail : ∀ part ∈ a.furtherOperands, ReadsAsOperand Node.operandText part.2) :
    ReadsAsWhole a := by
  intro b hb rest more hr hm heq
  rw [ha.letters_eq, hb.letters_eq, List.append_assoc, List.append_assoc] at heq
  obtain ⟨hsame, htails⟩ := hfirst _ hb.parts.1 _ _ (followsOperand_further _ hr)
    (followsOperand_further _ hm) heq
  obtain ⟨htail, hrest⟩ := further_unique (fun part hp => (ha.parts.2 part hp).1) htail hb.parts.2
    hr hm htails
  refine ⟨?_, hrest⟩
  rw [← ha.rebuild_operands, ← hb.rebuild_operands, hsame, htail]

/-- **An expression can be read back** wherever it stands. -/
structure Node.Readable (a : Node) : Prop where
  operand : ReadsAsOperand Node.operandText a
  behind : ReadsAsOperand Node.behindText a
  whole : ReadsAsWhole a

/-- An operator expression stands in parentheses as an operand. -/
theorem Node.Readable.of_isOperation {a : Node} (ha : a.Compound) (ho : isOperation a)
    (h : ReadsAsWhole a) : a.Readable where
  operand := readsBack_group (fun _ h => h) ha ho h
  behind := readsBack_group (fun _ h => by rw [h, Bool.true_or]) ha (by rw [ho, Bool.true_or]) h
  whole := h

theorem Node.Compound.readable {a : Node} (h : a.Compound) : a.Readable := by
  -- a name and a prefix operator are read as operands first, any other expression as a whole first
  have hnil {a : Node} (ht : a.furtherOperands = []) : ∀ part ∈ a.furtherOperands,
      ReadsAsOperand Node.operandText part.2 := by
    intro part hp
    rw [ht] at hp
    cases hp
  have hone {a b : Node} {symbol : String} (ht : a.furtherOperands = [(symbol, b)])
      (hb : b.Readable) : ∀ part ∈ a.furtherOperands, ReadsAsOperand Node.operandText part.2 := by
    intro part hp
    rw [ht, List.mem_singleton] at hp
    rw [hp]
    exact hb.operand
  have hcover : ∀ node, isOperation node = true → (isOperation node || node.isSigned) = true := by
    intro node hn
    rw [hn, Bool.true_or]
  induction h with
  | @name id hn =>
    have hoperand : ReadsAsOperand Node.operandText (.identifier id) :=
      readsBack_name (fun _ h => h) hn Bool.false_ne_true
    have hbehind : ReadsAsOperand Node.behindText (.identifier id) :=
      readsBack_name hcover hn Bool.false_ne_true
    exact ⟨hoperand, hbehind, readsBack_whole (.name hn) hoperand (hnil rfl)⟩
  | @sign operator argument ho ha ih =>
    have hoperand := readsBack_sign ho ha ih.behind
    have hwhole := readsBack_whole (.sign ho ha) hoperand (hnil rfl)
    exact ⟨hoperand, readsBack_group hcover (.sign ho ha) rfl hwhole, hwhole⟩
  | @binary operator left right ho hl hr ihl ihr =>
    have hwhole := readsBack_whole (.binary ho hl hr) ihl.operand (hone rfl ihr)
    exact .of_isOperation (.binary ho hl hr) rfl hwhole
  | @logical operator left right ho hl hr ihl ihr =>
    have hwhole := readsBack_whole (.logical ho hl hr) ihl.operand (hone rfl ihr)
    exact .of_isOperation (.logical ho hl hr) rfl hwhole
  | @conditional test consequent alternate ht hc ha iht ihc iha =>
    have hwhole := readsBack_whole (.conditional ht hc ha) iht.operand (by
      intro part hp
      rcases List.mem_cons.1 hp with rfl | hp
      · exact ihc.operand
      · rw [List.mem_singleton.1 hp]
        exact iha.operand)
    exact .of_isOperation (.conditional ht hc ha) rfl hwhole
  | @assignment operator id right ho hi hr ihr =>
    have hleft : ReadsAsOperand Node.operandText (.identifier id) :=
      readsBack_name (fun _ h => h) hi Bool.false_ne_true
    have hwhole := readsBack_whole (.assignment ho hi hr) hleft (hone rfl ihr)
    exact .of_isOperation (.assignment ho hi hr) rfl hwhole

/-- **Expressions with one text are the same:** an expression has a text, on any hints, and no other
expression has this text. -/
theorem Node.generate_grouping {a b : Node} (ha : a.Compound) (hb : b.Compound)
    (path path' : TypePath) (hints hints' records records' : HintTable) :
    ∃ text, (a.generate path hints records).1 = .ok text ∧
      ((b.generate path' hints' records').1 = .ok text ↔ b = a) := by
  refine ⟨a.formula, Node.generate_formula ha.isFormula path hints records, ?_⟩
  rw [Node.generate_formula hb.isFormula]
  constructor
  · intro h
    have hletters : a.letters = b.letters := by
      unfold Node.letters
      rw [Except.ok.inj h]
    have hend : FollowsWhole [] := by
      rintro c ⟨⟩
    exact (ha.readable.whole.injective hend hb hletters).symm
  · rintro rfl
    rfl

/-- `(a + b) * c` -/
def productOfSum : Node :=
  .binaryExpression "*" (.binaryExpression "+" (.identifier ⟨"a"⟩) (.identifier ⟨"b"⟩))
    (.identifier ⟨"c"⟩)

/-- `a + b * c` -/
def sumOfProduct : Node :=
  .binaryExpression "+" (.identifier ⟨"a"⟩)
    (.binaryExpression "*" (.identifier ⟨"b"⟩) (.identifier ⟨"c"⟩))

/-- A product of a sum and a sum of a product have different texts. -/
theorem Node.generate_grouping_products :
    productOfSum.Compound ∧ sumOfProduct.Compound ∧
      ∃ text, (productOfSum.generate [] .empty .empty).1 = .ok text ∧
        (sumOfProduct.generate [] .empty .empty).1 ≠ .ok text := by
  have hname (name : String) (h : Named name) : (Node.identifier ⟨name⟩).Compound := .name h
  have ha := hname "a" (by decide)
  have hb := hname "b" (by decide)
  have hc := hname "c" (by decide)
  have hproduct : productOfSum.Compound := .binary (by decide) (.binary (by decide) ha hb) hc
  have hsum : sumOfProduct.Compound := .binary (by decide) ha (.binary (by decide) hb hc)
  obtain ⟨text, htext, hsame⟩ := generate_grouping hproduct hsum [] [] .empty .empty .empty .empty
  refine ⟨hproduct, hsum, text, htext, fun h => ?_⟩
  have heq : sumOfProduct = productOfSum := hsame.1 h
  have hsymbol : "+" = "*" := (Node.binaryExpression.inj heq).1
  exact absurd hsymbol (by decide)

end SwiftScribe
