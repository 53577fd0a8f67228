import SwiftScribe.Proofs.Formulas

/-!
# Prefix operators, accesses and calls

Prefix operators stand before an operand, accesses and calls behind one. Generation puts the operand
of an access or a call in parentheses if it is an operator between operands, but not if it begins
with a prefix operator or `await`: `(-a).b` and `-a.b` are both written `-a.b`.

* `Spine`: what can be read in such a text: prefix operators, a name or a group, and links.
* `Spine.readsBack`: a spine can be read back from its text.
* `Node.spine`: the spine that an expression is written as. `Spine.meant` goes back, with the prefix
  operators over the links.
* `Node.generate_chains`: **expressions with one text have one spine**; if nothing with a prefix
  operator is accessed or called, they are the same.
* `Node.chains_clash`: else they need not be.
-/

namespace SwiftScribe

open Swift

/-! ## Spines -/

/-- The places of a text. -/
inductive Place where
  /-- An expression. -/
  | whole
  /-- The accesses and calls behind an operand. -/
  | links
  /-- Between the parentheses of a call. -/
  | arguments
  /-- Behind the first argument. -/
  | further

/-- **What is read at a place**, from left to right. One family for all places, so that an induction
runs through all of them. -/
inductive Spine : Place → Type
  | sign (operator : String) (rest : Spine .whole) : Spine .whole
  | name (word : String) (links : Spine .links) : Spine .whole
  | group (inner : Spine .whole) (links : Spine .links) : Spine .whole
  | bare : Spine .links
  | field (word : String) (links : Spine .links) : Spine .links
  | index (inner : Spine .whole) (links : Spine .links) : Spine .links
  | call (arguments : Spine .arguments) (links : Spine .links) : Spine .links
  | nothing : Spine .arguments
  | first (value : Spine .whole) (others : Spine .further) : Spine .arguments
  | last : Spine .further
  | next (value : Spine .whole) (others : Spine .further) : Spine .further

/-- What stands before an operand. -/
def prefixWords : List String := ["!", "-", "+", "~", "await "]

namespace Spine

/-- The text of a spine. -/
def letters : {place : Place} → Spine place → List Char
  | _, .sign operator rest => operator.toList ++ rest.letters
  | _, .name word links => (identifier word).toList ++ links.letters
  | _, .group inner links => '(' :: (inner.letters ++ ')' :: links.letters)
  | _, .bare => []
  | _, .field word links => '.' :: ((identifier word).toList ++ links.letters)
  | _, .index inner links => '[' :: (inner.letters ++ ']' :: links.letters)
  | _, .call arguments links => '(' :: (arguments.letters ++ ')' :: links.letters)
  | _, .nothing => []
  | _, .first value others => value.letters ++ others.letters
  | _, .last => []
  | _, .next value others => ',' :: ' ' :: (value.letters ++ others.letters)

/-- The names and prefix operators of a spine are some. -/
def Worded : {place : Place} → Spine place → Prop
  | _, .sign operator rest => operator ∈ prefixWords ∧ rest.Worded
  | _, .name word links => Named word ∧ links.Worded
  | _, .group inner links => inner.Worded ∧ links.Worded
  | _, .bare => True
  | _, .field word links => Named word ∧ links.Worded
  | _, .index inner links => inner.Worded ∧ links.Worded
  | _, .call arguments links => arguments.Worded ∧ links.Worded
  | _, .nothing => True
  | _, .first value others => value.Worded ∧ others.Worded
  | _, .last => True
  | _, .next value others => value.Worded ∧ others.Worded

/-! ## Reading back -/

/-- What may follow what is read at a place. -/
def Follows : Place → List Char → Prop
  | .whole, rest => ∀ c ∈ rest.head?, c ∈ [')', ']', ',']
  | .links, rest => ∀ c ∈ rest.head?, c ∈ [')', ']', ',']
  | .arguments, rest => ∀ c ∈ rest.head?, c = ')'
  | .further, rest => ∀ c ∈ rest.head?, c = ')'

theorem follows_closed {place : Place} (rest : List Char) : Follows place (')' :: rest) := by
  cases place <;> rintro c ⟨⟩ <;> simp

theorem follows_bracket (rest : List Char) : Follows .whole (']' :: rest) := by
  rintro c ⟨⟩
  simp

/-- What follows the operand of links does not go on with a name, and is no blank. -/
theorem head_links (links : Spine .links) {rest : List Char} (h : Follows .links rest) :
    ∀ c ∈ (links.letters ++ rest).head?, c ∈ ['.', '[', '(', ')', ']', ','] := by
  intro c hc
  cases links with
  | bare =>
    have hrest := h c hc
    simp only [List.mem_cons, List.not_mem_nil, or_false] at hrest ⊢
    exact .inr (.inr (.inr hrest))
  | field word links =>
    obtain rfl : '.' = c := Option.some.inj hc
    decide
  | index inner links =>
    obtain rfl : '[' = c := Option.some.inj hc
    decide
  | call arguments links =>
    obtain rfl : '(' = c := Option.some.inj hc
    decide

theorem unnamed_links (links : Spine .links) {rest : List Char} (h : Follows .links rest) :
    Unnamed (links.letters ++ rest) := by
  intro c hc
  have hmark := head_links links h c hc
  simp only [List.mem_cons, List.not_mem_nil, or_false] at hmark
  rcases hmark with rfl | rfl | rfl | rfl | rfl | rfl <;> decide

/-- What follows an argument is a further one, or the end of the call. -/
theorem follows_further (others : Spine .further) {rest : List Char} (h : Follows .further rest) :
    Follows .whole (others.letters ++ rest) := by
  intro c hc
  cases others with
  | last =>
    rw [h c hc]
    decide
  | next value others =>
    obtain rfl : ',' = c := Option.some.inj hc
    decide

/-- No prefix operator begins like another. -/
theorem prefixWord_unique {operator other : String} (ho : operator ∈ prefixWords)
    (hp : other ∈ prefixWords) {rest more : List Char}
    (h : operator.toList ++ rest = other.toList ++ more) : operator = other ∧ rest = more := by
  have hfilled : ∀ operator ∈ prefixWords, operator.toList ≠ [] := by decide
  have hapart : ∀ operator ∈ prefixWords, ∀ other ∈ prefixWords,
      operator.toList.head? = other.toList.head? → operator = other := by decide
  have hhead : operator.toList.head? = other.toList.head? := by
    have hboth := congrArg List.head? h
    rwa [List.head?_append_of_ne_nil _ (hfilled _ ho),
      List.head?_append_of_ne_nil _ (hfilled _ hp)] at hboth
  obtain rfl := hapart _ ho _ hp hhead
  exact ⟨rfl, List.append_cancel_left h⟩

/-- A name does not begin with a prefix operator: `await` has a blank behind it. -/
theorem prefixWord_ne_name {operator name : String} (ho : operator ∈ prefixWords) (hn : Named name)
    (links : Spine .links) {rest more : List Char} (h : Follows .links rest) :
    operator.toList ++ more ≠ (identifier name).toList ++ (links.letters ++ rest) := by
  intro heq
  by_cases hawait : operator = "await "
  · subst hawait
    have hblank : ∀ c ∈ (' ' :: more).head?, ¬ isNameChar c := by
      rintro c ⟨⟩
      decide
    rcases identifier_cases hn with ⟨-, htext⟩ | ⟨hname, -⟩
    · rw [htext] at heq
      exact absurd (List.cons.inj heq).1 (by decide)
    · -- the name would be `await`, and a blank a link
      have hword : Named "await" := by decide
      have hsplit : "await".toList ++ ' ' :: more
          = (identifier name).toList ++ (links.letters ++ rest) := heq
      obtain ⟨-, hrest⟩ := front_unique (p := fun c => isNameChar c) hword.chars hname.chars hblank
        (unnamed_links links h) hsplit
      have hmem := head_links links h ' ' (hrest ▸ rfl)
      exact absurd hmem (by decide)
  · obtain ⟨c, tail, htext, hc⟩ := identifier_begins hn
    have hsign : ∀ operator ∈ prefixWords, operator ≠ "await " →
        ∃ d, operator.toList = [d] ∧ d ≠ '`' ∧ ¬ isNameChar d := by
      intro operator hmem hne
      unfold prefixWords at hmem
      simp only [List.mem_cons, List.not_mem_nil, or_false] at hmem
      rcases hmem with rfl | rfl | rfl | rfl | rfl
      · exact ⟨'!', rfl, by decide, by decide⟩
      · exact ⟨'-', rfl, by decide, by decide⟩
      · exact ⟨'+', rfl, by decide, by decide⟩
      · exact ⟨'~', rfl, by decide, by decide⟩
      · exact absurd rfl hne
    obtain ⟨d, hd, hquote, hchar⟩ := hsign operator ho hawait
    rw [hd, htext] at heq
    obtain rfl : d = c := (List.cons.inj heq).1
    exact hc.elim hquote hchar

/-- Neither a prefix operator nor a name begins with a parenthesis. -/
theorem prefixWord_ne_group {operator : String} (ho : operator ∈ prefixWords)
    {rest more : List Char} : operator.toList ++ rest ≠ '(' :: more := by
  intro heq
  have hfilled : ∀ operator ∈ prefixWords, operator.toList ≠ [] := by decide
  have hhead : ∀ operator ∈ prefixWords, operator.toList.head? ≠ some '(' := by decide
  have hboth := congrArg List.head? heq
  rw [List.head?_append_of_ne_nil _ (hfilled _ ho)] at hboth
  exact hhead _ ho hboth

theorem name_ne_group {name : String} (hn : Named name) {rest more : List Char} :
    (identifier name).toList ++ rest ≠ '(' :: more := by
  intro heq
  obtain ⟨c, tail, htext, hc⟩ := identifier_begins hn
  rw [htext] at heq
  obtain rfl : c = '(' := (List.cons.inj heq).1
  exact absurd hc (by decide)

/-- What may follow links does not begin like one. -/
theorem ne_link {links : Spine .links} (hne : links ≠ .bare) {rest more : List Char}
    (h : Follows .links rest) : rest ≠ links.letters ++ more := by
  rintro rfl
  have hhead (c : Char) (hc : c ∈ (links.letters ++ more).head?) : c ∈ [')', ']', ','] := h c hc
  cases links with
  | bare => exact hne rfl
  | field => exact absurd (hhead '.' rfl) (by decide)
  | index => exact absurd (hhead '[' rfl) (by decide)
  | call => exact absurd (hhead '(' rfl) (by decide)

/-- Something is read as an expression: no such text begins where arguments may end. -/
theorem head_whole {spine : Spine .whole} (h : spine.Worded) :
    ∃ c tail, spine.letters = c :: tail ∧ c ≠ ')' := by
  cases spine with
  | sign operator rest =>
    have hfilled : ∀ operator ∈ prefixWords,
        operator.toList ≠ [] ∧ operator.toList.head? ≠ some ')' := by decide
    obtain ⟨hne, hhead⟩ := hfilled operator h.1
    obtain ⟨c, tail, htext⟩ := List.exists_cons_of_ne_nil hne
    rw [htext] at hhead
    exact ⟨c, tail ++ rest.letters, by rw [letters, htext]; rfl, fun hc => hhead (by rw [hc]; rfl)⟩
  | name word links =>
    obtain ⟨c, tail, htext, hc⟩ := identifier_begins h.1
    refine ⟨c, tail ++ links.letters, by rw [letters, htext]; rfl, ?_⟩
    rintro rfl
    exact absurd hc (by decide)
  | group inner links => exact ⟨'(', _, rfl, by decide⟩

/-- The end of the arguments is no argument. -/
theorem ne_first {value : Spine .whole} (h : value.Worded) {rest more : List Char}
    (hr : ∀ c ∈ rest.head?, c = ')') : rest ≠ value.letters ++ more := by
  rintro rfl
  obtain ⟨c, tail, htext, hc⟩ := head_whole h
  rw [htext] at hr
  exact hc (hr c rfl)

/-- **A spine can be read back**: its first character tells what it begins with. -/
theorem readsBack {place : Place} {a : Spine place} (ha : a.Worded) :
    ReadsBack Worded (Follows place) letters a := by
  intro b hb rest more hr hm heq
  -- two spines that begin differently have no text in common, so only like cases remain
  induction a generalizing rest more with
  | sign operator tail ih =>
    cases b with
    | sign other tail' =>
      simp only [letters, List.append_assoc] at heq
      obtain ⟨rfl, htail⟩ := prefixWord_unique ha.1 hb.1 heq
      obtain ⟨rfl, hrest⟩ := ih ha.2 _ hb.2 rest more hr hm htail
      exact ⟨rfl, hrest⟩
    | name word links =>
      simp only [letters, List.append_assoc] at heq
      exact absurd heq (prefixWord_ne_name ha.1 hb.1 links hm)
    | group inner links =>
      simp only [letters, List.append_assoc] at heq
      exact absurd heq (prefixWord_ne_group ha.1)
  | name word links ih =>
    cases b with
    | sign operator tail =>
      simp only [letters, List.append_assoc] at heq
      exact absurd heq.symm (prefixWord_ne_name hb.1 ha.1 links hr)
    | name word' links' =>
      simp only [letters, List.append_assoc] at heq
      obtain ⟨rfl, hlinks⟩ :=
        identifier_unique ha.1 hb.1 (unnamed_links links hr) (unnamed_links links' hm) heq
      obtain ⟨rfl, hrest⟩ := ih ha.2 _ hb.2 rest more hr hm hlinks
      exact ⟨rfl, hrest⟩
    | group inner links' =>
      simp only [letters, List.append_assoc] at heq
      exact absurd heq (name_ne_group ha.1)
  | group inner links ihi ihl =>
    cases b with
    | sign operator tail =>
      simp only [letters, List.append_assoc] at heq
      exact absurd heq.symm (prefixWord_ne_group hb.1)
    | name word links' =>
      simp only [letters, List.append_assoc] at heq
      exact absurd heq.symm (name_ne_group hb.1)
    | group inner' links' =>
      simp only [letters, List.cons_append, List.append_assoc, List.cons.injEq, true_and] at heq
      obtain ⟨rfl, hlinks⟩ := ihi ha.1 _ hb.1 _ _ (follows_closed _) (follows_closed _) heq
      obtain ⟨rfl, hrest⟩ := ihl ha.2 _ hb.2 rest more hr hm (List.cons.inj hlinks).2
      exact ⟨rfl, hrest⟩
  | bare =>
    cases b with
    | bare => exact ⟨rfl, heq⟩
    | field word links => exact absurd heq (ne_link (by nofun) hr)
    | index inner links => exact absurd heq (ne_link (by nofun) hr)
    | call arguments links => exact absurd heq (ne_link (by nofun) hr)
  | field word links ih =>
    cases b with
    | bare => exact absurd heq.symm (ne_link (by nofun) hm)
    | field word' links' =>
      simp only [letters, List.cons_append, List.append_assoc, List.cons.injEq, true_and] at heq
      obtain ⟨rfl, hlinks⟩ :=
        identifier_unique ha.1 hb.1 (unnamed_links links hr) (unnamed_links links' hm) heq
      obtain ⟨rfl, hrest⟩ := ih ha.2 _ hb.2 rest more hr hm hlinks
      exact ⟨rfl, hrest⟩
    | index inner links' => exact absurd (List.cons.inj heq).1 (by decide)
    | call arguments links' => exact absurd (List.cons.inj heq).1 (by decide)
  | index inner links ihi ihl =>
    cases b with
    | bare => exact absurd heq.symm (ne_link (by nofun) hm)
    | field word links' => exact absurd (List.cons.inj heq).1 (by decide)
    | index inner' links' =>
      simp only [letters, List.cons_append, List.append_assoc, List.cons.injEq, true_and] at heq
      obtain ⟨rfl, hlinks⟩ := ihi ha.1 _ hb.1 _ _ (follows_bracket _) (follows_bracket _) heq
      obtain ⟨rfl, hrest⟩ := ihl ha.2 _ hb.2 rest more hr hm (List.cons.inj hlinks).2
      exact ⟨rfl, hrest⟩
    | call arguments links' => exact absurd (List.cons.inj heq).1 (by decide)
  | call arguments links iha ihl =>
    cases b with
    | bare => exact absurd heq.symm (ne_link (by nofun) hm)
    | field word links' => exact absurd (List.cons.inj heq).1 (by decide)
    | index inner links' => exact absurd (List.cons.inj heq).1 (by decide)
    | call arguments' links' =>
      simp only [letters, List.cons_append, List.append_assoc, List.cons.injEq, true_and] at heq
      obtain ⟨rfl, hlinks⟩ := iha ha.1 _ hb.1 _ _ (follows_closed _) (follows_closed _) heq
      obtain ⟨rfl, hrest⟩ := ihl ha.2 _ hb.2 rest more hr hm (List.cons.inj hlinks).2
      exact ⟨rfl, hrest⟩
  | nothing =>
    cases b with
    | nothing => exact ⟨rfl, heq⟩
    | first value others =>
      have hvalue : rest = value.letters ++ (others.letters ++ more) := by
        rw [← List.append_assoc]
        exact heq
      exact absurd hvalue (ne_first hb.1 hr)
  | first value others ihv iho =>
    cases b with
    | nothing =>
      have hvalue : more = value.letters ++ (others.letters ++ rest) := by
        rw [← List.append_assoc]
        exact heq.symm
      exact absurd hvalue (ne_first ha.1 hm)
    | first value' others' =>
      simp only [letters, List.append_assoc] at heq
      obtain ⟨rfl, hothers⟩ :=
        ihv ha.1 _ hb.1 _ _ (follows_further others hr) (follows_further others' hm) heq
      obtain ⟨rfl, hrest⟩ := iho ha.2 _ hb.2 rest more hr hm hothers
      exact ⟨rfl, hrest⟩
  | last =>
    cases b with
    | last => exact ⟨rfl, heq⟩
    | next value others =>
      have hcomma := hr ',' (by rw [show rest = _ from heq]; rfl)
      exact absurd hcomma (by decide)
  | next value others ihv iho =>
    cases b with
    | last =>
      have hcomma := hm ',' (by rw [show more = _ from heq.symm]; rfl)
      exact absurd hcomma (by decide)
    | next value' others' =>
      simp only [letters, List.cons_append, List.append_assoc, List.cons.injEq, true_and] at heq
      obtain ⟨rfl, hothers⟩ :=
        ihv ha.1 _ hb.1 _ _ (follows_further others hr) (follows_further others' hm) heq
      obtain ⟨rfl, hrest⟩ := iho ha.2 _ hb.2 rest more hr hm hothers
      exact ⟨rfl, hrest⟩

end Spine

/-! ## Expressions -/

/-- **The expressions made of names by prefix operators, accesses and calls**, where what is
accessed or called is of some shape. -/
inductive Node.Chained (Front : Node → Prop) : Node → Prop
  | name {id : Identifier} (h : Named id.name) : Chained Front (.identifier id)
  | sign {operator : String} {argument : Node} (ho : operator ∈ signs)
    (h : argument.Chained Front) : Chained Front (.unaryExpression operator argument true)
  | wait {argument : Node} (h : argument.Chained Front) : Chained Front (.awaitExpression argument)
  | field {object : Node} {id : Identifier} (hf : Front object) (h : object.Chained Front)
    (hn : Named id.name) : Chained Front (.memberExpression false object (.identifier id))
  | index {object property : Node} (hf : Front object) (h : object.Chained Front)
    (hp : property.Chained Front) : Chained Front (.memberExpression true object property)
  | call {callee : Node} {arguments : List Node} (hf : Front callee) (h : callee.Chained Front)
    (ha : ∀ argument ∈ arguments, argument.Chained Front) :
    Chained Front (.callExpression callee arguments)

/-- Any shape. -/
def anyFront (_ : Node) : Prop := True

/-- Whether an expression begins with a prefix operator of its own. -/
def Node.isPrefixed : Node → Bool
  | .unaryExpression .. => true
  | .awaitExpression .. => true
  | _ => false

/-- The shape of what may be accessed or called without parentheses. -/
def bareFront (node : Node) : Prop := node.isPrefixed = false

theorem Node.Chained.isFormula {Front : Node → Prop} {node : Node} (h : node.Chained Front) :
    node.IsFormula := by
  induction h with
  | name => exact .name _
  | sign ho _ ih => exact .sign ho ih
  | wait _ ih => exact .wait ih
  | field _ _ _ ih => exact .access ih (.name _)
  | index _ _ _ ih ihp => exact .access ih ihp
  | call _ _ _ ih iha => exact .call ih iha

mutual
/-- **The spine that an expression is written as**, with links behind it. -/
def Node.spine (links : Spine .links) : Node → Spine .whole
  | .identifier id => .name id.name links
  | .unaryExpression operator argument _ =>
    if argument.isSigned then .sign operator (.group (argument.spine .bare) links)
    else .sign operator (argument.spine links)
  | .awaitExpression argument => .sign "await " (argument.spine links)
  | .memberExpression computed object property =>
    if computed then object.spine (.index (property.spine .bare) links)
    else object.spine (.field (property.identifierName?.getD "") links)
  | .callExpression callee arguments => callee.spine (.call (argumentSpine arguments) links)
  | _ => .name "" links

/-- The arguments of a call. -/
def argumentSpine : List Node → Spine .arguments
  | [] => .nothing
  | node :: rest => .first (node.spine .bare) (furtherSpine rest)

/-- The arguments behind the first. -/
def furtherSpine : List Node → Spine .further
  | [] => .last
  | node :: rest => .next (node.spine .bare) (furtherSpine rest)
end

section Writing

variable {Front : Node → Prop}

/-- The names and prefix operators of an expression are those of its spine. -/
theorem Node.Chained.worded {node : Node} (h : node.Chained Front) {links : Spine .links}
    (hl : links.Worded) : (node.spine links).Worded := by
  have hsigns : ∀ operator ∈ signs, operator ∈ prefixWords := by decide
  induction h generalizing links with
  | name hn => exact ⟨hn, hl⟩
  | @sign operator argument ho _ ih =>
    unfold Node.spine
    split
    · exact ⟨hsigns _ ho, ih trivial, hl⟩
    · exact ⟨hsigns _ ho, ih hl⟩
  | wait _ ih => exact ⟨by decide, ih hl⟩
  | field _ _ hn ih => exact ih ⟨hn, hl⟩
  | index _ _ _ ih ihp => exact ih ⟨ihp trivial, hl⟩
  | @call callee arguments _ _ _ ih iha =>
    have hfurther (rest : List Node)
        (h : ∀ node ∈ rest, ∀ {links : Spine .links}, links.Worded → (node.spine links).Worded) :
        (furtherSpine rest).Worded := by
      induction rest with
      | nil => trivial
      | cons node rest ihr =>
        exact ⟨h node List.mem_cons_self trivial,
          ihr fun other hm => h other (List.mem_cons_of_mem _ hm)⟩
    refine ih ⟨?_, hl⟩
    cases arguments with
    | nil => trivial
    | cons node rest =>
      exact ⟨iha node List.mem_cons_self trivial,
        hfurther rest fun other hm => iha other (List.mem_cons_of_mem _ hm)⟩

/-- The text of arguments, from that of each. -/
theorem letters_argumentSpine {arguments : List Node}
    (h : ∀ node ∈ arguments, (node.spine .bare).letters = node.formula.toList) :
    (argumentSpine arguments).letters = (", ".intercalate (formulas arguments)).toList := by
  have hfurther (node : Node) (rest : List Node)
      (h : ∀ node ∈ rest, (node.spine .bare).letters = node.formula.toList) :
      node.formula.toList ++ (furtherSpine rest).letters
        = (", ".intercalate (formulas (node :: rest))).toList := by
    induction rest generalizing node with
    | nil => simp [formulas, furtherSpine, Spine.letters]
    | cons next rest ih =>
      have hnext := h next List.mem_cons_self
      have hrest := ih next fun other hm => h other (List.mem_cons_of_mem _ hm)
      rw [formulas, formulas, String.intercalate_cons_cons, String.toList_append,
        String.toList_append, ← formulas, ← hrest, furtherSpine, Spine.letters, hnext]
      simp
  cases arguments with
  | nil => rfl
  | cons node rest =>
    rw [argumentSpine, Spine.letters, h node List.mem_cons_self]
    exact hfurther node rest fun other hm => h other (List.mem_cons_of_mem _ hm)

/-- **An expression is written as its spine.** -/
theorem Node.Chained.letters_spine {node : Node} (h : node.Chained Front) (links : Spine .links) :
    (node.spine links).letters = node.formula.toList ++ links.letters := by
  -- no operand is put in parentheses but one prefix operator behind another
  have hgrouped {node : Node} (h : node.Chained Front) (text : String) :
      node.grouped text = text := by
    cases h <;> rfl
  induction h generalizing links with
  | name => rfl
  | @sign operator argument _ hx ih =>
    have hoperation : isOperation argument = false := by cases hx <;> rfl
    unfold Node.spine Node.formula Node.behindSign
    rw [hoperation, Bool.false_or]
    by_cases hs : argument.isSigned
    · rw [if_pos hs, if_pos hs]
      simp [Spine.letters, ih, parens, String.toList_append]
    · rw [if_neg hs, if_neg hs]
      simp [Spine.letters, ih, String.toList_append]
  | wait hx ih =>
    rw [Node.formula, hgrouped hx]
    simp [Node.spine, Spine.letters, ih, String.toList_append]
  | @field object id _ hx _ ih =>
    have hformula : (Node.memberExpression false object (.identifier id)).formula
        = object.formula ++ "." ++ Swift.identifier id.name := by
      rw [Node.formula, if_neg Bool.false_ne_true, hgrouped hx]
      rfl
    rw [hformula]
    simp [Node.spine, Node.identifierName?, Spine.letters, ih, String.toList_append]
  | @index object property _ hx _ ih ihp =>
    rw [Node.formula, if_pos rfl, hgrouped hx]
    simp [Node.spine, Spine.letters, ih, ihp, String.toList_append]
  | @call callee arguments _ hx _ ih iha =>
    have harguments : (argumentSpine arguments).letters = _ :=
      letters_argumentSpine fun node hm => by rw [iha node hm, Spine.letters, List.append_nil]
    rw [Node.formula, hgrouped hx]
    simp [Node.spine, Spine.letters, ih, harguments, String.toList_append]

end Writing

/-! ## The expression that a spine stands for -/

/-- What is meant at a place: an expression, how links go on from an operand, or arguments. -/
abbrev Place.Meaning : Place → Type
  | .whole => Node
  | .links => Node → Node
  | .arguments => List Node
  | .further => List Node

/-- **The expression that a spine stands for**: prefix operators come last. -/
def Spine.meant : {place : Place} → Spine place → place.Meaning
  | _, .sign operator rest =>
    if operator = "await " then Node.awaitExpression rest.meant
    else Node.unaryExpression operator rest.meant true
  | _, .name word links => links.meant (.identifier ⟨word⟩)
  | _, .group inner links => links.meant inner.meant
  | _, .bare => id
  | _, .field word links => fun front =>
    links.meant (.memberExpression false front (.identifier ⟨word⟩))
  | _, .index inner links => fun front => links.meant (.memberExpression true front inner.meant)
  | _, .call arguments links => fun front => links.meant (.callExpression front arguments.meant)
  | _, .nothing => []
  | _, .first value others => value.meant :: others.meant
  | _, .last => []
  | _, .next value others => value.meant :: others.meant

/-- **An expression is what its spine stands for**, if nothing with a prefix operator is accessed or
called in it. Links may stand behind it unless it begins with a prefix operator itself. -/
theorem Node.Chained.meant_spine {node : Node} (h : node.Chained bareFront) :
    (node.spine .bare).meant = node ∧
      (node.isPrefixed = false → ∀ links, (node.spine links).meant = links.meant node) := by
  induction h with
  | name => exact ⟨rfl, fun _ _ => rfl⟩
  | @sign operator argument ho _ ih =>
    have hwait : operator ≠ "await " := by
      rintro rfl
      exact absurd ho (by decide)
    have hmeant (rest : Spine .whole) (h : rest.meant = argument) :
        (Spine.sign operator rest).meant = Node.unaryExpression operator argument true :=
      (if_neg hwait).trans (congrArg (Node.unaryExpression operator · true) h)
    refine ⟨?_, fun hno => by cases hno⟩
    -- a group stands for what is inside
    unfold Node.spine
    split
    · exact hmeant (.group (argument.spine .bare) .bare) ih.1
    · exact hmeant _ ih.1
  | wait _ ih => exact ⟨congrArg Node.awaitExpression ih.1, fun hno => by cases hno⟩
  | field hf _ _ ih => exact ⟨ih.2 hf _, fun _ _ => ih.2 hf _⟩
  | @index object property hf _ _ ih ihp =>
    have hindex (links : Spine .links) : (Spine.index (property.spine .bare) links).meant object
        = links.meant (.memberExpression true object property) :=
      congrArg (fun index => links.meant (.memberExpression true object index)) ihp.1
    exact ⟨(ih.2 hf _).trans (hindex .bare), fun _ links => (ih.2 hf _).trans (hindex links)⟩
  | @call callee arguments hf _ _ ih iha =>
    have hfurther (rest : List Node) (h : ∀ node ∈ rest, (node.spine .bare).meant = node) :
        (furtherSpine rest).meant = rest := by
      induction rest with
      | nil => rfl
      | cons node rest ihr =>
        exact congrArg₂ List.cons (h node List.mem_cons_self)
          (ihr fun other hm => h other (List.mem_cons_of_mem _ hm))
    have harguments : (argumentSpine arguments).meant = arguments := by
      cases arguments with
      | nil => rfl
      | cons node rest =>
        exact congrArg₂ List.cons (iha node List.mem_cons_self).1
          (hfurther rest fun other hm => (iha other (List.mem_cons_of_mem _ hm)).1)
    have hcall (links : Spine .links) : (Spine.call (argumentSpine arguments) links).meant callee
        = links.meant (.callExpression callee arguments) :=
      congrArg (fun found => links.meant (.callExpression callee found)) harguments
    exact ⟨(ih.2 hf _).trans (hcall .bare), fun _ links => (ih.2 hf _).trans (hcall links)⟩

/-- **Expressions with one text have one spine.** An expression has a text, on any hints; another
expression has it if and only if it is written as the same spine; and if in neither anything with a
prefix operator is accessed or called, it is the same expression. -/
theorem Node.generate_chains {a b : Node} (ha : a.Chained anyFront) (hb : b.Chained anyFront)
    (path path' : TypePath) (hints hints' records records' : HintTable) :
    ∃ text, (a.generate path hints records).1 = .ok text ∧
      ((b.generate path' hints' records').1 = .ok text ↔ b.spine .bare = a.spine .bare) ∧
      (a.Chained bareFront → b.Chained bareFront →
        ((b.generate path' hints' records').1 = .ok text ↔ b = a)) := by
  have hletters {node : Node} (h : node.Chained anyFront) :
      (node.spine .bare).letters = node.formula.toList := by
    rw [h.letters_spine, Spine.letters, List.append_nil]
  have hsame : b.formula = a.formula ↔ b.spine .bare = a.spine .bare := by
    rw [← String.toList_inj, ← hletters ha, ← hletters hb]
    constructor
    · intro h
      have hend : Spine.Follows .whole [] := by
        rintro c ⟨⟩
      have hfirst : (a.spine .bare).Worded := ha.worded trivial
      have hsecond : (b.spine .bare).Worded := hb.worded trivial
      exact (Spine.readsBack hsecond).injective hend hfirst h
    · intro h
      rw [h]
  have hgenerate :
      (b.generate path' hints' records').1 = .ok a.formula ↔ b.formula = a.formula := by
    rw [Node.generate_formula hb.isFormula]
    exact ⟨Except.ok.inj, congrArg _⟩
  have htext := Node.generate_formula ha.isFormula path hints records
  refine ⟨a.formula, htext, hgenerate.trans hsame, fun hma hmb => ?_⟩
  constructor
  · intro h
    have hspine := hsame.1 (hgenerate.1 h)
    rw [← hma.meant_spine.1, ← hmb.meant_spine.1, hspine]
  · rintro rfl
    exact hgenerate.2 rfl

/-- `-(a.b)` -/
def signOfField : Node :=
  .unaryExpression "-" (.memberExpression false (.identifier ⟨"a"⟩) (.identifier ⟨"b"⟩)) true

/-- `(-a).b` -/
def fieldOfSign : Node :=
  .memberExpression false (.unaryExpression "-" (.identifier ⟨"a"⟩) true) (.identifier ⟨"b"⟩)

/-- `-(a[b])` -/
def signOfIndex : Node :=
  .unaryExpression "-" (.memberExpression true (.identifier ⟨"a"⟩) (.identifier ⟨"b"⟩)) true

/-- Nothing is accessed behind a prefix operator: two accesses have different texts. -/
theorem Node.generate_chains_accesses :
    signOfField.Chained anyFront ∧ signOfIndex.Chained anyFront ∧
      ∃ text, (signOfField.generate [] .empty .empty).1 = .ok text ∧
        (signOfIndex.generate [] .empty .empty).1 ≠ .ok text := by
  have hname {Front : Node → Prop} (name : String) (h : Named name) :
      (Node.identifier ⟨name⟩).Chained Front := .name h
  have hfield {Front : Node → Prop} (hf : Front (.identifier ⟨"a"⟩)) : signOfField.Chained Front :=
    .sign (by decide) (.field hf (hname "a" (by decide)) (by decide))
  have hindex {Front : Node → Prop} (hf : Front (.identifier ⟨"a"⟩)) : signOfIndex.Chained Front :=
    .sign (by decide) (.index hf (hname "a" (by decide)) (hname "b" (by decide)))
  obtain ⟨text, htext, -, hsame⟩ := generate_chains (hfield trivial) (hindex trivial) [] []
    .empty .empty .empty .empty
  refine ⟨hfield trivial, hindex trivial, text, htext, fun h => ?_⟩
  have heq : signOfIndex = signOfField := (hsame (hfield rfl) (hindex rfl)).1 h
  have hcomputed := (Node.memberExpression.inj (Node.unaryExpression.inj heq).2.1).1
  exact absurd hcomputed (by decide)

/-- **A prefix operator on an access and an access behind a prefix operator have one text.** -/
theorem Node.chains_clash :
    signOfField.Chained anyFront ∧ fieldOfSign.Chained anyFront ∧ fieldOfSign ≠ signOfField ∧
      (signOfField.generate [] .empty .empty).1 = .ok "-a.b" ∧
      (fieldOfSign.generate [] .empty .empty).1 = .ok "-a.b" := by
  have ha : (Node.identifier ⟨"a"⟩).Chained anyFront := .name (by decide)
  have hfield : fieldOfSign.Chained anyFront := .field trivial (.sign (by decide) ha) (by decide)
  exact ⟨.sign (by decide) (.field trivial ha (by decide)), hfield, nofun, rfl, rfl⟩

end SwiftScribe
