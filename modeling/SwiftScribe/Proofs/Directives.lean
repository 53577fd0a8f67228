import SwiftScribe.Proofs.Lexer
import SwiftScribe.Proofs.Trace

/-!
# Directives as comments

A directive is written as a comment: its text behind two slashes. The text is what the source has
between the quotes, so it may hold a line break behind a backslash, and a comment ends with its line.

* `Swift.linesOf_intercalate`: the lines of texts with breaks between them are their lines.
* `Node.swift_directives`: the draft of directives asks nothing and does not fail.
* `Source.run_directives`: **the lines of the text are comments if and only if what stands behind the
  line breaks of the directives are.**
-/

namespace SwiftScribe

namespace Swift

/-! ## Lines -/

/-- **The lines of a text.** -/
def linesOf (text : String) : List (List Char) := text.toList.splitOnP isBreak

/-- The line that a text begins with. -/
def firstLine (text : String) : List Char := (linesOf text).headD []

/-- The lines behind the line breaks of a text. -/
def furtherLines (text : String) : List (List Char) := (linesOf text).tail

/-- **A line without code:** it is empty, or a comment. -/
def IsRemark (line : List Char) : Prop := line = [] ∨ ['/', '/'] <+: line

instance : DecidablePred IsRemark := fun line =>
  inferInstanceAs (Decidable (line = [] ∨ ['/', '/'] <+: line))

theorem linesOf_eq_cons (text : String) : linesOf text = firstLine text :: furtherLines text := by
  unfold firstLine furtherLines
  cases h : linesOf text with
  | nil => exact absurd h (List.splitOnP_ne_nil _ _)
  | cons first rest => rfl

theorem linesOf_append_break (front back : String) :
    linesOf (front ++ "\n" ++ back) = linesOf front ++ linesOf back := by
  have hbreak : (front ++ "\n" ++ back).toList = front.toList ++ '\n' :: back.toList := by simp
  unfold linesOf
  rw [hbreak]
  exact List.splitOnP_append_cons _ _ rfl

/-- Characters without a break lengthen the first line of what they stand before. -/
theorem splitOnP_append {front : List Char} (h : ∀ c ∈ front, isBreak c = false) (back : List Char) :
    (front ++ back).splitOnP isBreak = (back.splitOnP isBreak).modifyHead (front ++ ·) := by
  induction front with
  | nil => exact (congrFun List.modifyHead_id _).symm
  | cons c front ih =>
    have hc : ¬ isBreak c = true := by simp [h c List.mem_cons_self]
    have htail := ih fun other hm => h other (List.mem_cons_of_mem _ hm)
    rw [List.cons_append, List.splitOnP_cons_eq_if_modifyHead, if_neg hc, htail,
      List.modifyHead_modifyHead]
    rfl

theorem linesOf_append {front : String} (h : ∀ c ∈ front.toList, isBreak c = false) (back : String) :
    linesOf (front ++ back) = (front.toList ++ firstLine back) :: furtherLines back := by
  have hback : back.toList.splitOnP isBreak = firstLine back :: furtherLines back :=
    linesOf_eq_cons back
  rw [linesOf, String.toList_append, splitOnP_append h, hback]
  rfl

/-- **The lines of texts with breaks between them** are the lines of the texts. -/
theorem linesOf_intercalate {texts : List String} (hne : texts ≠ []) :
    linesOf ("\n".intercalate texts) = texts.flatMap linesOf := by
  induction texts with
  | nil => exact absurd rfl hne
  | cons first rest ih =>
    cases rest with
    | nil => simp
    | cons second more =>
      have hrest := ih (List.cons_ne_nil _ _)
      rw [String.intercalate_cons_cons, linesOf_append_break, hrest]
      rfl

/-! ## Comments -/

/-- The comment that a directive is written as. -/
def commentOf (directive : String) : String := "// " ++ directive

theorem linesOf_commentOf (directive : String) :
    linesOf (commentOf directive) =
      (['/', '/', ' '] ++ firstLine directive) :: furtherLines directive := by
  have hfree : ∀ c ∈ "// ".toList, isBreak c = false := by simp [isBreak]
  exact linesOf_append hfree directive

/-- **The lines of comments** on lines of their own: each begins with the first line of its directive
and goes on with the further ones as they are. -/
theorem mem_linesOf_stack_iff {directives : List String} {line : List Char} :
    line ∈ linesOf (stack (directives.map commentOf) ++ "\n") ↔
      line = [] ∨ ∃ directive ∈ directives,
        line = ['/', '/', ' '] ++ firstLine directive ∨ line ∈ furtherLines directive := by
  have hlast : linesOf "" = [[]] := by decide
  have hsplit := linesOf_append_break (stack (directives.map commentOf)) ""
  rw [String.append_empty, hlast] at hsplit
  have hnone : (directives.map commentOf).filter (· ≠ "") = directives.map commentOf := by
    rw [List.filter_eq_self]
    intro text hm
    obtain ⟨directive, -, rfl⟩ := List.mem_map.1 hm
    simp [commentOf]
  rw [hsplit, List.mem_append, List.mem_singleton, stack, hnone]
  cases directives with
  | nil => simp [hlast]
  | cons first rest =>
    rw [linesOf_intercalate (by simp), List.mem_flatMap, or_comm]
    simp [linesOf_commentOf]

/-- **Comments on lines of their own stay comments** if and only if the further lines of their
directives are comments, too. -/
theorem isRemark_stack_iff {directives : List String} :
    (∀ line ∈ linesOf (stack (directives.map commentOf) ++ "\n"), IsRemark line) ↔
      ∀ directive ∈ directives, ∀ line ∈ furtherLines directive, IsRemark line := by
  constructor
  · intro h directive hd line hm
    exact h line (mem_linesOf_stack_iff.2 (.inr ⟨directive, hd, .inr hm⟩))
  · intro h line hm
    rcases mem_linesOf_stack_iff.1 hm with rfl | ⟨directive, hd, rfl | hfurther⟩
    · exact .inl rfl
    · exact .inr ⟨' ' :: firstLine directive, rfl⟩
    · exact h directive hd line hfurther

end Swift

/-! ## Generation -/

open Swift

/-- The directive that a statement is, if it is one. -/
def Node.directive? : Node → Option String
  | .expressionStatement _ directive => directive
  | _ => none

theorem Node.write_directive {node : Node} {directive : String} (h : node.directive? = some directive)
    (path : TypePath) : (node.write path : Draft String) = pure (commentOf directive) := by
  cases node with
  | expressionStatement expression found =>
    cases h
    rfl
  | _ => cases h

/-- Parts that need nothing are put on lines of their own without anything else. -/
theorem Swift.Draft.all_pure (texts : List String) :
    Scribe.all (texts.map pure) = (pure texts : Draft (List String)) := by
  induction texts with
  | nil => rfl
  | cons first rest ih =>
    rw [List.map_cons, Scribe.all, ih]
    rfl

/-- **The draft of directives** asks nothing and does not fail. -/
theorem Node.swift_directives (sourceType : String) {body : List Node}
    (hall : ∀ node ∈ body, node.directive?.isSome) (path : TypePath) :
    (Node.program sourceType body).swift path =
      pure (stack ((body.filterMap Node.directive?).map commentOf)) := by
  have hparts : (writeAll path body : List (Draft String)) =
      ((body.filterMap Node.directive?).map commentOf).map pure := by
    induction body with
    | nil => rfl
    | cons node rest ih =>
      obtain ⟨directive, hd⟩ := Option.isSome_iff_exists.1 (hall node List.mem_cons_self)
      have hrest := ih fun other hm => hall other (List.mem_cons_of_mem _ hm)
      rw [writeAll, Node.write_directive hd, hrest, List.filterMap_cons_some hd]
      rfl
  have hlines : (Node.program sourceType body).swift path = Scribe.lines (writeAll path body) := rfl
  rw [hlines, hparts, Scribe.lines, Swift.Draft.all_pure]
  rfl

/-! ## Runs -/

namespace Source

/-- **A run on directives** succeeds on any hints and records nothing. Its text is their comments. -/
theorem run_comments (hints : HintTable) {ast : Json} {sourceType : String} {body : List Node}
    (hdecode : Node.decode ast = .ok (.program sourceType body))
    (hall : ∀ node ∈ body, node.directive?.isSome) :
    Source.run hints ⟨none, ast⟩ =
      .ok ⟨stack ((body.filterMap Node.directive?).map commentOf) ++ "\n", .empty⟩ := by
  have hdiagnosed : Node.decodeDiagnosed ast = .ok (.program sourceType body) := by
    rw [Node.decodeDiagnosed, hdecode]
    rfl
  unfold run
  simp only [hdiagnosed, Node.generate_eq, Node.swift_directives sourceType hall]
  rfl

/-- **Directives become comments as far as their first lines go.** A run on directives, without a
source name, succeeds and records nothing. A line of its text is empty, the comment with the first line
of a directive, or a further line of a directive as it is. So all lines are empty or comments if and
only if that holds of the further lines of the directives. -/
theorem run_directives (hints : HintTable) {ast : Json} {sourceType : String} {body : List Node}
    (hdecode : Node.decode ast = .ok (.program sourceType body))
    (hall : ∀ node ∈ body, node.directive?.isSome) :
    ∃ output, Source.run hints ⟨none, ast⟩ = .ok output ∧ output.records = .empty ∧
      (∀ line, line ∈ linesOf output.swift ↔
        line = [] ∨ ∃ directive ∈ body.filterMap Node.directive?,
          line = ['/', '/', ' '] ++ firstLine directive ∨ line ∈ furtherLines directive) ∧
      ((∀ line ∈ linesOf output.swift, IsRemark line) ↔
        ∀ directive ∈ body.filterMap Node.directive?,
          ∀ line ∈ furtherLines directive, IsRemark line) :=
  ⟨_, run_comments hints hdecode hall, rfl, fun _ => mem_linesOf_stack_iff, isRemark_stack_iff⟩

/-- A script of directives, each with the string that it stands for and its text between the quotes. -/
def ofDirectives (directives : List (String × String)) : Json :=
  let literal (value text : String) : Json :=
    .obj [("type", .str "Literal"), ("value", .str value), ("raw", .str ("\"" ++ text ++ "\""))]
  let statement : String × String → Json := fun (value, text) =>
    .obj [("type", .str "ExpressionStatement"), ("expression", literal value text),
      ("directive", .str text)]
  .obj [("type", .str "Program"), ("sourceType", .str "script"),
    ("body", .arr (directives.map statement))]

/-- The statements that a script of directives is decoded to. -/
def directiveNodes (directives : List (String × String)) : List Node :=
  directives.map fun (value, text) =>
    .expressionStatement (.literal ⟨.str value, "\"" ++ text ++ "\"", none⟩) (some text)

/-- A directive over two lines, the second of which is a comment by itself. -/
theorem run_directives_commented :
    let directives := [("use strict", "use strict"), ("a// b()", "a\\\n// b()")]
    Node.decode (ofDirectives directives) = .ok (.program "script" (directiveNodes directives)) ∧
      (∀ node ∈ directiveNodes directives, node.directive?.isSome) ∧
      ∃ output, Source.run .empty ⟨none, ofDirectives directives⟩ = .ok output ∧
        output.records = .empty ∧ ∀ line ∈ linesOf output.swift, IsRemark line := by
  intro directives
  have hdecode : Node.decode (ofDirectives directives) =
      .ok (.program "script" (directiveNodes directives)) := rfl
  have hall : ∀ node ∈ directiveNodes directives, node.directive?.isSome := by
    simp [directives, directiveNodes, Node.directive?]
  obtain ⟨output, hrun, hrecords, -, hiff⟩ := run_directives .empty hdecode hall
  have hfurther : ∀ directive ∈ ["use strict", "a\\\n// b()"],
      ∀ line ∈ furtherLines directive, IsRemark line := by
    decide
  exact ⟨hdecode, hall, output, hrun, hrecords, hiff.2 hfurther⟩

/-- **What a parser may report as a directive:** what stands between the quotes of a string literal, as
it is written. A quote stands behind a backslash, and so does a line break. -/
inductive Reported (quote : Char) : List Char → Prop
  | nil : Reported quote []
  | plain {c : Char} {rest : List Char} (hc : c ∉ [quote, '\\', '\n', '\r'])
    (h : Reported quote rest) : Reported quote (c :: rest)
  | escaped (c : Char) {rest : List Char} (h : Reported quote rest) :
    Reported quote ('\\' :: c :: rest)
  | continued {rest : List Char} (h : Reported quote rest) :
    Reported quote ('\\' :: '\r' :: '\n' :: rest)

/-- **The second line of a directive is not a comment**: behind a line continuation, the text of the
directive is code. -/
theorem directive_continued_uncommented :
    ¬ ∀ (hints : HintTable) (ast : Json) (sourceType : String) (body : List Node) (output : Output),
      Node.decode ast = .ok (.program sourceType body) →
      (∀ node ∈ body, ∃ directive, node.directive? = some directive ∧
        Reported '"' directive.toList) →
      Source.run hints ⟨none, ast⟩ = .ok output →
      ∀ line ∈ linesOf output.swift, IsRemark line := by
  intro h
  let directives := [("ab()", "a\\\nb()")]
  have hdecode : Node.decode (ofDirectives directives) =
      .ok (.program "script" (directiveNodes directives)) := rfl
  have hreported : Reported '"' "a\\\nb()".toList :=
    .plain (by decide) (.escaped '\n' (.plain (by decide) (.plain (by decide)
      (.plain (by decide) .nil))))
  have hall : ∀ node ∈ directiveNodes directives, ∃ directive,
      node.directive? = some directive ∧ Reported '"' directive.toList := by
    intro node hm
    rw [List.mem_singleton.1 hm]
    exact ⟨_, rfl, hreported⟩
  have hsome : ∀ node ∈ directiveNodes directives, node.directive?.isSome := by
    intro node hm
    obtain ⟨directive, hd, -⟩ := hall node hm
    simp [hd]
  have hline := h .empty _ _ _ _ hdecode hall (run_comments .empty hdecode hsome) "b()".toList
    (mem_linesOf_stack_iff.2 (.inr ⟨_, List.mem_singleton_self _, .inr (by decide)⟩))
  exact absurd hline (by decide)

end Source

end SwiftScribe
