import SwiftScribe.Proofs.Reach
import SwiftScribe.Proofs.Statements

/-!
# What a switch runs

A `switch` of the source is entered at the case that matches, or at the default if none does. From
there the statements run on through the cases that follow, up to the first jump. A generated switch
ends with the case that is entered, unless there is nothing in it but `fallthrough`. The statements of a
case count as a whole here, whatever they have inside.

* `entered`: the cases from the one that is chosen.
* `runOn`, `Swift.runCases`: what runs from there, in the source and in generated code.
* `Swift.moved`: the cases in the order of generated code, with the default last.
* `visible_runOn`: **generated code shows what the source does, up to the end of the first case with a
  text.** What the source goes on with after that is lost.
* `Node.generate_switch_last`: when nothing is lost in a switch whose default stands last.
-/

namespace SwiftScribe

open Swift

/-! ## Cases -/

section Lists

variable {α β : Type}

/-- The items up to the first one that stops. -/
def upTo (stops : α → Bool) : List α → List α
  | [] => []
  | item :: rest => if stops item then [item] else item :: upTo stops rest

/-- **The cases from the chosen one**: a number counts the cases with a test, none is the default. -/
def entered (tested : α → Bool) : Option Nat → List α → List α
  | _, [] => []
  | none, case :: rest => if tested case then entered tested none rest else case :: rest
  | some 0, case :: rest => if tested case then case :: rest else entered tested (some 0) rest
  | some (k + 1), case :: rest =>
    if tested case then entered tested (some k) rest else entered tested (some (k + 1)) rest

variable {stops tested : α → Bool}

theorem upTo_append_of_any {front : List α} (h : front.any stops) (back : List α) :
    upTo stops (front ++ back) = upTo stops front := by
  induction front with
  | nil => cases h
  | cons item rest ih =>
    by_cases hstop : stops item
    · simp [upTo, hstop]
    · simp only [List.any_cons, hstop, Bool.false_or] at h
      simp [upTo, hstop, ih h]

theorem upTo_append_of_not_any {front : List α} (h : front.any stops = false) (back : List α) :
    upTo stops (front ++ back) = front ++ upTo stops back := by
  induction front with
  | nil => rfl
  | cons item rest ih =>
    simp only [List.any_cons, Bool.or_eq_false_iff] at h
    simp [upTo, h.1, ih h.2]

theorem upTo_map (f : β → α) (items : List β) :
    upTo stops (items.map f) = (upTo (fun item => stops (f item)) items).map f := by
  induction items with
  | nil => rfl
  | cons item rest ih =>
    by_cases hstop : stops (f item)
    · simp [upTo, hstop]
    · simp [upTo, hstop, ih]

/-- The cases of a switch are numbered in order. -/
theorem entered_map {mark : β → Bool} (f : β → α) (h : ∀ case, tested (f case) = mark case)
    (choice : Option Nat) (cases : List β) :
    entered tested choice (cases.map f) = (entered mark choice cases).map f := by
  induction cases generalizing choice with
  | nil => simp [entered]
  | cons case rest ih =>
    match choice with
    | none => rw [List.map_cons, entered, entered, h, ih]; split <;> rfl
    | some 0 => rw [List.map_cons, entered, entered, h, ih]; split <;> rfl
    | some (k + 1) => rw [List.map_cons, entered, entered, h, ih, ih]; split <;> rfl

/-- What is not last in the end of a list is not last in the list. -/
theorem mem_dropLast_of_suffix {ends items : List α} (h : ends <:+ items) {item : α}
    (hm : item ∈ ends.dropLast) : item ∈ items.dropLast := by
  obtain ⟨front, rfl⟩ := h
  have hne : ends ≠ [] := by
    rintro rfl
    cases hm
  rw [List.dropLast_append_of_ne_nil hne]
  exact List.mem_append_right front hm

/-- The end of a list has the same last item. -/
theorem getLast?_of_suffix {ends items : List α} (h : ends <:+ items) (hne : ends ≠ []) :
    ∃ last, last ∈ items.getLast? ∧ last ∈ ends := by
  obtain ⟨front, rfl⟩ := h
  rw [List.getLast?_append_of_ne_nil front hne]
  exact ⟨ends.getLast hne, List.getLast?_eq_some_getLast hne, List.getLast_mem hne⟩

end Lists

/-! ## The source -/

/-- Whether a statement leaves the switch. -/
def Node.isJump : Node → Bool
  | .breakStatement _ => true
  | .continueStatement _ => true
  | .returnStatement _ => true
  | .throwStatement _ => true
  | _ => false

/-- The cases from the chosen one on. -/
def chosen (choice : Option Nat) (cases : List SwitchCase) : List SwitchCase :=
  entered (fun case => case.test.isSome) choice cases

/-- **What the source runs** from some case on. -/
def runOn (cases : List SwitchCase) : List Node :=
  upTo Node.isJump (cases.flatMap SwitchCase.consequent)

/-! ### Choices -/

section Chosen

variable {front : List SwitchCase} (h : ∀ case ∈ front, case.test.isSome) (back : List SwitchCase)

theorem chosen_nil (choice : Option Nat) : chosen choice [] = [] := by
  simp [chosen, entered]

theorem chosen_suffix (choice : Option Nat) (cases : List SwitchCase) :
    chosen choice cases <:+ cases := by
  unfold chosen
  induction cases generalizing choice with
  | nil => simp [entered]
  | cons case rest ih =>
    match choice with
    | none =>
      rw [entered]
      split
      · exact (ih none).trans (List.suffix_cons case rest)
      · exact List.suffix_refl _
    | some 0 =>
      rw [entered]
      split
      · exact List.suffix_refl _
      · exact (ih (some 0)).trans (List.suffix_cons case rest)
    | some (k + 1) =>
      rw [entered]
      split
      · exact (ih (some k)).trans (List.suffix_cons case rest)
      · exact (ih (some (k + 1))).trans (List.suffix_cons case rest)

/-- A default is met by the choice of a number as if it were not there. -/
theorem chosen_behind_default {default : SwitchCase} (hd : default.test = none) (k : Nat)
    (rest : List SwitchCase) : chosen (some k) (default :: rest) = chosen (some k) rest := by
  unfold chosen
  cases k <;> simp [entered, hd]

include h

theorem chosen_none : chosen none (front ++ back) = chosen none back := by
  unfold chosen
  induction front with
  | nil => rfl
  | cons case rest ih =>
    rw [List.cons_append, entered, if_pos (h case List.mem_cons_self),
      ih fun other hm => h other (List.mem_cons_of_mem _ hm)]

theorem chosen_of_lt {k : Nat} (hk : k < front.length) :
    chosen (some k) (front ++ back) = front.drop k ++ back := by
  unfold chosen
  induction front generalizing k with
  | nil => cases hk
  | cons case rest ih =>
    have hcase := h case List.mem_cons_self
    cases k with
    | zero => rw [List.cons_append, entered, if_pos hcase]; rfl
    | succ k =>
      rw [List.cons_append, entered, if_pos hcase,
        ih (fun other hm => h other (List.mem_cons_of_mem _ hm)) (Nat.lt_of_succ_lt_succ hk)]
      rfl

theorem chosen_beyond (k : Nat) :
    chosen (some (front.length + k)) (front ++ back) = chosen (some k) back := by
  unfold chosen
  induction front with
  | nil => simp
  | cons case rest ih =>
    have hlength : (case :: rest).length + k = (rest.length + k) + 1 := by
      simp only [List.length_cons]
      omega
    rw [hlength, List.cons_append, entered, if_pos (h case List.mem_cons_self),
      ih fun other hm => h other (List.mem_cons_of_mem _ hm)]

end Chosen

/-! ## Generated code -/

namespace Swift

/-- **A generated case**: without a test it is the default, without a body it falls through. -/
structure Case where
  test : Option String
  body : Option (List Statement)

def Case.text (case : Case) : String :=
  (match case.test with
    | some test => "case " ++ test ++ ":\n"
    | none => "default:\n") ++
  (match case.body with
    | some items => stack (texts items)
    | none => "fallthrough")

def switchText (discriminant : String) (cases : List Case) : String :=
  "switch " ++ discriminant ++ " " ++ braces ("\n".intercalate (cases.map Case.text))

def Statement.isJump : Statement → Bool
  | .breaks _ => true
  | .continues _ => true
  | .returns _ => true
  | .throws _ => true
  | _ => false

/-- What is seen of a statement as a whole: its text. A plain `break` does no more than end the
switch. -/
def Statement.shown : Statement → List String
  | .breaks none => []
  | other => if other.text = "" then [] else [other.text]

/-- **What a generated switch runs** from some case on. -/
def runCases : List Case → List Statement
  | [] => []
  | ⟨_, none⟩ :: rest => runCases rest
  | ⟨_, some items⟩ :: _ => upTo Statement.isJump items

/-- What is seen of a generated switch if a case is chosen. -/
def shownFrom (choice : Option Nat) (cases : List Case) : List String :=
  (runCases (entered (fun case => case.test.isSome) choice cases)).flatMap Statement.shown

/-- **The cases in the order of generated code.** A default stands last, if need be an empty one. -/
def moved (cases : List SwitchCase) : List SwitchCase :=
  cases.filter (·.test.isSome) ++ [(cases.find? (·.test.isNone)).getD ⟨none, []⟩]

end Swift

section Made

variable (code : Node → String)

/-- The text of the statements of a case. -/
def SwitchCase.bodyText (case : SwitchCase) : String :=
  stack (texts (statements code case.consequent))

/-- **The generated case of a case.** Where there is no text, a case falls through and a default does
nothing. -/
def SwitchCase.made (case : SwitchCase) : Case :=
  ⟨case.test.map code,
    if case.bodyText code = "" then
      if case.test.isSome then none else some [.breaks none]
    else some (statements code case.consequent)⟩

/-- What is seen of statements of the source. -/
def visible (nodes : List Node) : List String :=
  nodes.flatMap fun node => (node.statement code).shown

/-- **What the source goes on with** after the first case with a text, if no jump ends that case. -/
def lost : List SwitchCase → List Node
  | [] => []
  | case :: rest =>
    if case.bodyText code = "" then lost rest
    else if case.consequent.any Node.isJump then []
    else runOn rest

variable {code}

theorem visible_append (front back : List Node) :
    visible code (front ++ back) = visible code front ++ visible code back := List.flatMap_append

theorem isJump_statement (node : Node) : (node.statement code).isJump = node.isJump := by
  cases node with
  | ifStatement test consequent alternate => cases alternate <;> rfl
  | _ => rfl

theorem upTo_statements (nodes : List Node) :
    (upTo Statement.isJump (statements code nodes)).flatMap Statement.shown =
      visible code (upTo Node.isJump nodes) := by
  simp only [statements_eq_map, upTo_map, isJump_statement, List.flatMap_map]
  rfl

/-! ### Cases without a text -/

theorem text_ne_empty_of_isJump {statement : Statement} (h : statement.isJump) :
    statement.text ≠ "" := by
  cases statement with
  | breaks label => cases label <;> simp [Statement.text, jump]
  | continues label => cases label <;> simp [Statement.text, jump]
  | returns value => cases value <;> simp [Statement.text]
  | throws value => simp [Statement.text]
  | _ => cases h

variable {case : SwitchCase}

theorem text_eq_empty_of_blank (h : case.bodyText code = "") {node : Node}
    (hm : node ∈ case.consequent) : (node.statement code).text = "" := by
  have hfilter := stack_eq_empty h
  have htext : (node.statement code).text ∈ texts (statements code case.consequent) := by
    rw [statements_eq_map, texts_eq_map, List.map_map]
    exact List.mem_map_of_mem hm
  by_contra hne
  have hin : (node.statement code).text ∈
      (texts (statements code case.consequent)).filter (· ≠ "") :=
    List.mem_filter.2 ⟨htext, by simpa using hne⟩
  rw [hfilter] at hin
  cases hin

/-- There is no jump in a case without a text. -/
theorem not_any_isJump_of_blank (h : case.bodyText code = "") :
    case.consequent.any Node.isJump = false := by
  rw [List.any_eq_false]
  intro node hm hjump
  have hstatement : (node.statement code).isJump := (isJump_statement node).trans hjump
  exact text_ne_empty_of_isJump hstatement (text_eq_empty_of_blank h hm)

theorem visible_of_blank (h : case.bodyText code = "") : visible code case.consequent = [] := by
  refine List.flatMap_eq_nil_iff.2 fun node hm => ?_
  have htext := text_eq_empty_of_blank h hm
  unfold Statement.shown
  split
  · rfl
  · exact if_pos htext

/-! ### Runs -/

/-- A case without a text makes no difference. -/
theorem visible_runOn_blank (h : case.bodyText code = "") (rest : List SwitchCase) :
    visible code (runOn (case :: rest)) = visible code (runOn rest) := by
  rw [runOn, List.flatMap_cons, upTo_append_of_not_any (not_any_isJump_of_blank h), visible_append,
    visible_of_blank h, List.nil_append, runOn]

/-- Nothing comes after a jump. -/
theorem runOn_of_jump (h : case.consequent.any Node.isJump) (rest : List SwitchCase) :
    runOn (case :: rest) = upTo Node.isJump case.consequent := by
  rw [runOn, List.flatMap_cons, upTo_append_of_any h]

/-- **Generated code shows what the source does**, up to the end of the first case with a text. -/
theorem visible_runOn {cases : List SwitchCase} (h : ∀ case ∈ cases.dropLast, case.test.isSome) :
    visible code (runOn cases) =
      (runCases (cases.map (SwitchCase.made code))).flatMap Statement.shown ++
        visible code (lost code cases) := by
  induction cases with
  | nil => rfl
  | cons case rest ih =>
    by_cases hblank : case.bodyText code = ""
    · cases htest : case.test with
      | some test =>
        have hrest : ∀ other ∈ rest.dropLast, other.test.isSome := by
          intro other hm
          cases rest with
          | nil => cases hm
          | cons next more => exact h other (List.mem_cons_of_mem _ hm)
        have hmade : case.made code = ⟨some (code test), none⟩ := by
          simp [SwitchCase.made, hblank, htest]
        rw [visible_runOn_blank hblank, ih hrest, List.map_cons, hmade, runCases, lost, if_pos hblank]
      | none =>
        -- a default has no case after it
        have hrest : rest = [] := by
          cases rest with
          | nil => rfl
          | cons next more =>
            have hsome := h case List.mem_cons_self
            rw [htest] at hsome
            cases hsome
        subst hrest
        have hmade : case.made code = ⟨none, some [.breaks none]⟩ := by
          simp [SwitchCase.made, hblank, htest]
        rw [visible_runOn_blank hblank, List.map_cons, hmade, lost, if_pos hblank]
        rfl
    · have hmade : case.made code = ⟨case.test.map code, some (statements code case.consequent)⟩ := by
        rw [SwitchCase.made, if_neg hblank]
      rw [List.map_cons, hmade, runCases, upTo_statements, lost, if_neg hblank]
      by_cases hjump : case.consequent.any Node.isJump
      · rw [runOn_of_jump hjump, if_pos hjump]
        exact (List.append_nil _).symm
      · have hnot := Bool.eq_false_iff.2 hjump
        have hall : upTo Node.isJump case.consequent = case.consequent := by
          have happend := upTo_append_of_not_any hnot []
          rwa [List.append_nil, upTo, List.append_nil] at happend
        rw [runOn, List.flatMap_cons, upTo_append_of_not_any hnot, visible_append, hall, if_neg hjump,
          runOn]

end Made

/-! ## Printing -/

namespace Swift

theorem Prints.all {answers : Answers} {texts : List String} {drafts : List (Draft String)}
    (h : List.Forall₂ (Prints answers) texts drafts) :
    Yields answers (· = texts) (Scribe.all drafts) := by
  induction h with
  | nil => exact .pure rfl
  | cons first _ ih => exact .seq (first.map fun _ ht _ hts => by rw [ht, hts]) ih

theorem caseText_eq (code : Node → String) (case : SwitchCase) :
    caseText (case.test.map code) (case.bodyText code) = (case.made code).text := by
  have hbreak : stack (texts [.breaks none]) = "break" := stack_singleton "break"
  unfold caseText Case.text SwitchCase.made
  by_cases hblank : case.bodyText code = ""
  · cases htest : case.test with
    | none => simp only [Option.map_none, if_pos hblank, Option.isSome_none, Bool.false_eq_true,
        if_false, hbreak]
    | some test => simp only [Option.map_some, if_pos hblank, Option.isSome_some, if_true]
  · cases case.test <;> simp only [if_neg hblank, Option.map_none, Option.map_some] <;> rfl

variable {answers : Answers} {path : TypePath}

theorem case_prints (case : SwitchCase) :
    Prints answers (case.made (Node.textOn answers path)).text (case.write path) := by
  obtain ⟨test, consequent⟩ := case
  rw [← caseText_eq]
  unfold SwitchCase.write
  refine .seq (P := (· = test.map (Node.textOn answers path)))
    ((Prints.lines (writeAll_statements answers path consequent)).map
      fun _ hb _ ht => by rw [hb, ht]; rfl) ?_
  cases test with
  | none => exact .pure rfl
  | some test => exact (Prints.textOn path test).map fun _ ht => by rw [ht]; rfl

theorem orderedCases_map {m : Type → Type} [Scribe m] (write : SwitchCase → m String)
    (cases : List SwitchCase) :
    orderedCases (cases.map fun case => (case, write case)) =
      (cases.filter (·.test.isSome)).map write ++
        [((cases.find? (·.test.isNone)).map write).getD (pure "default:\nbreak")] := by
  simp [orderedCases, List.filter_map, List.find?_map, Function.comp_def]

/-- The cases are written in their new order. -/
theorem orderedCases_print (cases : List SwitchCase) :
    List.Forall₂ (Prints answers)
      (((moved cases).map (SwitchCase.made (Node.textOn answers path))).map Case.text)
      (orderedCases (cases.zip (writeCases path cases))) := by
  have hzip : cases.zip (writeCases path cases) =
      cases.map fun case => (case, (case.write path : Draft String)) := by
    rw [writeCases_eq_map]
    exact List.map_prod_left_eq_zip.symm
  have htested (cases : List SwitchCase) : List.Forall₂ (Prints answers)
      ((cases.map (SwitchCase.made (Node.textOn answers path))).map Case.text)
      (cases.map fun case => (case.write path : Draft String)) := by
    induction cases with
    | nil => exact .nil
    | cons case rest ih => exact .cons (case_prints case) ih
  rw [hzip, orderedCases_map, moved, List.map_append, List.map_append]
  refine List.rel_append (htested _) (.cons ?_ .nil)
  cases cases.find? (·.test.isNone) with
  | none => exact .fixed "default:\nbreak"
  | some case => exact case_prints case

/-- **A switch prints its cases in their new order**, unless it is a placeholder. -/
theorem switch_prints (discriminant : Node) {cases : List SwitchCase} (h : defaultFits cases) :
    Prints answers
      (switchText (discriminant.textOn answers path)
        ((moved cases).map (SwitchCase.made (Node.textOn answers path))))
      ((Node.switchStatement discriminant cases).write path) := by
  have hcases : Prints answers ("\n".intercalate
      (((moved cases).map (SwitchCase.made (Node.textOn answers path))).map Case.text))
      (Scribe.join "\n" (orderedCases (cases.zip (writeCases path cases)))) :=
    (Prints.all (orderedCases_print cases)).map fun _ ht => by rw [ht]
  unfold Node.write
  rw [if_pos h]
  exact .seq (hcases.map fun _ hc _ hd => by rw [hc, hd]; rfl) (Prints.textOn path discriminant)

end Swift

/-! ## The new order -/

section Moved

variable {cases before after : List SwitchCase} {default : SwitchCase}

theorem filter_tested (h : ∀ case ∈ cases, case.test.isSome) :
    cases.filter (·.test.isSome) = cases := List.filter_eq_self.2 h

theorem find?_default (h : ∀ case ∈ cases, case.test.isSome) :
    cases.find? (·.test.isNone) = none := by
  refine List.find?_eq_none.2 fun case hm hnone => ?_
  have hsome := h case hm
  rw [Option.isNone_iff_eq_none.1 hnone] at hsome
  cases hsome

theorem moved_of_tested (h : ∀ case ∈ cases, case.test.isSome) :
    moved cases = cases ++ [⟨none, []⟩] := by
  rw [moved, filter_tested h, find?_default h]
  rfl

theorem moved_of_default (hd : default.test = none) (hb : ∀ case ∈ before, case.test.isSome)
    (ha : ∀ case ∈ after, case.test.isSome) :
    moved (before ++ default :: after) = before ++ after ++ [default] := by
  have htested : default.test.isSome = false := by rw [hd]; rfl
  have huntested : default.test.isNone = true := by rw [hd]; rfl
  rw [moved, List.filter_append, List.filter_cons, htested, filter_tested hb, List.find?_append,
    find?_default hb, List.find?_cons, huntested]
  simp only [Bool.false_eq_true, if_false, filter_tested ha]
  rfl

/-- A default that is not followed by a case stands last, or there is none. -/
theorem tested_or_last (h : ∀ case ∈ cases.dropLast, case.test.isSome) :
    (∀ case ∈ cases, case.test.isSome) ∨
      ∃ before default, cases = before ++ [default] ∧ default.test = none ∧
        ∀ case ∈ before, case.test.isSome := by
  rcases List.eq_nil_or_concat cases with rfl | ⟨before, last, rfl⟩
  · exact .inl (List.forall_mem_nil _)
  · rw [List.concat_eq_append, List.dropLast_concat] at h
    cases htest : last.test with
    | none => exact .inr ⟨before, last, List.concat_eq_append, htest, h⟩
    | some test =>
      refine .inl fun case hm => ?_
      rw [List.concat_eq_append, List.mem_append, List.mem_singleton] at hm
      rcases hm with hm | rfl
      · exact h case hm
      · rw [htest]; rfl

theorem defaultFits_of_last (h : ∀ case ∈ cases.dropLast, case.test.isSome) : defaultFits cases := by
  rcases tested_or_last h with htested | ⟨before, default, rfl, hd, hb⟩
  · have hnil : cases.dropWhile (·.test.isSome) = [] := by
      rw [← List.append_nil cases, List.dropWhile_append_of_pos htested]
      rfl
    simp only [defaultFits, hnil]
  · have hdrop : (before ++ [default]).dropWhile (·.test.isSome) = [default] := by
      rw [List.dropWhile_append_of_pos hb]
      simp [hd]
    simp only [defaultFits, hdrop]

/-- The default of the new order is there in any case. -/
theorem dropLast_moved (cases : List SwitchCase) :
    ∀ case ∈ (moved cases).dropLast, case.test.isSome := by
  intro case hm
  rw [moved, List.dropLast_concat] at hm
  exact (List.mem_filter.1 hm).2

end Moved

/-! ### An empty default that was not there -/

section Blank

variable {code : Node → String}

theorem lost_append_blank (cases : List SwitchCase) :
    lost code (cases ++ [⟨none, []⟩]) = lost code cases := by
  have hblank : (⟨none, []⟩ : SwitchCase).bodyText code = "" := rfl
  induction cases with
  | nil => exact if_pos hblank
  | cons case rest ih =>
    have hrun : runOn (rest ++ [⟨none, []⟩]) = runOn rest := by simp [runOn]
    rw [List.cons_append, lost, lost, ih, hrun]

/-- **An empty default changes nothing.** -/
theorem chosen_blank {cases : List SwitchCase} (h : ∀ case ∈ cases, case.test.isSome)
    (choice : Option Nat) :
    runOn (chosen choice (cases ++ [⟨none, []⟩])) =
        runOn (chosen choice cases) ∧
      lost code (chosen choice (cases ++ [⟨none, []⟩])) =
        lost code (chosen choice cases) := by
  cases choice with
  | none =>
    have hcases := chosen_none h []
    rw [List.append_nil, chosen_nil] at hcases
    rw [chosen_none h, hcases]
    exact ⟨rfl, if_pos rfl⟩
  | some k =>
    rcases Nat.lt_or_ge k cases.length with hk | hk
    · have hcases := chosen_of_lt h [] hk
      rw [List.append_nil, List.append_nil] at hcases
      rw [chosen_of_lt h _ hk, hcases]
      exact ⟨by simp [runOn], lost_append_blank _⟩
    · obtain ⟨j, rfl⟩ := Nat.exists_eq_add_of_le hk
      have hcases := chosen_beyond h [] j
      rw [List.append_nil, chosen_nil] at hcases
      rw [chosen_beyond h, hcases, chosen_behind_default rfl, chosen_nil]
      exact ⟨rfl, rfl⟩

/-- Where the default stands last, the new order makes no difference. -/
theorem chosen_moved {cases : List SwitchCase}
    (h : ∀ case ∈ cases.dropLast, case.test.isSome) (choice : Option Nat) :
    runOn (chosen choice (moved cases)) =
        runOn (chosen choice cases) ∧
      lost code (chosen choice (moved cases)) =
        lost code (chosen choice cases) := by
  rcases tested_or_last h with htested | ⟨before, default, rfl, hd, hb⟩
  · rw [moved_of_tested htested]
    exact chosen_blank htested choice
  · rw [moved_of_default hd hb (List.forall_mem_nil _), List.append_nil]
    exact ⟨rfl, rfl⟩

end Blank

/-! ## What falls through -/

section FallThrough

variable {code : Node → String}

/-- What is lost comes after a case with a text and without a jump. -/
theorem lost_cases (cases : List SwitchCase) :
    lost code cases = [] ∨ ∃ before case after, cases = before ++ case :: after ∧
      case.bodyText code ≠ "" ∧ case.consequent.any Node.isJump = false ∧
      lost code cases = runOn after := by
  induction cases with
  | nil => exact .inl rfl
  | cons case rest ih =>
    by_cases hblank : case.bodyText code = ""
    · rw [lost, if_pos hblank]
      refine ih.imp id ?_
      rintro ⟨before, other, after, rfl, hother⟩
      exact ⟨case :: before, other, after, rfl, hother⟩
    · rw [lost, if_neg hblank]
      by_cases hjump : case.consequent.any Node.isJump
      · exact .inl (if_pos hjump)
      · exact .inr ⟨[], case, rest, rfl, hblank, Bool.eq_false_iff.2 hjump, if_neg hjump⟩

theorem visible_runOn_moved (choice : Option Nat) (cases : List SwitchCase) :
    visible code (runOn (chosen choice (moved cases))) =
      shownFrom choice ((moved cases).map (SwitchCase.made code)) ++
        visible code (lost code (chosen choice (moved cases))) := by
  have hchosen : entered (fun case : Case => case.test.isSome) choice
      ((moved cases).map (SwitchCase.made code)) =
        (chosen choice (moved cases)).map (SwitchCase.made code) :=
    entered_map (SwitchCase.made code) (fun case => Option.isSome_map) choice (moved cases)
  rw [shownFrom, hchosen]
  refine visible_runOn fun case hm => dropLast_moved cases case ?_
  exact mem_dropLast_of_suffix (chosen_suffix choice (moved cases)) hm

end FallThrough

namespace Node

/-- **What a switch with its default last runs.** Generated code shows what the source does, up to
what is lost: the cases after one with a text that does not end in a jump. It shows the same for every
choice exactly if nothing is to be seen after such a case. -/
theorem generate_switch_last {path : TypePath} {discriminant : Node} {cases : List SwitchCase}
    {hints records : HintTable} {text : String}
    (hlast : ∀ case ∈ cases.dropLast, case.test.isSome)
    (h : ((Node.switchStatement discriminant cases).generate path hints records).1 = .ok text) :
    let code := Node.textOn hints.answer? path
    let made := (moved cases).map (SwitchCase.made code)
    text = switchText (code discriminant) made ∧
      (∀ choice, visible code (runOn (chosen choice cases)) =
        shownFrom choice made ++ visible code (lost code (chosen choice cases))) ∧
      ((∀ choice, shownFrom choice made = visible code (runOn (chosen choice cases))) ↔
        ∀ before case after, cases = before ++ case :: after → case.bodyText code ≠ "" →
          case.consequent.any Node.isJump = false → visible code (runOn after) = []) := by
  intro code made
  rw [Node.generate_eq] at h
  have htext := switch_prints discriminant (defaultFits_of_last hlast) text h
  have hruns (choice : Option Nat) : visible code (runOn (chosen choice cases)) =
      shownFrom choice made ++ visible code (lost code (chosen choice cases)) := by
    obtain ⟨hrun, hlost⟩ : _ ∧ lost code _ = lost code _ := chosen_moved hlast choice
    rw [← hrun, ← hlost]
    exact visible_runOn_moved choice cases
  refine ⟨htext, hruns, fun hsame before case after hcases htext hjump => ?_, fun hnone choice => ?_⟩
  · -- a case is chosen by the number of those before it; a default has nothing after it
    have hbefore : ∀ other ∈ before, other.test.isSome := by
      intro other hm
      refine hlast other ?_
      rw [hcases, List.dropLast_append_of_ne_nil (List.cons_ne_nil _ _)]
      exact List.mem_append_left _ hm
    cases htest : case.test with
    | none =>
      cases after with
      | nil => rfl
      | cons next more =>
        have hsome := hlast case (by rw [hcases]; simp)
        rw [htest] at hsome
        cases hsome
    | some test =>
      have hsome : case.test.isSome := by rw [htest]; rfl
      have hchosen : chosen (some before.length) cases = case :: after := by
        rw [hcases]
        exact (chosen_beyond hbefore (case :: after) 0).trans (if_pos hsome)
      have hrun := hruns (some before.length)
      rw [hsame, hchosen, lost, if_neg htext, if_neg (by rw [hjump]; decide)] at hrun
      exact List.self_eq_append_right.1 hrun
  · have hrun := hruns choice
    have hlost : visible code (lost code (chosen choice cases)) = [] := by
      rcases lost_cases (chosen choice cases) with
        hnil | ⟨before, case, after, hchosen, htext, hjump, hlost⟩
      · rw [hnil]; rfl
      · obtain ⟨front, hfront⟩ := chosen_suffix choice cases
        rw [hlost]
        refine hnone (front ++ before) case after ?_ htext hjump
        rw [← hfront, hchosen, List.append_assoc]
    rw [hrun, hlost, List.append_nil]

/-- `case a: case b: g(); break;` -/
def sharedCases : List SwitchCase :=
  [⟨some (.identifier ⟨"a"⟩), []⟩, ⟨some (.identifier ⟨"b"⟩), [call "g", .breakStatement none]⟩]

/-- An empty case goes on with the next one in generated code, too. -/
theorem generate_switch_last_shared :
    (∀ case ∈ sharedCases.dropLast, case.test.isSome) ∧
      ((Node.switchStatement (.identifier ⟨"x"⟩) sharedCases).generate [] .empty .empty).1 =
        .ok "switch x \x7b\ncase a:\nfallthrough\ncase b:\ng()\nbreak\ndefault:\nbreak\n\x7d" ∧
      shownFrom (some 0)
        ((moved sharedCases).map (SwitchCase.made (Node.textOn HintTable.empty.answer? []))) =
          ["g()"] := by
  have hlast : ∀ case ∈ sharedCases.dropLast, case.test.isSome := by decide
  have htext : ((Node.switchStatement (.identifier ⟨"x"⟩) sharedCases).generate [] .empty .empty).1 =
      .ok "switch x \x7b\ncase a:\nfallthrough\ncase b:\ng()\nbreak\ndefault:\nbreak\n\x7d" := by
    rfl
  obtain ⟨-, hruns, -⟩ := generate_switch_last hlast htext
  have hrun := hruns (some 0)
  exact ⟨hlast, htext, (List.append_nil _).symm.trans hrun.symm⟩

/-- `case a: f(); case b: g(); break;` -/
def openCases : List SwitchCase :=
  [⟨some (.identifier ⟨"a"⟩), [call "f"]⟩,
    ⟨some (.identifier ⟨"b"⟩), [call "g", .breakStatement none]⟩]

/-- **A case with something in it does not fall through** in generated code. -/
theorem open_case_differs :
    (∀ case ∈ openCases.dropLast, case.test.isSome) ∧
      ((Node.switchStatement (.identifier ⟨"x"⟩) openCases).generate [] .empty .empty).1 =
        .ok (switchText "x"
          ((moved openCases).map (SwitchCase.made (Node.textOn HintTable.empty.answer? [])))) ∧
      switchText "x"
          ((moved openCases).map (SwitchCase.made (Node.textOn HintTable.empty.answer? []))) =
        "switch x \x7b\ncase a:\nf()\ncase b:\ng()\nbreak\ndefault:\nbreak\n\x7d" ∧
      visible (Node.textOn HintTable.empty.answer? []) (runOn (chosen (some 0) openCases)) =
        ["f()", "g()"] ∧
      shownFrom (some 0)
        ((moved openCases).map (SwitchCase.made (Node.textOn HintTable.empty.answer? []))) =
          ["f()"] := ⟨by decide, rfl, rfl, rfl, rfl⟩

end Node

end SwiftScribe
