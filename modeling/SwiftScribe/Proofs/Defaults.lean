import SwiftScribe.Proofs.Switches

/-!
# Defaults that move

Swift wants the default of a switch last. A default that stands earlier moves down, past the cases that
followed it. A case without a text then falls into another case than before: one at the end into the
default, one before the default into the case that followed the default.

* `Closed`: every case with something in it ends in a jump.
* `chosen_orders`: where a choice leads in the old order and in the new one.
* `Node.generate_switch_moved`: **which choices show the same in generated code,** and when all of them
  do.
-/

namespace SwiftScribe

open Swift

/-- Whether a case has empty statements only. -/
def SwitchCase.idle (case : SwitchCase) : Bool :=
  case.consequent.all fun
    | .emptyStatement => true
    | _ => false

section Moving

variable {answers : Answers} {path : TypePath}

theorem bodyText_of_idle {case : SwitchCase} (h : case.idle) :
    case.bodyText (Node.textOn answers path) = "" := by
  have htexts : (texts (statements (Node.textOn answers path) case.consequent)).filter (· ≠ "") =
      [] := by
    rw [statements_eq_map, texts_eq_map, List.map_map, List.filter_eq_nil_iff]
    intro text hm
    obtain ⟨node, hnode, rfl⟩ := List.mem_map.1 hm
    have hempty := List.all_eq_true.1 h node hnode
    cases node with
    | emptyStatement =>
      have htext : (Node.emptyStatement.statement (Node.textOn answers path)).text = "" := rfl
      simp [htext]
    | _ => cases hempty
  rw [SwitchCase.bodyText, stack, htexts]
  rfl

theorem any_isJump_of_endsInJump {case : SwitchCase} (h : endsInJump case) :
    case.consequent.any Node.isJump := by
  have hlast {node : Node} (hn : case.consequent.getLast? = some node) (hj : node.isJump) :
      case.consequent.any Node.isJump :=
    List.any_eq_true.2 ⟨node, List.mem_of_getLast? hn, hj⟩
  unfold endsInJump at h
  split at h
  · exact hlast ‹_› rfl
  · exact hlast ‹_› rfl
  · exact hlast ‹_› rfl
  · exact hlast ‹_› rfl
  · cases h

/-- **Every case with something in it ends in a jump.** -/
def Closed (cases : List SwitchCase) : Prop := ∀ case ∈ cases, case.idle = false → endsInJump case

variable {cases front : List SwitchCase}

/-- Nothing is lost if cases with something in them end in jumps. -/
theorem Closed.lost_eq_nil (h : Closed cases) : lost (Node.textOn answers path) cases = [] := by
  have hcases : lost (Node.textOn answers path) cases = [] ∨ _ := lost_cases cases
  rcases hcases with hnil | ⟨before, case, after, rfl, htext, hjump, -⟩
  · exact hnil
  · have hloud : case.idle = false := Bool.eq_false_iff.2 fun hidle => htext (bodyText_of_idle hidle)
    have hends := h case (List.mem_append_right _ List.mem_cons_self) hloud
    rw [any_isJump_of_endsInJump hends] at hjump
    cases hjump

/-- A run goes through idle cases. -/
theorem visible_runOn_idle (h : ∀ case ∈ front, case.idle) (rest : List SwitchCase) :
    visible (Node.textOn answers path) (runOn (front ++ rest)) =
      visible (Node.textOn answers path) (runOn rest) := by
  induction front with
  | nil => rfl
  | cons case more ih =>
    rw [List.cons_append, visible_runOn_blank (bodyText_of_idle (h case List.mem_cons_self)),
      ih fun other hm => h other (List.mem_cons_of_mem _ hm)]

theorem idle_or_loud (cases : List SwitchCase) :
    (∀ case ∈ cases, case.idle) ∨ ∃ case ∈ cases, case.idle = false := by
  by_cases h : ∀ case ∈ cases, case.idle
  · exact .inl h
  · exact .inr (by simpa using h)

/-- A run does not get beyond a case with something in it. -/
theorem Closed.runOn_append (h : Closed front) (hloud : ∃ case ∈ front, case.idle = false)
    (rest : List SwitchCase) : runOn (front ++ rest) = runOn front := by
  obtain ⟨case, hm, hcase⟩ := hloud
  have hjump : (front.flatMap SwitchCase.consequent).any Node.isJump := by
    obtain ⟨node, hnode, hj⟩ :=
      List.any_eq_true.1 (any_isJump_of_endsInJump (h case hm hcase))
    exact List.any_eq_true.2 ⟨node, List.mem_flatMap.2 ⟨case, hm, hnode⟩, hj⟩
  rw [runOn, List.flatMap_append, upTo_append_of_any hjump, runOn]

end Moving

section Orders

variable {before after : List SwitchCase} {default : SwitchCase}

/-- **Where a choice leads in the two orders.** -/
theorem chosen_orders (hd : default.test = none) (hb : ∀ case ∈ before, case.test.isSome)
    (ha : ∀ case ∈ after, case.test.isSome) (choice : Option Nat) :
    (chosen choice (before ++ default :: after) = default :: after ∧
        chosen choice (before ++ after ++ [default]) = [default]) ∨
      choice ≠ none ∧
        ((∃ front, front <:+ before ∧ front ≠ [] ∧
            chosen choice (before ++ default :: after) = front ++ default :: after ∧
            chosen choice (before ++ after ++ [default]) = front ++ (after ++ [default])) ∨
          (∃ front, front <:+ after ∧ front ≠ [] ∧
            chosen choice (before ++ default :: after) = front ∧
            chosen choice (before ++ after ++ [default]) = front ++ [default]) ∨
          (chosen choice (before ++ default :: after) = [] ∧
            chosen choice (before ++ after ++ [default]) = [])) := by
  have hnone (rest : List SwitchCase) : chosen none (default :: rest) = default :: rest := by
    simp [chosen, entered, hd]
  have hdrop {k : Nat} {cases : List SwitchCase} (hk : k < cases.length) : cases.drop k ≠ [] :=
    fun hnil => absurd (List.drop_eq_nil_iff.1 hnil) (Nat.not_le.2 hk)
  rw [List.append_assoc]
  cases choice with
  | none =>
    refine .inl ⟨?_, ?_⟩
    · rw [chosen_none hb, hnone]
    · rw [chosen_none hb, chosen_none ha, hnone]
  | some k =>
    refine .inr ⟨Option.some_ne_none k, ?_⟩
    rcases Nat.lt_or_ge k before.length with hk | hk
    · exact .inl ⟨before.drop k, List.drop_suffix k before, hdrop hk, chosen_of_lt hb _ hk,
        chosen_of_lt hb _ hk⟩
    obtain ⟨j, rfl⟩ := Nat.exists_eq_add_of_le hk
    rw [chosen_beyond hb, chosen_beyond hb, chosen_behind_default hd]
    rcases Nat.lt_or_ge j after.length with hj | hj
    · have hafter := chosen_of_lt ha [] hj
      rw [List.append_nil, List.append_nil] at hafter
      exact .inr (.inl ⟨after.drop j, List.drop_suffix j after, hdrop hj, hafter,
        chosen_of_lt ha _ hj⟩)
    · obtain ⟨i, rfl⟩ := Nat.exists_eq_add_of_le hj
      have hafter := chosen_beyond ha [] i
      rw [List.append_nil, chosen_nil] at hafter
      refine .inr (.inr ⟨hafter, ?_⟩)
      rw [chosen_beyond ha, chosen_behind_default hd, chosen_nil]

/-- The case right before some others is chosen by the number of those before it. -/
theorem chosen_last {front : List SwitchCase} {case : SwitchCase}
    (h : ∀ other ∈ front ++ [case], other.test.isSome) (rest : List SwitchCase) :
    chosen (some front.length) (front ++ [case] ++ rest) = case :: rest := by
  have hcase : case.test.isSome := h case (by simp)
  rw [List.append_assoc]
  exact (chosen_beyond (fun other hm => h other (List.mem_append_left _ hm)) ([case] ++ rest) 0).trans
    (if_pos hcase)

variable {answers : Answers} {path : TypePath} (hd : default.test = none)
  (hb : ∀ case ∈ before, case.test.isSome) (ha : ∀ case ∈ after, case.test.isSome)
  (hclosed : Closed (before ++ default :: after)) (hdefault : runOn (default :: after) = runOn [default])

include hd hb ha hclosed hdefault

/-- **The order makes no difference** for a choice that meets a case with something in it before the
default and before the end. -/
theorem runOn_orders (choice : Option Nat)
    (h : choice = none ∨ ∃ case ∈ (chosen choice (before ++ default :: after)).takeWhile
      fun case => case.test.isSome, case.idle = false) :
    runOn (chosen choice (before ++ after ++ [default])) =
      runOn (chosen choice (before ++ default :: after)) := by
  rcases chosen_orders hd hb ha choice with
    ⟨hold, hnew⟩ | ⟨hchoice, ⟨front, hfront, -, hold, hnew⟩ | ⟨front, hfront, -, hold, hnew⟩ |
      ⟨hold, hnew⟩⟩
  · rw [hold, hnew, hdefault]
  · obtain ⟨case, hm, hloud⟩ := h.resolve_left hchoice
    have hwhile : (front ++ default :: after).takeWhile (fun case => case.test.isSome) = front := by
      rw [List.takeWhile_append_of_pos fun case hm => hb case (hfront.subset hm)]
      simp [hd]
    rw [hold, hwhile] at hm
    have hends : Closed front := fun other ho =>
      hclosed other (List.mem_append_left _ (hfront.subset ho))
    rw [hold, hnew, hends.runOn_append ⟨case, hm, hloud⟩, hends.runOn_append ⟨case, hm, hloud⟩]
  · obtain ⟨case, hm, hloud⟩ := h.resolve_left hchoice
    rw [hold] at hm
    have hends : Closed front := fun other ho =>
      hclosed other (List.mem_append_right _ (List.mem_cons_of_mem _ (hfront.subset ho)))
    rw [hold, hnew, hends.runOn_append ⟨case, (List.takeWhile_prefix _).subset hm, hloud⟩]
  · rw [hold, hnew]

/-- **When the order makes no difference at all.** -/
theorem visible_orders_iff :
    (∀ choice, visible (Node.textOn answers path)
        (runOn (chosen choice (before ++ after ++ [default]))) =
      visible (Node.textOn answers path) (runOn (chosen choice (before ++ default :: after)))) ↔
      (∀ case ∈ before.getLast?, case.idle →
        visible (Node.textOn answers path) (runOn (after ++ [default])) =
          visible (Node.textOn answers path) (runOn [default])) ∧
      ∀ case ∈ after.getLast?, case.idle →
        visible (Node.textOn answers path) (runOn [default]) = [] := by
  constructor
  · -- the last case before the default and the last of all are choices, too
    refine fun hsame => ⟨fun case hm hidle => ?_, fun case hm hidle => ?_⟩
    · obtain ⟨front, rfl⟩ := List.getLast?_eq_some_iff.1 hm
      have hrun := hsame (some front.length)
      rw [List.append_assoc, chosen_last hb, chosen_last hb,
        visible_runOn_blank (bodyText_of_idle hidle), visible_runOn_blank (bodyText_of_idle hidle),
        hdefault] at hrun
      exact hrun
    · obtain ⟨front, rfl⟩ := List.getLast?_eq_some_iff.1 hm
      have hrun := hsame (some (before.length + front.length))
      have hold := chosen_last ha []
      rw [List.append_nil] at hold
      rw [List.append_assoc, chosen_beyond hb, chosen_beyond hb, chosen_behind_default hd,
        chosen_last ha, hold, visible_runOn_blank (bodyText_of_idle hidle),
        visible_runOn_blank (bodyText_of_idle hidle)] at hrun
      exact hrun
  · rintro ⟨hlast, hend⟩ choice
    rcases chosen_orders hd hb ha choice with
      ⟨hold, hnew⟩ | ⟨-, ⟨front, hfront, hne, hold, hnew⟩ | ⟨front, hfront, hne, hold, hnew⟩ |
        ⟨hold, hnew⟩⟩
    · rw [hold, hnew, hdefault]
    · rw [hold, hnew]
      rcases idle_or_loud front with hidle | hloud
      · obtain ⟨last, hlastOf, hm⟩ := getLast?_of_suffix hfront hne
        rw [visible_runOn_idle hidle, visible_runOn_idle hidle, hdefault,
          hlast last hlastOf (hidle last hm)]
      · have hends : Closed front := fun other ho =>
          hclosed other (List.mem_append_left _ (hfront.subset ho))
        rw [hends.runOn_append hloud, hends.runOn_append hloud]
    · rw [hold, hnew]
      rcases idle_or_loud front with hidle | hloud
      · obtain ⟨last, hlastOf, hm⟩ := getLast?_of_suffix hfront hne
        have hnothing : visible (Node.textOn answers path) (runOn (front ++ [])) = _ :=
          visible_runOn_idle hidle []
        rw [List.append_nil] at hnothing
        rw [visible_runOn_idle hidle, hnothing, hend last hlastOf (hidle last hm)]
        rfl
      · have hends : Closed front := fun other ho =>
          hclosed other (List.mem_append_right _ (List.mem_cons_of_mem _ (hfront.subset ho)))
        rw [hends.runOn_append hloud]
    · rw [hold, hnew]

end Orders

/-- What comes after a default that is no placeholder does not run behind it. -/
theorem runOn_default {before after : List SwitchCase} {default : SwitchCase}
    (hd : default.test = none) (hb : ∀ case ∈ before, case.test.isSome)
    (hfits : defaultFits (before ++ default :: after)) :
    runOn (default :: after) = runOn [default] := by
  cases after with
  | nil => rfl
  | cons next more =>
    have hdrop : (before ++ default :: next :: more).dropWhile (·.test.isSome) =
        default :: next :: more := by
      rw [List.dropWhile_append_of_pos hb]
      simp [hd]
    simp only [defaultFits, hdrop, Bool.and_eq_true] at hfits
    have hjump := any_isJump_of_endsInJump hfits.2
    rw [runOn_of_jump hjump, runOn_of_jump hjump]

namespace Node

/-- **What a switch runs whose default moves.** Generated code shows what the source would with its
cases in the new order. It shows what the source does if none of them matches, or if the cases from the
matched one to the default or the end are not all idle. It does so for every choice exactly if the case
before the default and the last case are not idle, or nothing is seen of the difference. -/
theorem generate_switch_moved {path : TypePath} {discriminant : Node} {before after : List SwitchCase}
    {default : SwitchCase} {hints records : HintTable} {text : String}
    (hd : default.test = none) (hb : ∀ case ∈ before, case.test.isSome)
    (ha : ∀ case ∈ after, case.test.isSome) (hclosed : Closed (before ++ default :: after))
    (hfits : defaultFits (before ++ default :: after))
    (h : ((Node.switchStatement discriminant (before ++ default :: after)).generate path hints
      records).1 = .ok text) :
    let code := Node.textOn hints.answer? path
    let source choice := visible code (runOn (chosen choice (before ++ default :: after)))
    let made := (before ++ after ++ [default]).map (SwitchCase.made code)
    text = switchText (code discriminant) made ∧
      (∀ choice, shownFrom choice made =
        visible code (runOn (chosen choice (before ++ after ++ [default])))) ∧
      (∀ choice, choice = none ∨ (∃ case ∈ (chosen choice (before ++ default :: after)).takeWhile
          fun case => case.test.isSome, case.idle = false) → shownFrom choice made = source choice) ∧
      ((∀ choice, shownFrom choice made = source choice) ↔
        (∀ case ∈ before.getLast?, case.idle →
          visible code (runOn (after ++ [default])) = visible code (runOn [default])) ∧
        ∀ case ∈ after.getLast?, case.idle → visible code (runOn [default]) = []) := by
  intro code source made
  have hmoved := moved_of_default hd hb ha
  rw [Node.generate_eq] at h
  have htext := switch_prints discriminant hfits text h
  rw [hmoved] at htext
  have hdefault := runOn_default hd hb hfits
  -- in the new order nothing is lost
  have hnew (choice : Option Nat) : shownFrom choice made =
      visible code (runOn (chosen choice (before ++ after ++ [default]))) := by
    have hrun : visible code _ = _ := visible_runOn_moved choice (before ++ default :: after)
    have hlost : lost code (chosen choice (before ++ after ++ [default])) = [] := by
      refine Closed.lost_eq_nil fun case hm => hclosed case ?_
      have hin := (chosen_suffix choice _).subset hm
      simp only [List.mem_append, List.mem_cons] at hin ⊢
      tauto
    rw [hmoved, hlost] at hrun
    exact (hrun.trans (List.append_nil _)).symm
  have hsame := runOn_orders hd hb ha hclosed hdefault
  refine ⟨htext, hnew, fun choice hloud => by rw [hnew, hsame choice hloud], ?_⟩
  simp only [hnew]
  exact visible_orders_iff hd hb ha hclosed hdefault

/-- A case that calls a function and ends; without a test it is the default. -/
def closedCase (test : Option String) (name : String) : SwitchCase :=
  ⟨test.map fun test => .identifier ⟨test⟩, [call name, .breakStatement none]⟩

/-- `case a: ;` -/
def idleCase : SwitchCase := ⟨some (.identifier ⟨"a"⟩), [.emptyStatement]⟩

/-- `switch (x) { case a: f(); break; default: g(); break; case b: h(); break; }` -/
theorem generate_switch_moved_closed :
    Closed ([closedCase (some "a") "f"] ++ closedCase none "g" :: [closedCase (some "b") "h"]) ∧
      ((Node.switchStatement (.identifier ⟨"x"⟩) ([closedCase (some "a") "f"] ++
        closedCase none "g" :: [closedCase (some "b") "h"])).generate [] .empty .empty).1 =
          .ok ("switch x \x7b\ncase a:\nf()\nbreak\ncase b:\nh()\nbreak\ndefault:\ng()\nbreak\n"
            ++ "\x7d") ∧
      ∀ choice,
        shownFrom choice
            (([closedCase (some "a") "f"] ++ [closedCase (some "b") "h"] ++ [closedCase none "g"]).map
              (SwitchCase.made (Node.textOn HintTable.empty.answer? []))) =
          visible (Node.textOn HintTable.empty.answer? [])
            (runOn (chosen choice ([closedCase (some "a") "f"] ++
              closedCase none "g" :: [closedCase (some "b") "h"]))) := by
  have hclosed :
      Closed ([closedCase (some "a") "f"] ++ closedCase none "g" :: [closedCase (some "b") "h"]) := by
    unfold Closed
    decide
  have htext : ((Node.switchStatement (.identifier ⟨"x"⟩) ([closedCase (some "a") "f"] ++
      closedCase none "g" :: [closedCase (some "b") "h"])).generate [] .empty .empty).1 =
        .ok ("switch x \x7b\ncase a:\nf()\nbreak\ncase b:\nh()\nbreak\ndefault:\ng()\nbreak\n"
          ++ "\x7d") := by
    rfl
  obtain ⟨-, -, -, hiff⟩ :=
    generate_switch_moved rfl (by decide) (by decide) hclosed (by decide) htext
  refine ⟨hclosed, htext, hiff.2 ⟨fun case hm hidle => ?_, fun case hm hidle => ?_⟩⟩
  · cases hm
    cases hidle
  · cases hm
    cases hidle

/-- **An idle case falls into the default that has moved behind it**, and one before the default no
longer falls into it. -/
theorem idle_case_differs :
    (Closed [closedCase none "g", idleCase] ∧ defaultFits [closedCase none "g", idleCase] ∧
      ((Node.switchStatement (.identifier ⟨"x"⟩) [closedCase none "g", idleCase]).generate [] .empty
        .empty).1 = .ok (switchText "x" ((moved [closedCase none "g", idleCase]).map
          (SwitchCase.made (Node.textOn HintTable.empty.answer? [])))) ∧
      switchText "x" ((moved [closedCase none "g", idleCase]).map
          (SwitchCase.made (Node.textOn HintTable.empty.answer? []))) =
        "switch x \x7b\ncase a:\nfallthrough\ndefault:\ng()\nbreak\n\x7d" ∧
      visible (Node.textOn HintTable.empty.answer? [])
        (runOn (chosen (some 0) [closedCase none "g", idleCase])) = [] ∧
      shownFrom (some 0) ((moved [closedCase none "g", idleCase]).map
        (SwitchCase.made (Node.textOn HintTable.empty.answer? []))) = ["g()"]) ∧
    Closed [idleCase, closedCase none "g", closedCase (some "b") "h"] ∧
      defaultFits [idleCase, closedCase none "g", closedCase (some "b") "h"] ∧
      ((Node.switchStatement (.identifier ⟨"x"⟩)
        [idleCase, closedCase none "g", closedCase (some "b") "h"]).generate [] .empty .empty).1 =
          .ok (switchText "x" ((moved [idleCase, closedCase none "g", closedCase (some "b") "h"]).map
            (SwitchCase.made (Node.textOn HintTable.empty.answer? [])))) ∧
      switchText "x" ((moved [idleCase, closedCase none "g", closedCase (some "b") "h"]).map
          (SwitchCase.made (Node.textOn HintTable.empty.answer? []))) =
        "switch x \x7b\ncase a:\nfallthrough\ncase b:\nh()\nbreak\ndefault:\ng()\nbreak\n\x7d" ∧
      visible (Node.textOn HintTable.empty.answer? []) (runOn (chosen (some 0)
        [idleCase, closedCase none "g", closedCase (some "b") "h"])) = ["g()"] ∧
      shownFrom (some 0) ((moved [idleCase, closedCase none "g", closedCase (some "b") "h"]).map
        (SwitchCase.made (Node.textOn HintTable.empty.answer? []))) = ["h()"] :=
  ⟨⟨by unfold Closed; decide, by decide, rfl, rfl, rfl, rfl⟩, by unfold Closed; decide, by decide,
    rfl, rfl, rfl, rfl⟩

end Node

end SwiftScribe
