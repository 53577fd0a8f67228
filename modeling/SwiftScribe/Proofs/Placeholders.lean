import Mathlib.Logic.ExistsUnique
import SwiftScribe.Proofs.DebugText

/-!
# Placeholders end where their comments end

A placeholder is a name and a comment. The comment shows debug text, which may hold any strings, and
whatever they are nothing of it gets out of the comment.

* `behindComment`: a lexer inside a comment, which may or may not keep count of comments inside.
* `mark_unique`: a mark that is in neither part of a text around it is at one place only.
* `Node.placeholder_closes`: **a placeholder is one line with one comment in it**, which ends with
  it.
-/

namespace SwiftScribe

open Swift

/-! ## Marks -/

/-- Two characters do not stand next to each other. -/
def Lacks (a b : Char) (chars : List Char) : Prop := chars.IsChain fun c d => ¬ (c = a ∧ d = b)

section Marks

variable {a b : Char}

theorem not_lacks (front back : List Char) : ¬ Lacks a b (front ++ a :: b :: back) := fun h =>
  List.isChain_iff_forall_rel_of_append_cons_cons.1 h rfl ⟨rfl, rfl⟩

theorem lacks_of_notMem {chars : List Char} (h : a ∉ chars) : Lacks a b chars := by
  refine List.isChain_iff_forall_rel_of_append_cons_cons.2 fun c d front back heq hmark => ?_
  have hm : c ∈ chars := by
    rw [heq]
    simp
  rw [hmark.1] at hm
  exact h hm

/-- **A mark stands at one place only**, if it is neither before nor behind it. -/
theorem mark_unique (hab : a ≠ b) {before behind front back : List Char}
    (hbefore : Lacks a b before) (hbehind : Lacks a b behind)
    (h : before ++ a :: b :: behind = front ++ a :: b :: back) :
    front = before ∧ back = behind := by
  rcases List.append_eq_append_iff.1 h with ⟨more, hfront, hrest⟩ | ⟨more, hbefore', hrest⟩
  · -- the place found would be further on: at the mark, on its second character, or behind it
    match more with
    | [] =>
      injection hrest with _ hrest
      injection hrest with _ hrest
      rw [hfront, List.append_nil]
      exact ⟨rfl, hrest.symm⟩
    | [c] =>
      injection hrest with _ hrest
      injection hrest with hb _
      exact absurd hb.symm hab
    | c :: d :: more =>
      injection hrest with _ hrest
      injection hrest with _ hrest
      rw [hrest] at hbehind
      exact absurd hbehind (not_lacks more back)
  · match more with
    | [] =>
      injection hrest with _ hrest
      injection hrest with _ hrest
      rw [hbefore', List.append_nil]
      exact ⟨rfl, hrest⟩
    | [c] =>
      injection hrest with _ hrest
      injection hrest with hb _
      exact absurd hb.symm hab
    | c :: d :: more =>
      injection hrest with hc hrest
      injection hrest with hd _
      rw [hbefore', ← hc, ← hd] at hbefore
      exact absurd hbefore (not_lacks front more)

end Marks

/-! ## A lexer inside a comment -/

/-- **What follows a comment** that is open where the text begins. A lexer that keeps count of the
comments inside it stops at the mark that closes the outermost one, any other at the first mark. -/
def behindComment : Bool → Nat → List Char → Option (List Char)
  | _, 0, '*' :: '/' :: rest => some rest
  | counts, depth + 1, '*' :: '/' :: rest => behindComment counts depth rest
  | true, depth, '/' :: '*' :: rest => behindComment true (depth + 1) rest
  | counts, depth, _ :: rest => behindComment counts depth rest
  | _, _, [] => none

variable {counts : Bool} {depth : Nat}

/-- A character that begins no mark. -/
theorem behindComment_cons {c : Char} {rest : List Char}
    (h : ∀ d ∈ rest.head?, ¬ (c = '/' ∧ d = '*') ∧ ¬ (c = '*' ∧ d = '/')) :
    behindComment counts depth (c :: rest) = behindComment counts depth rest := by
  rw [behindComment.eq_def counts depth (c :: rest)]
  split <;> simp_all

/-- **A comment of unmarked text ends at the mark behind it.** -/
theorem behindComment_unmarked {chars : List Char} (h : Unmarked (chars ++ [' ']))
    (rest : List Char) :
    behindComment counts 0 (chars ++ ' ' :: '*' :: '/' :: rest) = some rest := by
  induction chars with
  | nil =>
    rw [List.nil_append, behindComment_cons (by simp), behindComment]
  | cons c chars ih =>
    obtain ⟨hmark, hchain⟩ := List.isChain_cons.1 h
    have hnext : ∀ d ∈ (chars ++ ' ' :: '*' :: '/' :: rest).head?,
        ¬ (c = '/' ∧ d = '*') ∧ ¬ (c = '*' ∧ d = '/') := by
      intro d hd
      apply hmark d
      cases chars with
      | nil => exact hd
      | cons first more => exact hd
    rw [List.cons_append, behindComment_cons hnext]
    exact ih hchain

/-! ## Placeholders -/

theorem Kind.isAlpha_of_mem_name (kind : Kind) : ∀ c ∈ kind.name.toList, c.isAlpha := by
  have hall : kind.name.toList.all Char.isAlpha = true := by
    cases kind <;> (rw [Kind.name, String.toList_ofList]; decide)
  exact List.all_eq_true.1 hall

/-- What stands before the comment of a placeholder. -/
def placeholderName (kind : Kind) : List Char := '«' :: (kind.name.toList ++ ['»', ' '])

/-- What stands inside the comment of a placeholder. -/
def placeholderInside (node : Node) : List Char :=
  ' ' :: (withoutCommentMarks node.debug).toList ++ [' ']

theorem toList_placeholderText (kind : Kind) (node : Node) :
    (placeholderText kind.name node.form).toList =
      placeholderName kind ++ '/' :: '*' :: (placeholderInside node ++ ['*', '/']) := by
  simp [placeholderText, placeholderName, placeholderInside, Node.debug]

theorem mem_placeholderName {kind : Kind} {c : Char} (h : c ∈ placeholderName kind) :
    c.isAlpha ∨ c ∈ ['«', '»', ' '] := by
  simp only [placeholderName, List.mem_cons, List.mem_append, List.not_mem_nil, or_false] at h ⊢
  rcases h with h | h | h | h
  · exact .inr (.inl h)
  · exact .inl (kind.isAlpha_of_mem_name c h)
  · exact .inr (.inr (.inl h))
  · exact .inr (.inr (.inr h))

theorem notMem_placeholderName (kind : Kind) {c : Char} (h : c ∈ ['/', '*', '\n', '\r']) :
    c ∉ placeholderName kind := by
  intro hm
  have hname := mem_placeholderName hm
  simp only [List.mem_cons, List.not_mem_nil, or_false] at h
  rcases h with rfl | rfl | rfl | rfl
  · revert hname; decide
  · revert hname; decide
  · revert hname; decide
  · revert hname; decide

theorem unmarked_placeholderInside (node : Node) : Unmarked (placeholderInside node) := by
  have hdebug := unmarked_withoutCommentMarks node.debug
  have hend : Unmarked ((withoutCommentMarks node.debug).toList ++ [' ']) :=
    hdebug.append (.singleton ' ') (by simp)
  exact hend.cons (by simp)

theorem oneLine_placeholderInside (node : Node) : OneLine (placeholderInside node) := by
  have hdebug := oneLine_withoutCommentMarks node.oneLine_debug
  simpa [placeholderInside, isBreak] using hdebug

theorem oneLine_placeholderName (kind : Kind) : OneLine (placeholderName kind) := by
  intro c hc
  have hfeed : c ≠ '\n' := fun h => notMem_placeholderName kind (by simp) (h ▸ hc)
  have hreturn : c ≠ '\r' := fun h => notMem_placeholderName kind (by simp) (h ▸ hc)
  simp [isBreak, hfeed, hreturn]

/-- Behind the mark that opens the comment no other one opens. -/
theorem lacks_opening (node : Node) : Lacks '/' '*' (placeholderInside node ++ ['*', '/']) := by
  have hfront : Lacks '/' '*' (placeholderInside node) :=
    (unmarked_placeholderInside node).imp fun _ _ h => h.1
  have hback : Lacks '/' '*' ['*', '/'] := by simp [Lacks]
  -- the text inside ends in a blank, so it makes no mark with what closes the comment
  have hlast : (placeholderInside node).getLast? = some ' ' := by
    unfold placeholderInside
    exact List.getLast?_concat
  refine hfront.append hback fun c hc d _ hmark => ?_
  rw [hlast] at hc
  cases hc
  exact absurd hmark.1 (by decide)

/-- Before the mark that closes the comment nothing else closes it. -/
theorem lacks_closing (node : Node) :
    Lacks '*' '/' (placeholderName node.kind ++ '/' :: '*' :: placeholderInside node) := by
  have hname : '*' ∉ placeholderName node.kind := notMem_placeholderName node.kind (by simp)
  have hinside : Lacks '*' '/' (placeholderInside node) :=
    (unmarked_placeholderInside node).imp fun _ _ h => h.2
  have hstar : Lacks '*' '/' ('*' :: placeholderInside node) :=
    hinside.cons (by simp [placeholderInside])
  have hslash : Lacks '*' '/' ('/' :: '*' :: placeholderInside node) := hstar.cons (by simp)
  refine (lacks_of_notMem hname).append hslash fun c hc d _ hmark => ?_
  rw [hmark.1] at hc
  exact hname (List.mem_of_getLast? hc)

/-- **A placeholder is a name and one comment, on one line.** The comment begins behind the name and
nowhere else, and ends at the end of the placeholder and nowhere else, whether or not a lexer keeps
count of comments inside comments, and whatever follows. -/
theorem Node.placeholder_closes (node : Node) :
    let text := (placeholderText node.kind.name node.form).toList
    OneLine text ∧
      (∃! front, ∃ back, text = front ++ '/' :: '*' :: back) ∧
      (∃! front, ∃ back, text = front ++ '*' :: '/' :: back) ∧
      ['*', '/'] <:+ text ∧
      ∀ front back, text = front ++ '/' :: '*' :: back →
        ∀ counts rest, behindComment counts 0 (back ++ rest) = some rest := by
  intro text
  have hbegin : text = placeholderName node.kind ++
      '/' :: '*' :: (placeholderInside node ++ ['*', '/']) := toList_placeholderText node.kind node
  have hend : text = (placeholderName node.kind ++ '/' :: '*' :: placeholderInside node) ++
      '*' :: '/' :: [] := by
    rw [hbegin]
    simp
  have hname : Lacks '/' '*' (placeholderName node.kind) :=
    lacks_of_notMem (notMem_placeholderName node.kind (by simp))
  have hopens {front back : List Char} (h : text = front ++ '/' :: '*' :: back) :
      front = placeholderName node.kind ∧ back = placeholderInside node ++ ['*', '/'] :=
    mark_unique (by decide) hname (lacks_opening node) (hbegin.symm.trans h)
  have hcloses {front back : List Char} (h : text = front ++ '*' :: '/' :: back) :
      front = placeholderName node.kind ++ '/' :: '*' :: placeholderInside node ∧ back = [] :=
    mark_unique (by decide) (lacks_closing node) .nil (hend.symm.trans h)
  refine ⟨?_, ⟨_, ⟨_, hbegin⟩, fun front ⟨back, h⟩ => (hopens h).1⟩,
    ⟨_, ⟨_, hend⟩, fun front ⟨back, h⟩ => (hcloses h).1⟩, ⟨_, hend.symm⟩,
    fun front back h counts rest => ?_⟩
  · rw [hbegin]
    simp [oneLine_placeholderName node.kind, oneLine_placeholderInside node, isBreak]
  · have hread : behindComment counts 0 _ = some rest :=
      behindComment_unmarked (unmarked_placeholderInside node) rest
    rw [(hopens h).2, ← hread]
    simp [placeholderInside]

/-- A rest pattern whose name is made of comment marks. -/
def Node.tangledRest : Node := .restElement (.identifier ⟨"*/*"⟩)

/-- The marks of the name are taken apart, and the comment ends behind it. -/
theorem Node.placeholder_closes_tangled :
    placeholderText tangledRest.kind.name tangledRest.form =
        "«RestElement» " ++ "/* RestElement \x7b argument: Identifier \x7b name: \"* / *\" \x7d \x7d */" ∧
      behindComment true 0
        (" RestElement \x7b argument: Identifier \x7b name: \"* / *\" \x7d \x7d */".toList ++ ['x']) =
          some ['x'] := by
  have htext : (placeholderText tangledRest.kind.name tangledRest.form).toList =
      "«RestElement» ".toList ++ '/' :: '*' ::
        " RestElement \x7b argument: Identifier \x7b name: \"* / *\" \x7d \x7d */".toList := rfl
  obtain ⟨-, -, -, -, hbehind⟩ := placeholder_closes tangledRest
  exact ⟨rfl, hbehind _ _ htext true ['x']⟩

end SwiftScribe
