import SwiftScribe.Proofs.Follows

/-!
# Properties of drafts that survive putting them together

Generation puts drafts together in a few ways: one after the other, in lists, in blocks, closures and
signatures. A property that survives the first of these survives them all.

* `Stable`: **what is asked of a property:** it holds of plain texts and of placeholders, and survives
  `map` and `seq`.
* `Stable.all`, `Stable.closure`, `Stable.signature`: then it survives every piece of a construct.
* `Asks.stable`: of what sort the paths are that a draft asks for is such a property.
-/

namespace SwiftScribe.Swift

/-- **A property of drafts that survives putting them together.** -/
structure Stable (P : {α : Type} → Draft α → Prop) : Prop where
  pure : ∀ {α : Type} (value : α), P (Pure.pure value : Draft α)
  placeholder : ∀ kind form, P (Swift.placeholder kind form : Draft String)
  map : ∀ {α β : Type} (g : α → β) {draft : Draft α}, P draft → P (g <$> draft)
  seq : ∀ {α β : Type} {first : Draft (α → β)} {second : Draft α}, P first → P second →
    P (first <*> second)

namespace Stable

variable {P : {α : Type} → Draft α → Prop} (st : Stable P)

include st

theorem append {first second : Draft String} (hf : P first) (hs : P second) : P (first ++ second) :=
  st.seq (st.map _ hf) hs

theorem all {α : Type} {drafts : List (Draft α)} (h : ∀ draft ∈ drafts, P draft) :
    P (Scribe.all drafts) := by
  induction drafts with
  | nil => exact st.pure []
  | cons first rest ih =>
    exact st.seq (st.map _ (h first List.mem_cons_self))
      (ih fun draft hm => h draft (List.mem_cons_of_mem _ hm))

theorem join (separator : String) {drafts : List (Draft String)} (h : ∀ draft ∈ drafts, P draft) :
    P (Scribe.join separator drafts) := st.map _ (st.all h)

theorem lines {drafts : List (Draft String)} (h : ∀ draft ∈ drafts, P draft) :
    P (Scribe.lines drafts) := st.map _ (st.all h)

/-! ## Pieces -/

section Pieces

variable {draft : Draft String}

theorem bodyBlock (body : Node) (h : P draft) : P (Swift.bodyBlock body draft) := by
  unfold Swift.bodyBlock
  split
  · exact h
  · exact st.map _ h

theorem elseBlock (alternate : Node) (h : P draft) : P (Swift.elseBlock alternate draft) := by
  unfold Swift.elseBlock
  split
  · exact h
  · exact st.bodyBlock alternate h

theorem spreadOut {parts : Option (List (Draft String))}
    (hp : ∀ drafts ∈ parts, ∀ draft ∈ drafts, P draft) (h : P draft) :
    P (Swift.spreadOut parts draft) := by
  cases parts with
  | none => exact h
  | some drafts => exact st.lines (hp drafts rfl)

theorem operand (node : Node) (h : P draft) : P (Swift.operand node draft) := by
  unfold Swift.operand
  split
  · exact st.map _ h
  · exact h

theorem prefixOperand (node : Node) (h : P draft) : P (Swift.prefixOperand node draft) := by
  unfold Swift.prefixOperand
  split
  · exact st.map _ h
  · exact st.map _ h
  · exact st.operand node h

theorem closureParameters (params : List Node) :
    ∀ draft ∈ params.map Swift.closureParameter, P (draft : Draft String) := by
  intro draft hm
  obtain ⟨param, -, rfl⟩ := List.mem_map.1 hm
  unfold Swift.closureParameter
  split
  · exact st.pure _
  · exact st.placeholder _ _

theorem closure (params : List Node) (h : P draft) : P (Swift.closure params draft) := by
  unfold Swift.closure
  split
  · exact st.map _ h
  · exact st.seq (st.map _ h) (st.join _ (st.closureParameters params))

theorem expressionClosure (params : List Node) (h : P draft) :
    P (Swift.expressionClosure params draft) := by
  unfold Swift.expressionClosure
  split
  · exact st.map _ h
  · exact st.seq (st.map _ h) (st.join _ (st.closureParameters params))

end Pieces

theorem literalCode (literal : Literal) : P (Swift.literalCode literal : Draft String) := by
  unfold Swift.literalCode
  split
  · exact st.placeholder _ _
  · split <;> exact st.pure _

theorem templateBody (quasis : List TemplateElement) {drafts : List (Draft String)}
    (h : ∀ draft ∈ drafts, P draft) : P (Swift.templateBody quasis drafts) := by
  induction quasis generalizing drafts with
  | nil => exact st.pure _
  | cons quasi rest ih =>
    cases drafts with
    | nil => exact st.append (st.pure _) (ih h)
    | cons code codes =>
      exact st.append (st.append (st.append (st.pure _) (h code List.mem_cons_self)) (st.pure _))
        (ih fun draft hm => h draft (List.mem_cons_of_mem _ hm))

theorem orderedCases {cases : List (SwitchCase × Draft String)} (h : ∀ case ∈ cases, P case.2) :
    ∀ draft ∈ Swift.orderedCases cases, P draft := by
  intro draft hm
  unfold Swift.orderedCases at hm
  simp only [List.mem_append, List.mem_map, List.mem_filter, List.mem_singleton] at hm
  rcases hm with ⟨case, ⟨hcase, -⟩, rfl⟩ | rfl
  · exact h case hcase
  · cases hfind : cases.find? (·.1.test.isNone) with
    | none => exact st.pure _
    | some case => exact h case (List.mem_of_find?_eq_some hfind)

/-! ## Pieces that ask -/

variable {path : TypePath}

theorem typedParameter (id : Identifier)
    (h : P (Scribe.resolve (path.descend id.name) : Draft (Option String))) :
    P (Swift.typedParameter path id : Draft String) :=
  st.append (st.pure _) (st.map _ h)

theorem memberHead (isStatic : Bool) (h : P (Scribe.resolve path.modifier : Draft (Option String))) :
    P (Swift.memberHead path isStatic : Draft String) :=
  st.map _ h

theorem signature {params : List (Draft String)} (body : List Node) (isAsync returns : Bool)
    {code : Draft String} (hg : P (Scribe.resolve path.generic : Draft (Option String)))
    (hr : P (Scribe.resolve path.returned : Draft (Option String))) (hp : ∀ draft ∈ params, P draft)
    (hc : P code) : P (Swift.signature path params body isAsync returns code) := by
  have hgeneric : P (Swift.genericParameters path : Draft String) := st.map _ hg
  have hreturn : P (if returns then Swift.returnType path body else Pure.pure "" : Draft String) := by
    split
    · exact st.map _ hr
    · exact st.pure _
  exact st.append (st.append (st.append (st.append (st.append (st.append hgeneric (st.pure _))
    (st.join _ hp)) (st.pure _)) hreturn) (st.pure _)) hc

end Stable

/-! ## What is asked for -/

/-- **A draft asks only for paths of a certain sort.** -/
def Asks {α : Type} (Q : TypePath → Prop) (draft : Draft α) : Prop := ∀ asked ∈ draft.paths, Q asked

namespace Asks

variable {α β : Type} {Q : TypePath → Prop}

theorem pure (value : α) : Asks Q (Pure.pure value : Draft α) := fun _ h => absurd h List.not_mem_nil

theorem seq {first : Draft (α → β)} {second : Draft α} (hf : Asks Q first) (hs : Asks Q second) :
    Asks Q (first <*> second) := by
  intro asked hasked
  unfold Draft.paths at hasked
  cases ho : first.outcome with
  | error e =>
    rw [(Draft.events_seq_error ho second).1] at hasked
    exact hf asked hasked
  | ok g =>
    rw [(Draft.events_seq_ok ho second).1, pathsOf, List.filterMap_append, List.mem_append] at hasked
    rcases hasked with h | h
    · exact hf asked h
    · exact hs asked h

/-- What all pieces are made of asks for paths of a sort, and so do they. -/
theorem stable (Q : TypePath → Prop) : Stable (Asks Q) where
  pure := pure
  placeholder _ _ _ h := absurd h List.not_mem_nil
  map _ _ h := h
  seq := seq

end Asks

end SwiftScribe.Swift
