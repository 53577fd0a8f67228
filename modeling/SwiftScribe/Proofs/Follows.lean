import Mathlib.Data.List.Forall2
import SwiftScribe.Batch

/-!
# Live generation follows its draft

A live generation looks paths up and notes them as it goes; a draft only lists what would be asked,
and leaves the text open. `Follows path live draft` says that the two belong together: on any hints
and records the live generation ends as the draft does under the answers of the hints, the records
are those of the draft's events, and `path` is above every path that is asked for.

* `Follows.seq`: the relation survives putting one step after another, where a failure of the first
  keeps the second from happening.
* `Follows.signature`, `Follows.closure`, `Follows.orderedCases`: it survives every way in which
  generation puts the pieces of a construct together.
-/

namespace SwiftScribe

namespace TypePath

/-- **A path is above another one**, which goes on from it by at least one name. -/
def Above (path longer : TypePath) : Prop := path <+: longer ∧ path ≠ longer

theorem above_descend (path : TypePath) (name : String) : path.Above (path.descend name) := by
  refine ⟨List.prefix_append path [name], fun h => ?_⟩
  have := congrArg List.length h
  simp [descend] at this

theorem prefix_underKey (path : TypePath) (key : Node) : path <+: Swift.underKey path key := by
  unfold Swift.underKey
  split
  · exact List.prefix_append path _
  · exact List.prefix_refl path

theorem Above.length_lt {path longer : TypePath} (h : path.Above longer) :
    path.length < longer.length := by
  rcases Nat.lt_or_ge path.length longer.length with hlt | hge
  · exact hlt
  · exact absurd (h.1.eq_of_length_le hge) h.2

theorem Above.ne_nil {path longer : TypePath} (h : path.Above longer) : longer ≠ [] :=
  List.ne_nil_of_length_pos (Nat.zero_lt_of_lt h.length_lt)

/-- A path is above what its extensions are above. -/
theorem Above.shorten {path further longer : TypePath} (hp : path <+: further)
    (h : further.Above longer) : path.Above longer := by
  refine ⟨hp.trans h.1, ?_⟩
  rintro rfl
  have := h.length_lt
  have := hp.length_le
  omega

theorem above_cons_iff {name : String} {path longer : TypePath} :
    Above (name :: path) (name :: longer) ↔ path.Above longer := by
  unfold Above
  rw [List.cons_prefix_cons]
  simp

/-- A single name is above every path that goes on from it. -/
theorem singleton_above {name : String} {rest : TypePath} (hr : rest ≠ []) :
    Above [name] (name :: rest) :=
  ⟨by simp, fun h => hr (List.cons.inj h).2.symm⟩

end TypePath

/-- **The records after paths have been looked up in the hints**, one after the other. -/
def HintTable.noteAll (hints records : HintTable) (paths : List TypePath) : HintTable :=
  paths.foldl hints.note records

namespace Swift

variable {α β : Type}

/-! ## Drafts and live generations, step by step -/

theorem Draft.events_seq_error {first : Draft (α → β)} {e : Unsupported}
    (h : first.outcome = .error e) (second : Draft α) :
    (first <*> second).events = first.events ∧ (first <*> second).outcome = .error e := by
  show (Draft.seq first fun _ => second).events = _ ∧ (Draft.seq first fun _ => second).outcome = _
  unfold Draft.seq
  split
  · rename_i e' h'
    rw [h] at h'
    cases h'
    exact ⟨rfl, rfl⟩
  · rename_i g h'
    rw [h] at h'
    cases h'

theorem Draft.events_seq_ok {first : Draft (α → β)} {g : Answers → α → β}
    (h : first.outcome = .ok g) (second : Draft α) :
    (first <*> second).events = first.events ++ second.events ∧
      (first <*> second).outcome =
        second.outcome.map fun f answers => g answers (f answers) := by
  show (Draft.seq first fun _ => second).events = _ ∧ (Draft.seq first fun _ => second).outcome = _
  unfold Draft.seq
  split
  · rename_i e h'
    rw [h] at h'
    cases h'
  · rename_i g' h'
    rw [h] at h'
    cases h'
    exact ⟨rfl, rfl⟩

theorem perform_map (g : α → β) (live : Live α) (hints records : HintTable) :
    (g <$> live).perform hints records =
      ((live.perform hints records).1.map g, (live.perform hints records).2) := by
  unfold Live.perform
  simp only [Functor.map, ExceptT.map, ExceptT.mk, bind, StateT.bind]
  rcases live hints records with ⟨_ | _, _⟩ <;> rfl

/-- **One live step after another.** The second one starts from the records of the first, and is
not reached if the first fails. -/
theorem perform_seq (first : Live (α → β)) (second : Live α) (hints records : HintTable) :
    (first <*> second).perform hints records =
      match first.perform hints records with
      | (.error e, after) => (.error e, after)
      | (.ok g, after) =>
        ((second.perform hints after).1.map g, (second.perform hints after).2) := by
  unfold Live.perform
  simp only [Seq.seq, ExceptT.bind, ExceptT.mk, ExceptT.bindCont, bind, StateT.bind]
  rcases first hints records with ⟨_ | g, after⟩
  · rfl
  · show (g <$> second : Live β).perform hints after = _
    rw [perform_map]
    rfl

/-! ## The relation -/

/-- **A live generation follows a draft** in the scope of a path. -/
structure Follows (path : TypePath) (live : Live α) (draft : Draft α) : Prop where
  /-- The result is that of the draft under the answers of the hints; the records are those of its
  events, also if it fails. -/
  perform : ∀ hints records, live.perform hints records =
    (draft.run hints.answer?, hints.noteAll records draft.paths)
  above : ∀ asked ∈ draft.paths, path.Above asked

/-- Step by step for a list. -/
abbrev FollowsAll (path : TypePath) (lives : List (Live α)) (drafts : List (Draft α)) : Prop :=
  List.Forall₂ (Follows path) lives drafts

namespace Follows

variable {path : TypePath}

theorem pure (value : α) : Follows path (pure value) (pure value) :=
  ⟨fun _ _ => rfl, fun _ h => absurd h List.not_mem_nil⟩

theorem fail (construct : Construct) (detail : String) :
    Follows path (Scribe.fail construct detail : Live α) (Scribe.fail construct detail) :=
  ⟨fun _ _ => rfl, fun _ h => absurd h List.not_mem_nil⟩

theorem standIn (kind text : String) :
    Follows path (Scribe.standIn kind text) (Scribe.standIn kind text) :=
  ⟨fun _ _ => rfl, fun _ h => absurd h List.not_mem_nil⟩

theorem resolve {asked : TypePath} (h : path.Above asked) :
    Follows path (Scribe.resolve asked) (Scribe.resolve asked) := by
  refine ⟨fun _ _ => rfl, fun other hother => ?_⟩
  rw [List.mem_singleton.1 hother]
  exact h

theorem map (g : α → β) {live : Live α} {draft : Draft α} (h : Follows path live draft) :
    Follows path (g <$> live) (g <$> draft) := by
  refine ⟨fun hints records => ?_, h.above⟩
  rw [perform_map, h.perform]
  show (_, _) = ((draft.outcome.map fun f answers => g (f answers)).map _, _)
  unfold Draft.run
  cases draft.outcome <;> rfl

theorem seq {first : Live (α → β)} {firstDraft : Draft (α → β)} {second : Live α}
    {secondDraft : Draft α} (hf : Follows path first firstDraft)
    (hs : Follows path second secondDraft) :
    Follows path (first <*> second) (firstDraft <*> secondDraft) := by
  cases ho : firstDraft.outcome with
  | error e =>
    -- the second step is not reached, in either world
    obtain ⟨hev, hout⟩ := Draft.events_seq_error ho secondDraft
    refine ⟨fun hints records => ?_, ?_⟩
    · rw [perform_seq, hf.perform]
      simp only [Draft.run, Draft.paths, ho, hev, hout, Except.map]
    · unfold Draft.paths
      rw [hev]
      exact hf.above
  | ok g =>
    obtain ⟨hev, hout⟩ := Draft.events_seq_ok ho secondDraft
    have hpaths : (firstDraft <*> secondDraft).paths = firstDraft.paths ++ secondDraft.paths := by
      simp only [Draft.paths, pathsOf, hev, List.filterMap_append]
    refine ⟨fun hints records => ?_, ?_⟩
    · rw [perform_seq, hf.perform, hpaths]
      have hrun : firstDraft.run hints.answer? = .ok (g hints.answer?) := by
        simp only [Draft.run, ho, Except.map]
      simp only [hrun, hs.perform]
      refine Prod.ext ?_ ?_
      · simp only [Draft.run, hout]
        cases secondDraft.outcome <;> rfl
      · simp only [HintTable.noteAll, List.foldl_append]
    · intro asked hasked
      rw [hpaths, List.mem_append] at hasked
      rcases hasked with h | h
      · exact hf.above asked h
      · exact hs.above asked h

/-- What follows in the scope of a longer path follows in that of the shorter one. -/
theorem widen {further : TypePath} (hp : path <+: further) {live : Live α} {draft : Draft α}
    (h : Follows further live draft) : Follows path live draft :=
  ⟨h.perform, fun asked hasked => (h.above asked hasked).shorten hp⟩

theorem descend {name : String} {live : Live α} {draft : Draft α}
    (h : Follows (path.descend name) live draft) : Follows path live draft :=
  h.widen (List.prefix_append path [name])

theorem append {first second : Live String} {firstDraft secondDraft : Draft String}
    (hf : Follows path first firstDraft) (hs : Follows path second secondDraft) :
    Follows path (first ++ second) (firstDraft ++ secondDraft) :=
  seq (map _ hf) hs

theorem all {lives : List (Live α)} {drafts : List (Draft α)} (h : FollowsAll path lives drafts) :
    Follows path (Scribe.all lives) (Scribe.all drafts) := by
  induction h with
  | nil => exact pure []
  | cons hhead _ ih => exact seq (map _ hhead) ih

theorem join (separator : String) {lives : List (Live String)} {drafts : List (Draft String)}
    (h : FollowsAll path lives drafts) :
    Follows path (Scribe.join separator lives) (Scribe.join separator drafts) :=
  map _ (all h)

theorem lines {lives : List (Live String)} {drafts : List (Draft String)}
    (h : FollowsAll path lives drafts) : Follows path (Scribe.lines lives) (Scribe.lines drafts) :=
  map _ (all h)

theorem placeholder (kind : String) (form : Form) :
    Follows path (Swift.placeholder kind form) (Swift.placeholder kind form) :=
  standIn _ _

/-! ## Pieces -/

theorem annotated {asked : TypePath} (h : path.Above asked) :
    Follows path (Swift.annotation asked) (Swift.annotation asked) :=
  map _ (resolve h)

section Pieces

variable {live : Live String} {draft : Draft String}

theorem bodyBlock (body : Node) (h : Follows path live draft) :
    Follows path (Swift.bodyBlock body live) (Swift.bodyBlock body draft) := by
  unfold Swift.bodyBlock
  split
  · exact h
  · exact map _ h

theorem elseBlock (alternate : Node) (h : Follows path live draft) :
    Follows path (Swift.elseBlock alternate live) (Swift.elseBlock alternate draft) := by
  unfold Swift.elseBlock
  split
  · exact h
  · exact bodyBlock alternate h

theorem spreadOut {parts : Option (List (Live String))} {partDrafts : Option (List (Draft String))}
    (hp : Option.Rel (FollowsAll path) parts partDrafts) (h : Follows path live draft) :
    Follows path (Swift.spreadOut parts live) (Swift.spreadOut partDrafts draft) := by
  cases hp with
  | none => exact h
  | some hparts => exact lines hparts

theorem operand (node : Node) (h : Follows path live draft) :
    Follows path (Swift.operand node live) (Swift.operand node draft) := by
  unfold Swift.operand
  split
  · exact map _ h
  · exact h

theorem prefixOperand (node : Node) (h : Follows path live draft) :
    Follows path (Swift.prefixOperand node live) (Swift.prefixOperand node draft) := by
  unfold Swift.prefixOperand
  split
  · exact map _ h
  · exact map _ h
  · exact operand node h

theorem closureParameter (param : Node) :
    Follows path (Swift.closureParameter param) (Swift.closureParameter param) := by
  unfold Swift.closureParameter
  split
  · exact pure _
  · exact placeholder _ _

theorem closureParameters (params : List Node) :
    FollowsAll path (params.map Swift.closureParameter) (params.map Swift.closureParameter) := by
  induction params with
  | nil => exact .nil
  | cons param rest ih => exact .cons (closureParameter param) ih

theorem closure (params : List Node) (h : Follows path live draft) :
    Follows path (Swift.closure params live) (Swift.closure params draft) := by
  unfold Swift.closure
  split
  · exact map _ h
  · exact seq (map _ h) (join _ (closureParameters params))

theorem expressionClosure (params : List Node) (h : Follows path live draft) :
    Follows path (Swift.expressionClosure params live) (Swift.expressionClosure params draft) := by
  unfold Swift.expressionClosure
  split
  · exact map _ h
  · exact seq (map _ h) (join _ (closureParameters params))

end Pieces

theorem catchHead (param : Option Node) :
    Follows path (Swift.catchHead param) (Swift.catchHead param) := by
  unfold Swift.catchHead
  split
  · exact pure _
  · exact pure _
  · exact fail _ _

theorem literalCode (literal : Literal) :
    Follows path (Swift.literalCode literal) (Swift.literalCode literal) := by
  unfold Swift.literalCode
  split
  · exact placeholder _ _
  · split <;> exact pure _

theorem templateBody (quasis : List TemplateElement) {lives : List (Live String)}
    {drafts : List (Draft String)} (h : FollowsAll path lives drafts) :
    Follows path (Swift.templateBody quasis lives) (Swift.templateBody quasis drafts) := by
  induction quasis generalizing lives drafts with
  | nil => exact pure _
  | cons quasi rest ih =>
    cases h with
    | nil => exact append (pure _) (ih .nil)
    | cons hhead htail => exact append (append (append (pure _) hhead) (pure _)) (ih htail)

/-! ### The cases of a switch -/

theorem testedCases (cases : List SwitchCase) {lives : List (Live String)}
    {drafts : List (Draft String)} (h : FollowsAll path lives drafts) :
    FollowsAll path (((cases.zip lives).filter (·.1.test.isSome)).map (·.2))
      (((cases.zip drafts).filter (·.1.test.isSome)).map (·.2)) := by
  induction h generalizing cases with
  | nil => simp
  | cons hhead _ ih =>
    cases cases with
    | nil => simp
    | cons case rest =>
      simp only [List.zip_cons_cons, List.filter_cons]
      split
      · exact .cons hhead (ih rest)
      · exact ih rest

theorem defaultCase (cases : List SwitchCase) (text : String) {lives : List (Live String)}
    {drafts : List (Draft String)} (h : FollowsAll path lives drafts) :
    Follows path ((((cases.zip lives).find? (·.1.test.isNone)).map (·.2)).getD (Pure.pure text))
      ((((cases.zip drafts).find? (·.1.test.isNone)).map (·.2)).getD (Pure.pure text)) := by
  induction h generalizing cases with
  | nil => simpa using pure text
  | cons hhead _ ih =>
    cases cases with
    | nil => simpa using pure text
    | cons case rest =>
      by_cases ht : case.test.isNone
      · simpa [ht] using hhead
      · simpa [List.find?_cons, ht] using ih rest

/-- The cases of a switch are put in the same order on both sides. -/
theorem orderedCases (cases : List SwitchCase) {lives : List (Live String)}
    {drafts : List (Draft String)} (h : FollowsAll path lives drafts) :
    FollowsAll path (Swift.orderedCases (cases.zip lives))
      (Swift.orderedCases (cases.zip drafts)) :=
  List.rel_append (testedCases cases h) (.cons (defaultCase cases _ h) .nil)

/-! ### Declarations -/

theorem typedParameter (id : Identifier) :
    Follows path (Swift.typedParameter path id) (Swift.typedParameter path id) :=
  append (pure _) (annotated (path.above_descend id.name))

theorem badParameter (shape : Node) :
    Follows path (Swift.badParameter path shape) (Swift.badParameter path shape) :=
  fail _ _

theorem memberHead (isStatic : Bool) :
    Follows path (Swift.memberHead path isStatic) (Swift.memberHead path isStatic) :=
  map _ (resolve (path.above_descend "@prefix"))

theorem signature {params : List (Live String)} {paramDrafts : List (Draft String)}
    (body : List Node) (isAsync returns : Bool) {code : Live String} {codeDraft : Draft String}
    (hp : FollowsAll path params paramDrafts) (hc : Follows path code codeDraft) :
    Follows path (Swift.signature path params body isAsync returns code)
      (Swift.signature path paramDrafts body isAsync returns codeDraft) := by
  have hg : Follows path (Swift.genericParameters path) (Swift.genericParameters path) :=
    map _ (resolve (path.above_descend "@generic"))
  have hr : Follows path (if returns then Swift.returnType path body else Pure.pure "")
      (if returns then Swift.returnType path body else Pure.pure "") := by
    split
    · exact map _ (resolve (path.above_descend "@return"))
    · exact pure _
  exact append (append (append (append (append (append hg (pure _)) (join _ hp)) (pure _)) hr)
    (pure _)) hc

end Follows

end Swift

end SwiftScribe
