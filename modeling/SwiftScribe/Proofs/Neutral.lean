import SwiftScribe.Proofs.DebugText
import SwiftScribe.Proofs.Trace

/-!
# Pieces that leave everything open as it is

Every rule of generation puts texts together with fixed text between them that closes what it opens.
Each such piece is shown neutral here if its parts are, first as text and then as a draft.

* `neutral_braces`, `neutral_binding` and so on: the pieces of generated text.
* `Trails`: what may follow any neutral text, such as a branch that may be missing.
* `Yields`: **what a draft makes, under some answers, passes a check.**
* `Yields.andThen`, `Yields.close`: drafts one after the other lead where their texts do.
-/

namespace SwiftScribe

namespace Swift

variable {α β : Type} {answers : Answers}

/-! ## Texts -/

section Texts

variable {a b text name body : String}

theorem Leads.inside (h : Neutral text) (outer : List Bracket) : Loose outer outer text :=
  h.within outer

/-- **A text between an opening and a closing piece.** -/
theorem Leads.between (h : Neutral text) (outer : List Bracket)
    (ha : glide [] a.toList = some outer) (hb : Joint outer [] b) : Solid [] [] (a ++ text ++ b) :=
  (Leads.append (.of_glide ha) (h.inside outer)).close hb

/-- **A text that may follow any text that leaves everything open as it is.** -/
def Trails (text : String) : Prop := ∀ before, Neutral before → Neutral (before ++ text)

theorem trails_empty : Trails "" := fun _ h => by simpa using h

/-- A text after a fixed piece. -/
theorem Leads.trails (h : Neutral b) (ha : Joint [] [] a) : Trails (a ++ b) := by
  intro before hbefore
  rw [← String.append_assoc]
  exact (hbefore.close ha).append h

/-- It goes on with another text after a fixed piece. -/
theorem Trails.append {piece : String} (h : Trails a) (hp : Joint [] [] piece) (hb : Neutral b) :
    Trails (a ++ piece ++ b) := by
  intro before hbefore
  have hsplit : before ++ (a ++ piece ++ b) = before ++ a ++ piece ++ b := by
    simp only [String.append_assoc]
  rw [hsplit]
  exact ((h before hbefore).close hp).append hb

theorem solid_identifier (h : Plain name) : Solid [] [] (identifier name) := by
  unfold identifier
  split
  · exact .of_glide (by decide)
  split
  · exact (h.solid.loose.between [] (by decide) (by decide))
  · exact h.solid

theorem neutral_braces (h : Neutral body) : Neutral (braces body) := by
  unfold braces
  split
  · exact Leads.loose (.of_glide (by decide))
  · exact (h.between [.curly] (by decide) (by decide)).loose

theorem neutral_parens (h : Neutral text) : Neutral (parens text) :=
  (h.between [.round] (by decide) (by decide)).loose

theorem neutral_lines {texts : List String} (h : ∀ text ∈ texts, Neutral text) :
    Neutral ("\n".intercalate texts) := neutral_intercalate (by decide) h

theorem neutral_commas {texts : List String} (h : ∀ text ∈ texts, Neutral text) :
    Neutral (", ".intercalate texts) := neutral_intercalate (by decide) h

theorem neutral_stack {parts : List String} (h : ∀ part ∈ parts, Neutral part) :
    Neutral (stack parts) := neutral_lines fun part hm => h part (List.mem_filter.1 hm).1

theorem neutral_jump {keyword : String} (hk : glide [] keyword.toList = some [])
    {label : Option Identifier} (h : ∀ id ∈ label, Plain id.name) :
    Neutral (jump keyword label) := by
  unfold jump
  cases label with
  | none => exact Leads.loose (.of_glide hk)
  | some label =>
    have hword : Solid [] [] (keyword ++ " ") := Leads.append (.of_glide hk) (.of_glide (by decide))
    exact (hword.append (h label rfl).solid).loose

theorem neutral_loopBody {update : String} (canContinue : Bool) (hb : Neutral body)
    (hu : Neutral update) : Neutral (loopBody canContinue body update) := by
  unfold loopBody
  split
  · exact hb
  split
  · have hdefer : Neutral ("defer " ++ braces update) :=
      Leads.append (.of_glide (by decide)) (neutral_braces hu)
    exact neutral_stack (by simp [hdefer, hb])
  · exact neutral_stack (by simp [hu, hb])

theorem neutral_forLoop {test update : String} {init : Option String} (canContinue : Bool)
    (ht : Neutral test) (hu : Neutral update) (hb : Neutral body)
    (hi : ∀ text ∈ init, Neutral text) : Neutral (forLoop canContinue test update body init) := by
  have hhead : Solid [] [] ("while " ++ test ++ " ") :=
    ht.between [] (by decide) (by decide)
  have hloop := hhead.append (neutral_braces (neutral_loopBody canContinue hb hu))
  refine Leads.append (.of_glide (by decide)) (neutral_braces (neutral_lines fun text hm => ?_))
  rcases List.mem_append.1 hm with h | h
  · exact hi text (Option.mem_toList.1 h)
  · exact List.mem_singleton.1 h ▸ hloop

theorem neutral_tryBlock {finalizer : Option String} {block : String}
    (hf : ∀ text ∈ finalizer, Neutral text) (hb : Neutral block) :
    Neutral (tryBlock finalizer block) := by
  refine Leads.append (.of_glide (by decide)) (neutral_braces (neutral_lines fun text hm => ?_))
  rcases List.mem_append.1 hm with h | h
  · obtain ⟨body, hbody, rfl⟩ := List.mem_map.1 h
    exact Leads.append (.of_glide (by decide)) (hf body (Option.mem_toList.1 hbody))
  · exact List.mem_singleton.1 (List.mem_filter.1 h).1 ▸ hb

theorem neutral_caseText {test : Option String} (ht : ∀ text ∈ test, Neutral text)
    (hb : Neutral body) : Neutral (caseText test body) := by
  have hbody {word : String} (hw : glide [] word.toList = some []) :
      Neutral (if body = "" then word else body) := by
    split
    · exact Leads.loose (.of_glide hw)
    · exact hb
  unfold caseText
  cases test with
  | none => exact Leads.append (.of_glide (by decide)) (hbody (by decide))
  | some test =>
    have hhead : Solid [] [] ("case " ++ test ++ ":\n") :=
      (ht test rfl).between [] (by decide) (by decide)
    exact hhead.append (hbody (by decide))

theorem neutral_binaryText {operator left right : String} (ho : Clean operator) (hl : Neutral left)
    (hr : Neutral right) : Neutral (binaryText operator left right) := by
  have hbetween {word : String} (hw : Joint [] [] word) : Neutral (left ++ word ++ right) :=
    (hl.close hw).append hr
  unfold binaryText
  split
  · exact hbetween (by decide)
  split
  · exact hbetween (by decide)
  split
  · exact hbetween (by decide)
  split
  · have hcall : Solid [] [.round] ("JST.contains(" ++ left ++ ", ") :=
      (Leads.append (.of_glide (by decide)) (hl.inside [.round])).close (by decide)
    exact ((hcall.append (hr.inside [.round])).close (by decide)).loose
  · have hleft : Solid [] [] (left ++ " ") := hl.close (by decide)
    have hboth : Solid [] [] (left ++ " " ++ operator ++ " ") :=
      (hleft.append ho.neutral).close (by decide)
    exact hboth.append hr

/-! ### Paths and types -/

/-- **A path of clean names.** -/
def CleanPath (path : TypePath) : Prop := ∀ name ∈ path, Clean name

theorem CleanPath.descend {path : TypePath} (h : CleanPath path) (hn : Clean name) :
    CleanPath (path.descend name) := by
  intro other hm
  rcases List.mem_append.1 hm with hm | hm
  · exact h other hm
  · exact List.mem_singleton.1 hm ▸ hn

theorem Clean.unmarked (h : Clean text) : Unmarked text.toList :=
  h.marks.imp fun c d hmark => by
    simp only [isCommentMark, List.mem_cons, Prod.mk.injEq] at hmark
    grind

theorem CleanPath.unmarked {path : TypePath} (h : CleanPath path) :
    Unmarked path.text.toList ∧ '\r' ∉ path.text.toList := by
  unfold TypePath.text
  induction path with
  | nil => exact ⟨.nil, by simp⟩
  | cons first more ih =>
    have hfirst := h first List.mem_cons_self
    have hreturn : '\r' ∉ first.toList := hfirst.neutral.no_return
    cases more with
    | nil => simpa using ⟨hfirst.unmarked, hreturn⟩
    | cons second more =>
      obtain ⟨hmarks, hmore⟩ := ih fun name hm => h name (List.mem_cons_of_mem _ hm)
      rw [String.intercalate_cons_cons]
      generalize ", ".intercalate (second :: more) = rest at hmarks hmore ⊢
      have hblank : Unmarked (' ' :: rest.toList) := hmarks.cons (by simp)
      have hcomma : Unmarked (',' :: ' ' :: rest.toList) := hblank.cons (by simp)
      have hall : Unmarked (first.toList ++ ',' :: ' ' :: rest.toList) :=
        hfirst.unmarked.append hcomma (by simp)
      have htext : (first ++ ", " ++ rest).toList = first.toList ++ ',' :: ' ' :: rest.toList := by
        simp
      rw [htext]
      exact ⟨hall, by simpa [hreturn] using hmore⟩

/-- A variable, whatever is known of its type and its value. -/
theorem neutral_binding {path : TypePath} {type init : Option String} (hn : Solid [] [] name)
    (hp : CleanPath path) (ht : ∀ text ∈ type, Clean text) (hi : ∀ text ∈ init, Neutral text) :
    Neutral (binding name path type init) := by
  obtain ⟨hmarks, hreturn⟩ := hp.unmarked
  have hname : Solid [] [] (name ++ " : ") := hn.append (.of_glide (by decide))
  cases type with
  | some type =>
    have htype := hname.append (ht type rfl).neutral
    cases init with
    | some init => exact (htype.close (by decide)).append (hi init rfl)
    | none => exact htype
  | none =>
    -- nothing is known of the type, so the path stands in a comment
    cases init with
    | some init =>
      have hcomment : Solid [] [] (name ++ " /* " ++ path.text ++ " */ = ") :=
        hn.thenComment [' '] [' ', '=', ' '] (by decide) (by decide) (by decide) (by decide) hmarks
          hreturn
      exact hcomment.append (hi init rfl)
    | none =>
      exact (hn.thenComment [' ', ':', ' '] " Any? = nil".toList (by decide) (by decide) (by decide)
        (by decide) hmarks hreturn).loose

end Texts

/-! ## Drafts -/

/-- **What a draft makes, under some answers, passes a check.** -/
def Yields (answers : Answers) (P : α → Prop) (draft : Draft α) : Prop :=
  ∀ value, draft.run answers = .ok value → P value

/-- Every type that the answers know is clean. -/
def CleanAnswers (answers : Answers) : Prop := ∀ path text, answers path = some text → Clean text

namespace Yields

section General

variable {P Q : α → Prop} {draft : Draft α}

theorem imp (h : Yields answers P draft) (hpq : ∀ value, P value → Q value) :
    Yields answers Q draft := fun value hv => hpq value (h value hv)

theorem pure {value : α} (h : P value) : Yields answers P (pure value) := by
  rintro other ⟨⟩
  exact h

theorem fail (construct : Construct) (detail : String) :
    Yields answers P (Scribe.fail construct detail) := nofun

theorem map {Q : β → Prop} {g : α → β} (h : Yields answers P draft)
    (hg : ∀ value, P value → Q (g value)) : Yields answers Q (g <$> draft) := by
  intro value hv
  have hrun : (g <$> draft).run answers = (draft.run answers).map g := by
    show (draft.outcome.map _).map _ = (draft.outcome.map _).map _
    cases draft.outcome <;> rfl
  rw [hrun] at hv
  cases hd : draft.run answers with
  | error e => rw [hd] at hv; cases hv
  | ok found =>
    rw [hd] at hv
    cases hv
    exact hg found (h found hd)

theorem seq {Q : β → Prop} {first : Draft (α → β)}
    (hf : Yields answers (fun g => ∀ value, P value → Q (g value)) first)
    (hs : Yields answers P draft) : Yields answers Q (first <*> draft) := by
  intro value hv
  unfold Draft.run at hv
  cases ho : first.outcome with
  | error e =>
    rw [(Draft.events_seq_error ho draft).2] at hv
    cases hv
  | ok g =>
    rw [(Draft.events_seq_ok ho draft).2] at hv
    have hg : first.run answers = .ok (g answers) := by rw [Draft.run, ho]; rfl
    cases hd : draft.outcome with
    | error e => rw [hd] at hv; cases hv
    | ok f =>
      rw [hd] at hv
      cases hv
      have hfound : draft.run answers = .ok (f answers) := by rw [Draft.run, hd]; rfl
      exact hf _ hg _ (hs _ hfound)

theorem all {drafts : List (Draft α)} (h : ∀ draft ∈ drafts, Yields answers P draft) :
    Yields answers (fun values => ∀ value ∈ values, P value) (Scribe.all drafts) := by
  induction drafts with
  | nil => exact pure nofun
  | cons first rest ih =>
    have hrest := ih fun draft hm => h draft (List.mem_cons_of_mem _ hm)
    exact seq (map (h first List.mem_cons_self) fun value hv values hvs =>
      List.forall_mem_cons.2 ⟨hv, hvs⟩) hrest

end General

/-! ### Texts after texts -/

section Texts

variable {next : List Char → Prop} {p q r : List Bracket} {first second draft : Draft String}
  {P Q R : String → Prop} {text : String}

theorem append (hf : Yields answers P first) (hs : Yields answers Q second)
    (h : ∀ a b, P a → Q b → R (a ++ b)) : Yields answers R (first ++ second) :=
  seq (map hf fun a ha b hb => h a b ha hb) hs

/-- **A draft after one that may be followed by anything.** -/
theorem andThen (hf : Yields answers (Solid p q) first)
    (hs : Yields answers (Leads next q r) second) :
    Yields answers (Leads next p r) (first ++ second) := append hf hs fun _ _ ha hb => ha.append hb

/-- A fixed piece. -/
theorem piece (hg : glide p text.toList = some q) : Yields answers (Solid p q) (Pure.pure text) :=
  pure (.of_glide hg)

/-- **A draft closed off by a fixed piece.** -/
theorem close (h : Yields answers (Loose p q) draft) (ht : Joint q r text) :
    Yields answers (Solid p r) (draft ++ Pure.pure text) :=
  append h (pure (P := (· = text)) rfl) fun _ _ ha hb => hb ▸ ha.close ht

/-- A draft after a fixed piece, behind any other. -/
theorem trails (h : Yields answers Neutral draft) (ht : Joint [] [] text) :
    Yields answers Trails (Pure.pure text ++ draft) :=
  append (pure (P := (· = text)) rfl) h fun _ _ ha hb => ha ▸ hb.trails ht

theorem trailOn (hf : Yields answers Trails first) (ht : Joint [] [] text)
    (h : Yields answers Neutral second) :
    Yields answers Trails (first ++ Pure.pure text ++ second) := by
  have hmiddle : Yields answers (fun whole => ∃ a, Trails a ∧ whole = a ++ text)
      (first ++ Pure.pure text) :=
    append hf (pure (P := (· = text)) rfl) fun a _ ha hb => ⟨a, ha, by rw [hb]⟩
  refine append hmiddle h ?_
  rintro _ b ⟨a, ha, rfl⟩ hb
  exact ha.append ht hb

theorem andTrail (hf : Yields answers Neutral first) (hs : Yields answers Trails second) :
    Yields answers Neutral (first ++ second) := append hf hs fun a _ ha hb => hb a ha

/-- **A draft between an opening and a closing piece.** -/
theorem between {opening closing : String} (h : Yields answers Neutral draft)
    (outer : List Bracket) (ho : glide [] opening.toList = some outer)
    (hc : Joint outer [] closing) :
    Yields answers Neutral (Pure.pure opening ++ draft ++ Pure.pure closing) := by
  have hopened : Yields answers (Loose [] outer) (Pure.pure opening ++ draft) :=
    andThen (piece ho) (h.imp fun _ ht => ht.inside outer)
  exact (hopened.close hc).imp fun _ ht => ht.loose

theorem loose (h : Yields answers (Solid p q) draft) : Yields answers (Loose p q) draft :=
  h.imp fun _ ht => ht.loose

theorem inside (h : Yields answers Neutral draft) (outer : List Bracket) :
    Yields answers (Loose outer outer) draft := h.imp fun _ ht => ht.inside outer

/-- Two drafts with a fixed piece between them. -/
theorem joined (hf : Yields answers Neutral first) (ht : Joint [] [] text)
    (h : Yields answers Neutral second) :
    Yields answers Neutral (first ++ Pure.pure text ++ second) := (hf.close ht).andThen h

/-- A draft in brackets, after another one. -/
theorem enclosed {opening closing : String} (hf : Yields answers Neutral first)
    (outer : List Bracket) (ho : Joint [] outer opening) (h : Yields answers Neutral second)
    (hc : Joint outer [] closing) :
    Yields answers Neutral (first ++ Pure.pure opening ++ second ++ Pure.pure closing) :=
  (((hf.close ho).andThen (h.inside outer)).close hc).loose

theorem join {drafts : List (Draft String)} (h : ∀ draft ∈ drafts, Yields answers Neutral draft) :
    Yields answers Neutral (Scribe.join ", " drafts) := map (all h) fun _ ht => neutral_commas ht

theorem joinLines {drafts : List (Draft String)}
    (h : ∀ draft ∈ drafts, Yields answers Neutral draft) :
    Yields answers Neutral (Scribe.join "\n" drafts) := map (all h) fun _ ht => neutral_lines ht

theorem lines {drafts : List (Draft String)} (h : ∀ draft ∈ drafts, Yields answers Neutral draft) :
    Yields answers Neutral (Scribe.lines drafts) := map (all h) fun _ ht => neutral_stack ht

theorem braces (h : Yields answers Neutral draft) :
    Yields answers Neutral (Swift.braces <$> draft) := h.map fun _ ht => neutral_braces ht

theorem parens (h : Yields answers Neutral draft) :
    Yields answers Neutral (Swift.parens <$> draft) := h.map fun _ ht => neutral_parens ht

theorem placeholder {kind : String} (hk : glide [] kind.toList = some []) (node : Node) :
    Yields answers Neutral (Swift.placeholder kind node.form) := by
  rintro text ⟨⟩
  exact (node.solid_placeholder hk).loose

/-! ### Pieces -/

theorem bodyBlock (body : Node) (h : Yields answers Neutral draft) :
    Yields answers Neutral (Swift.bodyBlock body draft) := by
  unfold Swift.bodyBlock
  split
  · exact h
  · exact h.braces

theorem elseBlock (alternate : Node) (h : Yields answers Neutral draft) :
    Yields answers Neutral (Swift.elseBlock alternate draft) := by
  unfold Swift.elseBlock
  split
  · exact h
  · exact h.bodyBlock alternate

theorem spreadOut {parts : Option (List (Draft String))}
    (hp : ∀ drafts ∈ parts, ∀ draft ∈ drafts, Yields answers Neutral draft)
    (h : Yields answers Neutral draft) : Yields answers Neutral (Swift.spreadOut parts draft) := by
  cases parts with
  | none => exact h
  | some drafts => exact lines (hp drafts rfl)

theorem operand (node : Node) (h : Yields answers Neutral draft) :
    Yields answers Neutral (Swift.operand node draft) := by
  unfold Swift.operand
  split
  · exact h.parens
  · exact h

theorem prefixOperand (node : Node) (h : Yields answers Neutral draft) :
    Yields answers Neutral (Swift.prefixOperand node draft) := by
  unfold Swift.prefixOperand
  split
  · exact h.parens
  · exact h.parens
  · exact h.operand node

theorem resolve (ha : CleanAnswers answers) (path : TypePath) :
    Yields answers (fun type? => ∀ type ∈ type?, Clean type) (Scribe.resolve path) := by
  rintro type? ⟨⟩ type htype
  exact ha path type htype

theorem annotated (ha : CleanAnswers answers) {path : TypePath} (hp : CleanPath path) :
    Yields answers Neutral ( annotation path) := by
  obtain ⟨hmarks, hreturn⟩ := hp.unmarked
  refine (resolve ha path).map fun type? htype => ?_
  cases type? with
  | some type => exact (htype type rfl).neutral
  | none =>
    exact (Leads.comment [] " Any".toList (by decide) (by decide) (by decide) (by decide) hmarks
      hreturn).loose

theorem typedParameter (ha : CleanAnswers answers) {path : TypePath} (hp : CleanPath path)
    {id : Identifier} (hid : Plain id.name) :
    Yields answers Neutral (Swift.typedParameter path id) := by
  have hname : Solid [] [] ("_ " ++ identifier id.name ++ ": ") :=
    (solid_identifier hid).loose.between [] (by decide) (by decide)
  exact andThen (pure hname) (annotated ha (hp.descend hid.clean))

theorem catchHead {param : Option Node}
    (h : ∀ id, param = some (.identifier id) → Plain id.name) :
    Yields answers Neutral (Swift.catchHead param) := by
  unfold Swift.catchHead
  split
  · exact (piece (by decide)).loose
  · rename_i id
    have hname := solid_identifier (h id rfl)
    exact pure (Leads.append (.of_glide (by decide)) hname.loose)
  · exact fail _ _

theorem literalCode {literal : Literal}
    (h : literal.regex = none → literal.value.text? = none → Plain literal.raw) :
    Yields answers Neutral (Swift.literalCode literal) := by
  unfold Swift.literalCode
  split
  · exact placeholder (by decide) (.literal literal)
  · rename_i hregex
    have hnone : literal.regex = none := by simpa using hregex
    split
    · exact (piece (by decide)).loose
    · exact pure (neutral_quote _)
    · rename_i hnull hstr
      -- any other literal is its own text, and no string
      refine pure (h hnone ?_).solid.loose
      cases hv : literal.value with
      | str text => exact absurd hv (hstr text)
      | _ => rfl

/-- The pieces of a template and the interpolations between them. -/
theorem templateBody (quasis : List TemplateElement) {drafts : List (Draft String)}
    (h : ∀ draft ∈ drafts, Yields answers Neutral draft) :
    Yields answers Content (Swift.templateBody quasis drafts) := by
  induction quasis generalizing drafts with
  | nil => exact pure content_empty
  | cons quasi rest ih =>
    cases drafts with
    | nil =>
      exact append (pure (content_escape (templateText quasi))) (ih h) fun _ _ ha hb => ha.append hb
    | cons code codes =>
      have hcode := h code List.mem_cons_self
      have hrest := ih fun draft hm => h draft (List.mem_cons_of_mem _ hm)
      have hpart : Yields answers Content
          (Pure.pure (escape (templateText quasi) ++ "\\(") ++ code ++ Pure.pure ")") := by
        have hopened : Yields answers
            (fun text => ∃ inner, Neutral inner ∧
              text = escape (templateText quasi) ++ "\\(" ++ inner)
            (Pure.pure (escape (templateText quasi) ++ "\\(") ++ code) :=
          append (pure (P := (· = _)) rfl) hcode fun _ inner ha hb => ⟨inner, hb, by rw [ha]⟩
        refine append hopened (pure (P := (· = ")")) rfl) ?_
        rintro _ _ ⟨inner, hinner, rfl⟩ rfl
        have hsplit : escape (templateText quasi) ++ "\\(" ++ inner ++ ")" =
            escape (templateText quasi) ++ ("\\(" ++ inner ++ ")") := by
          simp only [String.append_assoc]
        rw [hsplit]
        exact (content_escape _).append (content_interpolation hinner)
      exact append hpart hrest fun _ _ ha hb => ha.append hb

theorem glide_kindName (kind : Kind) : glide [] kind.name.toList = some [] := by
  cases kind <;> (rw [Kind.name, String.toList_ofList]; decide)

theorem closureParameter {param : Node} (h : ∀ name ∈ boundName? param, Plain name) :
    Yields answers Neutral (Swift.closureParameter param) := by
  unfold Swift.closureParameter
  split
  · rename_i name hname
    exact pure (solid_identifier (h name hname)).loose
  · exact placeholder (glide_kindName param.kind) param

theorem closureParameters {params : List Node}
    (hp : ∀ param ∈ params, ∀ name ∈ boundName? param, Plain name) :
    ∀ draft ∈ params.map Swift.closureParameter, Yields answers Neutral draft := by
  intro draft hm
  obtain ⟨param, hparam, rfl⟩ := List.mem_map.1 hm
  exact closureParameter (hp param hparam)

theorem closure {params : List Node} (hp : ∀ param ∈ params, ∀ name ∈ boundName? param, Plain name)
    (h : Yields answers Neutral draft) : Yields answers Neutral (Swift.closure params draft) := by
  unfold Swift.closure
  split
  · exact h.braces
  · -- the body is written first, but stands after the names
    refine seq (h.map fun body hbody names hnames => ?_) (join (closureParameters hp))
    have hhead : Solid [] [.curly] ("\x7b " ++ names ++ " in\n") :=
      (Leads.append (.of_glide (by decide)) (hnames.inside [.curly])).close (by decide)
    exact ((hhead.append (hbody.inside [.curly])).close (by decide)).loose

theorem expressionClosure {params : List Node}
    (hp : ∀ param ∈ params, ∀ name ∈ boundName? param, Plain name)
    (h : Yields answers Neutral draft) :
    Yields answers Neutral (Swift.expressionClosure params draft) := by
  unfold Swift.expressionClosure
  split
  · exact h.map fun body hbody => (hbody.between [.curly] (by decide) (by decide)).loose
  · refine seq (h.map fun body hbody names hnames => ?_) (join (closureParameters hp))
    have hhead : Solid [] [.curly] ("\x7b " ++ names ++ " in ") :=
      (Leads.append (.of_glide (by decide)) (hnames.inside [.curly])).close (by decide)
    exact ((hhead.append (hbody.inside [.curly])).close (by decide)).loose

/-- A binary operator between its operands. -/
theorem binaryText {operator : String} (ho : Clean operator) (left right : Node)
    (hl : Yields answers Neutral first) (hr : Yields answers Neutral second) :
    Yields answers Neutral
      (Swift.binaryText operator <$> Swift.operand left first <*> Swift.operand right second) := by
  refine seq ((hl.operand left).map fun _ hleft _ hright => ?_) (hr.operand right)
  exact neutral_binaryText ho hleft hright

/-- A loop over what a call gives. -/
theorem eachLoop {name call : String} (hn : Plain name) (hc : Joint [] [.round] call)
    (hf : Yields answers Neutral first) (hb : Yields answers Neutral second) :
    Yields answers Neutral
      (Pure.pure ("for " ++ identifier name ++ call) ++ first ++ Pure.pure ") " ++ second) := by
  have hname : Loose [] [] ("for " ++ identifier name) :=
    Leads.append (.of_glide (by decide)) (solid_identifier hn).loose
  have hcall := andThen (pure (hname.close hc)) (hf.inside [.round])
  exact (hcall.close (by decide)).andThen hb

theorem orderedCases {cases : List (SwitchCase × Draft String)}
    (h : ∀ case ∈ cases, Yields answers Neutral case.2) :
    ∀ draft ∈ Swift.orderedCases cases, Yields answers Neutral draft := by
  intro draft hm
  unfold Swift.orderedCases at hm
  simp only [List.mem_append, List.mem_map, List.mem_filter, List.mem_singleton] at hm
  rcases hm with ⟨case, ⟨hcase, -⟩, rfl⟩ | rfl
  · exact h case hcase
  · cases hfind : cases.find? (·.1.test.isNone) with
    | none => exact (piece (by decide)).loose
    | some case => exact h case (List.mem_of_find?_eq_some hfind)

/-! ### Signatures -/

section Signatures

variable {path : TypePath}

theorem genericParameters (ha : CleanAnswers answers) (path : TypePath) :
    Yields answers (Solid [] []) (Swift.genericParameters path) := by
  refine (resolve ha path.generic).map fun type? htype => ?_
  cases type? with
  | none => exact .of_glide (by decide)
  | some type => exact (htype type rfl).neutral.between [] (by decide) (by decide)

theorem returnType (ha : CleanAnswers answers) (hp : CleanPath path) (body : List Node) :
    Yields answers Neutral (Swift.returnType path body) := by
  have hreturned : CleanPath path.returned := hp.descend (by decide)
  obtain ⟨hmarks, hreturn⟩ := hreturned.unmarked
  refine (resolve ha path.returned).map fun type? htype => ?_
  cases type? with
  | some type => exact Leads.append (.of_glide (by decide)) (htype type rfl).neutral
  | none =>
    show Neutral (if returnsValue body then " -> /* " ++ path.returned.text ++ " */ Any" else "")
    split
    · exact (Leads.comment " -> ".toList " Any".toList (by decide) (by decide) (by decide)
        (by decide) hmarks hreturn).loose
    · exact neutral_empty

theorem memberHead (ha : CleanAnswers answers) (isStatic : Bool) :
    Yields answers (Solid [] []) (Swift.memberHead path isStatic) := by
  refine (resolve ha path.modifier).map fun word? hword => ?_
  have hstatic : Solid [] [] (if isStatic then "static " else "") := by
    split <;> exact .of_glide (by decide)
  cases word? with
  | none => exact Leads.append (.of_glide (by decide)) hstatic
  | some word => exact ((hword word rfl).neutral.close (by decide)).append hstatic

theorem signature (ha : CleanAnswers answers) (hp : CleanPath path) {params : List (Draft String)}
    (body : List Node) (isAsync returns : Bool)
    (hparams : ∀ draft ∈ params, Yields answers Neutral draft) (h : Yields answers Neutral draft) :
    Yields answers Neutral (Swift.signature path params body isAsync returns draft) := by
  have hreturn : Yields answers Neutral
      (if returns then Swift.returnType path body else Pure.pure "" : Draft String) := by
    split
    · exact returnType ha hp body
    · exact pure neutral_empty
  have hopen : Yields answers (Solid [] [.round])
      (Swift.genericParameters path ++ Pure.pure "(" : Draft String) :=
    andThen (genericParameters ha path) (piece (by decide))
  have hclose : Yields answers (Solid [] [])
      (Swift.genericParameters path ++ Pure.pure "(" ++ Scribe.join ", " params
        ++ Pure.pure (if isAsync then ") async" else ")")) := by
    refine close (andThen hopen ((join hparams).inside [.round])) ?_
    cases isAsync <;> decide
  exact andThen ((andThen hclose hreturn).close (by decide)) h

end Signatures

end Texts

end Yields

end Swift

end SwiftScribe
