import SwiftScribe.Proofs.Growth
import SwiftScribe.Proofs.Neutral
import SwiftScribe.Proofs.Reach

/-!
# The members of a class and their types

A member of a class asks for its types under the name of the class and a name of its own: a constructor
under `init`, a method under its name. Below different names paths never meet, so members that go under
different names have nothing to do with each other's hints. A constructor and a method that is called
`init` go under the same name.

* `Method.asked_under`: **a member asks under its own name only**, if it asks at all.
* `Class.members_apart`: **members share no type**, and hints for one of them leave the text of the
  others as it is, unless a method is called `init` beside a constructor.
* `Class.initializer_shared`: then both of them go by the same hints.
-/

namespace SwiftScribe

/-! ## Paths below different names -/

namespace TypePath

variable {path : TypePath} {name other : String}

/-- **Paths below different names go different ways.** -/
theorem not_prefix_of_above {first second : TypePath} (hne : name ≠ other)
    (hf : (path.descend name).Above first) (hs : (path.descend other).Above second) :
    ¬ first <+: second := by
  intro hp
  have hlength : (path.descend name).length = (path.descend other).length := by simp [descend]
  have hmeet : path.descend name <+: path.descend other :=
    List.prefix_of_prefix_length_le (hf.1.trans hp) hs.1 (Nat.le_of_eq hlength)
  have heq : path.descend name = path.descend other := hmeet.eq_of_length hlength
  exact hne (List.singleton_inj.1 (List.append_cancel_left heq))

end TypePath

/-! ## Hints for some paths -/

namespace HintTable

/-- **Hints that differ for some paths only:** all else that they know, neither at these paths nor
beyond them, is the same. -/
def DifferFor (paths : List TypePath) (hints changed : HintTable) : Prop :=
  ∀ other, (∀ asked ∈ paths, ¬ asked <+: other) → hints.lookup other = changed.lookup other

theorem DifferFor.mono {paths more : List TypePath} {hints changed : HintTable}
    (h : DifferFor paths hints changed) (hm : paths ⊆ more) : DifferFor more hints changed :=
  fun other hother => h other fun asked ha => hother asked (hm ha)

/-- Hints differ from what they were for the path of a new hint only. -/
theorem differFor_record {hints changed : HintTable} {path : TypePath} {hint : Hint}
    {below : hint.Ordered} (h : hints.record? path hint below = some changed) :
    DifferFor [path] hints changed := by
  intro other hother
  have hapart : ¬ path <+: other := hother path List.mem_cons_self
  have hsame (shorter : TypePath) (hs : shorter <+: other) (leaf : Leaf) :
      hints.entries.at? shorter = some (.leaf leaf) ↔
        changed.entries.at? shorter = some (.leaf leaf) := by
    rcases Hint.Entries.record_cases (entries_of_record? h) shorter with
      ⟨-, heq⟩ | ⟨rest, rfl, -, -⟩ | ⟨-, hleaf, nested, htable⟩
    · rw [heq]
    · exact absurd ((List.prefix_append path rest).trans hs) hapart
    · exact iff_of_false (hleaf leaf) (by rw [htable]; nofun)
  refine Option.ext fun leaf => ?_
  unfold lookup
  rw [Hint.Entries.lookup_eq_some_iff, Hint.Entries.lookup_eq_some_iff]
  exact exists_congr fun shorter => and_congr_right fun hs => hsame shorter hs leaf

end HintTable

/-! ## Drafts -/

namespace Swift

variable {α : Type}

section Made

variable {answers : Answers}

/-- What a draft makes out of another one. -/
theorem Draft.of_run_map {β : Type} {g : α → β} {draft : Draft α} {value : β}
    (h : (g <$> draft).run answers = .ok value) :
    ∃ found, draft.run answers = .ok found ∧ value = g found := by
  have hdraft : Yields answers (fun found => draft.run answers = .ok found) draft := fun _ h => h
  have hmap : Yields answers (fun value => ∃ found, draft.run answers = .ok found ∧ value = g found)
      (g <$> draft) := hdraft.map fun found hfound => ⟨found, hfound, rfl⟩
  exact hmap value h

/-- What two drafts make, one after the other. -/
theorem Draft.of_run_append {first second : Draft String} {text : String}
    (h : (first ++ second).run answers = .ok text) :
    ∃ a b, first.run answers = .ok a ∧ second.run answers = .ok b ∧ text = a ++ b := by
  have hfirst : Yields answers (fun a => first.run answers = .ok a) first := fun _ h => h
  have hsecond : Yields answers (fun b => second.run answers = .ok b) second := fun _ h => h
  have hboth : Yields answers (fun text => ∃ a b, first.run answers = .ok a ∧
      second.run answers = .ok b ∧ text = a ++ b) (first ++ second) :=
    hfirst.append hsecond fun a b ha hb => ⟨a, b, ha, hb, rfl⟩
  exact hboth text h

/-- **A list of drafts makes what each of them makes.** -/
theorem Draft.of_run_all {drafts : List (Draft α)} {values : List α}
    (h : (Scribe.all drafts).run answers = .ok values) :
    List.Forall₂ (fun draft value => draft.run answers = .ok value) drafts values := by
  revert values
  show Yields answers _ (Scribe.all drafts)
  induction drafts with
  | nil => exact .pure .nil
  | cons first rest ih =>
    have hfirst : Yields answers (fun value => first.run answers = .ok value) first := fun _ h => h
    exact .seq (hfirst.map fun _ hv _ hvs => .cons hv hvs) ih

end Made

end Swift

open Swift

/-! ## One member -/

namespace Method

/-- **The paths that a member of a class asks for**, in order, in the scope of the class. -/
def asked (path : TypePath) (member : Method) : List TypePath :=
  ((Node.methodDefinition member).swift path).paths

/-- **The text of a member** on hints and records, in the scope of the class. -/
def text (path : TypePath) (hints records : HintTable) (member : Method) :
    Except Unsupported String :=
  ((Node.methodDefinition member).generate path hints records).1

/-- The name of a method, if the member is one and its name can be written. -/
def name? (member : Method) : Option String :=
  match member.kind, member.key with
  | .method, some key => methodName? key member.computed
  | _, _ => none

/-- **The name that a member goes under**, if there is anything to be asked for it. -/
def slot? (member : Method) : Option String :=
  if member.kind = .constructor then some "init" else member.name?

/-- **A member asks under its own name only.** -/
theorem asked_under (path : TypePath) (member : Method) {asked : TypePath}
    (h : asked ∈ member.asked path) :
    ∃ name, member.slot? = some name ∧ (path.descend name).Above asked := by
  obtain ⟨key, computed, value, kind, isStatic⟩ := member
  unfold Method.asked Node.swift Node.write at h
  cases key with
  | none => cases h
  | some key =>
    cases value with
    | none => cases h
    | some function =>
      have habove (name head : String) (returns : Bool) :=
        (((Follows.memberHead isStatic).append (.pure head)).append
          (Func.writeSignature_follows (path.descend name) returns function)).above asked
      cases kind with
      | constructor => exact ⟨"init", rfl, habove "init" "init" false h⟩
      | method =>
        simp only [Method.write] at h
        cases hname : methodName? key computed with
        | none =>
          rw [hname] at h
          cases h
        | some name =>
          rw [hname] at h
          exact ⟨name, hname, habove name ("func " ++ identifier name) true h⟩
      | getter => cases h
      | setter => cases h

/-- Only what is known of its own paths has a part in the text of a member. -/
theorem text_congr {path : TypePath} {member : Method} {hints changed : HintTable}
    (agree : ∀ asked ∈ member.asked path, hints.lookup asked = changed.lookup asked)
    (records : HintTable) : member.text path hints records = member.text path changed records := by
  unfold Method.text
  rw [Node.generate_eq, Node.generate_eq]
  exact Swift.Draft.run_congr _ (HintTable.answer?_congr agree)

/-! ## Two members -/

/-- **Hints for one member leave the text of another one as it is.** -/
def Spares (path : TypePath) (member other : Method) : Prop :=
  ∀ hints changed records, HintTable.DifferFor (member.asked path) hints changed →
    other.text path hints records = other.text path changed records

/-- **Two members of a class have nothing to do with each other's types.** -/
structure Apart (path : TypePath) (member other : Method) : Prop where
  /-- No path is asked for by both. -/
  disjoint : List.Disjoint (member.asked path) (other.asked path)
  spares : member.Spares path other
  spared : other.Spares path member

section Two

variable {path : TypePath} {member other : Method}
  (hslots : ∀ name ∈ member.slot?, name ∉ other.slot?)

include hslots

/-- Under different names no path of one member goes on from a path of the other. -/
theorem not_prefix_of_asked {asked further : TypePath} (ha : asked ∈ member.asked path)
    (hf : further ∈ other.asked path) : ¬ asked <+: further ∧ ¬ further <+: asked := by
  obtain ⟨name, hname, habove⟩ := member.asked_under path ha
  obtain ⟨name', hname', habove'⟩ := other.asked_under path hf
  have hne : name ≠ name' := by
    rintro rfl
    exact hslots name hname hname'
  exact ⟨TypePath.not_prefix_of_above hne habove habove',
    TypePath.not_prefix_of_above hne.symm habove' habove⟩

theorem apart_of_slots (path : TypePath) : Apart path member other where
  disjoint asked ha hf := (not_prefix_of_asked hslots ha hf).1 (List.prefix_refl asked)
  spares _ _ records hdiffer := text_congr (fun further hf =>
    hdiffer further fun _ ha => (not_prefix_of_asked hslots ha hf).1) records
  spared _ _ records hdiffer := text_congr (fun asked ha =>
    hdiffer asked fun _ hf => (not_prefix_of_asked hslots ha hf).2) records

end Two

/-- A new hint for one member leaves the text of another one as it is. -/
theorem Apart.text_record {path asked : TypePath} {member other : Method}
    (h : Apart path member other) (ha : asked ∈ member.asked path) {hints changed : HintTable}
    {hint : Hint} {below : hint.Ordered} (hr : hints.record? asked hint below = some changed)
    (records : HintTable) : other.text path hints records = other.text path changed records :=
  h.spares hints changed records
    ((HintTable.differFor_record hr).mono (List.cons_subset.2 ⟨ha, List.nil_subset _⟩))

end Method

/-! ## A class -/

namespace Class

/-- **A class with at most one constructor, and with methods of different names.** -/
structure Distinct (definition : Class) : Prop where
  constructors : definition.members.Pairwise fun member other =>
    ¬ (member.kind = .constructor ∧ other.kind = .constructor)
  names : definition.members.Pairwise fun member other => ∀ name ∈ member.name?, name ∉ other.name?

/-- No method is called `init` beside a constructor. -/
def OwnInit (definition : Class) : Prop :=
  ∀ member ∈ definition.members, member.kind = .constructor →
    ∀ other ∈ definition.members, other.name? ≠ some "init"

variable {definition : Class}

/-- The members go under different names. -/
theorem slots_pairwise (hdistinct : definition.Distinct) (hown : definition.OwnInit) :
    definition.members.Pairwise fun member other => ∀ name ∈ member.slot?, name ∉ other.slot? := by
  refine (hdistinct.constructors.and hdistinct.names).imp_of_mem ?_
  rintro member other hmember hother ⟨hconstructors, hnames⟩ name hname hname'
  unfold Method.slot? at hname hname'
  split at hname
  · rename_i hkind
    cases hname
    split at hname'
    · rename_i hkind'
      exact hconstructors ⟨hkind, hkind'⟩
    · exact hown member hmember hkind other hother hname'
  · split at hname'
    · rename_i hkind'
      cases hname'
      exact hown other hother hkind' member hmember hname
    · exact hnames name hname hname'

/-- **Who asks for a path in a class:** the superclass or one of the members. -/
theorem asked_cases {id : Identifier} (hid : definition.id = some id) {path asked : TypePath}
    (h : asked ∈ ((Node.classDeclaration definition).swift path).paths) :
    (∃ superClass ∈ definition.superClass,
        asked ∈ (superClass.swift (path.descend id.name)).paths) ∨
      ∃ member ∈ definition.members, asked ∈ member.asked (path.descend id.name) := by
  obtain ⟨id', superClass, members⟩ := definition
  cases hid
  have st := Asks.stable fun asked =>
    (∃ node ∈ superClass, asked ∈ (node.swift (path.descend id.name)).paths) ∨
      ∃ member ∈ members, asked ∈ member.asked (path.descend id.name)
  revert asked
  show Asks _ ((Node.classDeclaration ⟨some id, superClass, members⟩).write path)
  unfold Node.write
  refine st.append (st.append (st.append (st.pure _) ?_) (st.pure _)) (st.map _ (st.lines ?_))
  · cases superClass with
    | none => exact st.pure _
    | some node => exact st.append (st.pure _) fun asked h => .inl ⟨node, rfl, h⟩
  · intro draft hm
    rw [writeMembers_eq_map] at hm
    obtain ⟨member, hmember, rfl⟩ := List.mem_map.1 hm
    exact fun asked h => .inr ⟨member, hmember, h⟩

/-- A text stands for the superclass, if there is one, behind the name of a class. -/
def Heritage (superClass : Option Node) (path : TypePath) (hints records : HintTable)
    (text : String) : Prop :=
  match superClass with
  | none => text = ""
  | some node => ∃ code, (node.generate path hints records).1 = .ok code ∧ text = ": " ++ code

/-- **A text is that of a class** on hints and records: behind what stands for the superclass, a block
of the texts of the members, each the one that the member has alone. -/
def Printed (definition : Class) (path : TypePath) (hints records : HintTable) (code : String) :
    Prop :=
  ∃ id heritage codes, definition.id = some id ∧
    Heritage definition.superClass (path.descend id.name) hints records heritage ∧
    List.Forall₂ (fun member code => member.text (path.descend id.name) hints records = .ok code)
      definition.members codes ∧
    code = "class " ++ identifier id.name ++ heritage ++ " " ++ braces (stack codes)

theorem printed_of_generate {path : TypePath} {hints records : HintTable} {code : String}
    (h : ((Node.classDeclaration definition).generate path hints records).1 = .ok code) :
    definition.Printed path hints records code := by
  rw [Node.generate_eq] at h
  unfold Node.swift at h
  obtain ⟨id, superClass, members⟩ := definition
  unfold Node.write at h
  cases id with
  | none => cases h
  | some id =>
    obtain ⟨_, _, hhead, hblock, rfl⟩ := Draft.of_run_append h
    obtain ⟨_, _, hfront, hspace, rfl⟩ := Draft.of_run_append hhead
    obtain ⟨_, heritage, hname, hheritage, rfl⟩ := Draft.of_run_append hfront
    obtain ⟨_, hlines, rfl⟩ := Draft.of_run_map hblock
    obtain ⟨codes, hcodes, rfl⟩ := Draft.of_run_map hlines
    cases hname
    cases hspace
    refine ⟨id, heritage, codes, rfl, ?_, ?_, rfl⟩
    · cases superClass with
      | none =>
        cases hheritage
        rfl
      | some node =>
        obtain ⟨_, code, hcolon, hcode, rfl⟩ := Draft.of_run_append hheritage
        cases hcolon
        exact ⟨code, by rw [Node.generate_eq]; exact hcode, rfl⟩
    · have hall := Draft.of_run_all hcodes
      rw [writeMembers_eq_map, List.forall₂_map_left_iff] at hall
      refine hall.imp fun member code hcode => ?_
      unfold Method.text
      rw [Node.generate_eq]
      exact hcode

/-- **Members share no type**: two of them ask for none in common, wherever the class stands, and hints
for one leave the text of the other as it is. All that a class asks for is asked for by the superclass
or by one of its members, and its text is put together from the texts that they have alone. -/
theorem members_apart (hdistinct : definition.Distinct) (hown : definition.OwnInit) :
    (∀ scope, definition.members.Pairwise (Method.Apart scope)) ∧
      (∀ id path, definition.id = some id →
        ∀ asked ∈ ((Node.classDeclaration definition).swift path).paths,
          (∃ superClass ∈ definition.superClass,
              asked ∈ (superClass.swift (path.descend id.name)).paths) ∨
            ∃ member ∈ definition.members, asked ∈ member.asked (path.descend id.name)) ∧
      ∀ path hints records code,
        ((Node.classDeclaration definition).generate path hints records).1 = .ok code →
          definition.Printed path hints records code := by
  refine ⟨fun scope => ?_, fun id path hid asked h => asked_cases hid h,
    fun path hints records code h => printed_of_generate h⟩
  exact (slots_pairwise hdistinct hown).imp fun hslots => Method.apart_of_slots hslots scope

/-- A member without parameters and statements. -/
def plainMember (name : String) (kind : MethodKind) : Method :=
  ⟨some (.identifier ⟨name⟩), false, some ⟨none, [], [], false, false, false⟩, kind, false⟩

/-- A class with a constructor and two methods. -/
def container : Class :=
  ⟨some ⟨"Stack"⟩, none,
    [plainMember "constructor" .constructor, plainMember "push" .method, plainMember "pop" .method]⟩

/-- The members of the container are apart, and a word for `push` does not come before `pop`. -/
theorem members_apart_container :
    container.Distinct ∧ container.OwnInit ∧
      (∀ scope, container.members.Pairwise (Method.Apart scope)) ∧
      ∀ hints changed records,
        HintTable.record? hints ["Stack", "push", "@prefix"] (.leaf (.name "final")) trivial =
            some changed →
          (plainMember "pop" .method).text ["Stack"] hints records =
            (plainMember "pop" .method).text ["Stack"] changed records := by
  have hdistinct : container.Distinct := ⟨by decide, by decide⟩
  have hown : container.OwnInit := by unfold OwnInit; decide
  have hall := (members_apart hdistinct hown).1
  refine ⟨hdistinct, hown, hall, fun hints changed records hr => ?_⟩
  have happart : (plainMember "push" .method).Apart ["Stack"] (plainMember "pop" .method) :=
    List.rel_of_pairwise_cons (List.pairwise_cons.1 (hall ["Stack"])).2 List.mem_cons_self
  have hasked : ["Stack", "push", "@prefix"] ∈ (plainMember "push" .method).asked ["Stack"] :=
    List.mem_cons_self
  exact happart.text_record hasked hr records

/-- A class with a constructor and a method that is called `init`. -/
def twoInits : Class :=
  ⟨some ⟨"A"⟩, none, [plainMember "constructor" .constructor, plainMember "init" .method]⟩

/-- A word for the constructor of `A`. -/
def requiredInit : HintTable where
  entries := [("A", .table [("init", .table [("@prefix", .leaf (.name "required"))])])]
  ordered := by simp [Hint.OrderedEntries, Hint.Ordered]

/-- **A constructor and a method called `init` share their types.** Both ask for the word before them at
the same path, and one hint is written before both. -/
theorem initializer_shared :
    twoInits.Distinct ∧
      (plainMember "constructor" .constructor).asked ["A"] =
        [["A", "init", "@prefix"], ["A", "init", "@generic"]] ∧
      (plainMember "init" .method).asked ["A"] =
        [["A", "init", "@prefix"], ["A", "init", "@generic"], ["A", "init", "@return"]] ∧
      ¬ twoInits.members.Pairwise (fun member other =>
        List.Disjoint (member.asked ["A"]) (other.asked ["A"])) ∧
      ((Node.classDeclaration twoInits).generate [] .empty .empty).1 =
        .ok "class A \x7b\ninit() \x7b\n\x7d\nfunc `init`() \x7b\n\x7d\n\x7d" ∧
      ((Node.classDeclaration twoInits).generate [] requiredInit .empty).1 =
        .ok "class A \x7b\nrequired init() \x7b\n\x7d\nrequired func `init`() \x7b\n\x7d\n\x7d" := by
  have hconstructor : (plainMember "constructor" .constructor).asked ["A"] =
      [["A", "init", "@prefix"], ["A", "init", "@generic"]] := by rfl
  have hmethod : (plainMember "init" .method).asked ["A"] =
      [["A", "init", "@prefix"], ["A", "init", "@generic"], ["A", "init", "@return"]] := by rfl
  refine ⟨⟨by decide, by decide⟩, hconstructor, hmethod, fun hpairwise => ?_, by rfl, by rfl⟩
  have hdisjoint := List.rel_of_pairwise_cons hpairwise List.mem_cons_self
  rw [hconstructor, hmethod] at hdisjoint
  exact hdisjoint List.mem_cons_self List.mem_cons_self

end Class

end SwiftScribe
