import SwiftScribe.Proofs.Growth
import SwiftScribe.Proofs.Trace

/-!
# Running again on the records

The records of a run are hints for the next one. The second run asks for the same paths, but looks
them up in another tree, so the two are compared note by note.

* `HintTable.noteAll_fixed`: records that are used as hints are recorded again as they are.
* `Source.relearn_settles`: **from the second run on nothing changes**, neither text nor records.
* `Source.rerun_swift_of_kept`: the second run knows what the first one knew, exactly if every type
  is kept; then its text is the same.
* `Source.rerun_swift_differs`: a type is lost where its path is met after a longer one.
-/

namespace SwiftScribe

namespace HintTable

variable {hints other records : HintTable} {path : TypePath}

/-! ## The records as hints -/

theorem note_of_settled (h : path = [] ∨ records.Settled path) :
    hints.note records path = records := by
  unfold note note?
  rw [record?_eq_none_iff.2 h]
  rfl

theorem note_congr (h : hints.lookup path = other.lookup path) :
    hints.note records path = other.note records path := by
  unfold note note?
  simp only [h]

/-- An entry keeps its answer as its table grows. -/
theorem lookup_of_grows {leaf? : Option Leaf} (h : records.at? path = some (.ofLeaf? leaf?))
    (hle : records ≤ other) : other.lookup path = leaf? := by
  obtain ⟨later, hl, hg⟩ := hle path _ h
  cases leaf? with
  | none =>
    refine Hint.Entries.lookup_eq_none_of_at? hl fun leaf => ?_
    rintro rfl
    cases hg
  | some leaf =>
    cases hg
    exact Hint.Entries.lookup_eq_some_iff.2 ⟨path, List.prefix_refl path, hl⟩

/-- **One note of the second run.** Whatever the first run noted, hints that its records grow into
make the second run note the same. -/
theorem note_eq_of_le (hle : hints.note records path ≤ other) :
    other.note records path = hints.note records path := by
  rcases note_cases hints records path with ⟨hs, hsame⟩ | ⟨-, hrec⟩
  · rw [hsame, note_of_settled hs]
  · have hat := Hint.Entries.at?_record (entries_of_record? hrec)
    exact note_congr (lookup_of_grows hat hle)

/-- All the notes of the second run. -/
theorem noteAll_eq_of_le {paths : List TypePath} (hle : hints.noteAll records paths ≤ other) :
    other.noteAll records paths = hints.noteAll records paths := by
  induction paths generalizing records with
  | nil => rfl
  | cons path rest ih =>
    rw [noteAll_cons] at hle
    rw [noteAll_cons, noteAll_cons, note_eq_of_le (le_trans (le_noteAll _ _ _) hle)]
    exact ih hle

/-- **Records used as hints are recorded again as they are.** -/
theorem noteAll_fixed (hints : HintTable) (paths : List TypePath) :
    (hints.noteAll .empty paths).noteAll .empty paths = hints.noteAll .empty paths :=
  noteAll_eq_of_le (le_refl _)

/-! ## What the records keep -/

/-- **The type of a path is kept** if the path itself, or a typed one above it, comes early. -/
def Kept (hints : HintTable) (paths : List TypePath) (path : TypePath) : Prop :=
  ∃ shorter, shorter <+: path ∧ hints.lookup shorter ≠ none ∧ Early paths shorter

/-- The records know what the hints know, exactly if every type is kept. -/
theorem lookup_noteAll_eq_iff {paths : List TypePath} :
    (hints.noteAll .empty paths).lookup path = hints.lookup path ↔
      (hints.lookup path ≠ none → Kept hints paths path) := by
  cases hl : hints.lookup path with
  | none =>
    refine ⟨fun _ h => absurd rfl h, fun _ => ?_⟩
    cases hr : (hints.noteAll .empty paths).lookup path with
    | none => rfl
    | some leaf =>
      have := (lookup_noteAll.1 hr).1
      rw [hl] at this
      cases this
  | some leaf =>
    rw [lookup_noteAll]
    exact ⟨fun h _ => h.2, fun h => ⟨hl, h (Option.some_ne_none leaf)⟩⟩

end HintTable

namespace Source

variable {hints : HintTable} {source : Source} {output : Output}

/-- **A second run succeeds** with the same records, and with the same text if its hints know the
same about all that is asked. -/
theorem rerun_ok (h : source.run hints = .ok output) :
    ∃ again, source.run output.records = .ok again ∧ again.records = output.records ∧
      ((∀ path ∈ source.asked, output.records.lookup path = hints.lookup path) →
        again.swift = output.swift) := by
  obtain ⟨draft, code, hd, hrun, rfl⟩ := run_eq_ok_iff.1 h
  set records := hints.noteAll .empty source.asked with hrecords
  have hv : (draft.run records.answer?).map (fun _ => ()) = .ok () := by
    rw [Swift.Draft.verdict_run, ← Swift.Draft.verdict_run draft hints.answer?, hrun]
    rfl
  cases hagain : draft.run records.answer? with
  | error e =>
    rw [hagain] at hv
    cases hv
  | ok codeAgain =>
    refine ⟨⟨source.assemble codeAgain, records.noteAll .empty source.asked⟩, ?_, ?_, ?_⟩
    · exact run_eq_ok_iff.2 ⟨draft, codeAgain, hd, hagain, rfl⟩
    · exact HintTable.noteAll_fixed hints source.asked
    · intro agree
      have hasked : source.asked = draft.paths := by rw [asked, hd]
      rw [hasked] at agree
      have hcode := Swift.Draft.run_congr draft (HintTable.answer?_congr agree)
      rw [hagain, hrun] at hcode
      cases hcode
      rfl

/-- **Learning from run to run:** what comes out after `n` more runs, each on the records of the one
before. -/
def relearn (source : Source) (hints : HintTable) : Nat → Except RunError Output
  | 0 => source.run hints
  | n + 1 => (source.relearn hints n).bind fun output => source.run output.records

/-- A run that gives its own hints back is repeated for ever. -/
theorem relearn_succ {again : Output} (h : source.run hints = .ok output)
    (hagain : source.run output.records = .ok again) (hr : again.records = output.records)
    (n : Nat) : source.relearn hints (n + 1) = .ok again := by
  induction n with
  | zero =>
    rw [relearn, relearn, h]
    exact hagain
  | succ n ih =>
    rw [relearn, ih]
    show source.run again.records = .ok again
    rw [hr, hagain]

/-- **From the second run on nothing changes.** The records are those of the first run, and so is
the text if no typed path is asked for after a longer one. -/
theorem relearn_settles (h : source.run hints = .ok output) :
    ∃ again, source.run output.records = .ok again ∧ again.records = output.records ∧
      (∀ n, source.relearn hints (n + 1) = .ok again) ∧
      ((∀ before path after, source.asked = before ++ path :: after → hints.lookup path ≠ none →
          ∀ other ∈ before, ¬ path.Above other) →
        again.swift = output.swift) := by
  obtain ⟨again, hagain, hr, hswift⟩ := rerun_ok h
  refine ⟨again, hagain, hr, relearn_succ h hagain hr, fun hlate => hswift fun path hm => ?_⟩
  rw [records_of_run h]
  refine HintTable.lookup_noteAll_eq_iff.2 fun htyped => ?_
  obtain ⟨before, after, hsplit⟩ := List.append_of_mem hm
  exact ⟨path, List.prefix_refl path, htyped, before, after, hsplit,
    hlate before path after hsplit htyped⟩

/-- **When the second run writes the same text.** The records answer for a path as the hints do,
exactly if the type of the path is kept; if that holds of every path that is asked for, the text of
the second run is that of the first. -/
theorem rerun_swift_of_kept (h : source.run hints = .ok output) :
    ∃ again, source.run output.records = .ok again ∧
      (∀ path, output.records.lookup path = hints.lookup path ↔
        (hints.lookup path ≠ none → hints.Kept source.asked path)) ∧
      ((∀ path ∈ source.asked, hints.lookup path ≠ none → hints.Kept source.asked path) →
        again.swift = output.swift) := by
  obtain ⟨again, hagain, -, hswift⟩ := rerun_ok h
  have hiff : ∀ path, output.records.lookup path = hints.lookup path ↔
      (hints.lookup path ≠ none → hints.Kept source.asked path) := by
    intro path
    rw [records_of_run h]
    exact HintTable.lookup_noteAll_eq_iff
  refine ⟨again, hagain, hiff, fun hkept => hswift fun path hm => ?_⟩
  exact (hiff path).2 (hkept path hm)

/-! ## A type that is lost -/

/-- `function f() ...` followed by `var f`: what belongs to the function is asked for before the
variable of the same name. -/
def redeclared : Source where
  name? := none
  ast :=
    let name : Json := .obj [("type", .str "Identifier"), ("name", .str "f")]
    let block : Json := .obj [("type", .str "BlockStatement"), ("body", .arr [])]
    let function : Json :=
      .obj [("type", .str "FunctionDeclaration"), ("id", name), ("params", .arr []),
        ("body", block)]
    let declaration : Json :=
      .obj [("type", .str "VariableDeclaration"), ("kind", .str "var"),
        ("declarations", .arr [.obj [("type", .str "VariableDeclarator"), ("id", name)]])]
    .obj [("type", .str "Program"), ("sourceType", .str "script"),
      ("body", .arr [function, declaration])]

/-- One type for `f` and for all that is beyond it. -/
def oneType : HintTable where
  entries := [("f", .leaf (.name "Int"))]
  ordered := ⟨by simp, trivial, trivial⟩

/-- What the records keep of it: the types beyond `f`, but not that of `f`. -/
def typesBeyond : HintTable where
  entries := [("f", .table [("@generic", .leaf (.name "Int")), ("@return", .leaf (.name "Int"))])]
  ordered := ⟨by simp, ⟨by decide, trivial, by simp, trivial, trivial⟩, trivial⟩

theorem run_redeclared : redeclared.run oneType =
    .ok ⟨"func f<Int>() -> Int \x7b\n\x7d\nvar f : Int\n", typesBeyond⟩ := by
  rfl

theorem rerun_redeclared : redeclared.run typesBeyond =
    .ok ⟨"func f<Int>() -> Int \x7b\n\x7d\nvar f : /* f */ Any? = nil\n", typesBeyond⟩ := by
  rfl

/-- **A type is lost** where its path is met after a longer one, and the text of the second run is
another one. -/
theorem rerun_swift_differs :
    ∃ output again, redeclared.run oneType = .ok output ∧
      redeclared.run output.records = .ok again ∧ again.swift ≠ output.swift :=
  ⟨_, _, run_redeclared, rerun_redeclared, by decide⟩

theorem asked_redeclared : redeclared.asked = [["f", "@generic"], ["f", "@return"], ["f"]] := by
  rfl

/-- What was kept once is kept for good. -/
theorem rerun_swift_of_kept_redeclared :
    ∃ output again, redeclared.run typesBeyond = .ok output ∧
      redeclared.run output.records = .ok again ∧ again.swift = output.swift := by
  obtain ⟨again, hagain, -, hswift⟩ := rerun_swift_of_kept rerun_redeclared
  refine ⟨_, again, rerun_redeclared, hagain, hswift fun path hm htyped => ?_⟩
  rw [asked_redeclared] at hm ⊢
  refine ⟨path, List.prefix_refl path, htyped, ?_⟩
  simp only [List.mem_cons, List.not_mem_nil, or_false] at hm
  rcases hm with rfl | rfl | rfl
  · exact ⟨[], [["f", "@return"], ["f"]], rfl, by simp⟩
  · exact ⟨[["f", "@generic"]], [["f"]], rfl, by simp [TypePath.Above]⟩
  · exact absurd rfl htyped

/-- What is lost is lost in the second run; after that nothing changes, the text included. -/
theorem relearn_settles_redeclared :
    (∃ again, again.records = typesBeyond ∧
      ∀ n, redeclared.relearn oneType (n + 1) = .ok again) ∧
    (∃ output again, redeclared.run typesBeyond = .ok output ∧ again.swift = output.swift ∧
      ∀ n, redeclared.relearn typesBeyond (n + 1) = .ok again) := by
  constructor
  · obtain ⟨again, -, hr, hn, -⟩ := relearn_settles run_redeclared
    exact ⟨again, hr, hn⟩
  · obtain ⟨again, -, -, hn, hswift⟩ := relearn_settles rerun_redeclared
    refine ⟨_, again, rerun_redeclared, hswift fun before path after hsplit htyped => ?_, hn⟩
    rw [asked_redeclared] at hsplit
    rcases before with _ | ⟨first, _ | ⟨second, _ | ⟨third, before⟩⟩⟩
    · simp
    · cases hsplit
      simp [TypePath.Above]
    · -- only the last path has longer ones before it, and it has no type
      cases hsplit
      exact absurd rfl htyped
    · simp at hsplit

end Source

end SwiftScribe
