import SwiftScribe.Proofs.Truth

/-!
# Batches and single runs

Every path that a run asks for starts with the name of its source, so sources of different names
never meet in the records.

* `HintTable.ext_get?`: a table is known by what stands under each name.
* `Source.run_eq_of_agree`: a run looks at its hints under the name of its source only.
* `Source.merge_eq_noteAll`: **merging the records of a run is the same as going on from there**, where
  nothing stands under the name of its source yet.
* `runBatch_eq_runs`: **a batch is its single runs**: it succeeds if they do, joins their texts, and
  holds their records side by side, in whatever order they come.
-/

namespace SwiftScribe

/-! ## Tables by their names -/

namespace Hint.Entries

/-- No name in a table is smaller than the first one. -/
theorem not_lt_first {key : String} {hint : Hint} {rest : Entries}
    (ho : OrderedEntries ((key, hint) :: rest)) {name : String}
    (h : get? ((key, hint) :: rest) name ≠ none) : ¬ name < key := by
  intro hlt
  refine h (get?_eq_none_of_lt fun entry hm => ?_)
  rcases List.mem_cons.1 hm with rfl | hm
  · exact hlt
  · exact String.lt_trans hlt (ho.1 entry hm)

theorem ext_get? {entries other : Entries} (he : OrderedEntries entries)
    (ho : OrderedEntries other) (h : ∀ name, entries.get? name = other.get? name) :
    entries = other := by
  have hfound (key : String) (hint : Hint) (rest : Entries) :
      get? ((key, hint) :: rest) key = some hint := by rw [get?_cons, if_pos rfl]
  induction entries generalizing other with
  | nil =>
    cases other with
    | nil => rfl
    | cons head rest => cases (h head.1).trans (hfound head.1 head.2 rest)
  | cons head rest ih =>
    obtain ⟨key, hint⟩ := head
    cases other with
    | nil => cases (hfound key hint rest).symm.trans (h key)
    | cons head' rest' =>
      obtain ⟨key', hint'⟩ := head'
      -- each first name is in both tables
      have hle : ¬ key < key' := not_lt_first ho (by rw [← h, hfound]; exact Option.some_ne_none _)
      have hge : ¬ key' < key := not_lt_first he (by rw [h, hfound]; exact Option.some_ne_none _)
      obtain rfl : key = key' := String.le_antisymm hge hle
      have hhint : hint = hint' :=
        Option.some.inj ((hfound key hint rest).symm.trans ((h key).trans (hfound key hint' rest')))
      have hrest : rest = rest' := by
        refine ih he.2.2 ho.2.2 fun name => ?_
        by_cases hname : name = key
        · subst hname
          rw [get?_eq_none_of_lt he.1, get?_eq_none_of_lt ho.1]
        · have := h name
          rwa [get?_cons, get?_cons, if_neg hname, if_neg hname] at this
      rw [hhint, hrest]

variable {entries other : Entries} {first name : String}

/-- Recording a path leaves other names alone. -/
theorem get?_record_other {rest : TypePath} {hint : Hint} {result : Entries}
    (h : record? (first :: rest) hint entries = some result) (hne : name ≠ first) :
    result.get? name = entries.get? name := by
  have hat : ∀ table : Entries, table.at? [name] = table.get? name := fun table => by
    simp [at?, sub?]
  rcases record_cases h [name] with ⟨-, hsame⟩ | ⟨beyond, ho, -⟩ | ⟨ha, -⟩
  · rw [← hat, ← hat, hsame]
  · exact absurd (List.cons.inj ho).1 hne
  · exact absurd (List.cons_prefix_cons.1 ha.1).1 hne

/-- What recording a path leaves under its first name depends on what was there. -/
theorem get?_record_congr (rest : TypePath) (hint : Hint)
    (h : entries.get? first = other.get? first) :
    (record? (first :: rest) hint entries).map (·.get? first) =
      (record? (first :: rest) hint other).map (·.get? first) := by
  cases rest with
  | nil =>
    simp only [record?, h]
    split
    · rfl
    · simp [get?_set]
  | cons second rest =>
    have hnested : entries.nested? first = other.nested? first := by simp only [nested?, h]
    simp only [record?, hnested, Option.bind_eq_bind]
    cases other.nested? first with
    | none => rfl
    | some nested =>
      cases hr : record? (second :: rest) hint nested with
      | none => simp [hr]
      | some grown => simp [hr, get?_set]

end Hint.Entries

namespace HintTable

/-- The entry under a name. -/
def get? (table : HintTable) (name : String) : Option Hint := table.entries.get? name

/-- **A table is known by what stands under each name.** -/
theorem ext_get? {table other : HintTable} (h : ∀ name, table.get? name = other.get? name) :
    table = other := by
  obtain ⟨entries, ordered⟩ := table
  obtain ⟨entries', ordered'⟩ := other
  have := Hint.Entries.ext_get? ordered ordered' h
  subst this
  rfl

/-- What is looked up under a name depends on the entry there. -/
theorem lookup_congr {hints other : HintTable} {name : String} (h : hints.get? name = other.get? name)
    {path : TypePath} (hp : [name] <+: path) : hints.lookup path = other.lookup path := by
  obtain ⟨rest, rfl⟩ := hp
  unfold get? at h
  simp only [lookup, List.singleton_append, Hint.Entries.lookup, h]

theorem get?_merge_of_free {table other : HintTable} {name : String} (h : table.get? name = none) :
    (table.merge other).get? name = other.get? name := by
  refine (Hint.Entries.get?_merged table.entries other.ordered name).trans ?_
  unfold get? at h ⊢
  rw [h]
  cases other.entries.get? name with
  | none => rfl
  | some hint => cases hint <;> rfl

theorem get?_merge_of_missing {table other : HintTable} {name : String} (h : other.get? name = none) :
    (table.merge other).get? name = table.get? name := by
  refine (Hint.Entries.get?_merged table.entries other.ordered name).trans ?_
  unfold get? at h
  rw [h]
  rfl

/-! ## Notes under one name -/

variable {hints records other : HintTable} {name : String} {paths : List TypePath}

theorem entries_note (hints records : HintTable) (path : TypePath) :
    (hints.note records path).entries =
      (Hint.Entries.record? path (.ofLeaf? (hints.lookup path)) records.entries).getD
        records.entries := by
  unfold note note? record?
  split <;> simp_all

/-- Notes leave a name alone that none of their paths starts with. -/
theorem get?_noteAll_other (hp : ∀ path ∈ paths, ¬ [name] <+: path) :
    (hints.noteAll records paths).get? name = records.get? name := by
  induction paths generalizing records with
  | nil => rfl
  | cons path tail ih =>
    rw [noteAll_cons, ih fun other hm => hp other (List.mem_cons_of_mem _ hm)]
    unfold get?
    rw [entries_note]
    cases path with
    | nil => rfl
    | cons first rest =>
      have hne : name ≠ first := by
        rintro rfl
        exact hp _ List.mem_cons_self (List.prefix_append [name] rest)
      cases hr : Hint.Entries.record? (first :: rest) (.ofLeaf? (hints.lookup (first :: rest)))
          records.entries with
      | none => rfl
      | some result => exact Hint.Entries.get?_record_other hr hne

/-- What notes under a name leave there depends on what was there. -/
theorem get?_noteAll_congr (hp : ∀ path ∈ paths, [name] <+: path)
    (h : records.get? name = other.get? name) :
    (hints.noteAll records paths).get? name = (hints.noteAll other paths).get? name := by
  induction paths generalizing records other with
  | nil => exact h
  | cons path tail ih =>
    rw [noteAll_cons, noteAll_cons]
    refine ih (fun other hm => hp other (List.mem_cons_of_mem _ hm)) ?_
    obtain ⟨rest, rfl⟩ := hp path List.mem_cons_self
    unfold get? at h ⊢
    have hcongr := Hint.Entries.get?_record_congr rest (.ofLeaf? (hints.lookup ([name] ++ rest))) h
    rw [entries_note, entries_note]
    revert hcongr
    simp only [List.singleton_append]
    cases Hint.Entries.record? (name :: rest) _ records.entries <;>
      cases Hint.Entries.record? (name :: rest) _ other.entries <;> simp [h]

theorem noteAll_congr (h : ∀ path ∈ paths, hints.lookup path = other.lookup path) :
    hints.noteAll records paths = other.noteAll records paths := by
  induction paths generalizing records with
  | nil => rfl
  | cons path tail ih =>
    rw [noteAll_cons, noteAll_cons, note_congr (h path List.mem_cons_self)]
    exact ih fun other hm => h other (List.mem_cons_of_mem _ hm)

end HintTable

/-! ## Runs under one name -/

namespace Source

variable {hints records : HintTable} {source : Source} {output : Output} {name : String}

theorem named_of_asked (hn : source.name? = some name) {path : TypePath} (h : path ∈ source.asked) :
    [name] <+: path := by
  have := (above_of_asked h).1
  rwa [Source.path, hn] at this

/-- **A run looks at its hints under the name of its source only.** -/
theorem run_eq_of_agree (hn : source.name? = some name) {other : HintTable}
    (hagree : other.get? name = hints.get? name) (h : source.run hints = .ok output) :
    source.run other = .ok output := by
  obtain ⟨draft, code, hd, hrun, rfl⟩ := run_eq_ok_iff.1 h
  have hlook : ∀ path ∈ source.asked, other.lookup path = hints.lookup path :=
    fun path hm => HintTable.lookup_congr hagree (named_of_asked hn hm)
  have hasked : source.asked = draft.paths := by rw [asked, hd]
  refine run_eq_ok_iff.2 ⟨draft, code, hd, ?_, ?_⟩
  · rw [← hrun]
    exact Swift.Draft.run_congr draft (HintTable.answer?_congr (hasked ▸ hlook))
  · rw [HintTable.noteAll_congr hlook]

theorem not_named_of_asked {another : String} (hne : source.name? ≠ some another)
    (hn : source.name? = some name) {path : TypePath} (h : path ∈ source.asked) :
    ¬ [another] <+: path := by
  intro hp
  obtain ⟨rest, rfl⟩ := named_of_asked hn h
  exact hne (hn.trans (congrArg some (List.cons_prefix_cons.1 hp).1.symm))

/-- **Merging the records of a run is the same as going on from there**, where nothing stands under
the name of its source yet. -/
theorem merge_eq_noteAll (hn : source.name? = some name) (h : source.run hints = .ok output)
    (hfree : records.get? name = none) :
    records.merge output.records = hints.noteAll records source.asked := by
  refine HintTable.ext_get? fun another => ?_
  by_cases hname : another = name
  · subst hname
    rw [HintTable.get?_merge_of_free hfree, records_of_run h]
    exact HintTable.get?_noteAll_congr (fun path => named_of_asked hn) hfree.symm
  · have hother : ∀ path ∈ source.asked, ¬ [another] <+: path := fun path =>
      not_named_of_asked (fun hn' => hname (Option.some.inj (hn'.symm.trans hn))) hn
    have hmissing : output.records.get? another = none := by
      rw [records_of_run h, HintTable.get?_noteAll_other hother]
      rfl
    rw [HintTable.get?_merge_of_missing hmissing, HintTable.get?_noteAll_other hother]

/-- A run that starts from given records. -/
def runFrom (hints records : HintTable) (source : Source) : Except RunError Output :=
  match Node.decodeDiagnosed source.ast with
  | .error error => .error (.decode error)
  | .ok node =>
    match node.generate source.path hints records with
    | (.error error, _) => .error (.generate error)
    | (.ok code, records) => .ok { swift := source.assemble code, records }

/-- The text of a run does not depend on the records it starts from. -/
theorem runFrom_of_run (h : source.run hints = .ok output) (records : HintTable) :
    source.runFrom hints records = .ok ⟨output.swift, hints.noteAll records source.asked⟩ := by
  unfold run at h
  unfold runFrom asked draft
  cases hd : Node.decodeDiagnosed source.ast with
  | error e => rw [hd] at h; cases h
  | ok node =>
    simp only [hd, Node.generate_eq, Except.map] at h ⊢
    cases hrun : (node.swift source.path).run hints.answer? with
    | error e => simp [hrun] at h
    | ok code =>
      simp only [hrun, Except.ok.injEq] at h
      subst h
      rfl

end Source

/-! ## Batches -/

/-- Runs on one set of records, one source after the other. -/
def runThrough (hints : HintTable) : HintTable → List Source → Except RunError HintTable
  | records, [] => .ok records
  | records, source :: rest => do
    let output ← source.runFrom hints records
    runThrough hints output.records rest

section Batches

variable {hints records : HintTable} {sources : List Source} {outputs : List Output}

theorem runEach_eq_ok_iff :
    runEach hints sources = .ok outputs ↔
      List.Forall₂ (fun source output => source.run hints = .ok output) sources outputs := by
  constructor
  · intro h
    induction sources generalizing outputs with
    | nil => cases h; exact .nil
    | cons source rest ih =>
      rw [runEach] at h
      cases hrun : source.run hints with
      | error e => rw [hrun] at h; cases h
      | ok output =>
        cases hrest : runEach hints rest with
        | error e => rw [hrun, hrest] at h; cases h
        | ok others =>
          rw [hrun, hrest] at h
          cases h
          exact .cons hrun (ih hrest)
  · intro h
    induction h with
    | nil => rfl
    | cons hrun _ ih => rw [runEach, hrun, ih]; rfl

theorem exists_runEach_iff :
    (∃ outputs, runEach hints sources = .ok outputs) ↔
      ∀ source ∈ sources, ∃ output, source.run hints = .ok output := by
  simp only [runEach_eq_ok_iff]
  induction sources with
  | nil => simp
  | cons source rest ih =>
    rw [List.forall_mem_cons, ← ih]
    simp only [List.forall₂_cons_left_iff]
    constructor
    · rintro ⟨-, output, others, hrun, hrest, rfl⟩
      exact ⟨⟨output, hrun⟩, others, hrest⟩
    · rintro ⟨⟨output, hrun⟩, others, hrest⟩
      exact ⟨_, output, others, hrun, hrest, rfl⟩

/-- **Every source has a name, and no two the same.** -/
structure DistinctNames (sources : List Source) : Prop where
  named : ∀ source ∈ sources, ∃ name, source.name? = some name
  nodup : (sources.map Source.name?).Nodup

theorem DistinctNames.perm {permuted : List Source} (h : DistinctNames sources)
    (hp : permuted.Perm sources) : DistinctNames permuted :=
  ⟨fun source hm => h.named source (hp.mem_iff.1 hm), (hp.map _).nodup_iff.2 h.nodup⟩

theorem DistinctNames.tail {source : Source} (h : DistinctNames (source :: sources)) :
    DistinctNames sources :=
  ⟨fun other hm => h.named other (List.mem_cons_of_mem _ hm), (List.nodup_cons.1 h.nodup).2⟩

theorem DistinctNames.head_ne {source other : Source} (h : DistinctNames (source :: sources))
    (hm : other ∈ sources) : source.name? ≠ other.name? := by
  intro heq
  refine (List.nodup_cons.1 h.nodup).1 ?_
  rw [heq]
  exact List.mem_map_of_mem hm

theorem DistinctNames.get?_noteAll_asked {source : Source} {name : String}
    (h : DistinctNames (source :: sources)) (hm : ∃ other ∈ sources, other.name? = some name) :
    (hints.noteAll records source.asked).get? name = records.get? name := by
  obtain ⟨own, hown⟩ := h.named source List.mem_cons_self
  obtain ⟨other, hother, hn⟩ := hm
  exact HintTable.get?_noteAll_other fun path =>
    Source.not_named_of_asked (hn ▸ h.head_ne hother) hown

/-- **The merged records are those of one run after the other.** The invariant is that nothing stands
under the names that are still to come. -/
theorem foldl_merge_eq (hd : DistinctNames sources)
    (hfree : ∀ source ∈ sources, ∀ name, source.name? = some name → records.get? name = none)
    (h : List.Forall₂ (fun source output => source.run hints = .ok output) sources outputs) :
    outputs.foldl (fun records output => records.merge output.records) records =
      hints.noteAll records (sources.flatMap Source.asked) := by
  induction h generalizing records with
  | nil => rfl
  | @cons source output sources outputs hrun _ ih =>
    obtain ⟨name, hn⟩ := hd.named source List.mem_cons_self
    have hmerge := Source.merge_eq_noteAll hn hrun (hfree source List.mem_cons_self name hn)
    rw [List.foldl_cons, hmerge, List.flatMap_cons, HintTable.noteAll_append]
    refine ih hd.tail fun other hm another ha => ?_
    rw [hd.get?_noteAll_asked ⟨other, hm, ha⟩]
    exact hfree other (List.mem_cons_of_mem _ hm) another ha

theorem runThrough_eq (h : ∀ source ∈ sources, ∃ output, source.run hints = .ok output) :
    runThrough hints records sources =
      .ok (hints.noteAll records (sources.flatMap Source.asked)) := by
  induction sources generalizing records with
  | nil => rfl
  | cons source rest ih =>
    obtain ⟨output, hrun⟩ := h source List.mem_cons_self
    rw [runThrough, Source.runFrom_of_run hrun, List.flatMap_cons, HintTable.noteAll_append]
    exact ih fun other hm => h other (List.mem_cons_of_mem _ hm)

/-- A name of no source stays free. -/
theorem get?_noteAll_of_unnamed (hd : DistinctNames sources) {name : String}
    (h : ∀ source ∈ sources, source.name? ≠ some name) :
    (hints.noteAll records (sources.flatMap Source.asked)).get? name = records.get? name := by
  refine HintTable.get?_noteAll_other fun path hp => ?_
  obtain ⟨source, hm, hasked⟩ := List.mem_flatMap.1 hp
  obtain ⟨own, hown⟩ := hd.named source hm
  exact Source.not_named_of_asked (h source hm) hown hasked

/-- Under the name of a source stands what the source alone leaves there. -/
theorem get?_noteAll_of_named (hd : DistinctNames sources) {source : Source} (hm : source ∈ sources)
    {name : String} (hn : source.name? = some name) (hfree : records.get? name = none) :
    (hints.noteAll records (sources.flatMap Source.asked)).get? name =
      (hints.noteAll .empty source.asked).get? name := by
  induction sources generalizing records with
  | nil => cases hm
  | cons first rest ih =>
    rw [List.flatMap_cons, HintTable.noteAll_append]
    rcases List.mem_cons.1 hm with rfl | hm
    · have hlater : ∀ other ∈ rest, other.name? ≠ some name := fun other ho heq =>
        hd.head_ne ho (hn.trans heq.symm)
      rw [get?_noteAll_of_unnamed hd.tail hlater]
      exact HintTable.get?_noteAll_congr (fun path => Source.named_of_asked hn) hfree
    · refine ih hd.tail hm ?_
      rw [hd.get?_noteAll_asked ⟨source, hm, hn⟩, hfree]

theorem runs_of_runBatch {output : Output} (h : runBatch hints sources = .ok output) :
    ∃ outputs, List.Forall₂ (fun source alone => source.run hints = .ok alone) sources outputs ∧
      output = .combine outputs := by
  unfold runBatch at h
  cases heach : runEach hints sources with
  | error e => rw [heach] at h; cases h
  | ok outputs =>
    rw [heach] at h
    cases h
    exact ⟨outputs, runEach_eq_ok_iff.1 heach, rfl⟩

/-- The records of a batch, told from what its sources ask for. -/
theorem records_of_runBatch (hd : DistinctNames sources) {output : Output}
    (h : runBatch hints sources = .ok output) :
    output.records = hints.noteAll .empty (sources.flatMap Source.asked) := by
  obtain ⟨outputs, hruns, rfl⟩ := runs_of_runBatch h
  exact foldl_merge_eq hd (fun _ _ _ _ => rfl) hruns

theorem exists_runBatch_iff :
    (∃ output, runBatch hints sources = .ok output) ↔
      ∀ source ∈ sources, ∃ output, source.run hints = .ok output := by
  rw [← exists_runEach_iff]
  unfold runBatch
  cases runEach hints sources <;> simp [Except.map]

/-- **A batch is its single runs.** It succeeds exactly if each of them does. Its text is theirs, in
order. Its records hold under the name of a source what the source alone leaves there, on any hints
that say the same under that name, and nothing else; so they are the same in every order, and the same
as those of one run after the other on shared records. -/
theorem runBatch_eq_runs (hints : HintTable) (hd : DistinctNames sources) :
    ((∃ output, runBatch hints sources = .ok output) ↔
      ∀ source ∈ sources, ∃ alone, source.run hints = .ok alone) ∧
    ∀ output, runBatch hints sources = .ok output →
      (∃ outputs, List.Forall₂ (fun source alone => source.run hints = .ok alone) sources outputs ∧
        output.swift = "\n".intercalate (outputs.map Output.swift)) ∧
      (∀ name, output.records.get? name ≠ none →
        ∃ source ∈ sources, source.name? = some name) ∧
      (∀ source ∈ sources, ∀ name, source.name? = some name →
        ∀ other : HintTable, other.get? name = hints.get? name →
          ∃ alone, source.run other = .ok alone ∧
            output.records.get? name = alone.records.get? name) ∧
      (∀ permuted, permuted.Perm sources →
        ∃ again, runBatch hints permuted = .ok again ∧ again.records = output.records) ∧
      runThrough hints .empty sources = .ok output.records := by
  refine ⟨exists_runBatch_iff, fun output h => ?_⟩
  have hruns := exists_runBatch_iff.1 ⟨output, h⟩
  have hrecords := records_of_runBatch hd h
  have hentry : ∀ source ∈ sources, ∀ name, source.name? = some name →
      output.records.get? name = (hints.noteAll .empty source.asked).get? name := by
    intro source hm name hn
    rw [hrecords]
    exact get?_noteAll_of_named hd hm hn rfl
  have hmissing : ∀ name, (∀ source ∈ sources, source.name? ≠ some name) →
      output.records.get? name = none := by
    intro name hunnamed
    rw [hrecords]
    exact get?_noteAll_of_unnamed hd hunnamed
  refine ⟨?_, ?_, ?_, ?_, ?_⟩
  · obtain ⟨outputs, halone, rfl⟩ := runs_of_runBatch h
    exact ⟨outputs, halone, rfl⟩
  · intro name hne
    by_contra hnone
    exact hne (hmissing name fun source hm hn => hnone ⟨source, hm, hn⟩)
  · intro source hm name hn other hagree
    obtain ⟨alone, hrun⟩ := hruns source hm
    refine ⟨alone, Source.run_eq_of_agree hn hagree hrun, ?_⟩
    rw [hentry source hm name hn, Source.records_of_run hrun]
  · intro permuted hp
    obtain ⟨again, hagain⟩ := exists_runBatch_iff.2 fun source hm => hruns source (hp.mem_iff.1 hm)
    refine ⟨again, hagain, HintTable.ext_get? fun name => ?_⟩
    rw [records_of_runBatch (hd.perm hp) hagain]
    by_cases hname : ∃ source ∈ sources, source.name? = some name
    · obtain ⟨source, hm, hn⟩ := hname
      rw [hentry source hm name hn]
      exact get?_noteAll_of_named (hd.perm hp) (hp.mem_iff.2 hm) hn rfl
    · have hunnamed : ∀ source ∈ sources, source.name? ≠ some name :=
        fun source hm hn => hname ⟨source, hm, hn⟩
      rw [hmissing name hunnamed]
      exact get?_noteAll_of_unnamed (hd.perm hp) fun source hm => hunnamed source (hp.mem_iff.1 hm)
  · rw [runThrough_eq hruns, hrecords]

/-- Two sources with one text, of which only the second has hints, in either order. -/
theorem runBatch_eq_runs_two :
    let first : Source := ⟨some "a", Source.redeclared.ast⟩
    let second : Source := ⟨some "b", Source.redeclared.ast⟩
    let hints := HintTable.ofSource "b" Source.oneType
    DistinctNames [first, second] ∧
      ∃ output again, runBatch hints [first, second] = .ok output ∧
        runBatch hints [second, first] = .ok again ∧ again.records = output.records := by
  intro first second hints
  have hd : DistinctNames [first, second] := ⟨by simp [first, second], by decide⟩
  obtain ⟨hiff, hbatch⟩ := runBatch_eq_runs hints hd
  have hfirst : ∃ alone, first.run hints = .ok alone := ⟨_, rfl⟩
  have hsecond : ∃ alone, second.run hints = .ok alone := ⟨_, rfl⟩
  obtain ⟨output, h⟩ := hiff.2 (by simpa using ⟨hfirst, hsecond⟩)
  obtain ⟨-, -, -, hperm, -⟩ := hbatch output h
  obtain ⟨again, hagain, heq⟩ := hperm [second, first] (List.Perm.swap first second [])
  exact ⟨hd, output, again, h, hagain, heq⟩

end Batches

end SwiftScribe
