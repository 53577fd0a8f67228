import SwiftScribe.Proofs.Places

/-!
# How commands end

What a command leaves on a disk, and which exit code tells of it (`Command.runOn_outcome`). A failure
of the inputs (`Failure.OfInputs`) is met before any output but the dump of the syntax trees, so it
spares all files except that dump (`Command.Spares`). Exit code 0 says that every requested output is
there in the end (`Command.Delivers`).

* `performed`: what carrying out steps does, by induction on the steps.
* `Command.loads_cases`: what a command can find when it looks.
* `Command.stopsWith`: what lies behind a failure.
-/

namespace SwiftScribe

open Files Swift

/-! ## Kinds of failures -/

/-- The failures of finding, reading and parsing sources. -/
inductive Failure.OfSources : Failure → Prop where
  | unresolved (error : Glob.ExpandError) : OfSources (.unresolved error)
  | unreadable (path : String) (fault : Files.Fault) : OfSources (.unreadable path fault)
  | notJson (path : String) (fault : Json.Fault) : OfSources (.notJson path fault)

/-- **The failures of inputs**: bad hints, bad sources, syntax trees that cannot be decoded, and nodes
that have no Swift. -/
inductive Failure.OfInputs : Failure → Prop where
  | hints (error : HintError) : OfInputs (.run (.hints error))
  | sources {failure : Failure} : failure.OfSources → OfInputs failure
  | decode (error : Diagnosed) : OfInputs (.run (.decode error))
  | generate (error : Unsupported) : OfInputs (.run (.generate error))

/-- The failures of outputs. -/
inductive Failure.OfOutput (path : String) : Failure → Prop where
  | notCreated {dir : String} (fault : Files.Fault) :
    dir ∈ parents path → OfOutput path (.notCreated dir fault)
  | notWritten (fault : Files.Fault) : OfOutput path (.notWritten path fault)

/-- **The failures that last**: another run on the same inputs meets them again. -/
inductive Failure.Lasting : Failure → Prop where
  | hints (error : HintError) : Lasting (.run (.hints error))
  | unknownKind {diagnosed : Diagnosed} {name : String} {path : Json.Path} :
    diagnosed.error = .unknownKind name path → Lasting (.run (.decode diagnosed))
  | unsupported (error : Unsupported) : Lasting (.run (.generate error))

theorem Failure.OfOutput.not_ofInputs {path : String} {failure : Failure}
    (h : failure.OfOutput path) : ¬failure.OfInputs := by
  intro h'
  cases h <;> cases h' <;> rename_i h' <;> cases h'

theorem Failure.Lasting.ofInputs {failure : Failure} (h : failure.Lasting) : failure.OfInputs := by
  cases h with
  | hints error => exact .hints error
  | unknownKind _ => exact .decode _
  | unsupported error => exact .generate error

theorem DecodeError.isFatal_iff {error : DecodeError} :
    error.isFatal = true ↔ ∃ name path, error = .unknownKind name path := by
  cases error <;> simp [isFatal]

theorem Failure.exitCode_eq_two_iff {failure : Failure} : failure.exitCode = 2 ↔ failure.Lasting := by
  constructor
  · intro h
    cases failure with
    | run error =>
      cases error with
      | decode diagnosed =>
        have hfatal : diagnosed.error.isFatal = true := by
          by_cases hfatal : diagnosed.error.isFatal = true
          · exact hfatal
          · simp [Failure.exitCode, RunError.isFatal, hfatal] at h
        obtain ⟨name, path, herror⟩ := DecodeError.isFatal_iff.1 hfatal
        exact .unknownKind herror
      | generate error => exact .unsupported error
      | hints error => exact .hints error
    | _ => simp [Failure.exitCode] at h
  · intro h
    cases h with
    | hints error => rfl
    | unknownKind herror => simp [Failure.exitCode, RunError.isFatal, herror, DecodeError.isFatal]
    | unsupported error => rfl

theorem Failure.exitCode_eq_one_or_two (failure : Failure) :
    failure.exitCode = 1 ∨ failure.exitCode = 2 := by
  cases failure with
  | run error =>
    simp only [Failure.exitCode]
    split
    · exact .inr rfl
    · exact .inl rfl
  | _ => exact .inl rfl

/-! ## Carrying out steps -/

/-- What a step prints. -/
def Step.printed : Step → String
  | .print text => text
  | .save .. => ""

/-- **Saved texts are there**: at the end of every path is a file with its text, or with a text that
a later step saves to the same place. -/
def HoldsSaved (disk : Disk) : List Step → Prop
  | [] => True
  | .print _ :: rest => HoldsSaved disk rest
  | .save path text :: rest =>
    (∃ place last, disk.find path = .ok (place, .file (some last)) ∧
      (last = text ∨
        ∃ other, .save other last ∈ rest ∧ disk.find other = .ok (place, .file (some last)))) ∧
    HoldsSaved disk rest

/-- What carrying out steps does to a session. -/
structure Performed (steps : List Step) (before : Session) (result : Option Failure × Session) :
    Prop where
  /-- Directories are made for the steps, and places written that they lead to. -/
  became : Disk.Became
    (fun place => ∃ path text dir, .save path text ∈ steps ∧ dir ∈ parents path ∧
      result.2.disk.locateNew dir = .ok place)
    (fun place text => ∃ path, .save path text ∈ steps ∧ result.2.disk.locate path = .ok place)
    before.disk result.2.disk
  done : result.1 = none →
    result.2.printed = before.printed ++ String.join (steps.map Step.printed) ∧
      HoldsSaved result.2.disk steps
  /-- Where it fails, one of the steps leaves no file. -/
  failed (failure : Failure) : result.1 = some failure →
    ∃ path text, .save path text ∈ steps ∧ failure.OfOutput path ∧
      ∀ place text?, result.2.disk.find path ≠ .ok (place, .file text?)

/-- Saved texts that are there were not missed. -/
theorem exists_find_of_holdsSaved {disk : Disk} {steps : List Step} (h : HoldsSaved disk steps)
    {path text : String} (hm : .save path text ∈ steps) :
    ∃ place last, disk.find path = .ok (place, .file (some last)) := by
  induction steps with
  | nil => cases hm
  | cons step rest ih =>
    cases step with
    | print _ => exact ih h (by simpa using hm)
    | save path' text' =>
      rcases List.mem_cons.1 hm with heq | hm
      · cases heq
        obtain ⟨⟨place, last, hfind, _⟩, _⟩ := h
        exact ⟨place, last, hfind⟩
      · exact ih h.2 hm

/-- Carrying out steps succeeds just if what they save is there in the end. -/
theorem Performed.none_iff {steps : List Step} {before : Session}
    {result : Option Failure × Session} (h : Performed steps before result) :
    result.1 = none ↔
      result.2.printed = before.printed ++ String.join (steps.map Step.printed) ∧
        HoldsSaved result.2.disk steps := by
  refine ⟨h.done, fun ⟨_, hholds⟩ => ?_⟩
  cases hfailure : result.1 with
  | none => rfl
  | some failure =>
    obtain ⟨path, text, hm, _, hmissing⟩ := h.failed failure hfailure
    obtain ⟨place, last, hfind⟩ := exists_find_of_holdsSaved hholds hm
    exact absurd hfind (hmissing place (some last))

/-- The directories above are made first. -/
theorem perform_save (path text : String) (session : Session) :
    ((Step.save path text).perform Session.sink).run session =
      match parents path, (Session.sink.makeDirs (parents path)).run session with
      | dir :: _, (.error fault, there) => (some (.notCreated dir fault), there)
      | _, (_, there) =>
        match (Session.change (·.write path text)).run there with
        | (.ok (), last) => (none, last)
        | (.error fault, last) => (some (.notWritten path fault), last) := by
  have hwrite (there : Session) (next : Except Fault Unit → StateM Session (Option Failure))
      (hok : next (.ok ()) = pure none)
      (herror : ∀ fault, next (.error fault) = pure (some (.notWritten path fault))) :
      (Session.sink.write path text >>= next).run there =
        match (Session.change (·.write path text)).run there with
        | (.ok (), last) => (none, last)
        | (.error fault, last) => (some (.notWritten path fault), last) := by
    have hsink : Session.sink.write path text = Session.change (·.write path text) := rfl
    rw [StateT.run_bind, hsink]
    generalize (Session.change (·.write path text)).run there = written
    obtain ⟨result, last⟩ := written
    cases result with
    | ok _ => exact congrArg (StateT.run · last) hok
    | error fault => exact congrArg (StateT.run · last) (herror fault)
  rw [Step.perform, StateT.run_bind]
  generalize (Session.sink.makeDirs (parents path)).run session = made
  obtain ⟨result, there⟩ := made
  cases parents path with
  | nil => exact hwrite there _ rfl fun _ => rfl
  | cons dir above =>
    cases result with
    | ok _ => exact hwrite there _ rfl fun _ => rfl
    | error fault => rfl

theorem performed_print (text : String) (session : Session) :
    Performed [.print text] session (((Step.print text).perform Session.sink).run session) where
  became := .refl _
  done _ := ⟨congrArg (session.printed ++ ·) (by simp [Step.printed]), trivial⟩
  failed _ h := by cases h

/-- **What one saved text does to a session.** -/
theorem performed_save (path text : String) (session : Session) :
    Performed [.save path text] session (((Step.save path text).perform Session.sink).run session) := by
  have hdirs := Session.dirsMade (parents path) session
  rw [perform_save]
  generalize (Session.sink.makeDirs (parents path)).run session = made at hdirs ⊢
  split
  · rename_i dir above fault there hparents
    obtain ⟨missing, hm, hne, hmissing⟩ := hdirs.missing fault rfl
    refine ⟨hdirs.became.mono (fun place ⟨dir, hm, hdir⟩ => ⟨path, text, dir, by simp, hm, hdir⟩)
      (fun _ _ h => h.elim), nofun, fun failure hfailure => ?_⟩
    cases hfailure
    refine ⟨path, text, by simp, .notCreated fault (by simp [hparents]), fun place text? hfind => ?_⟩
    exact hmissing (Disk.isDir_of_mem_parents (Disk.find_eq_ok_iff.1 hfind).1 hm hne)
  · rename_i result there _
    have hmade : Disk.Became (fun place => ∃ dir ∈ parents path, there.disk.locateNew dir = .ok place)
      (fun _ _ => False) session.disk there.disk := hdirs.became
    have hprinted : there.printed = session.printed := hdirs.printed
    rcases Session.change_cases (·.write path text) there with
      ⟨disk, hwrite, hrun⟩ | ⟨fault, hwrite, hrun⟩
    · rw [hrun]
      obtain ⟨place, hfind, hwritten⟩ := Disk.find_of_write hwrite
      refine ⟨?_, fun _ => ⟨?_, ⟨place, text, hfind, .inl rfl⟩, trivial⟩, nofun⟩
      · refine .trans
          (hmade.mono (fun _ ⟨dir, hm, hdir⟩ => ?made) (fun _ _ h => h.elim))
          (hwritten.mono (fun _ h => h.elim) (fun other last h => ?saved))
        case made => exact ⟨path, text, dir, by simp, hm, hwritten.locateNew hdir⟩
        case saved =>
          obtain ⟨rfl, rfl⟩ := h
          exact ⟨path, by simp, (Disk.find_eq_ok_iff.1 hfind).1⟩
      · simp [Step.printed, hprinted]
    · rw [hrun]
      refine ⟨hmade.mono (fun place ⟨dir, hm, hdir⟩ => ⟨path, text, dir, by simp, hm, hdir⟩)
        (fun _ _ h => h.elim), nofun, fun failure hfailure => ?_⟩
      cases hfailure
      exact ⟨path, text, by simp, .notWritten fault, Disk.find_ne_file_of_write hwrite⟩

theorem performed_step (step : Step) (session : Session) :
    Performed [step] session ((step.perform Session.sink).run session) := by
  cases step with
  | print text => exact performed_print text session
  | save path text => exact performed_save path text session

theorem performAll_cons (step : Step) (rest : List Step) (session : Session) :
    (performAll Session.sink (step :: rest)).run session =
      match (step.perform Session.sink).run session with
      | (some failure, there) => (some failure, there)
      | (none, there) => (performAll Session.sink rest).run there := by
  rw [performAll, StateT.run_bind]
  generalize (step.perform Session.sink).run session = first
  obtain ⟨result, there⟩ := first
  cases result <;> rfl

/-- A file that was saved is there after the other steps, or what they saved in its place. -/
theorem Performed.find {steps : List Step} {before : Session}
    {result : Option Failure × Session} (h : Performed steps before result) {path text : String}
    {place : Place} (hfind : before.disk.find path = .ok (place, .file (some text))) :
    ∃ last, result.2.disk.find path = .ok (place, .file (some last)) ∧
      (last = text ∨
        ∃ other, .save other last ∈ steps ∧
          result.2.disk.find other = .ok (place, .file (some last))) := by
  obtain ⟨hlocate, hentry⟩ := Disk.find_eq_ok_iff.1 hfind
  have hlast := h.became.locate hlocate
  rcases h.became.file hentry with hkept | ⟨last, ⟨other, hm, hother⟩, hwritten⟩
  · exact ⟨text, Disk.find_eq_ok_iff.2 ⟨hlast, hkept⟩, .inl rfl⟩
  · exact ⟨last, Disk.find_eq_ok_iff.2 ⟨hlast, hwritten⟩,
      .inr ⟨other, hm, Disk.find_eq_ok_iff.2 ⟨hother, hwritten⟩⟩⟩

/-- One step, and then others. -/
theorem Performed.cons {step : Step} {rest : List Step} {before there : Session}
    {result : Option Failure × Session} (h : Performed [step] before (none, there))
    (h' : Performed rest there result) : Performed (step :: rest) before result where
  became := by
    refine .trans
      (h.became.mono (fun _ ⟨path, text, dir, hm, hdir, hmade⟩ => ?made)
        (fun _ _ ⟨path, hm, hwritten⟩ => ?saved))
      (h'.became.mono (fun _ ⟨path, text, dir, hm, hdir, hmade⟩ => ?madeRest)
        (fun _ _ ⟨path, hm, hwritten⟩ => ?savedRest))
    case made =>
      exact ⟨path, text, dir, List.mem_cons.2 (.inl (List.mem_singleton.1 hm)), hdir,
        h'.became.locateNew hmade⟩
    case saved =>
      exact ⟨path, List.mem_cons.2 (.inl (List.mem_singleton.1 hm)), h'.became.locate hwritten⟩
    case madeRest => exact ⟨path, text, dir, List.mem_cons_of_mem _ hm, hdir, hmade⟩
    case savedRest => exact ⟨path, List.mem_cons_of_mem _ hm, hwritten⟩
  done hnone := by
    obtain ⟨hprinted, hholds⟩ := h.done rfl
    obtain ⟨hprintedRest, hholdsRest⟩ := h'.done hnone
    refine ⟨?_, ?_⟩
    · rw [hprintedRest, hprinted]
      simp [String.append_assoc]
    · cases step with
      | print text => exact hholdsRest
      | save path text =>
        obtain ⟨⟨place, last, hfind, heq | ⟨_, hm, _⟩⟩, _⟩ := hholds
        · subst heq
          obtain ⟨last, hlast⟩ := h'.find hfind
          exact ⟨⟨place, last, hlast⟩, hholdsRest⟩
        · cases hm
  failed failure hfailure := by
    obtain ⟨path, text, hm, hrest⟩ := h'.failed failure hfailure
    exact ⟨path, text, List.mem_cons_of_mem _ hm, hrest⟩

/-- A step that fails is the last one. -/
theorem Performed.stop {step : Step} {failure : Failure} {before there : Session}
    (h : Performed [step] before (some failure, there)) (rest : List Step) :
    Performed (step :: rest) before (some failure, there) where
  became := h.became.mono
    (fun _ ⟨path, text, dir, hm, hrest⟩ =>
      ⟨path, text, dir, List.mem_cons.2 (.inl (List.mem_singleton.1 hm)), hrest⟩)
    (fun _ _ ⟨path, hm, hrest⟩ => ⟨path, List.mem_cons.2 (.inl (List.mem_singleton.1 hm)), hrest⟩)
  done := nofun
  failed failure' hfailure := by
    obtain ⟨path, text, hm, hrest⟩ := h.failed failure' hfailure
    exact ⟨path, text, List.mem_cons.2 (.inl (List.mem_singleton.1 hm)), hrest⟩

/-- **What carrying out steps does.** -/
theorem performed (steps : List Step) (session : Session) :
    Performed steps session ((performAll Session.sink steps).run session) := by
  induction steps generalizing session with
  | nil =>
    refine ⟨.refl _, fun _ => ⟨?_, trivial⟩, nofun⟩
    show session.printed = session.printed ++ ""
    rw [String.append_empty]
  | cons step rest ih =>
    have hstep := performed_step step session
    rw [performAll_cons]
    split
    · rename_i failure there hrun
      rw [hrun] at hstep
      exact hstep.stop rest
    · rename_i there hrun
      rw [hrun] at hstep
      exact hstep.cons (ih there)

/-! ## What a command is asked for -/

namespace Command

/-- The dump that a command is asked for. -/
def dumps (command : Command) (sources : List Source) : List Step :=
  command.ast?.toList.map fun path => .save path (dump sources).pretty

/-- **The outputs that a command is asked for**, when its run produces an output. -/
def requests (command : Command) (sources : List Source) (output : Output) : List Step :=
  match command with
  | .swift inputs typesOut? _ out? =>
    command.dumps sources ++ [.ofPath? out? output.swift] ++
      (typesOut?.or inputs.types?).toList.map fun path => .save path output.records.toJson.pretty
  | .types _ out? => [.ofPath? out? output.records.toJson.pretty]

variable {command : Command} {disk : Disk} {hints : HintTable} {sources : List Source}

theorem planOn_of_ok {output : Output} (h : runBatch hints sources = .ok output) :
    command.planOn hints sources = { steps := command.requests sources output, failure? := none } := by
  cases command <;> simp [planOn, h, requests, dumps, ast?]

theorem planOn_of_error {error : RunError} (h : runBatch hints sources = .error error) :
    command.planOn hints sources =
      { steps := command.dumps sources, failure? := some (.run error) } := by
  cases command <;> simp [planOn, h, dumps, ast?]

/-! ## Looking -/

/-- What a command finds on a disk, if it can go on with it. -/
structure Loads (command : Command) (disk : Disk) (hints : HintTable) (sources : List Source) :
    Prop where
  hints : Id.run (command.inputs.hints disk.view).run = .ok hints
  sources : Id.run (command.inputs.sources disk.view).run = .ok sources

end Command

/-- Looking further with what was found. -/
theorem run_bind_eq {ε α β : Type} (first : ExceptT ε Id α) (next : α → ExceptT ε Id β) :
    Id.run (first >>= next).run = (Id.run first.run).bind fun a => Id.run (next a).run := by
  rw [ExceptT.run_bind, Id.run_bind]
  cases Id.run first.run <;> rfl

/-- What looks around and cannot fail hands on what it saw. -/
theorem run_look_bind {m : Type → Type} [Monad m] [LawfulMonad m] {ε α β : Type} (look : m α)
    (next : α → ExceptT ε m β) :
    ((liftM look : ExceptT ε m α) >>= next).run = look >>= fun a => (next a).run :=
  ExceptT.run_bind_lift look next

theorem error_of_bind {ε α β : Type} {first : ExceptT ε Id α} {next : α → ExceptT ε Id β} {error : ε}
    (h : Id.run (first >>= next).run = .error error) :
    Id.run first.run = .error error ∨
      ∃ a, Id.run first.run = .ok a ∧ Id.run (next a).run = .error error := by
  rw [run_bind_eq] at h
  cases hfirst : Id.run first.run with
  | error error' =>
    rw [hfirst] at h
    exact .inl (congrArg Except.error (Except.error.inj h))
  | ok a =>
    rw [hfirst] at h
    exact .inr ⟨a, rfl, h⟩

theorem hints_error {inputs : Inputs} {disk : Disk} {failure : Failure}
    (h : Id.run (inputs.hints disk.view).run = .error failure) :
    ∃ error, failure = .run (.hints error) := by
  unfold Inputs.hints at h
  split at h
  · cases h
  · rename_i path _
    rw [run_look_bind, Id.run_bind] at h
    split at h
    · cases h
    · rw [run_look_bind, Id.run_bind] at h
      split at h
      · cases h
        exact ⟨_, rfl⟩
      · split at h
        · cases h
        · cases h
          exact ⟨_, rfl⟩

theorem readSource_error {disk : Disk} {path : String} {failure : Failure}
    (h : Id.run (readSource disk.view path).run = .error failure) : failure.OfSources := by
  unfold readSource at h
  rw [run_look_bind, Id.run_bind] at h
  split at h
  · cases h
    exact .unreadable _ _
  · split at h
    · cases h
      exact .notJson _ _
    · cases h

theorem mapM_readSource_error {disk : Disk} {paths : List String} {failure : Failure}
    (h : Id.run (paths.mapM (readSource disk.view)).run = .error failure) : failure.OfSources := by
  induction paths with
  | nil => cases h
  | cons path rest ih =>
    rw [List.mapM_cons] at h
    rcases error_of_bind h with hfirst | ⟨source, _, h⟩
    · exact readSource_error hfirst
    · rcases error_of_bind h with hrest | ⟨sources, _, h⟩
      · exact ih hrest
      · cases h

theorem sources_error {inputs : Inputs} {disk : Disk} {failure : Failure}
    (h : Id.run (inputs.sources disk.view).run = .error failure) : failure.OfSources := by
  unfold Inputs.sources at h
  rw [run_look_bind, Id.run_bind] at h
  split at h
  · cases h
    exact .unresolved _
  · exact mapM_readSource_error h

theorem Command.plan_eq (command : Command) (disk : Disk) :
    Id.run (command.plan disk.view) =
      match Id.run (command.inputs.hints disk.view).run with
      | .error failure => { steps := [], failure? := some failure }
      | .ok hints =>
        match Id.run (command.inputs.sources disk.view).run with
        | .error failure => { steps := [], failure? := some failure }
        | .ok sources => command.planOn hints sources := by
  unfold plan
  rw [Id.run_bind, run_bind_eq]
  cases Id.run (command.inputs.hints disk.view).run with
  | error failure => rfl
  | ok hints =>
    simp only [Except.bind]
    rw [run_bind_eq]
    cases Id.run (command.inputs.sources disk.view).run <;> rfl

namespace Command

variable {command : Command} {disk : Disk} {hints : HintTable} {sources : List Source}

/-! ## Runs on a disk -/

theorem runOn_of_hints {failure : Failure}
    (h : Id.run (command.inputs.hints disk.view).run = .error failure) :
    command.runOn disk = (some failure, ⟨disk, ""⟩) := by
  rw [runOn, plan_eq, h]
  rfl

theorem runOn_of_sources {failure : Failure}
    (hhints : Id.run (command.inputs.hints disk.view).run = .ok hints)
    (h : Id.run (command.inputs.sources disk.view).run = .error failure) :
    command.runOn disk = (some failure, ⟨disk, ""⟩) := by
  rw [runOn, plan_eq, hhints, h]
  rfl

/-- A command that can go on carries out what its run asks for. -/
theorem runOn_of_loads (h : command.Loads disk hints sources) :
    command.runOn disk =
      ((((performAll Session.sink (command.planOn hints sources).steps).run ⟨disk, ""⟩).1.or
          (command.planOn hints sources).failure?),
        ((performAll Session.sink (command.planOn hints sources).steps).run ⟨disk, ""⟩).2) := by
  rw [runOn, plan_eq, h.hints, h.sources]
  rfl

/-- Loading fails, or does not. -/
theorem loads_cases (command : Command) (disk : Disk) :
    (∃ error, Id.run (command.inputs.hints disk.view).run = .error (.run (.hints error)) ∧
        command.runOn disk = (some (.run (.hints error)), ⟨disk, ""⟩)) ∨
      (∃ hints failure, Id.run (command.inputs.hints disk.view).run = .ok hints ∧
        Id.run (command.inputs.sources disk.view).run = .error failure ∧ failure.OfSources ∧
        command.runOn disk = (some failure, ⟨disk, ""⟩)) ∨
      ∃ hints sources, command.Loads disk hints sources := by
  cases hhints : Id.run (command.inputs.hints disk.view).run with
  | error failure =>
    obtain ⟨error, rfl⟩ := hints_error hhints
    exact .inl ⟨error, rfl, runOn_of_hints hhints⟩
  | ok hints =>
    cases hsources : Id.run (command.inputs.sources disk.view).run with
    | error failure =>
      exact .inr (.inl ⟨hints, failure, rfl, rfl, sources_error hsources,
        runOn_of_sources hhints hsources⟩)
    | ok sources => exact .inr (.inr ⟨hints, sources, hhints, hsources⟩)

/-! ## What lies behind a failure -/

/-- **What lies behind a failure**: the first thing that could not be done. -/
inductive StopsWith (command : Command) (disk : Disk) (session : Session) : Failure → Prop where
  /-- The hint file is bad, and nothing has been done. -/
  | hints {error : HintError} :
    Id.run (command.inputs.hints disk.view).run = .error (.run (.hints error)) →
    session = ⟨disk, ""⟩ → StopsWith command disk session (.run (.hints error))
  /-- A source is bad, and nothing has been done. -/
  | sources {hints : HintTable} {failure : Failure} :
    Id.run (command.inputs.hints disk.view).run = .ok hints →
    Id.run (command.inputs.sources disk.view).run = .error failure → failure.OfSources →
    session = ⟨disk, ""⟩ → StopsWith command disk session failure
  /-- A syntax tree has no node or no Swift, and only the dump has been saved. -/
  | batch {hints : HintTable} {sources : List Source} {error : RunError} :
    command.Loads disk hints sources → runBatch hints sources = .error error →
    HoldsSaved session.disk (command.dumps sources) → StopsWith command disk session (.run error)
  /-- A text that was to be saved is not there. -/
  | output {hints : HintTable} {sources : List Source} {path text : String} {failure : Failure} :
    command.Loads disk hints sources → .save path text ∈ (command.planOn hints sources).steps →
    (∀ place text?, session.disk.find path ≠ .ok (place, .file text?)) → failure.OfOutput path →
    StopsWith command disk session failure

/-- A failed batch is met after the dump. -/
theorem failure_of_loads (h : command.Loads disk hints sources) {failure : Failure}
    (hfailure : (command.runOn disk).1 = some failure) :
    (∃ error, runBatch hints sources = .error error ∧ failure = .run error ∧
        Performed (command.dumps sources) ⟨disk, ""⟩ (none, (command.runOn disk).2)) ∨
      ∃ path text, .save path text ∈ (command.planOn hints sources).steps ∧
        failure.OfOutput path ∧
        ∀ place text?, (command.runOn disk).2.disk.find path ≠ .ok (place, .file text?) := by
  rw [runOn_of_loads h] at hfailure ⊢
  have hperformed := performed (command.planOn hints sources).steps ⟨disk, ""⟩
  generalize (performAll Session.sink (command.planOn hints sources).steps).run ⟨disk, ""⟩ = result
    at hfailure hperformed ⊢
  obtain ⟨found, session⟩ := result
  cases found with
  | some failure' =>
    cases hfailure
    obtain ⟨path, text, hm, houtput, hmissing⟩ := hperformed.failed failure rfl
    exact .inr ⟨path, text, hm, houtput, hmissing⟩
  | none =>
    cases hbatch : runBatch hints sources with
    | ok output =>
      rw [planOn_of_ok hbatch] at hfailure
      cases hfailure
    | error error =>
      rw [planOn_of_error hbatch] at hfailure hperformed
      cases hfailure
      exact .inl ⟨error, rfl, rfl, hperformed⟩

theorem stopsWith {failure : Failure} (h : (command.runOn disk).1 = some failure) :
    command.StopsWith disk (command.runOn disk).2 failure := by
  rcases loads_cases command disk with
    ⟨error, hhints, hrun⟩ | ⟨hints, failure', hhints, hsources, hkind, hrun⟩ | ⟨hints, sources, hloads⟩
  · rw [hrun] at h ⊢
    cases h
    exact .hints hhints rfl
  · rw [hrun] at h ⊢
    cases h
    exact .sources hhints hsources hkind rfl
  · rcases failure_of_loads hloads h with
      ⟨error, hbatch, rfl, hperformed⟩ | ⟨path, text, hm, houtput, hmissing⟩
    · exact .batch hloads hbatch (hperformed.done rfl).2
    · exact .output hloads hm hmissing houtput

/-! ## What a failure spares -/

/-- Whether a place is where the dump goes, however the path of the dump is spelled. -/
def DumpsAt (command : Command) (disk : Disk) (place : Place) : Prop :=
  ∃ path, command.ast? = some path ∧ disk.locate path = .ok place

/-- **All that a command leaves behind** is the dump and the directories above it: nothing is printed,
and no other file is changed or made, whatever path leads to it. -/
structure Spares (command : Command) (disk : Disk) (session : Session) : Prop where
  printed : session.printed = ""
  places : Disk.Became
    (fun place => ∃ path dir, command.ast? = some path ∧ dir ∈ parents path ∧
      session.disk.locateNew dir = .ok place)
    (fun place text => command.DumpsAt session.disk place ∧
      ∃ hints sources, command.Loads disk hints sources ∧ text = (dump sources).pretty)
    disk session.disk
  /-- A file is found where it was, with what it held: the hint file, and outputs of before. -/
  unchanged {path : String} {place : Place} {text? : Option String} :
    disk.find path = .ok (place, .file text?) → ¬command.DumpsAt session.disk place →
      session.disk.find path = .ok (place, .file text?)
  /-- A file that is found was there. A path may lead to it only now, through a new directory. -/
  uncreated {path : String} {place : Place} {text? : Option String} :
    session.disk.find path = .ok (place, .file text?) → ¬command.DumpsAt session.disk place →
      disk.entry? place = some (.file text?)

theorem mem_dumps_iff {path text : String} :
    Step.save path text ∈ command.dumps sources ↔
      command.ast? = some path ∧ text = (dump sources).pretty := by
  simp only [dumps, List.mem_map, Option.mem_toList, Step.save.injEq]
  constructor
  · rintro ⟨_, hpath, rfl, rfl⟩
    exact ⟨hpath, rfl⟩
  · rintro ⟨hpath, rfl⟩
    exact ⟨path, hpath, rfl, rfl⟩

theorem printed_dumps : String.join ((command.dumps sources).map Step.printed) = "" := by
  unfold dumps
  cases command.ast? <;> simp [Step.printed]

/-- What is left behind by nothing but the dump. -/
theorem spares_of_places {session : Session} (hprinted : session.printed = "")
    (hplaces : Disk.Became
      (fun place => ∃ path dir, command.ast? = some path ∧ dir ∈ parents path ∧
        session.disk.locateNew dir = .ok place)
      (fun place text => command.DumpsAt session.disk place ∧
        ∃ hints sources, command.Loads disk hints sources ∧ text = (dump sources).pretty)
      disk session.disk) : command.Spares disk session where
  printed := hprinted
  places := hplaces
  unchanged hfind hplace := by
    obtain ⟨hlocate, hentry⟩ := Disk.find_eq_ok_iff.1 hfind
    refine Disk.find_eq_ok_iff.2 ⟨hplaces.locate hlocate, ?_⟩
    rcases hplaces.file hentry with hkept | ⟨_, ⟨hdump, _⟩, _⟩
    · exact hkept
    · exact absurd hdump hplace
  uncreated hfind hplace := by
    obtain ⟨_, hentry⟩ := Disk.find_eq_ok_iff.1 hfind
    rcases hplaces.entry _ with heq | ⟨_, _, hdir⟩ | ⟨_, ⟨hdump, _⟩, _⟩
    · exact heq ▸ hentry
    · rw [hentry] at hdir
      cases hdir
    · exact absurd hdump hplace

/-- **A failure of the inputs spares the outputs.** -/
theorem spares {failure : Failure} (h : (command.runOn disk).1 = some failure)
    (hkind : failure.OfInputs) : command.Spares disk (command.runOn disk).2 := by
  rcases loads_cases command disk with
    ⟨_, _, hrun⟩ | ⟨_, _, _, _, _, hrun⟩ | ⟨hints, sources, hloads⟩
  · rw [hrun]
    exact spares_of_places rfl (.refl disk)
  · rw [hrun]
    exact spares_of_places rfl (.refl disk)
  · rcases failure_of_loads hloads h with ⟨_, _, _, hperformed⟩ | ⟨_, _, _, houtput, _⟩
    · refine spares_of_places ?_ (hperformed.became.mono ?made ?saved)
      case made =>
        rintro place ⟨path, text, dir, hm, hdir, hmade⟩
        exact ⟨path, dir, (mem_dumps_iff.1 hm).1, hdir, hmade⟩
      case saved =>
        rintro place text ⟨path, hm, hlocate⟩
        obtain ⟨hpath, htext⟩ := mem_dumps_iff.1 hm
        exact ⟨⟨path, hpath, hlocate⟩, hints, sources, hloads, htext⟩
      · simpa [printed_dumps] using (hperformed.done rfl).1
    · exact absurd hkind houtput.not_ofInputs

/-! ## Success -/

/-- **All requested outputs are there**: the inputs could be read, their run produced an output, and
of what the command was asked for, all that is to be printed is printed and all that is to be saved
is there. -/
def Delivers (command : Command) (disk : Disk) (session : Session) : Prop :=
  ∃ hints sources output, command.Loads disk hints sources ∧ runBatch hints sources = .ok output ∧
    session.printed = String.join ((command.requests sources output).map Step.printed) ∧
    HoldsSaved session.disk (command.requests sources output)

/-- What a command that succeeds on its inputs does. -/
theorem performed_of_ok (h : command.Loads disk hints sources) {output : Output}
    (hbatch : runBatch hints sources = .ok output) :
    Performed (command.requests sources output) ⟨disk, ""⟩ (command.runOn disk) := by
  rw [runOn_of_loads h, planOn_of_ok hbatch, Option.or_none]
  exact performed _ _

/-- A command succeeds just if it delivers. -/
theorem failure_eq_none_iff :
    (command.runOn disk).1 = none ↔ command.Delivers disk (command.runOn disk).2 := by
  constructor
  · intro h
    rcases loads_cases command disk with
      ⟨_, _, hrun⟩ | ⟨_, _, _, _, _, hrun⟩ | ⟨hints, sources, hloads⟩
    · simp [hrun] at h
    · simp [hrun] at h
    · cases hbatch : runBatch hints sources with
      | error error =>
        rw [runOn_of_loads hloads, planOn_of_error hbatch] at h
        simp at h
      | ok output =>
        obtain ⟨hprinted, hholds⟩ := (performed_of_ok hloads hbatch).none_iff.1 h
        exact ⟨hints, sources, output, hloads, hbatch, by simpa using hprinted, hholds⟩
  · rintro ⟨hints, sources, output, hloads, hbatch, hprinted, hholds⟩
    exact (performed_of_ok hloads hbatch).none_iff.2 ⟨by simpa using hprinted, hholds⟩

/-- **How commands end.** A failure has a cause in the inputs or the outputs, and one in the inputs
spares all files but the dump. The exit code is 2 for the failures that last, 1 for all others, and 0
just if all that was requested is there. -/
theorem runOn_outcome (command : Command) (disk : Disk) :
    (∀ failure, (command.runOn disk).1 = some failure →
      command.StopsWith disk (command.runOn disk).2 failure ∧
        (failure.OfInputs → command.Spares disk (command.runOn disk).2)) ∧
    (exitCode (command.runOn disk).1 = 2 ↔
      ∃ failure, (command.runOn disk).1 = some failure ∧ failure.Lasting) ∧
    (exitCode (command.runOn disk).1 = 1 ↔
      ∃ failure, (command.runOn disk).1 = some failure ∧ ¬failure.Lasting) ∧
    (exitCode (command.runOn disk).1 = 0 ↔ command.Delivers disk (command.runOn disk).2) := by
  refine ⟨fun failure h => ⟨stopsWith h, spares h⟩, ?_⟩
  rw [← failure_eq_none_iff]
  cases hfailure : (command.runOn disk).1 with
  | none => simp [exitCode]
  | some failure =>
    have hcode := failure.exitCode_eq_one_or_two
    simp only [exitCode, ← Failure.exitCode_eq_two_iff, Option.some.injEq, exists_eq_left',
      reduceCtorEq, iff_false]
    refine ⟨trivial, ?_, ?_⟩ <;> omega

/-- A disk with a syntax tree, a hint file and an output of before. -/
def earlierDisk : Disk where
  entries :=
    [(["tree.json"], .file (some "\x7b\"type\": \"Enigma\"\x7d")),
      (["hints.json"], .file (some "\x7b\x7d")), (["out.swift"], .file (some "let f = 1\n"))]
  workDir := []

/-- A command that writes a dump, an output and its hint file. -/
def dumping : Command :=
  .swift ⟨["tree.json"], some "hints.json"⟩ none (some "dump/trees.json") (some "out.swift")

/-- A kind of node that is not known: the code is 2, the dump is there, in a directory made for it, and
the output of before and the hint file are as they were. -/
theorem runOn_outcome_unknownKind :
    exitCode (dumping.runOn earlierDisk).1 = 2 ∧
      (dumping.runOn earlierDisk).2.disk.entry? ["dump"] = some .dir ∧
      (dumping.runOn earlierDisk).2.disk.entry? ["dump", "trees.json"] =
        some (.file (some "\x7b\n  \"tree\": \x7b\n    \"type\": \"Enigma\"\n  \x7d\n\x7d")) ∧
      (dumping.runOn earlierDisk).2.disk.find "out.swift" =
        .ok (["out.swift"], .file (some "let f = 1\n")) ∧
      (dumping.runOn earlierDisk).2.disk.find "hints.json" =
        .ok (["hints.json"], .file (some "\x7b\x7d")) := by
  have hcode : exitCode (dumping.runOn earlierDisk).1 = 2 := by decide +kernel
  have hdump : ((dumping.runOn earlierDisk).2.disk.locate "dump/trees.json").toOption =
      some ["dump", "trees.json"] := by decide +kernel
  obtain ⟨hfailed, htwo, _⟩ := runOn_outcome dumping earlierDisk
  obtain ⟨failure, hfailure, hlasting⟩ := htwo.1 hcode
  have hspares := (hfailed failure hfailure).2 hlasting.ofInputs
  have helsewhere {name : String} : ¬dumping.DumpsAt (dumping.runOn earlierDisk).2.disk [name] := by
    rintro ⟨path, hpath, hlocate⟩
    have hpath' : path = "dump/trees.json" := Option.some.inj hpath.symm
    rw [← hpath', hlocate] at hdump
    simp [Except.toOption] at hdump
  have hout : earlierDisk.find "out.swift" = .ok (["out.swift"], .file (some "let f = 1\n")) := by rfl
  have hhints : earlierDisk.find "hints.json" = .ok (["hints.json"], .file (some "\x7b\x7d")) := by
    rfl
  exact ⟨hcode, by decide +kernel, by decide +kernel, hspares.unchanged hout helsewhere,
    hspares.unchanged hhints helsewhere⟩

end Command

end SwiftScribe
