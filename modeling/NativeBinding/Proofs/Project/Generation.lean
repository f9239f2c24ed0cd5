import NativeBinding.Proofs.Module.Files
import NativeBinding.Proofs.Project.Arguments
import NativeBinding.Proofs.Project.Delivery
import NativeBinding.Proofs.Project.Search
import NativeBinding.Proofs.Text.Numeral

/-! # What a call leaves of a file tree

Only `generate` changes a tree, and only if everything before the writing went well. It changes files
of the output directory and makes the directories on the way to it, and nothing else, unless a link
there has the name of a file to be put.
-/

set_option autoImplicit false

namespace NativeBinding

theorem Module.isFileName_of_mem {m : Module} {maxLines : Nat} {name : String}
    (h : name ∈ (m.toFiles maxLines).names) : Project.IsFileName name := by
  obtain ⟨count, hNames⟩ : ∃ count, (m.sourceFiles (max maxLines leastLinesPerFile)).map Prod.fst =
      rootFile :: (List.range count).map chunkFile := names_sourceFiles
  obtain ⟨f, hf, rfl⟩ := List.mem_map.mp h
  have hMem : f.1 ∈ surfaceFile :: rootFile :: (List.range count).map chunkFile := by
    rw [← hNames]
    exact List.mem_map_of_mem (f := Prod.fst) (List.mem_mergeSort.mp hf)
  simp only [List.mem_cons, List.mem_map] at hMem
  rcases hMem with hSurface | hRoot | ⟨i, -, hChunk⟩
  · rw [hSurface]
    decide
  · rw [hRoot]
    decide
  · rw [← hChunk]
    have hChars : (chunkFile i).toList =
        "classes_".toList ++ Text.naturalChars i ++ ".rs".toList := by
      simp [chunkFile, chunkName, Text.natural]
    have hOther {name : String} (hFirst : name.toList.head? ≠ some 'c') : chunkFile i ≠ name :=
      chunkFile_ne hFirst
    refine ⟨hOther (by decide), hOther (by decide), hOther (by decide), ?_⟩
    rw [hChars]
    simp only [List.mem_append, not_or]
    refine ⟨⟨by decide, ?_⟩, by decide⟩
    intro hSlash
    obtain ⟨d, hd, hChar⟩ := List.mem_map.mp hSlash
    have hDigit := Text.isAsciiDigit_digitChar (Text.lt_ten_of_mem_decimalDigits hd)
    rw [hChar] at hDigit
    exact absurd hDigit (by decide)

theorem Module.nodup_names_toFiles (m : Module) (maxLines : Nat) :
    (m.toFiles maxLines).names.Nodup :=
  ((List.mergeSort_perm _ _).map Prod.fst).nodup_iff.mpr fileNames_nodup

namespace Project

open NativeBinding.Project.Tree

/-- The declaration file of a project: the one that is given, or the one that it states. -/
inductive Declared (project : Found) : Option String → String → Prop
  | given (path : String) : Declared project (some path) path
  | stated {path : String} : project.configuration.declarations = some path →
      Declared project none (joinPath project.directory path)

/-- The output directory: the one that is given, or one under the project directory. -/
def Found.destination (project : Found) (changed : Overrides) : String :=
  match changed.output with
  | some directory => directory
  | none => joinPath project.directory
      (project.configuration.outputDirectory.getD defaultOutputDirectory)

/-- What `generate` stops at before it writes. -/
inductive Stops (working : Directory) (t : Tree) (given : Option String) (changed : Overrides) :
    CommandError → Prop
  | project {e : CommandError} : Unconfigured t working e → Stops working t given changed e
  | undeclared {project : Found} : ProjectOf t working project → given = none →
      project.configuration.declarations = none → Stops working t given changed .noDeclarations
  | unreadable {project : Found} {path : String} {cause : FileError} :
      ProjectOf t working project → Declared project given path →
      t.read working path = .error cause →
      Stops working t given changed (.declarationFile path cause)
  | malformed {project : Found} {path text : String} {cause : DeclError} :
      ProjectOf t working project → Declared project given path →
      t.read working path = .ok text → Model.parse text = .error cause →
      Stops working t given changed (.declarations path cause)
  | ungenerated {project : Found} {path text : String} {model : Model} {cause : GenError} :
      ProjectOf t working project → Declared project given path →
      t.read working path = .ok text → Model.parse text = .ok model →
      Module.generate model (changed.apply project.configuration.options) = .error cause →
      Stops working t given changed (.module .generating path cause)

/-- What `generate` makes of a tree before it writes. -/
structure Prepared (working : Directory) (t : Tree) (given : Option String) (changed : Overrides)
    (project : Found) (files : FileSet) : Prop where
  found : ProjectOf t working project
  made : ∃ path text model m, Declared project given path ∧
    t.read working path = .ok text ∧ Model.parse text = .ok model ∧
    Module.generate model (changed.apply project.configuration.options) = .ok m ∧
    files = m.toFiles (changed.apply project.configuration.options).linesPerFile

section Calls

variable {working : Directory} {before after : Tree} {given : Option String} {changed : Overrides}

theorem declared_of_declarations {project : Found} {path : String}
    (h : project.declarations given = .ok path) : Declared project given path := by
  unfold Found.declarations at h
  split at h
  · cases h
    exact .given path
  · rename_i stated hStated
    cases h
    exact .stated hStated
  · cases h

theorem undeclared_of_declarations {project : Found} {e : CommandError}
    (h : project.declarations given = .error e) :
    given = none ∧ project.configuration.declarations = none ∧ e = .noDeclarations := by
  unfold Found.declarations at h
  split at h
  · cases h
  · cases h
  · rename_i hStated
    cases h
    exact ⟨rfl, hStated, rfl⟩

/-- `generate` stops before it writes and leaves the tree, or it has come to the writing. -/
theorem runs_generate_cases {result : Except CommandError String}
    (h : Runs ((fileSystem working).run working (.generate given changed)) before result after) :
    (∃ e, Stops working before given changed e ∧ result = .error e ∧ after = before) ∨
    ∃ project files written, Prepared working before given changed project files ∧
      Runs ((fileSystem working).writeFiles (project.destination changed)
        (project.configuration.clearsOutput && !changed.noClearOutput) files) before written after ∧
      result = written.map fun _ => files.listing := by
  obtain ⟨e, hFound, rfl⟩ | ⟨project, middle, hFound, hAfterFound⟩ := runs_bind_iff.mp h
  · obtain ⟨rfl, hUnconfigured⟩ := FileSystem.runs_findProject hFound
    exact .inl ⟨e, .project hUnconfigured, rfl, rfl⟩
  obtain ⟨rfl, hProject⟩ := FileSystem.runs_findProject hFound
  obtain ⟨e, hPath, rfl⟩ | ⟨path, middle, hPath, hAfterPath⟩ := runs_bind_iff.mp hAfterFound
  · obtain ⟨hError, rfl⟩ := FileSystem.runs_answer_iff.mp hPath
    obtain ⟨rfl, hStated, rfl⟩ := undeclared_of_declarations hError.symm
    exact .inl ⟨_, .undeclared hProject rfl hStated, rfl, rfl⟩
  obtain ⟨hAnswer, rfl⟩ := FileSystem.runs_answer_iff.mp hPath
  have hDeclared := declared_of_declarations hAnswer.symm
  obtain ⟨e, hModel, rfl⟩ | ⟨model, middle, hModel, hAfterModel⟩ := runs_bind_iff.mp hAfterPath
  · obtain ⟨rfl, ⟨cause, hRead, rfl⟩ | ⟨text, cause, hRead, hParse, rfl⟩⟩ :=
      FileSystem.runs_loadModel hModel
    · exact .inl ⟨_, .unreadable hProject hDeclared hRead, rfl, rfl⟩
    · exact .inl ⟨_, .malformed hProject hDeclared hRead hParse, rfl, rfl⟩
  obtain ⟨rfl, text, hRead, hParse⟩ := FileSystem.runs_loadModel hModel
  obtain ⟨e, hMake, rfl⟩ | ⟨m, middle, hMake, hAfterMake⟩ := runs_bind_iff.mp hAfterModel
  · obtain ⟨rfl, cause, hGenerate, rfl⟩ := FileSystem.runs_make hMake
    exact .inl ⟨_, .ungenerated hProject hDeclared hRead hParse hGenerate, rfl, rfl⟩
  obtain ⟨rfl, hGenerate⟩ := FileSystem.runs_make hMake
  refine .inr ⟨project, m.toFiles (changed.apply project.configuration.options).linesPerFile, ?_⟩
  have hPrepared : Prepared working middle given changed project
      (m.toFiles (changed.apply project.configuration.options).linesPerFile) :=
    ⟨hProject, path, text, model, m, hDeclared, hRead, hParse, hGenerate, rfl⟩
  obtain ⟨e, hError, rfl⟩ | ⟨⟨⟩, last, hOk, hListing⟩ := runs_bind_iff.mp hAfterMake
  · exact ⟨.error e, hPrepared, hError, rfl⟩
  · obtain ⟨rfl, rfl⟩ := runs_pure_iff.mp hListing
    exact ⟨.ok (), hPrepared, hOk, rfl⟩

/-- `generate` comes to its end where every step of it does. -/
theorem runs_generate {project : Found} {path : String} {model : Model} {m : Module}
    (hFound : Runs ((fileSystem working).findProject working) before (.ok project) before)
    (hPath : project.declarations given = .ok path)
    (hModel : Runs ((fileSystem working).loadModel path) before (.ok model) before)
    (hMake : Module.generate model (changed.apply project.configuration.options) = .ok m)
    (hWrite : Runs ((fileSystem working).writeFiles (project.destination changed)
      (project.configuration.clearsOutput && !changed.noClearOutput)
      (m.toFiles (changed.apply project.configuration.options).linesPerFile)) before (.ok ()) after) :
    Runs ((fileSystem working).run working (.generate given changed)) before
      (.ok (m.toFiles (changed.apply project.configuration.options).linesPerFile).listing) after := by
  have hMade : Runs (FileSystem.make .generating path model
      (changed.apply project.configuration.options)) before (.ok m) before := by
    unfold FileSystem.make
    rw [hMake]
    exact runs_pure_iff.mpr ⟨rfl, rfl⟩
  refine runs_bind_iff.mpr (.inr ⟨project, before, hFound, ?_⟩)
  refine runs_bind_iff.mpr (.inr ⟨path, before, FileSystem.runs_answer_iff.mpr ⟨hPath.symm, rfl⟩, ?_⟩)
  refine runs_bind_iff.mpr (.inr ⟨model, before, hModel, ?_⟩)
  refine runs_bind_iff.mpr (.inr ⟨m, before, hMade, ?_⟩)
  exact runs_bind_iff.mpr (.inr ⟨(), after, hWrite, runs_pure_iff.mpr ⟨rfl, rfl⟩⟩)

/-- What a call that generates files leaves of a tree: the files in the output directory. -/
def Generated (working : Directory) (before : Tree) (changed : Overrides) (project : Found)
    (files : FileSet) (after : Tree) : Prop :=
  let start := origin working.names (project.destination changed)
  let found := names (project.destination changed)
  let clears := project.configuration.clearsOutput && !changed.noClearOutput
  ∃ place, Leads after true start found place ∧
    Written before after place (OnWay after start found) clears files ∧
    (Unlinked before place files →
      Delivered before after place (OnWay after start found) clears files)

/-- What a call may leave of a tree; nothing is said of what is left where a call of the file system
fails while files are written. -/
def Leaves (working : Directory) (before : Tree) (invocation : Option Invocation)
    (outcome : Outcome) (after : Tree) : Prop :=
  match invocation with
  | some (.run (.generate given changed)) =>
    (∃ e, Stops working before given changed e ∧ outcome = .failure e ∧ after = before) ∨
    ∃ project files, Prepared working before given changed project files ∧
      ((∃ cause, FileSystem.Obstructed working before (project.destination changed)
          (project.configuration.clearsOutput && !changed.noClearOutput) files cause ∧
          outcome = .failure (.output (project.destination changed) cause)) ∨
        outcome = { output := files.listing } ∧
          Generated working before changed project files after)
  | _ => after = before

theorem destination_ne_empty {project : Found} (hProject : ProjectOf before working project)
    (hOutput : changed.output ≠ some "") : project.destination changed ≠ "" := by
  unfold Found.destination
  split
  · rename_i directory hDirectory
    rw [hDirectory] at hOutput
    exact fun hEmpty => hOutput (congrArg some hEmpty)
  · exact joinPath_ne_empty hProject.directory_ne_empty

theorem generated_of_rows {project : Found} {files : FileSet} {place : List String}
    {made cleared : Tree} {row : List (List String × Option (List UInt8))}
    (hPrepared : Prepared working before given changed project files)
    (h : FileSystem.Rows working before (project.destination changed)
      (project.configuration.clearsOutput && !changed.noClearOutput) files place made cleared row
      after) : Generated working before changed project files after := by
  have hWritten := written_of_rows h
  have hLeads := h.making.leads.keeps (h.clearing.alike.trans h.writing.alike).keeps
  obtain ⟨path, text, model, m, -, -, -, -, rfl⟩ := hPrepared.made
  exact ⟨place, hLeads, hWritten, fun hUnlinked =>
    hWritten.delivered hUnlinked (Module.nodup_names_toFiles m _)⟩

theorem run_call {command : Command} {arguments : List String}
    {result : Except CommandError String}
    (hArguments : Invocation.ofArguments? arguments = some (.run command))
    (h : Runs ((fileSystem working).run working command) before result after) :
    ((fileSystem working).call working arguments).run before =
      (.ofResult result, after) := by
  have hAnswer : ((fileSystem working).run working command).run before = (result, after) := h
  rw [FileSystem.call, hArguments]
  dsimp only
  rw [StateT.run_map, StateT.run, hAnswer]
  rfl

theorem leaves_of_runs_generate {result : Except CommandError String} (hProper : before.Proper)
    (hOutput : changed.output ≠ some "")
    (h : Runs ((fileSystem working).run working (.generate given changed)) before result after) :
    Leaves working before (some (.run (.generate given changed))) (.ofResult result) after := by
  obtain ⟨e, hStops, rfl, rfl⟩ | ⟨project, files, written, hPrepared, hWrite, rfl⟩ :=
    runs_generate_cases h
  · exact .inl ⟨e, hStops, rfl, rfl⟩
  · refine .inr ⟨project, files, hPrepared, ?_⟩
    have hNames : ∀ name ∈ files.names, IsFileName name := by
      obtain ⟨path, text, model, m, -, -, -, -, rfl⟩ := hPrepared.made
      exact fun name => Module.isFileName_of_mem
    have hYields := FileSystem.yields_writeFiles hProper
      (destination_ne_empty hPrepared.found hOutput) hNames hWrite
    cases written with
    | error e =>
      obtain ⟨cause, hObstructed, rfl⟩ := hYields
      exact .inl ⟨cause, hObstructed, rfl⟩
    | ok =>
      obtain ⟨place, made, cleared, row, hRows⟩ := hYields
      exact .inr ⟨rfl, generated_of_rows hPrepared hRows⟩

/-- Every call comes to an end, and changes a tree only as it may. -/
theorem call_leaves (hProper : before.Proper) (arguments : List String) :
    ∃ outcome after,
      ((fileSystem working).call working arguments).run before = (outcome, after) ∧
        Leaves working before (Invocation.ofArguments? arguments) outcome after := by
  cases hArguments : Invocation.ofArguments? arguments with
  | none =>
    refine ⟨{ exit := 2 }, before, ?_, rfl⟩
    rw [FileSystem.call, hArguments]
    rfl
  | some invocation =>
    cases invocation with
    | print text =>
      refine ⟨{ output := text }, before, ?_, rfl⟩
      rw [FileSystem.call, hArguments]
      rfl
    | run command =>
      obtain ⟨result, after, hRuns⟩ :=
        exists_runs ((fileSystem working).run working command) before
      refine ⟨_, after, run_call hArguments hRuns, ?_⟩
      cases command with
      | inspect given format => exact FileSystem.readOnly_run_inspect _ _ _ _ _ hRuns
      | check given => exact FileSystem.readOnly_run_check _ _ _ _ hRuns
      | generate given changed =>
        exact leaves_of_runs_generate hProper (output_ne_empty hArguments) hRuns

end Calls

section Sample

def sampleWorking : Directory := ⟨["desk", "src"]⟩

/-- A project with a stale file, a directory and a link in its output directory. -/
def sampleTree : Tree :=
  let files := Tree.ofFiles
    [("desk/spibind.toml", "[generator]\ndeclarations = \"desk.toml\"\noutput_dir = \"out\"\n"),
     ("desk/desk.toml", "[library]\nname = \"desk\"\n"),
     ("desk/out/classes_7.rs", "old"),
     ("desk/out/keep/notes.txt", "kept")]
  (files.ensureAll sampleWorking.names).set ["desk", "out", "latest"] (.link "keep/notes.txt")

def sampleProject : Found where
  directory := "/desk"
  configuration := { declarations := some "desk.toml", outputDirectory := some "out" }

def sampleModel : Model where
  library := { name := "desk" }

def sampleModule : Module where
  name := "desk"
  library := { name := "desk" }
  modelFingerprint := sampleModel.fingerprint
  records := []
  classes := []
  constants := []

def sampleFiles : FileSet :=
  [("module.rs", ((sampleModule.sourceFiles 500).headD ("", "")).2),
   ("surface.json", sampleModule.surface)]

theorem toFiles_sampleModule : sampleModule.toFiles 500 = sampleFiles := by
  obtain ⟨text, hText⟩ : ∃ text, sampleModule.sourceFiles (max 500 leastLinesPerFile) =
      [("module.rs", text)] := by
    unfold Module.sourceFiles
    dsimp only
    split
    · exact ⟨_, rfl⟩
    · exact ⟨_, rfl⟩
  have hWhole : sampleModule.sourceFiles 500 = [("module.rs", text)] := hText
  have hHalves : List.splitAt 1 [("surface.json", sampleModule.surface), ("module.rs", text)] =
      ([("surface.json", sampleModule.surface)], [("module.rs", text)]) := rfl
  have hOrder : ¬ (!decide ("module.rs" < "surface.json")) = true := by decide
  rw [Module.toFiles, hText, sampleFiles, hWhole, FileSet.ofList, Module.surfaceFile]
  simp only [List.mergeSort, List.MergeSort.Internal.splitInTwo, List.length_cons, List.length_nil,
    Nat.reduceAdd, Nat.reduceDiv, hHalves]
  rw [List.cons_merge_cons, if_neg hOrder, List.merge_right]
  rfl

theorem runs_writeFiles_sample : ∃ after,
    Runs ((fileSystem sampleWorking).writeFiles (sampleProject.destination {}) true sampleFiles)
        sampleTree (.ok ()) after ∧
      after.filesIn ["desk", "out"] = ["surface.json", "module.rs"] ∧
      after.get? ["desk", "out", "keep"] = some .directory ∧
      after.get? ["desk", "out", "latest"] = some (.link "keep/notes.txt") := by
  have hFirst : (((fileSystem sampleWorking).writeFiles (sampleProject.destination {}) true
      sampleFiles).run.run sampleTree).1 = .ok () := by decide +kernel
  exact ⟨_, runs_of_answer hFirst, by decide +kernel, by decide +kernel, by decide +kernel⟩

/-- The sample is generated from every tree in which it is found. -/
theorem run_call_sample {before after : Tree} {project : Found}
    (hFound : Runs ((fileSystem sampleWorking).findProject sampleWorking) before (.ok project) before)
    (hPath : project.declarations none = .ok "/desk/desk.toml")
    (hModel : Runs ((fileSystem sampleWorking).loadModel "/desk/desk.toml") before
      (.ok sampleModel) before)
    (hOptions : ({} : Overrides).apply project.configuration.options = {})
    (hWrite : Runs ((fileSystem sampleWorking).writeFiles (project.destination {})
      (project.configuration.clearsOutput && !({} : Overrides).noClearOutput) sampleFiles) before
      (.ok ()) after) :
    ((fileSystem sampleWorking).call sampleWorking ["generate"]).run before =
      ({ output := sampleFiles.listing }, after) := by
  have hArguments : Invocation.ofArguments? ["generate"] = some (.run (.generate none {})) := by
    decide +kernel
  have hMake : Module.generate sampleModel
      (({} : Overrides).apply project.configuration.options) = .ok sampleModule := by
    rw [hOptions]
    decide +kernel
  have hFiles : sampleModule.toFiles
      (({} : Overrides).apply project.configuration.options).linesPerFile = sampleFiles := by
    rw [hOptions]
    exact toFiles_sampleModule
  have hRun : Runs ((fileSystem sampleWorking).run sampleWorking (.generate none {})) before
      (.ok sampleFiles.listing) after := by
    rw [← hFiles] at hWrite ⊢
    exact runs_generate hFound hPath hModel hMake hWrite
  exact run_call hArguments hRun

theorem call_leaves_sample : sampleTree.Proper ∧
    ∃ outcome after,
      ((fileSystem sampleWorking).call sampleWorking ["generate"]).run sampleTree =
        (outcome, after) ∧
      outcome = { output := sampleFiles.listing } ∧
      after.filesIn ["desk", "out"] = ["surface.json", "module.rs"] ∧
      after.get? ["desk", "out", "keep"] = some .directory ∧
      after.get? ["desk", "out", "latest"] = some (.link "keep/notes.txt") ∧
      Leaves sampleWorking sampleTree (some (.run (.generate none {}))) outcome after := by
  have hProper : sampleTree.Proper := by decide +kernel
  have hArguments : Invocation.ofArguments? ["generate"] = some (.run (.generate none {})) := by
    decide +kernel
  obtain ⟨outcome, after, hCall, hLeaves⟩ :=
    @call_leaves sampleWorking sampleTree hProper ["generate"]
  obtain ⟨last, hWrite, hFiles, hKept, hLink⟩ := runs_writeFiles_sample
  have hFound : Runs ((fileSystem sampleWorking).findProject sampleWorking) sampleTree
      (.ok sampleProject) sampleTree := by
    change @Eq (Except CommandError Found × Tree) _ _
    decide +kernel
  have hModel : Runs ((fileSystem sampleWorking).loadModel "/desk/desk.toml") sampleTree
      (.ok sampleModel) sampleTree := by
    change @Eq (Except CommandError Model × Tree) _ _
    decide +kernel
  have hRun := run_call_sample hFound (by decide +kernel) hModel (by decide +kernel) hWrite
  obtain ⟨hOutcome, hAfter⟩ := Prod.ext_iff.mp (hCall.symm.trans hRun)
  dsimp only at hOutcome hAfter
  subst hAfter
  rw [hArguments] at hLeaves
  exact ⟨hProper, outcome, after, hCall, hOutcome, hFiles, hKept, hLink, hLeaves⟩

/-- A project whose output directory is beside it and has a link that leads out of that directory. -/
def linkedTree : Tree :=
  let files := Tree.ofFiles
    [("desk/spibind.toml",
      "[generator]\ndeclarations = \"desk.toml\"\noutput_dir = \"../shared\"\n"),
     ("desk/desk.toml", "[library]\nname = \"desk\"\n"),
     ("shared/classes_7.rs", "old")]
  (files.ensureAll sampleWorking.names).set ["shared", "surface.json"] (.link "../desk/latest.json")

def linkedProject : Found where
  directory := "/desk"
  configuration := { declarations := some "desk.toml", outputDirectory := some "../shared" }

/-- The output directory need not be under the project directory, and a file that has the name of a
link there is put elsewhere. -/
theorem call_changes_outside : linkedTree.Proper ∧
    ∃ after,
      ((fileSystem sampleWorking).call sampleWorking ["generate"]).run linkedTree =
        ({ output := sampleFiles.listing }, after) ∧
      "latest.json" ∉ linkedTree.filesIn ["desk"] ∧ "latest.json" ∈ after.filesIn ["desk"] ∧
      "surface.json" ∈ sampleFiles.names ∧ after.filesIn ["shared"] = ["module.rs"] ∧
      after.get? ["desk", "shared"] = none := by
  have hFound : Runs ((fileSystem sampleWorking).findProject sampleWorking) linkedTree
      (.ok linkedProject) linkedTree := by
    change @Eq (Except CommandError Found × Tree) _ _
    decide +kernel
  have hModel : Runs ((fileSystem sampleWorking).loadModel "/desk/desk.toml") linkedTree
      (.ok sampleModel) linkedTree := by
    change @Eq (Except CommandError Model × Tree) _ _
    decide +kernel
  have hFirst : (((fileSystem sampleWorking).writeFiles (linkedProject.destination {}) true
      sampleFiles).run.run linkedTree).1 = .ok () := by decide +kernel
  have hRun := run_call_sample hFound (by decide +kernel) hModel (by decide +kernel)
    (runs_of_answer hFirst)
  exact ⟨by decide +kernel, _, hRun, by decide +kernel, by decide +kernel, by decide,
    by decide +kernel, by decide +kernel⟩

end Sample

end Project

end NativeBinding
