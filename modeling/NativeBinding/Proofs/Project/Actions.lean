import NativeBinding.Project.Command
import NativeBinding.Proofs.Project.Tree

/-! # Actions of commands on a file tree

An action answers or stops with an error, and leaves a tree. Looking for a project, reading a model
and making a module leave the tree as it was. Writing files makes a directory, removes files if it
is cleared and puts files, and it stops only where a call of the file system fails.
-/

set_option autoImplicit false

namespace NativeBinding.Project

variable {α β : Type}

/-- An action on a tree, its answer or error, and what it leaves. -/
def Runs (action : ExceptT CommandError (StateM Tree) α) (t : Tree)
    (result : Except CommandError α) (after : Tree) : Prop :=
  action.run.run t = (result, after)

def ReadOnly (action : ExceptT CommandError (StateM Tree) α) : Prop :=
  ∀ t result after, Runs action t result after → after = t

section Rules

variable {action : ExceptT CommandError (StateM Tree) α}
  {next : α → ExceptT CommandError (StateM Tree) β} {t after : Tree}

theorem exists_runs (action : ExceptT CommandError (StateM Tree) α) (t : Tree) :
    ∃ result after, Runs action t result after :=
  ⟨_, _, rfl⟩

theorem runs_of_answer {result : Except CommandError α} (h : (action.run.run t).1 = result) :
    Runs action t result (action.run.run t).2 :=
  Prod.ext h rfl

theorem runs_bind_iff {result : Except CommandError β} :
    Runs (action >>= next) t result after ↔
      (∃ e, Runs action t (.error e) after ∧ result = .error e) ∨
        ∃ a middle, Runs action t (.ok a) middle ∧ Runs (next a) middle result after := by
  obtain ⟨first, middle, hFirst⟩ := exists_runs action t
  -- The only place where the transformers are opened: a bind goes on with what is left behind.
  have hBind : (action >>= next).run.run t = ((ExceptT.bindCont next first).run middle) := by
    have hStep : (action >>= next).run.run t =
        (ExceptT.bindCont next (action.run.run t).1).run (action.run.run t).2 := rfl
    rw [hStep, hFirst]
  cases first with
  | error e =>
    constructor
    · intro h
      cases hBind.symm.trans h
      exact .inl ⟨e, hFirst, rfl⟩
    · rintro (⟨e', hError, rfl⟩ | ⟨a, middle', hOk, -⟩)
      · cases hFirst.symm.trans hError
        exact hBind
      · cases hFirst.symm.trans hOk
  | ok a =>
    constructor
    · intro h
      exact .inr ⟨a, middle, hFirst, hBind.symm.trans h⟩
    · rintro (⟨e', hError, -⟩ | ⟨a', middle', hOk, hRest⟩)
      · cases hFirst.symm.trans hError
      · cases hFirst.symm.trans hOk
        exact hBind.trans hRest

theorem runs_pure_iff {a : α} {result : Except CommandError α} :
    Runs (pure a) t result after ↔ result = .ok a ∧ after = t := by
  constructor
  · intro h
    cases h
    exact ⟨rfl, rfl⟩
  · rintro ⟨rfl, rfl⟩
    rfl

theorem runs_throw_iff {e : CommandError} {result : Except CommandError α} :
    Runs (throw e) t result after ↔ result = .error e ∧ after = t := by
  constructor
  · intro h
    cases h
    exact ⟨rfl, rfl⟩
  · rintro ⟨rfl, rfl⟩
    rfl

theorem runs_lift_iff {operation : StateM Tree α} {result : Except CommandError α} :
    Runs (liftM operation) t result after ↔
      result = .ok (operation.run t).1 ∧ after = (operation.run t).2 := by
  constructor
  · intro h
    cases h
    exact ⟨rfl, rfl⟩
  · rintro ⟨rfl, rfl⟩
    rfl

/-- A question to the tree is answered, and the action goes on in the same tree. -/
theorem runs_bind_lift {operation : StateM Tree α} {result : Except CommandError β}
    (answer : α) (h : Runs (liftM operation >>= next) t result after)
    (hAnswer : operation.run t = (answer, t)) : Runs (next answer) t result after := by
  rcases runs_bind_iff.mp h with ⟨e, hError, -⟩ | ⟨a, middle, hOk, hRest⟩
  · cases (runs_lift_iff.mp hError).1
  · obtain ⟨hSame, rfl⟩ := runs_lift_iff.mp hOk
    rw [hAnswer] at hSame hRest
    cases hSame
    exact hRest

theorem yields_runs_bind {good : β → Prop} {cause : CommandError → Prop}
    {result : Except CommandError β} (h : Runs (action >>= next) t result after)
    (hError : ∀ e, Runs action t (.error e) after → cause e)
    (hOk : ∀ a middle, Runs action t (.ok a) middle → Runs (next a) middle result after →
      Yields good cause result) : Yields good cause result := by
  rcases runs_bind_iff.mp h with ⟨e, hFirst, rfl⟩ | ⟨a, middle, hFirst, hRest⟩
  · exact hError e hFirst
  · exact hOk a middle hFirst hRest

theorem ReadOnly.bind (hFirst : ReadOnly action) (hNext : ∀ a, ReadOnly (next a)) :
    ReadOnly (action >>= next) := by
  intro t result after h
  rcases runs_bind_iff.mp h with ⟨e, hError, -⟩ | ⟨a, middle, hOk, hRest⟩
  · exact hFirst t _ after hError
  · rw [hNext a middle result after hRest, hFirst t _ middle hOk]

theorem ReadOnly.pure (a : α) : ReadOnly (Pure.pure a) := by
  intro t result after h
  exact (runs_pure_iff.mp h).2

theorem ReadOnly.throw (e : CommandError) : ReadOnly (MonadExcept.throw e : ExceptT _ _ α) := by
  intro t result after h
  exact (runs_throw_iff.mp h).2

end Rules

namespace FileSystem

variable {working : Directory} {path directory : String} {t after : Tree}

section Reading

theorem runs_loadModel {result : Except CommandError Model}
    (h : Runs ((Tree.fileSystem working).loadModel path) t result after) :
    after = t ∧ Yields
      (fun model => ∃ text, t.read working path = .ok text ∧ Model.parse text = .ok model)
      (fun e => (∃ cause, t.read working path = .error cause ∧ e = .declarationFile path cause) ∨
        ∃ text cause, t.read working path = .ok text ∧ Model.parse text = .error cause ∧
          e = .declarations path cause) result := by
  replace h := runs_bind_lift (t.read working path) h rfl
  split at h
  · rename_i cause hRead
    obtain ⟨rfl, rfl⟩ := runs_throw_iff.mp h
    exact ⟨rfl, .inl ⟨cause, hRead, rfl⟩⟩
  · rename_i text hRead
    split at h
    · rename_i model hParse
      obtain ⟨rfl, rfl⟩ := runs_pure_iff.mp h
      exact ⟨rfl, text, hRead, hParse⟩
    · rename_i cause hParse
      obtain ⟨rfl, rfl⟩ := runs_throw_iff.mp h
      exact ⟨rfl, .inr ⟨text, cause, hRead, hParse, rfl⟩⟩

theorem runs_make {activity : Activity} {model : Model} {options : GeneratorOptions}
    {result : Except CommandError Module}
    (h : Runs (make activity path model options) t result after) :
    after = t ∧ Yields (fun made => Module.generate model options = .ok made)
      (fun e => ∃ cause, Module.generate model options = .error cause ∧
        e = .module activity path cause) result := by
  unfold make at h
  split at h
  · rename_i made hMade
    obtain ⟨rfl, rfl⟩ := runs_pure_iff.mp h
    exact ⟨rfl, hMade⟩
  · rename_i cause hMade
    obtain ⟨rfl, rfl⟩ := runs_throw_iff.mp h
    exact ⟨rfl, cause, hMade, rfl⟩

theorem runs_answer_iff {answer result : Except CommandError α} :
    Runs (ExceptT.mk (pure answer)) t result after ↔ result = answer ∧ after = t := by
  constructor
  · intro h
    cases h
    exact ⟨rfl, rfl⟩
  · rintro ⟨rfl, rfl⟩
    rfl

end Reading

section Output

variable {operation : StateM Tree (Except FileError α)}

theorem runs_orThrow {result : Except CommandError α}
    (h : Runs (orThrow path operation) t result after) :
    Yields (fun a => operation.run t = (.ok a, after))
      (fun e => ∃ cause, operation.run t = (.error cause, after) ∧ e = .output path cause) result := by
  rcases runs_bind_iff.mp h with ⟨e, hError, -⟩ | ⟨answer, middle, hLift, hRest⟩
  · cases (runs_lift_iff.mp hError).1
  · obtain ⟨hAnswer, rfl⟩ := runs_lift_iff.mp hLift
    obtain rfl : answer = (operation.run t).1 := Except.ok.inj hAnswer
    split at hRest
    · rename_i value hValue
      obtain ⟨rfl, rfl⟩ := runs_pure_iff.mp hRest
      exact Prod.ext hValue rfl
    · rename_i cause hCause
      obtain ⟨rfl, rfl⟩ := runs_throw_iff.mp hRest
      exact ⟨cause, Prod.ext hCause rfl, rfl⟩

open NativeBinding.Project.Tree

variable {place : List String} {base made : Tree}

/-- Rounds that each put or remove one file: they all do, or one of them stops. -/
theorem yields_forM_row {xs : List α} {act : α → ExceptT CommandError (StateM Tree) Unit}
    {result : Except CommandError Unit} (change : α → List String × Option (List UInt8) → Prop)
    (hStep : ∀ x ∈ xs, ∀ t after, Alike base t → Runs (act x) t (.ok ()) after →
      ∃ c, change x c ∧ Changes t after c.1 c.2)
    (hBase : Alike base t) (h : Runs (xs.forM act) t result after) :
    Yields (fun _ => ∃ row, List.Forall₂ change xs row ∧ Row t row after)
      (fun e => ∃ x ∈ xs, ∃ t after, Alike base t ∧ Runs (act x) t (.error e) after) result := by
  induction xs generalizing t with
  | nil =>
    obtain ⟨rfl, rfl⟩ := runs_pure_iff.mp h
    exact ⟨[], .nil, .nil _⟩
  | cons x xs ih =>
    rw [List.forall_mem_cons] at hStep
    refine yields_runs_bind h ?_ ?_
    · exact fun e hError => ⟨x, List.mem_cons_self, t, after, hBase, hError⟩
    · rintro ⟨⟩ middle hFirst hRest
      obtain ⟨c, hChange, hChanges⟩ := hStep.1 t middle hBase hFirst
      have hYields := ih hStep.2 (hBase.trans hChanges.alike) hRest
      cases result with
      | ok =>
        obtain ⟨row, hRow, hRows⟩ := hYields
        exact ⟨c :: row, .cons hChange hRow, .cons hChanges hRows⟩
      | error e =>
        obtain ⟨x', hx', hError⟩ := hYields
        exact ⟨x', List.mem_cons_of_mem _ hx', hError⟩

/-- A call of the file system fails, on a tree that the writing of files may come to. -/
inductive Obstructed (working : Directory) (t : Tree) (directory : String) (clears : Bool)
    (files : FileSet) : FileError → Prop
  | making {after : Tree} {cause : FileError} :
      t.makeDirectories working directory = (.error cause, after) →
      Obstructed working t directory clears files cause
  | listing {made : Tree} {cause : FileError} :
      t.makeDirectories working directory = (.ok (), made) → clears = true →
      made.list working directory = .error cause → Obstructed working t directory clears files cause
  | removing {made middle : Tree} {names : List String} {name : String} {cause : FileError} :
      t.makeDirectories working directory = (.ok (), made) → clears = true →
      made.list working directory = .ok names → name ∈ names → Alike made middle →
      middle.remove working (joinPath directory name) = .error cause →
      Obstructed working t directory clears files cause
  | writing {made middle : Tree} {file : String × String} {cause : FileError} :
      t.makeDirectories working directory = (.ok (), made) → file ∈ files → Alike made middle →
      middle.write working (joinPath directory file.1) file.2 = .error cause →
      Obstructed working t directory clears files cause

/-- What writing leaves: the directory is made, its files are removed if it is cleared, and each file
is put where its name leads. -/
structure Rows (working : Directory) (t : Tree) (directory : String) (clears : Bool)
    (files : FileSet) (place : List String) (made cleared : Tree)
    (row : List (List String × Option (List UInt8))) (after : Tree) : Prop where
  making : Made t made (origin working.names directory) (names directory) place
  clearing : Row made
    ((if clears then made.filesIn place else []).map fun name => (place ++ [name], none)) cleared
  targets : List.Forall₂ (fun file c => cleared.EndsAt (place ++ [file.1]) c.1 ∧
    c.2 = some (Text.Utf8.ofString file.2)) files row
  writing : Row cleared row after

variable {cleared : Tree} {files : FileSet}

theorem yields_removals {listed : List String} {result : Except CommandError Unit}
    (hDirectory : directory ≠ "") (hNames : ∀ name ∈ listed, IsFileName name)
    (hFiles : ∀ name ∈ listed, t.IsFile (place ++ [name]))
    (hPlace : Leads t true (origin working.names directory) (names directory) place)
    (h : Runs (listed.forM fun name =>
      orThrow directory ((fileSystem working).remove (joinPath directory name))) t result after) :
    Yields (fun _ => Row t (listed.map fun name => (place ++ [name], none)) after)
      (fun e => ∃ name ∈ listed, ∃ middle cause, Alike t middle ∧
        middle.remove working (joinPath directory name) = .error cause ∧
        e = .output directory cause) result := by
  have hRow := yields_forM_row (fun name c => (place ++ [name], none) = c) ?_ (Alike.refl t) h
  · cases result with
    | ok =>
      obtain ⟨row, hRow, hRows⟩ := hRow
      rw [← List.forall₂_map_left_iff, List.forall₂_eq_eq_eq] at hRow
      subst hRow
      exact hRows
    | error e =>
      obtain ⟨name, hName, middle, last, hAlike, hError⟩ := hRow
      obtain ⟨cause, hRun, rfl⟩ := runs_orThrow hError
      exact ⟨name, hName, middle, cause, hAlike, run_changing_error hRun, rfl⟩
  · intro name hName middle last hAlike hRuns
    obtain ⟨dir, hDir, hChanges⟩ := changes_remove hDirectory (hNames name hName)
      (run_changing (runs_orThrow hRuns))
    obtain rfl := hDir.unique (hPlace.keeps hAlike.keeps)
    exact ⟨_, rfl, hChanges (hAlike.plain (.inr (hFiles name hName)))⟩

theorem yields_writes {result : Except CommandError Unit} (hDirectory : directory ≠ "")
    (hNames : ∀ name ∈ files.names, IsFileName name)
    (hPlace : Leads t true (origin working.names directory) (names directory) place)
    (h : Runs (files.forM fun file =>
      orThrow directory ((fileSystem working).writeText (joinPath directory file.1) file.2)) t
      result after) :
    Yields
      (fun _ => ∃ row, List.Forall₂ (fun file c => t.EndsAt (place ++ [file.1]) c.1 ∧
        c.2 = some (Text.Utf8.ofString file.2)) files row ∧ Row t row after)
      (fun e => ∃ file ∈ files, ∃ middle cause, Alike t middle ∧
        middle.write working (joinPath directory file.1) file.2 = .error cause ∧
        e = .output directory cause) result := by
  have hRow := yields_forM_row (fun (file : String × String) c =>
    t.EndsAt (place ++ [file.1]) c.1 ∧ c.2 = some (Text.Utf8.ofString file.2)) ?_ (Alike.refl t) h
  · cases result with
    | ok => exact hRow
    | error e =>
      obtain ⟨file, hFile, middle, last, hAlike, hError⟩ := hRow
      obtain ⟨cause, hRun, rfl⟩ := runs_orThrow hError
      exact ⟨file, hFile, middle, cause, hAlike, run_changing_error hRun, rfl⟩
  · intro file hFile middle last hAlike hRuns
    obtain ⟨dir, target, hDir, hEnds, hChanges⟩ := changes_write hDirectory
      (hNames file.1 (List.mem_map_of_mem hFile)) (run_changing (runs_orThrow hRuns))
    -- Files come and go, but the directories and links stay, so all rounds meet in one place.
    obtain rfl := hDir.unique (hPlace.keeps hAlike.keeps)
    exact ⟨(target, _), ⟨hAlike.endsAt_iff.mp hEnds, rfl⟩, hChanges⟩

theorem filesIn_of_list {listed : List String}
    (hPlace : Leads t true (origin working.names directory) (names directory) place)
    (h : t.list working directory = .ok listed) : listed = t.filesIn place := by
  obtain ⟨first, hLocate, h⟩ := bind_eq_ok_iff.mp h
  obtain rfl := (leads_of_locate hLocate).unique hPlace
  split at h
  · exact (Except.ok.inj h).symm
  · cases h
  · cases h

/-- Once the directory is made, and cleared if it is to be, only the putting of files is left. -/
theorem yields_rows {clears : Bool} {result : Except CommandError Unit}
    (hDirectory : directory ≠ "") (hNames : ∀ name ∈ files.names, IsFileName name)
    (hMake : t.makeDirectories working directory = (.ok (), made))
    (hMade : Made t made (origin working.names directory) (names directory) place)
    (hCleared : Row made
      ((if clears then made.filesIn place else []).map fun name => (place ++ [name], none)) cleared)
    (h : Runs (files.forM fun file => orThrow directory
      ((fileSystem working).writeText (joinPath directory file.1) file.2)) cleared result after) :
    Yields
      (fun _ => ∃ place made cleared row,
        Rows working t directory clears files place made cleared row after)
      (fun e => ∃ cause, Obstructed working t directory clears files cause ∧
        e = .output directory cause) result := by
  have hYields := yields_writes hDirectory hNames (hMade.leads.keeps hCleared.alike.keeps) h
  cases result with
  | ok =>
    obtain ⟨row, hFiles, hRow⟩ := hYields
    exact ⟨place, made, cleared, row, hMade, hCleared, hFiles, hRow⟩
  | error e =>
    obtain ⟨file, hFile, middle, cause, hAlike, hWrite, rfl⟩ := hYields
    exact ⟨cause, .writing hMake hFile (hCleared.alike.trans hAlike) hWrite, rfl⟩

theorem yields_writeFiles {clears : Bool} {result : Except CommandError Unit} (hProper : t.Proper)
    (hDirectory : directory ≠ "") (hNames : ∀ name ∈ files.names, IsFileName name)
    (h : Runs ((fileSystem working).writeFiles directory clears files) t result after) :
    Yields
      (fun _ => ∃ place made cleared row,
        Rows working t directory clears files place made cleared row after)
      (fun e => ∃ cause, Obstructed working t directory clears files cause ∧
        e = .output directory cause) result := by
  refine yields_runs_bind h (fun e hError => ?_) fun _ made hMake hRest => ?_
  · obtain ⟨cause, hRun, rfl⟩ := runs_orThrow hError
    exact ⟨cause, .making hRun, rfl⟩
  have hMake : t.makeDirectories working directory = (.ok (), made) := runs_orThrow hMake
  obtain ⟨place, hMade⟩ := made_of_makeDirectories hMake
  cases clears with
  | false => exact yields_rows hDirectory hNames hMake hMade (.nil made) hRest
  | true =>
    refine yields_runs_bind hRest (fun e hError => ?_) fun listed middle hList hRest => ?_
    · obtain ⟨cause, hRun, rfl⟩ := runs_orThrow hError
      exact ⟨cause, .listing hMake rfl (Prod.ext_iff.mp hRun).1, rfl⟩
    obtain ⟨hListed, rfl⟩ := Prod.ext_iff.mp (runs_orThrow hList)
    obtain rfl := filesIn_of_list hMade.leads hListed
    have hFile : ∀ name ∈ made.filesIn place, made.IsFile (place ++ [name]) :=
      fun _ => mem_filesIn_iff.mp
    have hFileName : ∀ name ∈ made.filesIn place, IsFileName name := by
      intro name hName
      obtain ⟨octets, hOctets⟩ := hFile name hName
      exact hProper.isFileName ((hMade.isFile_iff octets).mp hOctets)
    refine yields_runs_bind hRest (fun e hError => ?_) fun _ cleared hClear hRest => ?_
    · obtain ⟨name, hName, middle, cause, hAlike, hRemove, rfl⟩ :=
        yields_removals hDirectory hFileName hFile hMade.leads hError
      exact ⟨cause, .removing hMake rfl hListed hName hAlike hRemove, rfl⟩
    · have hCleared := yields_removals hDirectory hFileName hFile hMade.leads hClear
      exact yields_rows hDirectory hNames hMake hMade hCleared hRest

end Output

end FileSystem

end NativeBinding.Project
