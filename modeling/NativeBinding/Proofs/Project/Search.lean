import NativeBinding.Proofs.Project.Actions

/-! # The project of a directory

The nearest manifest at or above a directory decides, and nothing above it is read. Without one the
directory is a project of its own, with the default settings.
-/

set_option autoImplicit false

namespace NativeBinding.Project

/-- Where the manifest of a directory is, if it has one. -/
def Directory.manifest (d : Directory) : String :=
  joinPath d.path manifestFile

/-- Of the directories at or above another one, the nearest that has a manifest. -/
structure Nearest (t : Tree) (working d : Directory) : Prop where
  above : d.names <+: working.names
  manifest : t.isFile working d.manifest = true
  nearest : ∀ e : Directory, d.names <+: e.names → e.names <+: working.names →
    t.isFile working e.manifest = true → e = d

/-- The project that a directory belongs to. -/
inductive ProjectOf (t : Tree) (working : Directory) : Found → Prop
  | configured {d : Directory} {text : String} {manifest : Manifest} : Nearest t working d →
      t.read working d.manifest = .ok text → Manifest.parse? text = some manifest →
      ProjectOf t working ⟨d.path, manifest.configuration⟩
  | default : (∀ e : Directory, e.names <+: working.names → t.isFile working e.manifest = false) →
      ProjectOf t working ⟨working.path, {}⟩

/-- The project of a directory is not known, as its manifest cannot be read. -/
inductive Unconfigured (t : Tree) (working : Directory) : CommandError → Prop
  | unreadable {d : Directory} {cause : FileError} : Nearest t working d →
      t.read working d.manifest = .error cause →
      Unconfigured t working (.manifestFile d.manifest cause)
  | malformed {d : Directory} {text : String} : Nearest t working d →
      t.read working d.manifest = .ok text → Manifest.parse? text = none →
      Unconfigured t working (.manifest d.manifest)

variable {t after : Tree} {working : Directory}

theorem nearest_of_split {passed above : List Directory} {d : Directory}
    (hSplit : working.ancestors = passed ++ d :: above)
    (hPassed : ∀ e ∈ passed, t.isFile working e.manifest = false)
    (hHere : t.isFile working d.manifest = true) : Nearest t working d where
  above := Directory.mem_ancestors_iff.mp (by simp [hSplit])
  manifest := hHere
  nearest e hBelow hAbove hManifest := by
    have hMem : e ∈ passed ++ d :: above := hSplit ▸ Directory.mem_ancestors_iff.mpr hAbove
    rcases List.mem_append.mp hMem with hPast | hMem
    · cases hManifest.symm.trans (hPassed e hPast)
    · rcases List.mem_cons.mp hMem with rfl | hFarther
      · rfl
      · -- Farther up the names are fewer, so that nothing there lies below the one found.
        have hOrder := hSplit ▸ working.pairwise_ancestors
        have hPrefix := (List.pairwise_cons.mp (List.pairwise_append.mp hOrder).2.1).1 e hFarther
        have hNames : e.names = d.names := hPrefix.eq_of_length_le hBelow.length_le
        cases e
        cases d
        exact congrArg Directory.mk hNames

namespace FileSystem

theorem runs_findProject {result : Except CommandError Found}
    (h : Runs ((Tree.fileSystem working).findProject working) t result after) :
    after = t ∧ Yields (ProjectOf t working) (Unconfigured t working) result := by
  have hGo (directories passed : List Directory)
      (hSplit : working.ancestors = passed ++ directories)
      (hPassed : ∀ e ∈ passed, t.isFile working e.manifest = false)
      (h : Runs (findProject.go (Tree.fileSystem working) working directories) t result after) :
      after = t ∧ Yields (ProjectOf t working) (Unconfigured t working) result := by
    induction directories generalizing passed with
    | nil =>
      obtain ⟨rfl, rfl⟩ := runs_pure_iff.mp h
      refine ⟨rfl, .default fun e he => hPassed e ?_⟩
      rw [← List.append_nil passed, ← hSplit]
      exact Directory.mem_ancestors_iff.mpr he
    | cons d above ih =>
      replace h := runs_bind_lift (t.isFile working d.manifest) h rfl
      split at h
      · rename_i hHere
        have hNearest := nearest_of_split hSplit hPassed hHere
        replace h := runs_bind_lift (t.read working d.manifest) h rfl
        split at h
        · rename_i cause hRead
          obtain ⟨rfl, rfl⟩ := runs_throw_iff.mp h
          exact ⟨rfl, .unreadable hNearest hRead⟩
        · rename_i text hRead
          split at h
          · rename_i manifest hParse
            obtain ⟨rfl, rfl⟩ := runs_pure_iff.mp h
            exact ⟨rfl, .configured hNearest hRead hParse⟩
          · rename_i hParse
            obtain ⟨rfl, rfl⟩ := runs_throw_iff.mp h
            exact ⟨rfl, .malformed hNearest hRead hParse⟩
      · rename_i hHere
        refine ih (passed ++ [d]) (by simp [hSplit]) (fun e he => ?_) h
        rcases List.mem_append.mp he with hPast | hLast
        · exact hPassed e hPast
        · rw [List.mem_singleton.mp hLast]
          simpa using hHere
  exact hGo working.ancestors [] rfl (List.forall_mem_nil _) h

theorem readOnly_findProject (working : Directory) :
    ReadOnly ((Tree.fileSystem working).findProject working) := by
  intro t result after h
  exact (runs_findProject h).1

theorem readOnly_run_inspect (given : Option String) (format : String) :
    ReadOnly ((Tree.fileSystem working).run working (.inspect given format)) := by
  refine (readOnly_findProject working).bind fun project => ?_
  refine ReadOnly.bind (fun _ _ _ h => (runs_answer_iff.mp h).2) fun path => ?_
  refine ReadOnly.bind (fun _ _ _ h => (runs_loadModel h).1) fun model => ?_
  refine ReadOnly.bind (fun _ _ _ h => (runs_make h).1) fun made => ?_
  split
  · split
    · exact .pure _
    · exact .throw _
  · exact .pure _
  · exact .throw _

theorem readOnly_run_check (given : Option String) :
    ReadOnly ((Tree.fileSystem working).run working (.check given)) := by
  refine (readOnly_findProject working).bind fun project => ?_
  refine ReadOnly.bind (fun _ _ _ h => (runs_answer_iff.mp h).2) fun path => ?_
  refine ReadOnly.bind (fun _ _ _ h => (runs_loadModel h).1) fun model => ?_
  exact ReadOnly.bind (fun _ _ _ h => (runs_make h).1) fun made => .pure _

end FileSystem

theorem ProjectOf.directory_ne_empty {project : Found} (h : ProjectOf t working project) :
    project.directory ≠ "" := by
  cases h with
  | configured => exact Directory.path_ne_empty _
  | default => exact Directory.path_ne_empty _

end NativeBinding.Project
