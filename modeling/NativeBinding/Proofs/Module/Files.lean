import Mathlib.Data.List.Nodup
import NativeBinding.Module.Files

/-! # Files of a module

The files of a module have different names, each definition is in one of them, and what is written
under a name is found under it.
-/

set_option autoImplicit false

namespace NativeBinding

theorem Text.natural_injective : Function.Injective Text.natural := by
  intro i j h
  have hChars : Text.naturalChars i = Text.naturalChars j := by
    simpa [Text.natural] using congrArg String.toList h
  rw [← Text.digitsValue_naturalChars i, hChars, Text.digitsValue_naturalChars]

theorem FileSet.text?_ofList {files : List (String × String)}
    (hNames : (files.map Prod.fst).Nodup) {name text : String} (h : (name, text) ∈ files) :
    (FileSet.ofList files).text? name = some text := by
  have hMem : (name, text) ∈ FileSet.ofList files := List.mem_mergeSort.mpr h
  cases hFind : (FileSet.ofList files).find? fun f => f.1 == name with
  | none => exact absurd (List.find?_eq_none.mp hFind _ hMem) (by simp)
  | some found =>
    have hFound := List.mem_mergeSort.mp (List.mem_of_find?_eq_some hFind)
    have hName : found.1 = name := by simpa using List.find?_some hFind
    obtain rfl : found = (name, text) := List.inj_on_of_nodup_map hNames hFound h hName
    simp [text?, hFind]

namespace Module

variable {m : Module} {limit : Nat}

theorem chunkName_injective : Function.Injective chunkName := by
  intro i j h
  refine Text.natural_injective (String.toList_injective ?_)
  simpa [chunkName] using congrArg String.toList h

def chunkFile (i : Nat) : String :=
  chunkName i ++ ".rs"

theorem chunkFile_injective : Function.Injective chunkFile := by
  intro i j h
  refine chunkName_injective (String.toList_injective ?_)
  simpa [chunkFile] using congrArg String.toList h

theorem chunkFile_ne {i : Nat} {name : String} (h : name.toList.head? ≠ some 'c') :
    chunkFile i ≠ name := by
  rintro rfl
  simp [chunkFile, chunkName] at h

theorem names_sourceFiles : ∃ count,
    (m.sourceFiles limit).map Prod.fst = rootFile :: (List.range count).map chunkFile := by
  rw [sourceFiles]
  split
  · exact ⟨0, rfl⟩
  · refine ⟨(m.chunks limit).length, ?_⟩
    rw [List.range_eq_range', ← List.zipIdx_map_snd 0 (m.chunks limit), List.map_map,
      List.map_cons, List.map_map]
    rfl

theorem fileNames_nodup :
    (((surfaceFile, m.surface) :: m.sourceFiles limit).map Prod.fst).Nodup := by
  obtain ⟨count, hNames⟩ : ∃ count,
      (m.sourceFiles limit).map Prod.fst = rootFile :: (List.range count).map chunkFile :=
    names_sourceFiles
  have hOther {name : String} (h : name.toList.head? ≠ some 'c') :
      name ∉ (List.range count).map chunkFile := by
    intro hMem
    obtain ⟨i, -, hFile⟩ := List.mem_map.mp hMem
    exact chunkFile_ne h hFile
  rw [List.map_cons, hNames, List.nodup_cons, List.mem_cons, not_or, List.nodup_cons]
  have hRoot : surfaceFile ≠ rootFile := by decide
  have hSurface : surfaceFile.toList.head? ≠ some 'c' := by decide
  refine ⟨⟨hRoot, hOther hSurface⟩, hOther (by decide), ?_⟩
  exact List.nodup_range.map chunkFile_injective

theorem text?_toFiles {maxLines : Nat} {name text : String}
    (h : (name, text) ∈
      (surfaceFile, m.surface) :: m.sourceFiles (max maxLines leastLinesPerFile)) :
    (m.toFiles maxLines).text? name = some text :=
  FileSet.text?_ofList fileNames_nodup h

theorem flatten_runsGo (definitions run : List String) (size : Nat) :
    (runs.go limit run size definitions).flatten = run.reverse ++ definitions := by
  induction definitions generalizing run size with
  | nil =>
    rw [runs.go]
    cases run <;> simp
  | cons d rest ih =>
    rw [runs.go]
    split <;> simp [ih]

theorem flatten_runs (definitions : List String) : (runs limit definitions).flatten = definitions :=
  flatten_runsGo definitions [] 0

/-- Either the root file is the whole source, or each definition is in a run that has a file. -/
theorem sourceFiles_cases (m : Module) (limit : Nat) :
    m.sourceFiles limit = [(rootFile, m.source)] ∨
    ∃ includes, (rootFile, m.renderRoot includes "") ∈ m.sourceFiles limit ∧
      ∀ d ∈ m.definitions, ∃ run i,
        (chunkFile i, m.renderChunk (Text.join "\n" run)) ∈ m.sourceFiles limit ∧ d ∈ run := by
  rw [sourceFiles]
  split
  · exact .inl rfl
  · refine .inr ⟨_, List.mem_cons_self, fun d hd => ?_⟩
    have hRuns : (runs limit m.definitions).flatten = m.definitions := flatten_runs _
    rw [← hRuns] at hd
    obtain ⟨run, hRun, hd⟩ := List.mem_flatten.mp hd
    have hChunk : Text.join "\n" run ∈ m.chunks limit := List.mem_map_of_mem hRun
    obtain ⟨i, hi, hGet⟩ := List.mem_iff_getElem.mp hChunk
    have hNumbered : (Text.join "\n" run, i) ∈ (m.chunks limit).zipIdx :=
      List.mem_zipIdx_iff_getElem?.mpr (List.getElem?_eq_some_iff.mpr ⟨hi, hGet⟩)
    exact ⟨run, i, List.mem_cons_of_mem _ (List.mem_map.mpr ⟨_, hNumbered, rfl⟩), hd⟩

end Module

end NativeBinding
