import Mathlib.Data.List.Nodup
import NativeBinding.Proofs.Project.Actions

/-! # Files delivered into a directory

What becomes of every path of a tree when files are put into one directory that may be cleared
first. Beside new directories on the way only the directory's own regular files change, unless a
file to be put has the name of a link there: then it is put where the link leads.
-/

set_option autoImplicit false

namespace NativeBinding.Project

open NativeBinding.Project.Tree

/-- What becomes of every path when files are put into one directory, which may be cleared first.
Each file is put where its name leads, through a link of that name as well. -/
structure Written (before after : Tree) (place : List String) (way : List String → Prop)
    (clears : Bool) (files : FileSet) : Prop where
  isDirectory : after.get? place = some .directory
  reached : ∀ f ∈ files, ∃ target, after.EndsAt (place ++ [f.1]) target
  put : ∀ f ∈ files, ∀ target, after.EndsAt (place ++ [f.1]) target → before.Plain target ∧
    ∃ g ∈ files, after.EndsAt (place ++ [g.1]) target ∧
      after.get? target = some (.file (Text.Utf8.ofString g.2))
  removed : clears = true → ∀ name, before.IsFile (place ++ [name]) →
    (∀ f ∈ files, ¬ after.EndsAt (place ++ [f.1]) (place ++ [name])) →
    after.get? (place ++ [name]) = none
  kept : ∀ path, (∀ f ∈ files, ¬ after.EndsAt (place ++ [f.1]) path) →
    (clears = true → ∀ name, path = place ++ [name] → ¬ before.IsFile path) →
    after.get? path = before.get? path ∨
      before.get? path = none ∧ after.get? path = some .directory ∧ way path

/-- The same where no file to be put has the name of a link: the directory holds the files, and all
that is changed beside new directories is its own regular files. -/
structure Delivered (before after : Tree) (place : List String) (way : List String → Prop)
    (clears : Bool) (files : FileSet) : Prop where
  written : ∀ f ∈ files, after.get? (place ++ [f.1]) = some (.file (Text.Utf8.ofString f.2))
  cleared : clears = true → ∀ name octets, after.get? (place ++ [name]) = some (.file octets) →
    ∃ f ∈ files, f.1 = name ∧ octets = Text.Utf8.ofString f.2
  kept : clears = false → ∀ name octets, name ∉ files.names →
    (after.get? (place ++ [name]) = some (.file octets) ↔
      before.get? (place ++ [name]) = some (.file octets))
  confined : ∀ path, after.get? path = before.get? path ∨
    before.get? path = none ∧ after.get? path = some .directory ∧ way path ∨
    ∃ name, path = place ++ [name] ∧ before.Plain path ∧ after.Plain path

/-- No file to be put has the name of a link. -/
def Unlinked (t : Tree) (place : List String) (files : FileSet) : Prop :=
  ∀ f ∈ files, ∀ target, t.get? (place ++ [f.1]) ≠ some (.link target)

section Rows

variable {working : Directory} {before made cleared after : Tree} {directory : String}
  {place : List String} {clears : Bool} {files : FileSet}
  {row : List (List String × Option (List UInt8))}

open FileSystem (Rows)

theorem exists_file_of_mem_row
    (h : Rows working before directory clears files place made cleared row after)
    {c : List String × Option (List UInt8)} (hc : c ∈ row) :
    ∃ f ∈ files, after.EndsAt (place ++ [f.1]) c.1 ∧ c.2 = some (Text.Utf8.ofString f.2) := by
  obtain ⟨f, hf, hEnds, hOctets⟩ := exists_of_mem_forall₂ h.targets hc
  exact ⟨f, hf, h.writing.alike.endsAt_iff.mpr hEnds, hOctets⟩

theorem get?_after_of_unreached
    (h : Rows working before directory clears files place made cleared row after)
    {path : List String} (hPath : ∀ f ∈ files, ¬ after.EndsAt (place ++ [f.1]) path) :
    after.get? path = cleared.get? path := by
  apply h.writing.others
  intro hMem
  obtain ⟨c, hc, rfl⟩ := List.mem_map.mp hMem
  obtain ⟨f, hf, hEnds, -⟩ := exists_file_of_mem_row h hc
  exact hPath f hf hEnds

theorem exists_row_of_mem_files
    (h : Rows working before directory clears files place made cleared row after)
    {f : String × String} (hf : f ∈ files) : ∃ c ∈ row, after.EndsAt (place ++ [f.1]) c.1 := by
  obtain ⟨c, hc, hEnds, -⟩ := exists_of_mem_forall₂ h.targets.flip hf
  exact ⟨c, hc, h.writing.alike.endsAt_iff.mpr hEnds⟩

theorem get?_cleared_of_isFile
    (h : Rows working before directory true files place made cleared row after) {name : String}
    (hFile : before.IsFile (place ++ [name])) : cleared.get? (place ++ [name]) = none := by
  obtain ⟨octets, hOctets⟩ := hFile
  have hListed : name ∈ made.filesIn place :=
    mem_filesIn_iff.mpr ⟨octets, (h.making.isFile_iff octets).mpr hOctets⟩
  obtain ⟨octets?, hMem, hChanged⟩ := h.clearing.changed
    (List.mem_map_of_mem (f := Prod.fst) (List.mem_map_of_mem hListed))
  obtain ⟨other, -, hSame⟩ := List.mem_map.mp hMem
  obtain rfl : none = octets? := (Prod.ext_iff.mp hSame).2
  exact hChanged

theorem get?_cleared_of_kept
    (h : Rows working before directory clears files place made cleared row after)
    {path : List String}
    (hKept : clears = true → ∀ name, path = place ++ [name] → ¬ before.IsFile path) :
    cleared.get? path = made.get? path := by
  apply h.clearing.others
  intro hMem
  obtain ⟨c, hc, rfl⟩ := List.mem_map.mp hMem
  obtain ⟨name, hName, rfl⟩ := List.mem_map.mp hc
  cases clears with
  | false => cases hName
  | true =>
    obtain ⟨octets, hOctets⟩ := mem_filesIn_iff.mp hName
    exact hKept rfl name rfl ⟨octets, (h.making.isFile_iff octets).mp hOctets⟩

theorem written_of_rows
    (h : Rows working before directory clears files place made cleared row after) :
    Written before after place
      (OnWay after (origin working.names directory) (names directory)) clears files where
  isDirectory :=
    (h.clearing.alike.trans h.writing.alike).keeps.directories place h.making.isDirectory
  reached f hf := by
    obtain ⟨c, -, hEnds⟩ := exists_row_of_mem_files h hf
    exact ⟨c.1, hEnds⟩
  put f hf target hEnds := by
    obtain ⟨c, hc, hEnds'⟩ := exists_row_of_mem_files h hf
    obtain rfl := hEnds.unique hEnds'
    obtain ⟨octets?, hMem, hChanged⟩ := h.writing.changed (List.mem_map_of_mem hc)
    obtain ⟨g, hg, hEndsG, rfl⟩ := exists_file_of_mem_row h hMem
    exact ⟨h.making.plain (h.clearing.alike.symm.plain (h.writing.plain hc)),
      g, hg, hEndsG, hChanged⟩
  removed := by
    rintro rfl name hFile hUnreached
    rw [get?_after_of_unreached h hUnreached, get?_cleared_of_isFile h hFile]
  kept path hUnreached hKept := by
    rw [get?_after_of_unreached h hUnreached, get?_cleared_of_kept h hKept]
    rcases h.making.others path with hSame | ⟨hNone, hMade, lead, hLead, hLeads⟩
    · exact .inl hSame
    · have hAfter := hLeads.keeps (h.clearing.alike.trans h.writing.alike).keeps
      exact .inr ⟨hNone, hMade, lead, hLead, hAfter⟩

end Rows

section Unlinked

variable {before after : Tree} {place : List String} {way : List String → Prop} {clears : Bool}
  {files : FileSet}

/-- Files come by no new links, and a link that is not put through stays what it was. -/
theorem Written.unlinked (h : Written before after place way clears files)
    (hUnlinked : Unlinked before place files) : Unlinked after place files := by
  intro f hf target hLink
  by_cases hReached : ∃ g ∈ files, after.EndsAt (place ++ [g.1]) (place ++ [f.1])
  · obtain ⟨g, hg, hEnds⟩ := hReached
    exact EndsAt.no_link hEnds target hLink
  · replace hReached : ∀ g ∈ files, ¬ after.EndsAt (place ++ [g.1]) (place ++ [f.1]) :=
      fun g hg hEnds => hReached ⟨g, hg, hEnds⟩
    have hStays := h.kept (place ++ [f.1]) hReached fun hClears name hName hFile => by
      cases hLink.symm.trans (h.removed hClears f.1 hFile hReached)
    rcases hStays with hSame | ⟨-, hMade, -⟩
    · exact hUnlinked f hf target (hSame.symm.trans hLink)
    · cases hLink.symm.trans hMade

section Plainly

variable (h : Written before after place way clears files)
  (hUnlinked : Unlinked before place files)

include h hUnlinked

theorem Written.endsAt_iff {f : String × String} (hf : f ∈ files) (target : List String) :
    after.EndsAt (place ++ [f.1]) target ↔ target = place ++ [f.1] :=
  endsAt_iff_of_no_link (h.unlinked hUnlinked f hf)

theorem Written.unreached {path : List String} (hPath : ∀ f ∈ files, path ≠ place ++ [f.1]) :
    ∀ f ∈ files, ¬ after.EndsAt (place ++ [f.1]) path :=
  fun f hf hEnds => hPath f hf ((h.endsAt_iff hUnlinked hf path).mp hEnds)

theorem Written.put_plainly (hDistinct : files.names.Nodup) {f : String × String} (hf : f ∈ files) :
    before.Plain (place ++ [f.1]) ∧
      after.get? (place ++ [f.1]) = some (.file (Text.Utf8.ofString f.2)) := by
  obtain ⟨hPlain, g, hg, hSame, hOctets⟩ := h.put f hf _ ((h.endsAt_iff hUnlinked hf _).mpr rfl)
  have hName : f.1 = g.1 := by simpa using (h.endsAt_iff hUnlinked hg _).mp hSame
  obtain rfl := List.inj_on_of_nodup_map hDistinct hf hg hName
  exact ⟨hPlain, hOctets⟩

/-- A file in the directory that was cleared is one of those put. -/
theorem Written.not_isFile (hClears : clears = true) {name : String}
    (hName : ∀ f ∈ files, place ++ [name] ≠ place ++ [f.1]) : ¬ after.IsFile (place ++ [name]) := by
  rintro ⟨octets, hFile⟩
  have hNever := h.unreached hUnlinked hName
  by_cases hBefore : before.IsFile (place ++ [name])
  · cases hFile.symm.trans (h.removed hClears name hBefore hNever)
  · rcases h.kept _ hNever fun _ _ _ => hBefore with hSame | ⟨-, hMade, -⟩
    · exact hBefore ⟨octets, hSame.symm.trans hFile⟩
    · cases hFile.symm.trans hMade

theorem Written.confined (hDistinct : files.names.Nodup) (path : List String) :
    after.get? path = before.get? path ∨
      before.get? path = none ∧ after.get? path = some .directory ∧ way path ∨
      ∃ name, path = place ++ [name] ∧ before.Plain path ∧ after.Plain path := by
  by_cases hReached : ∃ f ∈ files, path = place ++ [f.1]
  · obtain ⟨f, hf, rfl⟩ := hReached
    obtain ⟨hPlain, hOctets⟩ := h.put_plainly hUnlinked hDistinct hf
    exact .inr (.inr ⟨f.1, rfl, hPlain, .inr ⟨_, hOctets⟩⟩)
  · have hNever := h.unreached hUnlinked fun f hf hSame => hReached ⟨f, hf, hSame⟩
    by_cases hCleared : clears = true ∧ ∃ name, path = place ++ [name] ∧ before.IsFile path
    · obtain ⟨hClears, name, rfl, hFile⟩ := hCleared
      exact .inr (.inr ⟨name, rfl, .inr hFile, .inl (h.removed hClears name hFile hNever)⟩)
    · rcases h.kept path hNever fun hClears name hPath hFile =>
        hCleared ⟨hClears, name, hPath, hFile⟩ with hSame | hMade
      · exact .inl hSame
      · exact .inr (.inl hMade)

theorem Written.delivered (hDistinct : files.names.Nodup) :
    Delivered before after place way clears files := by
  have hOther {name : String} (hName : name ∉ files.names) :
      ∀ f ∈ files, place ++ [name] ≠ place ++ [f.1] := by
    intro f hf hSame
    have hEq : name = f.1 := by simpa using hSame
    exact hName (hEq ▸ List.mem_map_of_mem hf)
  refine ⟨fun f hf => (h.put_plainly hUnlinked hDistinct hf).2, ?_, ?_,
    h.confined hUnlinked hDistinct⟩
  · intro hClears name octets hFile
    by_cases hName : name ∈ files.names
    · obtain ⟨f, hf, rfl⟩ := List.mem_map.mp hName
      cases (h.put_plainly hUnlinked hDistinct hf).2.symm.trans hFile
      exact ⟨f, hf, rfl, rfl⟩
    · exact absurd ⟨octets, hFile⟩ (h.not_isFile hUnlinked hClears (hOther hName))
  · rintro rfl name octets hName
    rcases h.kept _ (h.unreached hUnlinked (hOther hName)) nofun with hSame | ⟨hNone, hMade, -⟩
    · rw [hSame]
    · rw [hNone, hMade]
      simp

end Plainly

end Unlinked

end NativeBinding.Project
