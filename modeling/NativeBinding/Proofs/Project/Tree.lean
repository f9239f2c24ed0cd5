import NativeBinding.Proofs.Project.Paths

/-! # Changes to a file tree

What making directories, writing a file and removing one change, and what a row of such changes
does. Files come and go in all of them, but directories and links stay, so that paths lead on where
they led before.
-/

set_option autoImplicit false

namespace NativeBinding.Project

namespace Tree

variable {t t' t'' : Tree} {path other place found last : List String} {entry : Entry}
  {name text directory : String} {working : Directory}

/-- Names on the paths of a tree are those of files. -/
def Proper (t : Tree) : Prop :=
  ∀ e ∈ t.entries, ∀ name ∈ e.1, IsFileName name

instance (t : Tree) : Decidable t.Proper :=
  inferInstanceAs (Decidable (∀ e ∈ t.entries, ∀ name ∈ e.1, IsFileName name))

def IsFile (t : Tree) (path : List String) : Prop :=
  ∃ octets, t.get? path = some (.file octets)

/-- A regular file stands at a place, or nothing at all. -/
def Plain (t : Tree) (path : List String) : Prop :=
  t.get? path = none ∨ t.IsFile path

section Entries

theorem get?_nil : t.get? [] = some .directory :=
  rfl

theorem get?_of_ne_nil (h : path ≠ []) :
    t.get? path = (t.entries.find? fun e => e.1 == path).map (·.2) :=
  if_neg h

theorem find?_filter_ne (entries : List (List String × Entry)) (h : other ≠ path) :
    ((entries.filter fun e => e.1 != path).find? fun e => e.1 == other) =
      entries.find? fun e => e.1 == other := by
  rw [List.find?_filter]
  congr 1
  funext e
  by_cases hSame : e.1 = other
  · simp [hSame, h]
  · simp [hSame]

theorem get?_set (h : path ≠ []) (entry : Entry) (other : List String) :
    (t.set path entry).get? other = if other = path then some entry else t.get? other := by
  by_cases hOther : other = []
  · rw [hOther, get?_nil, get?_nil, if_neg (Ne.symm h)]
  · rw [get?_of_ne_nil hOther, get?_of_ne_nil hOther, set]
    split
    · rename_i hSame
      rw [hSame]
      simp
    · rename_i hNe
      rw [List.find?_cons_of_neg (by simpa using Ne.symm hNe), find?_filter_ne _ hNe]

theorem get?_set_of_none (h : t.get? path = none) (entry : Entry) (other : List String) :
    (t.set path entry).get? other = if other = path then some entry else t.get? other := by
  refine get?_set ?_ entry other
  rintro rfl
  cases h

theorem get?_erase (h : path ≠ []) (other : List String) :
    (t.erase path).get? other = if other = path then none else t.get? other := by
  by_cases hOther : other = []
  · rw [hOther, get?_nil, get?_nil, if_neg (Ne.symm h)]
  · rw [get?_of_ne_nil hOther, get?_of_ne_nil hOther, erase]
    split
    · rename_i hSame
      rw [hSame, Option.map_eq_none_iff, List.find?_eq_none]
      simp
    · rename_i hNe
      rw [find?_filter_ne _ hNe]

theorem exists_mem_of_get? (h : path ≠ []) (hEntry : t.get? path = some entry) :
    ∃ e ∈ t.entries, e.1 = path := by
  rw [get?_of_ne_nil h, Option.map_eq_some_iff] at hEntry
  obtain ⟨e, hFind, -⟩ := hEntry
  exact ⟨e, List.mem_of_find?_eq_some hFind, by simpa using List.find?_some hFind⟩

theorem Proper.isFileName (h : t.Proper) (hEntry : t.get? (place ++ [name]) = some entry) :
    IsFileName name := by
  obtain ⟨e, he, hPath⟩ := exists_mem_of_get? (by simp) hEntry
  exact h e he name (by simp [hPath])

theorem mem_filesIn_iff : name ∈ t.filesIn place ↔ t.IsFile (place ++ [name]) := by
  rw [filesIn, List.mem_filterMap]
  constructor
  · rintro ⟨e, -, hName⟩
    split at hName
    · rename_i octets hFile
      split at hName
      · rename_i hPlace
        rw [← hPlace, List.dropLast_append_getLast? name hName]
        exact ⟨octets, hFile⟩
      · cases hName
    · cases hName
  · rintro ⟨octets, hFile⟩
    obtain ⟨e, he, hPath⟩ := exists_mem_of_get? (by simp) hFile
    exact ⟨e, he, by simp [hPath, hFile]⟩

theorem Plain.not_directory (h : t.Plain path) : t.get? path ≠ some .directory := by
  intro hHere
  rcases h with hNone | ⟨octets, hFile⟩
  · cases hNone.symm.trans hHere
  · cases hFile.symm.trans hHere

theorem Plain.not_link (h : t.Plain path) (target : String) :
    t.get? path ≠ some (.link target) := by
  intro hLink
  rcases h with hNone | ⟨octets, hFile⟩
  · cases hNone.symm.trans hLink
  · cases hFile.symm.trans hLink

theorem Plain.congr (h : t.Plain path) (hSame : t'.get? path = t.get? path) : t'.Plain path := by
  rcases h with hNone | ⟨octets, hFile⟩
  · exact .inl (hSame.trans hNone)
  · exact .inr ⟨octets, hSame.trans hFile⟩

end Entries

section Making

/-- A beginning of the names leads to a place. -/
def OnWay (t : Tree) (place path other : List String) : Prop :=
  ∃ lead, lead <+: path ∧ Leads t true place lead other

/-- The names lead to a directory, and all that is new are directories on the way. -/
structure Made (t t' : Tree) (place path last : List String) : Prop where
  leads : Leads t' true place path last
  isDirectory : t'.get? last = some .directory
  others : ∀ other, t'.get? other = t.get? other ∨
    t.get? other = none ∧ t'.get? other = some .directory ∧ OnWay t' place path other

theorem Made.keeps (h : Made t t' place path last) : Keeps t t' where
  directories other hHere := by
    rcases h.others other with hSame | ⟨hNone, -, -⟩
    · exact hSame.trans hHere
    · cases hNone.symm.trans hHere
  links other target := by
    rcases h.others other with hSame | ⟨hNone, hMade, -⟩
    · rw [hSame]
    · rw [hNone, hMade]
      simp

theorem Made.isFile_iff (h : Made t t' place path last) (octets : List UInt8) :
    t'.get? other = some (.file octets) ↔ t.get? other = some (.file octets) := by
  rcases h.others other with hSame | ⟨hNone, hMade, -⟩
  · rw [hSame]
  · rw [hNone, hMade]
    simp

theorem Made.plain (h : Made t t' place path last) (hPlain : t'.Plain other) : t.Plain other := by
  rcases h.others other with hSame | ⟨hNone, -, -⟩
  · exact hPlain.congr hSame.symm
  · exact .inl hNone

/-- Behind a first name, which a new directory may stand for or which may lead through links. -/
theorem Made.cons {middle : Tree} {next rest : List String} (hHere : t.get? place = some .directory)
    (hMiddle : ∀ other, middle.get? other = t.get? other ∨
      t.get? other = none ∧ middle.get? other = some .directory ∧ other = next)
    (hNext : Leads middle true (follow place name) [] next) (h : Made middle t' next rest last) :
    Made t t' place (name :: rest) last := by
  have hPlace : t'.get? place = some .directory := by
    apply h.keeps.directories
    rcases hMiddle place with hSame | ⟨hNone, -, -⟩
    · exact hSame.trans hHere
    · cases hNone.symm.trans hHere
  have hFirst : Leads t' true (follow place name) [] next := hNext.keeps h.keeps
  refine ⟨.name hPlace (hFirst.trans h.leads), h.isDirectory, fun other => ?_⟩
  rcases h.others other with hSame | ⟨hNone, hMade, lead, hLead, hLeads⟩
  · rw [hSame]
    rcases hMiddle other with hSame | ⟨hNone, hMade, rfl⟩
    · exact .inl hSame
    · exact .inr ⟨hNone, hMade, [name], (List.prefix_cons_inj name).mpr List.nil_prefix,
        .name hPlace hFirst⟩
  · have hNone : t.get? other = none := by
      rcases hMiddle other with hSame | ⟨hNone, -, -⟩
      · exact hSame.symm.trans hNone
      · exact hNone
    exact .inr ⟨hNone, hMade, name :: lead, (List.prefix_cons_inj name).mpr hLead,
      .name hPlace (hFirst.trans hLeads)⟩

theorem made_of_makeAlong {hasMade : Bool} {left : Nat} (hHere : t.get? place = some .directory)
    (h : t.makeAlong hasMade left place path = (.ok (), t')) : ∃ last, Made t t' place path last := by
  induction path generalizing t place left hasMade with
  | nil =>
    cases h
    exact ⟨place, leads_here hHere, hHere, fun _ => .inl rfl⟩
  | cons name rest ih =>
    rw [makeAlong] at h
    split at h
    · rename_i hNext
      obtain ⟨last, hMade⟩ := ih hNext h
      exact ⟨last, hMade.cons hHere (fun _ => .inl rfl) (leads_here hNext)⟩
    · rename_i hNone
      split at h
      · cases h
      · have hNew := get?_set_of_none hNone .directory
        have hNext := (hNew (follow place name)).trans (if_pos rfl)
        obtain ⟨last, hMade⟩ := ih hNext h
        refine ⟨last, hMade.cons hHere (fun other => ?_) (leads_here hNext)⟩
        rw [hNew]
        split
        · rename_i hSame
          exact .inr ⟨hSame ▸ hNone, rfl, hSame⟩
        · exact .inl rfl
    · split at h
      · cases h
      · rename_i left' dir hWalk
        split at h
        · rename_i hDir
          obtain ⟨last, hMade⟩ := ih hDir h
          exact ⟨last, hMade.cons hHere (fun _ => .inl rfl) (leads_of_walk hWalk)⟩
        · cases h
        · cases h
    · cases h

theorem made_of_makeDirectories (h : t.makeDirectories working directory = (.ok (), t')) :
    ∃ last, Made t t' (origin working.names directory) (names directory) last := by
  unfold makeDirectories at h
  dsimp only at h
  split at h
  · cases h
  · split at h
    · exact made_of_makeAlong ‹_› h
    · cases h

end Making

section Files

/-- Trees that differ only in what files there are. -/
def Alike (t t' : Tree) : Prop :=
  ∀ path, t'.get? path = t.get? path ∨ t.Plain path ∧ t'.Plain path

theorem Alike.refl (t : Tree) : Alike t t :=
  fun _ => .inl rfl

theorem Alike.symm (h : Alike t t') : Alike t' t := by
  intro path
  rcases h path with hSame | ⟨hPlain, hPlain'⟩
  · exact .inl hSame.symm
  · exact .inr ⟨hPlain', hPlain⟩

theorem Alike.plain (h : Alike t t') (hPlain : t.Plain path) : t'.Plain path := by
  rcases h path with hSame | ⟨-, hPlain'⟩
  · exact hPlain.congr hSame
  · exact hPlain'

theorem Alike.trans (h : Alike t t') (h' : Alike t' t'') : Alike t t'' := by
  intro path
  rcases h path with hSame | ⟨hPlain, hPlain'⟩
  · rcases h' path with hSame' | ⟨hPlain', hPlain''⟩
    · exact .inl (hSame'.trans hSame)
    · exact .inr ⟨hPlain'.congr hSame.symm, hPlain''⟩
  · exact .inr ⟨hPlain, h'.plain hPlain'⟩

theorem Alike.keeps (h : Alike t t') : Keeps t t' where
  directories path hHere := by
    rcases h path with hSame | ⟨hPlain, -⟩
    · exact hSame.trans hHere
    · exact absurd hHere hPlain.not_directory
  links path target := by
    rcases h path with hSame | ⟨hPlain, hPlain'⟩
    · rw [hSame]
    · exact iff_of_false (hPlain'.not_link target) (hPlain.not_link target)

theorem Alike.endsAt_iff (h : Alike t t') : t'.EndsAt path last ↔ t.EndsAt path last :=
  ⟨fun hEnds => hEnds.keeps h.symm.keeps, fun hEnds => hEnds.keeps h.keeps⟩

theorem run_changing {operation : Tree → Except FileError Tree}
    (h : (changing operation).run t = (.ok (), t')) : operation t = .ok t' := by
  rw [StateT.run, changing] at h
  split at h
  · rename_i changed hChanged
    cases h
    exact hChanged
  · cases h

theorem run_changing_error {operation : Tree → Except FileError Tree} {cause : FileError}
    (h : (changing operation).run t = (.error cause, t')) : operation t = .error cause := by
  rw [StateT.run, changing] at h
  split at h
  · cases h
  · rename_i cause' hCause
    cases h
    exact hCause

theorem leads_of_locate_joinPath {follows : Bool} (hDirectory : directory ≠ "")
    (hName : IsFileName name)
    (hLocate : t.locate working follows (joinPath directory name) = .ok last) :
    ∃ dir, Leads t true (origin working.names directory) (names directory) dir ∧
      t.get? dir = some .directory ∧ Leads t follows (dir ++ [name]) [] last := by
  have hLeads := leads_of_locate hLocate
  rw [origin_joinPath hDirectory hName] at hLeads
  exact hLeads.enter_extends hName (extends_names hDirectory hName)

/-- At one place a file is put or removed. -/
structure Changes (t t' : Tree) (path : List String) (octets? : Option (List UInt8)) : Prop where
  plain : t.Plain path
  changed : t'.get? path = octets?.map Entry.file
  others : ∀ other, other ≠ path → t'.get? other = t.get? other

theorem Changes.alike {octets? : Option (List UInt8)} (h : Changes t t' path octets?) :
    Alike t t' := by
  intro other
  by_cases hOther : other = path
  · subst hOther
    refine .inr ⟨h.plain, ?_⟩
    cases octets? with
    | none => exact .inl h.changed
    | some octets => exact .inr ⟨octets, h.changed⟩
  · exact .inl (h.others other hOther)

theorem changes_write (hDirectory : directory ≠ "") (hName : IsFileName name)
    (hWrite : t.write working (joinPath directory name) text = .ok t') :
    ∃ dir target, Leads t true (origin working.names directory) (names directory) dir ∧
      t.EndsAt (dir ++ [name]) target ∧ Changes t t' target (some (Text.Utf8.ofString text)) := by
  obtain ⟨target, hLocate, hWrite⟩ := bind_eq_ok_iff.mp hWrite
  obtain ⟨dir, hDir, hHere, hEnds⟩ := leads_of_locate_joinPath hDirectory hName hLocate
  split at hWrite
  · cases hWrite
  · cases hWrite
  · rename_i hDirectory hSocket
    cases hWrite
    have hPlain : t.Plain target := by
      cases hEntry : t.get? target with
      | none => exact .inl hEntry
      | some entry =>
        cases entry with
        | file octets => exact .inr ⟨octets, hEntry⟩
        | directory => exact absurd hEntry hDirectory
        | link way => exact absurd hEntry (EndsAt.no_link hEnds way)
        | socket => exact absurd hEntry hSocket
    have hTarget : target ≠ [] := fun hRoot => hPlain.not_directory (hRoot ▸ get?_nil)
    refine ⟨dir, target, hDir, hEnds, hPlain, ?_, fun other hOther => ?_⟩
    · rw [get?_set hTarget, if_pos rfl]
      rfl
    · rw [get?_set hTarget, if_neg hOther]

example :
    let t : Tree := ⟨[(["out"], .directory), (["out", "module.rs"], .link "../notes.txt")]⟩
    t.write ⟨["out"]⟩ "module.rs" "a" = .ok (t.set ["notes.txt"] (.file [97])) := by
  decide +kernel

theorem changes_remove (hDirectory : directory ≠ "") (hName : IsFileName name)
    (hRemove : t.remove working (joinPath directory name) = .ok t') :
    ∃ dir, Leads t true (origin working.names directory) (names directory) dir ∧
      (t.Plain (dir ++ [name]) → Changes t t' (dir ++ [name]) none) := by
  obtain ⟨last, hLocate, hRemove⟩ := bind_eq_ok_iff.mp hRemove
  obtain ⟨dir, hDir, -, hEnds⟩ := leads_of_locate_joinPath hDirectory hName hLocate
  obtain rfl := hEnds.eq_of_not_follows
  have hPath : dir ++ [name] ≠ [] := by simp
  split at hRemove
  · cases hRemove
  · cases hRemove
    refine ⟨dir, hDir, fun hPlain => ⟨hPlain, ?_, fun other hOther => ?_⟩⟩
    · rw [get?_erase hPath, if_pos rfl]
      rfl
    · rw [get?_erase hPath, if_neg hOther]
  · cases hRemove

/-- Files that are put or removed one after the other. -/
inductive Row : Tree → List (List String × Option (List UInt8)) → Tree → Prop
  | nil (t : Tree) : Row t [] t
  | cons {t middle t' : Tree} {path : List String} {octets? : Option (List UInt8)}
      {rest : List (List String × Option (List UInt8))} : Changes t middle path octets? →
      Row middle rest t' → Row t ((path, octets?) :: rest) t'

variable {row : List (List String × Option (List UInt8))}

theorem Row.alike (h : Row t row t') : Alike t t' := by
  induction h with
  | nil => exact .refl _
  | cons hFirst _ ih => exact hFirst.alike.trans ih

theorem Row.plain (h : Row t row t') {c : List String × Option (List UInt8)} (hc : c ∈ row) :
    t.Plain c.1 := by
  induction h with
  | nil => cases hc
  | cons hFirst _ ih =>
    rcases List.mem_cons.mp hc with rfl | hc
    · exact hFirst.plain
    · exact hFirst.alike.symm.plain (ih hc)

theorem Row.others (h : Row t row t') (hOther : path ∉ row.map Prod.fst) :
    t'.get? path = t.get? path := by
  induction h with
  | nil => rfl
  | cons hFirst _ ih =>
    rw [List.map_cons, List.mem_cons, not_or] at hOther
    rw [ih hOther.2, hFirst.others path hOther.1]

/-- What stands at a place afterwards is what the last change there says. -/
theorem Row.changed (h : Row t row t') (hPath : path ∈ row.map Prod.fst) :
    ∃ octets?, (path, octets?) ∈ row ∧ t'.get? path = octets?.map Entry.file := by
  induction h with
  | nil => cases hPath
  | @cons t middle t' first octets? rest hFirst hRest ih =>
    by_cases hLater : path ∈ rest.map Prod.fst
    · obtain ⟨octets?, hMem, hChanged⟩ := ih hLater
      exact ⟨octets?, List.mem_cons_of_mem _ hMem, hChanged⟩
    · obtain rfl : path = first := (List.mem_cons.mp hPath).resolve_right hLater
      exact ⟨octets?, List.mem_cons_self, (hRest.others hLater).trans hFirst.changed⟩

end Files

end Tree

end NativeBinding.Project
