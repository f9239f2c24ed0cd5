import NativeBinding.Project.Tree
import NativeBinding.Proofs.Success

/-! # Paths in a file tree

Where a path leads, through the links that it comes by. A path with one more name leads to the place
of that name in the directory that the path leads to, and it leads to one place only, also in a tree
that differs in files and new directories.
-/

set_option autoImplicit false

namespace NativeBinding.Project

/-- A name that can stand for a file. -/
structure IsFileName (name : String) : Prop where
  nonempty : name ≠ ""
  notHere : name ≠ "."
  notAbove : name ≠ ".."
  oneName : '/' ∉ name.toList

instance (name : String) : Decidable (IsFileName name) :=
  decidable_of_iff (name ≠ "" ∧ name ≠ "." ∧ name ≠ ".." ∧ '/' ∉ name.toList)
    ⟨fun ⟨h, h', h'', hName⟩ => ⟨h, h', h'', hName⟩,
      fun h => ⟨h.nonempty, h.notHere, h.notAbove, h.oneName⟩⟩

variable {directory name : String} {lead text : List Char}

theorem joinPath_cases (hDirectory : directory ≠ "") (hName : IsFileName name) :
    (joinPath directory name).toList = directory.toList ++ '/' :: name.toList ∨
      directory.toList.getLast? = some '/' ∧
        (joinPath directory name).toList = directory.toList ++ name.toList := by
  have hChars : directory.toList ≠ [] := by simpa using hDirectory
  have hHead : name.toList.head? ≠ some '/' := fun hHead =>
    hName.oneName (List.mem_of_mem_head? hHead)
  unfold joinPath
  split
  · exact absurd ‹_› hHead
  · exact absurd (List.getLast?_eq_none_iff.mp ‹_›) hChars
  · exact .inr ⟨‹_›, by simp⟩
  · exact .inl (by simp)

theorem joinPath_ne_empty {path : String} (h : directory ≠ "") : joinPath directory path ≠ "" := by
  intro hEmpty
  unfold joinPath at hEmpty
  split at hEmpty
  · simp_all
  · simp_all
  · simp [h] at hEmpty
  · simp [h] at hEmpty

theorem Directory.path_ne_empty (d : Directory) : d.path ≠ "" := by
  have hFold (names : List String) {start : String} (hStart : start ≠ "") :
      names.foldl joinPath start ≠ "" := by
    induction names generalizing start with
    | nil => exact hStart
    | cons name names ih => exact ih (joinPath_ne_empty hStart)
  exact hFold d.names (by decide)

namespace Directory

variable {d e : Directory} {reversed : List String}

theorem mem_go_iff : e ∈ ancestors.go reversed ↔ e.names <+: reversed.reverse := by
  induction reversed with
  | nil =>
    rw [ancestors.go, List.mem_singleton, List.reverse_nil, List.prefix_nil]
    exact ⟨fun h => h ▸ rfl, fun h => by cases e; cases h; rfl⟩
  | cons name above ih =>
    rw [ancestors.go, List.mem_cons, ih, List.reverse_cons, List.prefix_concat_iff]
    apply or_congr_left
    exact ⟨fun h => h ▸ rfl, fun h => by cases e; cases h; rfl⟩

theorem mem_ancestors_iff : e ∈ d.ancestors ↔ e.names <+: d.names := by
  rw [ancestors, mem_go_iff, List.reverse_reverse]

/-- The nearer ones come first. -/
theorem pairwise_ancestors (d : Directory) :
    d.ancestors.Pairwise fun nearer farther => farther.names <+: nearer.names := by
  unfold ancestors
  generalize d.names.reverse = reversed
  induction reversed with
  | nil => exact List.pairwise_singleton _ _
  | cons name above ih =>
    refine List.pairwise_cons.mpr ⟨fun e he => ?_, ih⟩
    rw [List.reverse_cons]
    exact (mem_go_iff.mp he).trans (List.prefix_append _ _)

end Directory

namespace Tree

section Names

theorem go_append (name lead rest : List Char) :
    names.go name (lead ++ '/' :: rest) = names.go name lead ++ names.go [] rest := by
  induction lead generalizing name with
  | nil => simp [names.go]
  | cons c lead ih =>
    simp only [List.cons_append, names.go]
    split
    · rw [ih, List.cons_append]
    · exact ih (c :: name)

theorem go_oneName (h : '/' ∉ text) (name : List Char) :
    names.go name text = [String.ofList (name.reverse ++ text)] := by
  induction text generalizing name with
  | nil => simp [names.go]
  | cons c text ih =>
    rw [List.mem_cons, not_or] at h
    rw [names.go, if_neg (by simpa using Ne.symm h.1), ih h.2]
    simp

theorem go_append_name (h : IsFileName name) :
    names.go [] (text ++ '/' :: name.toList) = names.go [] text ++ [name] := by
  rw [go_append, go_oneName h.oneName]
  simp

theorem go_append_last (h : IsFileName name) (hEnd : text.getLast? = some '/') :
    ∃ before, names.go [] text = before ++ [""] ∧
      names.go [] (text ++ name.toList) = before ++ [name] := by
  obtain ⟨lead, rfl⟩ := List.getLast?_eq_some_iff.mp hEnd
  refine ⟨names.go [] lead, ?_, ?_⟩
  · rw [go_append]
    rfl
  · rw [List.append_assoc, List.singleton_append, go_append_name h]

/-- Two ways to have one more name at the end. -/
def Extends (found path : List String) (name : String) : Prop :=
  path = found ++ [name] ∨ ∃ before, found = before ++ [""] ∧ path = before ++ [name]

theorem extends_names (hDirectory : directory ≠ "") (hName : IsFileName name) :
    Extends (names directory) (names (joinPath directory name)) name := by
  unfold names
  rcases joinPath_cases hDirectory hName with hJoin | ⟨hLast, hJoin⟩
  · rw [hJoin, go_append_name hName]
    exact .inl rfl
  · obtain ⟨before, hBefore, hAfter⟩ := go_append_last hName hLast
    rw [hJoin]
    exact .inr ⟨before, hBefore, hAfter⟩

theorem origin_joinPath (hDirectory : directory ≠ "") (hName : IsFileName name)
    (place : List String) : origin place (joinPath directory name) = origin place directory := by
  have hChars : directory.toList ≠ [] := by simpa using hDirectory
  have hHead : (joinPath directory name).toList.head? = directory.toList.head? := by
    rcases joinPath_cases hDirectory hName with hJoin | ⟨-, hJoin⟩
    all_goals rw [hJoin, List.head?_append_of_ne_nil _ hChars]
  rw [origin, origin, hHead]

end Names

section Leading

/-- Names lead from one place to another in a tree, through any number of links. A link at the last
place is followed or not, and all other places must be directories. -/
inductive Leads (t : Tree) (follows : Bool) : List String → List String → List String → Prop
  | here {place : List String} :
      (follows = true → ∀ target, t.get? place ≠ some (.link target)) → Leads t follows place [] place
  | name {place rest last : List String} {name : String} : t.get? place = some .directory →
      Leads t follows (follow place name) rest last → Leads t follows place (name :: rest) last
  | link {place path last : List String} {target : String} :
      t.get? place = some (.link target) → (path = [] → follows = true) →
      Leads t follows (origin place.dropLast target) (names target ++ path) last →
      Leads t follows place path last

/-- What a path stands for if a link at its end is followed. -/
def EndsAt (t : Tree) (path target : List String) : Prop :=
  Leads t true path [] target

variable {t t' : Tree} {follows : Bool} {place found path last last' dir : List String}

theorem leads_here (h : t.get? place = some .directory) : Leads t follows place [] place :=
  .here fun _ _ hLink => nomatch h.symm.trans hLink

theorem Leads.unique (h : Leads t follows place path last) (h' : Leads t follows place path last') :
    last = last' := by
  induction h with
  | here hStop =>
    cases h' with
    | here => rfl
    | link hLink hEnd => exact absurd hLink (hStop (hEnd rfl) _)
  | name hHere _ ih =>
    cases h' with
    | name _ hRest => exact ih hRest
    | link hLink => cases hHere.symm.trans hLink
  | link hLink hEnd _ ih =>
    cases h' with
    | here hStop => exact absurd hLink (hStop (hEnd rfl) _)
    | name hHere => cases hHere.symm.trans hLink
    | link hLink' _ hRest =>
      cases hLink.symm.trans hLink'
      exact ih hRest

/-- Behind names that lead to a directory, other names lead on from there. -/
theorem Leads.trans (h : Leads t true place found dir) (hPath : Leads t true dir path last) :
    Leads t true place (found ++ path) last := by
  induction h with
  | here => exact hPath
  | name hHere _ ih => exact .name hHere (ih hPath)
  | link hLink _ _ ih => exact .link hLink (fun _ => rfl) (by rw [← List.append_assoc]; exact ih hPath)

/-- One more name comes out of a directory, and a name of nothing stays in it. -/
theorem Leads.enter (h : Leads t follows place (found ++ [name]) last) :
    ∃ dir, Leads t true place found dir ∧ t.get? dir = some .directory ∧
      Leads t follows (follow dir name) [] last := by
  generalize hPath : found ++ [name] = path at h
  induction h generalizing found with
  | here => simp at hPath
  | @name place rest last first hHere hRest ih =>
    cases found with
    | nil =>
      cases hPath
      exact ⟨place, leads_here hHere, hHere, hRest⟩
    | cons first' found =>
      cases hPath
      obtain ⟨dir, hDir, hFound, hLast⟩ := ih rfl
      exact ⟨dir, .name hHere hDir, hFound, hLast⟩
  | link hLink _ _ ih =>
    obtain ⟨dir, hDir, hFound, hLast⟩ := ih (by rw [List.append_assoc, hPath])
    exact ⟨dir, .link hLink (fun _ => rfl) hDir, hFound, hLast⟩

theorem follow_fileName (h : IsFileName name) (place : List String) :
    follow place name = place ++ [name] := by
  simp [follow, h.nonempty, h.notHere, h.notAbove]

theorem Leads.enter_extends (hName : IsFileName name) (hExtends : Extends found path name)
    (h : Leads t follows place path last) :
    ∃ dir, Leads t true place found dir ∧ t.get? dir = some .directory ∧
      Leads t follows (dir ++ [name]) [] last := by
  obtain rfl | ⟨before, rfl, rfl⟩ := hExtends
  · obtain ⟨dir, hDir, hFound, hLast⟩ := h.enter
    rw [follow_fileName hName] at hLast
    exact ⟨dir, hDir, hFound, hLast⟩
  · obtain ⟨dir, hDir, hFound, hLast⟩ := h.enter
    rw [follow_fileName hName] at hLast
    exact ⟨dir, hDir.trans (.name hFound (leads_here hFound)), hFound, hLast⟩

theorem Leads.eq_of_not_follows (h : Leads t false place [] last) : last = place := by
  cases h with
  | here => rfl
  | link _ hEnd => cases hEnd rfl

theorem endsAt_iff_of_no_link (h : ∀ target, t.get? path ≠ some (.link target)) :
    t.EndsAt path last ↔ last = path := by
  have hHere : t.EndsAt path path := .here fun _ => h
  exact ⟨fun hEnds => hEnds.unique hHere, fun hSame => hSame ▸ hHere⟩

theorem EndsAt.no_link (h : t.EndsAt path last) (target : String) :
    t.get? last ≠ some (.link target) := by
  unfold EndsAt at h
  generalize ([] : List String) = rest at h
  induction h with
  | here hStop => exact hStop rfl target
  | name _ _ ih => exact ih
  | link _ _ _ ih => exact ih

end Leading

section Walking

variable {t : Tree} {follows : Bool} {left left' : Nat} {place path last : List String}
  {further : List String → List String → Except FileError (Nat × List String)}

theorem leads_of_walkWith
    (hFurther : ∀ place path, further place path = .ok (left', last) →
      Leads t follows place path last)
    (h : t.walkWith follows left further place path = .ok (left', last)) :
    Leads t follows place path last := by
  induction path generalizing place with
  | nil =>
    rw [walkWith] at h
    split at h
    · rename_i target hLink
      split at h
      · rename_i hFollows
        exact .link hLink (fun _ => hFollows) (by rw [List.append_nil]; exact hFurther _ _ h)
      · rename_i hStops
        cases h
        exact .here fun hFollows => absurd hFollows hStops
    · rename_i hPlain
      cases h
      exact .here fun _ target hLink => hPlain target hLink
  | cons name rest ih =>
    rw [walkWith] at h
    split at h
    · rename_i hHere
      exact .name hHere (ih h)
    · rename_i target hLink
      exact .link hLink nofun (hFurther _ _ h)
    · cases h
    · cases h

theorem leads_of_walk (h : t.walk follows left place path = .ok (left', last)) :
    Leads t follows place path last := by
  induction left generalizing place path with
  | zero => exact leads_of_walkWith (fun _ _ hFurther => by cases hFurther) h
  | succ left ih => exact leads_of_walkWith (fun _ _ hFurther => ih hFurther) h

theorem leads_of_locate {working : Directory} {path : String}
    (h : t.locate working follows path = .ok last) :
    Leads t follows (origin working.names path) (names path) last := by
  unfold locate at h
  split at h
  · cases h
  · split at h
    · cases h
    · obtain ⟨⟨left, place⟩, hWalk, hPlace⟩ := map_eq_ok_iff.mp h
      cases hPlace
      exact leads_of_walk hWalk

end Walking

section Keeping

variable {t t' t'' : Tree} {follows : Bool} {place path last : List String}

/-- Directories stay, and so do links, and there are no new ones: paths lead where they led. -/
structure Keeps (t t' : Tree) : Prop where
  directories : ∀ path, t.get? path = some .directory → t'.get? path = some .directory
  links : ∀ path target, t'.get? path = some (.link target) ↔ t.get? path = some (.link target)

theorem Keeps.refl (t : Tree) : Keeps t t :=
  ⟨fun _ => id, fun _ _ => .rfl⟩

theorem Keeps.trans (h : Keeps t t') (h' : Keeps t' t'') : Keeps t t'' :=
  ⟨fun path hPath => h'.directories path (h.directories path hPath),
    fun path target => (h'.links path target).trans (h.links path target)⟩

theorem Leads.keeps (hKeeps : Keeps t t') (h : Leads t follows place path last) :
    Leads t' follows place path last := by
  induction h with
  | here hStop =>
    exact .here fun hFollows target hLink => hStop hFollows target ((hKeeps.links _ target).mp hLink)
  | name hHere _ ih => exact .name (hKeeps.directories _ hHere) ih
  | link hLink hEnd _ ih => exact .link ((hKeeps.links _ _).mpr hLink) hEnd ih

end Keeping

end Tree

end NativeBinding.Project
