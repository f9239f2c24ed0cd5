import NativeBinding.Proofs.Layout.Placement
import NativeBinding.Proofs.Model.Acceptance

/-! # The layout table of an accepted model

Building the table succeeds, in any declaration order, and gives each struct one layout, which is
the one that C's rules give with the final table. Layouts are only ever added, so what was placed
with an earlier table stays right; ranks bound the depth of the recursion.
-/

set_option autoImplicit false

namespace NativeBinding.LayoutTable

variable {m : Model} {table table' : LayoutTable}

/-- The second table has the layouts of the first one and maybe more. -/
def Extends (table table' : LayoutTable) : Prop :=
  ∃ more, table'.layouts = table.layouts ++ more

theorem Extends.refl : table.Extends table := ⟨[], by simp⟩

theorem Extends.trans {table'' : LayoutTable} (h : table.Extends table')
    (h' : table'.Extends table'') : table.Extends table'' := by
  obtain ⟨more, hMore⟩ := h
  obtain ⟨more', hMore'⟩ := h'
  exact ⟨more ++ more', by rw [hMore', hMore, List.append_assoc]⟩

theorem Extends.get? (h : table.Extends table') {name : String} {l : StructLayout}
    (hGet : table.get? name = some l) : table'.get? name = some l := by
  obtain ⟨more, hMore⟩ := h
  rw [LayoutTable.get?, hMore, List.find?_append]
  exact Option.or_eq_some_iff.mpr (Or.inl hGet)

theorem Extends.extent? (h : table.Extends table') {type : TypeRef} {e : Nat × Nat}
    (hExtent : table.extent? type = some e) : table'.extent? type = some e := by
  cases type with
  | struct name =>
    obtain ⟨l, hGet, rfl⟩ := Option.map_eq_some_iff.mp hExtent
    rw [LayoutTable.extent?, h.get? hGet, Option.map_some]
  | _ => exact hExtent

theorem Extends.placeFrom (h : table.Extends table') {p q : Placement} {fields : List FieldDecl}
    (hPlace : table.placeFrom p fields = some q) : table'.placeFrom p fields = some q := by
  induction fields generalizing p with
  | nil => exact hPlace
  | cons f fields ih =>
    obtain ⟨e, hExtent, hRest⟩ := placeFrom_cons.mp hPlace
    exact placeFrom_cons.mpr ⟨e, h.extent? hExtent, ih hRest⟩

theorem Extends.laidOut (h : table.Extends table') {s : StructDecl} {l : StructLayout}
    (hLaid : table.LaidOut s l) : table'.LaidOut s l := by
  obtain ⟨p, hPlace, hl⟩ := hLaid
  exact ⟨p, h.placeFrom hPlace, hl⟩

theorem get?_eq_some {name : String} {l : StructLayout} (h : table.get? name = some l) :
    l ∈ table.layouts ∧ l.name = name := by
  refine ⟨List.mem_of_find?_eq_some h, ?_⟩
  simpa using List.find?_some h

theorem get?_eq_none {name : String} :
    table.get? name = none ↔ ∀ l ∈ table.layouts, l.name ≠ name := by
  rw [LayoutTable.get?, List.find?_eq_none]
  simp only [beq_iff_eq]

/-- A table with layouts of structs of the model, each once and each by C's rules. -/
structure Valid (m : Model) (table : LayoutTable) : Prop where
  names : (table.layouts.map (·.name)).Nodup
  laid : ∀ l ∈ table.layouts, ∃ s ∈ m.structs, table.LaidOut s l

/-- What adding the layout of a struct of the given rank does to a table. -/
structure Added (m : Model) (rank : String → Nat) (bound : Nat) (table table' : LayoutTable) :
    Prop where
  valid : Valid m table'
  more : table.Extends table'
  fresh : ∀ l ∈ table'.layouts, l ∈ table.layouts ∨ rank l.name < bound

variable {rank : String → Nat}

theorem Added.refl {bound : Nat} (h : Valid m table) : Added m rank bound table table :=
  ⟨h, .refl, fun _ hl => Or.inl hl⟩

theorem Added.trans {bound : Nat} {table'' : LayoutTable} (h : Added m rank bound table table')
    (h' : Added m rank bound table' table'') : Added m rank bound table table'' where
  valid := h'.valid
  more := h.more.trans h'.more
  fresh l hl := (h'.fresh l hl).elim (h.fresh l) Or.inr

theorem Added.mono {bound bound' : Nat} (hLe : bound ≤ bound')
    (h : Added m rank bound table table') : Added m rank bound' table table' where
  valid := h.valid
  more := h.more
  fresh l hl := (h.fresh l hl).imp_right fun hLt => Nat.lt_of_lt_of_le hLt hLe

/-- The layout of a struct is put behind those that it rests on. -/
theorem added_concat {s : StructDecl} {l : StructLayout} (hs : s ∈ m.structs)
    (hValid : Valid m table) (hFresh : table.get? s.name = none) (hLaid : table.LaidOut s l) :
    Added m rank (rank s.name + 1) table ⟨table.layouts ++ [l]⟩ ∧
      get? ⟨table.layouts ++ [l]⟩ s.name = some l := by
  have hMore : table.Extends ⟨table.layouts ++ [l]⟩ := ⟨_, rfl⟩
  have hName := hLaid.name_eq
  refine ⟨⟨⟨?_, fun l' hl => ?_⟩, hMore, fun l' hl => ?_⟩, ?_⟩
  · rw [List.map_append, List.nodup_append]
    refine ⟨hValid.names, List.nodup_singleton _, fun name hOld other hOther => ?_⟩
    obtain ⟨l', hl, rfl⟩ := List.mem_map.mp hOld
    rw [List.map_singleton, List.mem_singleton, hName] at hOther
    rw [hOther]
    exact get?_eq_none.mp hFresh l' hl
  · rcases List.mem_append.mp hl with hl | hl
    · obtain ⟨t, ht, hLaid'⟩ := hValid.laid l' hl
      exact ⟨t, ht, hMore.laidOut hLaid'⟩
    · rw [List.mem_singleton.mp hl]
      exact ⟨s, hs, hMore.laidOut hLaid⟩
  · rcases List.mem_append.mp hl with hl | hl
    · exact Or.inl hl
    · rw [List.mem_singleton.mp hl, hName]
      exact Or.inr (Nat.lt_succ_self _)
  · rw [LayoutTable.get?, List.find?_append, show table.layouts.find? _ = none from hFresh]
    simp [hName]

theorem foldlM_placeField {bound : Nat} (owner : String)
    {compute : LayoutTable → StructDecl → Except MarshalError (LayoutTable × StructLayout)}
    {fields : List FieldDecl}
    (hFixed : ∀ f ∈ fields, f.type.isFixedLayout = true)
    (hCompute : ∀ f ∈ fields, ∀ name, f.type = .struct name → ∃ t, m.findStruct? name = some t ∧
      ∀ table, Valid m table → ∃ table' l, compute table t = .ok (table', l) ∧
        Added m rank bound table table' ∧ table'.get? name = some l)
    (hValid : Valid m table) (p : Placement) :
    ∃ table' q, fields.foldlM (placeField m compute owner) (table, p) = .ok (table', q) ∧
      Added m rank bound table table' ∧ table'.placeFrom p fields = some q := by
  induction fields generalizing table p with
  | nil => exact ⟨table, p, rfl, .refl hValid, rfl⟩
  | cons f fields ih =>
    have hFirst : ∃ table₁ e,
        placeField m compute owner (table, p) f = .ok (table₁, p.add f e.1 e.2) ∧
        Added m rank bound table table₁ ∧ table₁.extent? f.type = some e := by
      have hType := hFixed f List.mem_cons_self
      unfold placeField
      split
      · rename_i kind hKind
        exact ⟨table, (kind.size, kind.align), rfl, .refl hValid, by rw [hKind]; rfl⟩
      · rename_i width hWidth
        exact ⟨table, (width, 1), rfl, .refl hValid, by rw [hWidth]; rfl⟩
      · rename_i name hName
        obtain ⟨t, hFind, hNested⟩ := hCompute f List.mem_cons_self name hName
        obtain ⟨table₁, l, hEq, hAdded, hGet⟩ := hNested table hValid
        refine ⟨table₁, (l.size, l.align), ?_, hAdded, ?_⟩
        · simp only [hFind, hEq]
        · rw [hName, LayoutTable.extent?, hGet, Option.map_some]
      · rename_i hScalar hText hStruct
        cases hEq : f.type <;> simp_all [TypeRef.isFixedLayout]
    obtain ⟨table₁, e, hEq, hAdded, hExtent⟩ := hFirst
    obtain ⟨table', q, hRest, hAdded', hPlace⟩ :=
      ih (fun g hg => hFixed g (List.mem_cons_of_mem _ hg))
        (fun g hg => hCompute g (List.mem_cons_of_mem _ hg)) hAdded.valid (p.add f e.1 e.2)
    refine ⟨table', q, ?_, hAdded.trans hAdded', ?_⟩
    · rw [List.foldlM_cons, hEq]
      exact hRest
    · exact placeFrom_cons.mpr ⟨e, hAdded'.more.extent? hExtent, hPlace⟩

theorem compute_spec (hRules : m.StructRules)
    (hRank : ∀ s ∈ m.structs, ∀ t ∈ m.containedStructs s, rank t.name < rank s.name)
    {fuel : Nat} {s : StructDecl} (hs : s ∈ m.structs) (hFuel : rank s.name < fuel)
    (hValid : Valid m table) :
    ∃ table' l, compute m fuel table s = .ok (table', l) ∧
      Added m rank (rank s.name + 1) table table' ∧ table'.get? s.name = some l := by
  induction fuel generalizing table s with
  | zero => exact absurd hFuel (Nat.not_lt_zero _)
  | succ fuel ih =>
    cases hGet : table.get? s.name with
    | some l => exact ⟨table, l, by simp only [compute, hGet], .refl hValid, hGet⟩
    | none =>
      have hNested : ∀ f ∈ s.fields, ∀ name, f.type = .struct name →
          ∃ t, m.findStruct? name = some t ∧ ∀ table, Valid m table →
            ∃ table' l, compute m fuel table t = .ok (table', l) ∧
              Added m rank (rank s.name) table table' ∧ table'.get? name = some l := by
        intro f hf name hType
        obtain ⟨t, hFind⟩ := hRules.declared s hs f hf name hType
        obtain ⟨ht, hName⟩ := Model.findStruct?_eq_some hFind
        have hLower := hRank s hs t (Model.mem_containedStructs_iff.mpr ⟨f, hf, name, hType, hFind⟩)
        refine ⟨t, hFind, fun table hValid => ?_⟩
        obtain ⟨table', l, hEq, hAdded, hGet⟩ := ih ht (by omega) hValid
        exact ⟨table', l, hEq, hAdded.mono hLower, hName ▸ hGet⟩
      obtain ⟨below, p, hFold, hAdded, hPlace⟩ :=
        foldlM_placeField s.name (hRules.fixedLayout s hs) hNested hValid {}
      have hFresh : below.get? s.name = none := by
        refine get?_eq_none.mpr fun l hl hName => ?_
        rcases hAdded.fresh l hl with hl | hLt
        · exact get?_eq_none.mp hGet l hl hName
        · exact absurd hLt (by rw [hName]; exact Nat.lt_irrefl _)
      refine ⟨⟨below.layouts ++ [p.finish s.name]⟩, p.finish s.name, ?_, ?_⟩
      · simp only [compute, hGet, hFold, bind, Except.bind, pure, Except.pure]
      · obtain ⟨hAdded', hFound⟩ := added_concat hs hAdded.valid hFresh ⟨p, hPlace, rfl⟩
        exact ⟨(hAdded.mono (Nat.le_succ _)).trans hAdded', hFound⟩

theorem Valid.laidOut (hNames : (m.structs.map (·.name)).Nodup) (h : Valid m table)
    {s : StructDecl} (hs : s ∈ m.structs) {l : StructLayout} (hGet : table.get? s.name = some l) :
    table.LaidOut s l := by
  obtain ⟨hl, hName⟩ := get?_eq_some hGet
  obtain ⟨t, ht, hLaid⟩ := h.laid l hl
  rwa [← List.inj_on_of_nodup_map hNames ht hs (hLaid.name_eq.symm.trans hName)]

theorem foldlM_compute (hRules : m.StructRules)
    (hRank : ∀ s ∈ m.structs, ∀ t ∈ m.containedStructs s, rank t.name < rank s.name)
    {fuel bound : Nat} {structs : List StructDecl} (hStructs : ∀ s ∈ structs, s ∈ m.structs)
    (hFuel : ∀ s ∈ structs, rank s.name < fuel) (hBound : ∀ s ∈ structs, rank s.name < bound)
    (hValid : Valid m table) :
    ∃ table', structs.foldlM
        (fun table s => do
          let (table, _) ← compute m fuel table s
          pure table) table = .ok table' ∧
      Added m rank bound table table' ∧ ∀ s ∈ structs, ∃ l, table'.get? s.name = some l := by
  induction structs generalizing table with
  | nil => exact ⟨table, rfl, .refl hValid, by simp⟩
  | cons s structs ih =>
    obtain ⟨table₁, l, hEq, hAdded, hGet⟩ :=
      compute_spec hRules hRank (hStructs s List.mem_cons_self) (hFuel s List.mem_cons_self) hValid
    obtain ⟨table', hRest, hAdded', hAll⟩ :=
      ih (fun t ht => hStructs t (List.mem_cons_of_mem _ ht))
        (fun t ht => hFuel t (List.mem_cons_of_mem _ ht))
        (fun t ht => hBound t (List.mem_cons_of_mem _ ht)) hAdded.valid
    refine ⟨table', ?_, (hAdded.mono (hBound s List.mem_cons_self)).trans hAdded', fun t ht => ?_⟩
    · rw [List.foldlM_cons, hEq]
      exact hRest
    · rcases List.mem_cons.mp ht with rfl | ht
      · exact ⟨l, hAdded'.more.get? hGet⟩
      · exact hAll t ht

theorem Valid.size_le (h : Valid m table) : table.size ≤ m.structs.length := by
  have hSubset : table.layouts.map (·.name) ⊆ m.structs.map (·.name) := by
    intro name hName
    obtain ⟨l, hl, rfl⟩ := List.mem_map.mp hName
    obtain ⟨s, hs, hLaid⟩ := h.laid l hl
    exact List.mem_map.mpr ⟨s, hs, hLaid.name_eq.symm⟩
  simpa [LayoutTable.size] using (List.subperm_of_subset h.names hSubset).length_le

/-- Building succeeds and lays out every struct of the model once. -/
theorem build_spec (hRules : m.StructRules) :
    ∃ table, build m = .ok table ∧ Valid m table ∧ table.size = m.structs.length ∧
      ∀ s ∈ m.structs, ∃ l, table.get? s.name = some l ∧ table.LaidOut s l := by
  obtain ⟨rank, hBound, hRank⟩ := hRules.ranked
  have hEmpty : Valid m {} := ⟨List.nodup_nil, by simp⟩
  have hFuel : ∀ s ∈ m.structs, rank s.name < m.structs.length + 1 :=
    fun s hs => Nat.lt_succ_of_lt (hBound s hs)
  obtain ⟨table, hBuild, hAdded, hAll⟩ :=
    foldlM_compute hRules hRank (fun _ hs => hs) hFuel hBound hEmpty
  have hSubset : m.structs.map (·.name) ⊆ table.layouts.map (·.name) := by
    intro name hName
    obtain ⟨s, hs, rfl⟩ := List.mem_map.mp hName
    obtain ⟨l, hGet⟩ := hAll s hs
    obtain ⟨hl, hName⟩ := get?_eq_some hGet
    exact List.mem_map.mpr ⟨l, hl, hName⟩
  have hLength : m.structs.length ≤ table.size := by
    simpa [LayoutTable.size] using (List.subperm_of_subset hRules.names hSubset).length_le
  refine ⟨table, hBuild, hAdded.valid, Nat.le_antisymm hAdded.valid.size_le hLength,
    fun s hs => ?_⟩
  obtain ⟨l, hGet⟩ := hAll s hs
  exact ⟨l, hGet, hAdded.valid.laidOut hRules.names hs hGet⟩

end NativeBinding.LayoutTable
