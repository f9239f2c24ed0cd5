import NativeBinding.Model.Basic
import NativeBinding.Proofs.Lookup
import NativeBinding.Proofs.Success

/-! # What acceptance says about structs

The checks of `Model.new` as facts about the declarations: distinct names, fields of fixed layout,
declared references, and no struct inside itself. The search for containment leaves an order in
which every struct stands before the structs it holds; the order gives each struct a rank.
-/

set_option autoImplicit false

namespace NativeBinding

theorem fresh_cons_iff {α : Type} {name : α → String} {good : α → Prop} {x : α} {xs : List α}
    {seen : List String} :
    ((∀ y ∈ x :: xs, name y ∉ seen ∧ good y) ∧ ((x :: xs).map name).Nodup) ↔
      name x ∉ seen ∧ good x ∧
        (∀ y ∈ xs, name y ∉ name x :: seen ∧ good y) ∧ (xs.map name).Nodup := by
  rw [List.forall_mem_cons, List.map_cons, List.nodup_cons, List.mem_map]
  simp only [List.mem_cons, not_or]
  constructor
  · rintro ⟨⟨⟨hSeen, hGood⟩, hRest⟩, hFresh, hNodup⟩
    exact ⟨hSeen, hGood, fun y hy => ⟨⟨fun hName => hFresh ⟨y, hy, hName⟩, (hRest y hy).1⟩,
      (hRest y hy).2⟩, hNodup⟩
  · rintro ⟨hSeen, hGood, hRest, hNodup⟩
    refine ⟨⟨⟨hSeen, hGood⟩, fun y hy => ⟨(hRest y hy).1.2, (hRest y hy).2⟩⟩, ?_, hNodup⟩
    rintro ⟨y, hy, hName⟩
    exact (hRest y hy).1.1 hName

/-- A type that names a struct or a class names one of the lists. -/
def TypeRef.Resolves (structs : List StructDecl) (classes : List ClassDecl) : TypeRef → Prop
  | .struct name => ∃ s ∈ structs, s.name = name
  | .object name => ∃ c ∈ classes, c.name = name
  | _ => True

namespace Model

@[simp] theorem rejectModel_ne_ok {α : Type} {cause : ModelError} {a : α} :
    rejectModel cause ≠ Except.ok a := nofun

@[simp] theorem rejectModel_bind {α β : Type} {cause : ModelError} {f : α → Except DeclError β} :
    (rejectModel cause >>= f) = rejectModel cause := rfl

theorem checkFields_eq_ok_iff {owner : String} {fields : List FieldDecl} {seen : List String} :
    checkFields owner seen fields = .ok () ↔
      (∀ f ∈ fields, f.name ∉ seen ∧ f.type.isFixedLayout = true) ∧
        (fields.map (·.name)).Nodup := by
  induction fields generalizing seen with
  | nil => simp [checkFields, pure, Except.pure]
  | cons f fields ih =>
    rw [fresh_cons_iff, checkFields, ← ih]
    by_cases hSeen : f.name ∈ seen
    · simp [hSeen]
    · by_cases hFixed : f.type.isFixedLayout = true <;> simp [hSeen, hFixed]

theorem checkStructs_eq_ok_iff {structs : List StructDecl} {seen : List String} :
    checkStructs seen structs = .ok () ↔
      (∀ s ∈ structs, s.name ∉ seen ∧ checkFields s.name [] s.fields = .ok ()) ∧
        (structs.map (·.name)).Nodup := by
  induction structs generalizing seen with
  | nil => simp [checkStructs, pure, Except.pure]
  | cons s structs ih =>
    rw [fresh_cons_iff, checkStructs, ← ih]
    by_cases hSeen : s.name ∈ seen
    · simp [hSeen]
    · cases hFields : checkFields s.name [] s.fields <;> simp [hSeen, bind, Except.bind]

variable {m : Model}

theorem mem_containedStructs_iff {s t : StructDecl} :
    t ∈ m.containedStructs s ↔
      ∃ f ∈ s.fields, ∃ name, f.type = .struct name ∧ m.findStruct? name = some t := by
  rw [containedStructs, List.mem_filterMap]
  constructor
  · rintro ⟨f, hf, hFind⟩
    obtain ⟨name, hName, hFind⟩ := Option.bind_eq_some_iff.mp hFind
    cases hType : f.type <;> rw [hType] at hName <;> cases hName
    exact ⟨f, hf, name, hType, hFind⟩
  · rintro ⟨f, hf, name, hType, hFind⟩
    exact ⟨f, hf, by rw [hType]; exact hFind⟩

theorem findStruct?_eq_some {name : String} {s : StructDecl} (h : m.findStruct? name = some s) :
    s ∈ m.structs ∧ s.name = name := by
  refine ⟨List.mem_of_find?_eq_some h, ?_⟩
  simpa using List.find?_some h

/-- Every struct on the list stands before those it holds. -/
def Settled (m : Model) : List String → Prop
  | [] => True
  | name :: rest => name ∉ rest ∧
      (∃ s ∈ m.structs, s.name = name ∧ ∀ t ∈ m.containedStructs s, t.name ∈ rest) ∧ m.Settled rest

/-- Settled names have been added to a list, none of them on the path of the search. -/
structure Grown (m : Model) (path before after : List String) : Prop where
  settled : m.Settled after
  keeps : before ⊆ after
  fresh : ∀ name ∈ after, name ∈ before ∨ name ∉ path

theorem Grown.refl {path before : List String} (h : m.Settled before) :
    m.Grown path before before :=
  ⟨h, List.Subset.refl _, fun _ hName => Or.inl hName⟩

theorem Grown.trans {path before middle after : List String} (h : m.Grown path before middle)
    (h' : m.Grown path middle after) : m.Grown path before after where
  settled := h'.settled
  keeps := List.Subset.trans h.keeps h'.keeps
  fresh name hName := (h'.fresh name hName).elim (h.fresh name) Or.inr

theorem foldlM_grown {search : List String → StructDecl → Except DeclError (List String)}
    {path : List String}
    (hSearch : ∀ t ∈ m.structs, ∀ before after, m.Settled before →
      search before t = .ok after → m.Grown path before after ∧ t.name ∈ after)
    {ts : List StructDecl} (hMem : ∀ t ∈ ts, t ∈ m.structs) {before after : List String}
    (hBefore : m.Settled before) (h : ts.foldlM search before = .ok after) :
    m.Grown path before after ∧ ∀ t ∈ ts, t.name ∈ after := by
  induction ts generalizing before with
  | nil =>
    cases h
    exact ⟨.refl hBefore, by simp⟩
  | cons t ts ih =>
    rw [List.foldlM_cons] at h
    cases hFirst : search before t with
    | error e => rw [hFirst] at h; cases h
    | ok middle =>
      rw [hFirst] at h
      obtain ⟨hGrown, hName⟩ := hSearch t (hMem t List.mem_cons_self) before middle hBefore hFirst
      obtain ⟨hGrown', hNames⟩ :=
        ih (fun u hu => hMem u (List.mem_cons_of_mem _ hu)) hGrown.settled h
      refine ⟨hGrown.trans hGrown', fun u hu => ?_⟩
      rcases List.mem_cons.mp hu with rfl | hu
      · exact hGrown'.keeps hName
      · exact hNames u hu

theorem searchContainment_grown {fuel : Nat} {path before after : List String} {s : StructDecl}
    (hs : s ∈ m.structs) (hBefore : m.Settled before)
    (h : m.searchContainment fuel path before s = .ok after) :
    m.Grown path before after ∧ s.name ∈ after := by
  induction fuel generalizing path before after s with
  | zero => exact absurd h rejectModel_ne_ok
  | succ fuel ih =>
    rw [searchContainment] at h
    by_cases hDone : s.name ∈ before
    · rw [if_pos (by simpa using hDone)] at h
      cases h
      exact ⟨.refl hBefore, hDone⟩
    · by_cases hPath : s.name ∈ path
      · rw [if_neg (by simpa using hDone), if_pos (by simpa using hPath)] at h
        exact absurd h rejectModel_ne_ok
      · rw [if_neg (by simpa using hDone), if_neg (by simpa using hPath)] at h
        cases hBelow : (m.containedStructs s).foldlM
          (fun finished t => m.searchContainment fuel (s.name :: path) finished t) before with
        | error e => rw [hBelow] at h; cases h
        | ok below =>
          rw [hBelow] at h
          cases h
          have hHeld : ∀ t ∈ m.containedStructs s, t ∈ m.structs := by
            intro t ht
            obtain ⟨_, _, _, _, hFind⟩ := mem_containedStructs_iff.mp ht
            exact (findStruct?_eq_some hFind).1
          obtain ⟨hGrown, hNames⟩ :=
            foldlM_grown (fun t ht _ _ hSettled hEq => ih ht hSettled hEq) hHeld hBefore hBelow
          have hFresh : s.name ∉ below := by
            intro hMem
            rcases hGrown.fresh _ hMem with hMem | hMem
            · exact hDone hMem
            · exact hMem List.mem_cons_self
          refine ⟨⟨⟨hFresh, ⟨s, hs, rfl, hNames⟩, hGrown.settled⟩, ?_, ?_⟩, List.mem_cons_self⟩
          · exact fun name hName => List.mem_cons_of_mem _ (hGrown.keeps hName)
          · intro name hName
            rcases List.mem_cons.mp hName with rfl | hName
            · exact Or.inr hPath
            · exact (hGrown.fresh name hName).imp_right fun hNot hMem =>
                hNot (List.mem_cons_of_mem _ hMem)

theorem Settled.exists_rank (hNames : (m.structs.map (·.name)).Nodup) {order : List String}
    (h : m.Settled order) :
    ∃ rank : String → Nat, (∀ name ∈ order, rank name < order.length) ∧
      ∀ s ∈ m.structs, s.name ∈ order → ∀ t ∈ m.containedStructs s,
        t.name ∈ order ∧ rank t.name < rank s.name := by
  induction order with
  | nil => exact ⟨fun _ => 0, by simp, by simp⟩
  | cons name rest ih =>
    obtain ⟨hFresh, ⟨s, hs, rfl, hHeld⟩, hRest⟩ := h
    obtain ⟨rank, hBound, hLower⟩ := ih hRest
    have hOld : ∀ other ∈ rest, (if other = s.name then rest.length else rank other) = rank other :=
      fun other hOther => if_neg (by rintro rfl; exact hFresh hOther)
    refine ⟨fun other => if other = s.name then rest.length else rank other, ?_, ?_⟩
    · intro other hOther
      rw [List.length_cons]
      rcases List.mem_cons.mp hOther with rfl | hOther
      · simp
      · have hLt := hBound other hOther
        simp only [hOld other hOther]
        omega
    · intro u hu hMem t ht
      rcases List.mem_cons.mp hMem with hEq | hMem
      · cases List.inj_on_of_nodup_map hNames hu hs hEq
        refine ⟨List.mem_cons_of_mem _ (hHeld t ht), ?_⟩
        simpa only [hOld _ (hHeld t ht), if_true] using hBound _ (hHeld t ht)
      · obtain ⟨hLow, hLt⟩ := hLower u hu hMem t ht
        refine ⟨List.mem_cons_of_mem _ hLow, ?_⟩
        simpa only [hOld _ hLow, hOld _ hMem] using hLt

theorem Settled.nodup {order : List String} (h : m.Settled order) : order.Nodup := by
  induction order with
  | nil => exact List.nodup_nil
  | cons name rest ih => exact List.nodup_cons.mpr ⟨h.1, ih h.2.2⟩

theorem Settled.named {order : List String} (h : m.Settled order) :
    ∀ name ∈ order, ∃ s ∈ m.structs, s.name = name := by
  induction order with
  | nil => exact nofun
  | cons name rest ih =>
    obtain ⟨-, ⟨s, hs, hName, -⟩, hRest⟩ := h
    exact List.forall_mem_cons.mpr ⟨⟨s, hs, hName⟩, ih hRest⟩

theorem Settled.length_le {order : List String} (h : m.Settled order) :
    order.length ≤ m.structs.length :=
  length_le_of_named h.nodup h.named

/-- What holds of the structs of an accepted model. -/
structure StructRules (m : Model) : Prop where
  names : (m.structs.map (·.name)).Nodup
  fieldNames : ∀ s ∈ m.structs, (s.fields.map (·.name)).Nodup
  fixedLayout : ∀ s ∈ m.structs, ∀ f ∈ s.fields, f.type.isFixedLayout = true
  declared : ∀ s ∈ m.structs, ∀ f ∈ s.fields, ∀ name, f.type = .struct name →
    ∃ t, m.findStruct? name = some t
  ranked : ∃ rank : String → Nat, (∀ s ∈ m.structs, rank s.name < m.structs.length) ∧
    ∀ s ∈ m.structs, ∀ t ∈ m.containedStructs s, rank t.name < rank s.name

theorem checkContainment_ranked (hNames : (m.structs.map (·.name)).Nodup)
    (h : m.checkContainment = .ok ()) :
    ∃ rank : String → Nat, (∀ s ∈ m.structs, rank s.name < m.structs.length) ∧
      ∀ s ∈ m.structs, ∀ t ∈ m.containedStructs s, rank t.name < rank s.name := by
  rw [checkContainment] at h
  cases hFold : m.structs.foldlM
      (fun finished s => m.searchContainment (m.structs.length + 1) [] finished s) [] with
  | error e => rw [hFold] at h; cases h
  | ok order =>
    have hSearch : ∀ t ∈ m.structs, ∀ before after, m.Settled before →
        m.searchContainment (m.structs.length + 1) [] before t = .ok after →
        m.Grown [] before after ∧ t.name ∈ after :=
      fun t ht _ _ hSettled hEq => searchContainment_grown ht hSettled hEq
    obtain ⟨hGrown, hAll⟩ :=
      foldlM_grown hSearch (fun _ ht => ht) (show m.Settled [] from trivial) hFold
    obtain ⟨rank, hBound, hLower⟩ := hGrown.settled.exists_rank hNames
    have hLength := hGrown.settled.length_le
    refine ⟨rank, fun s hs => ?_, fun s hs t ht => (hLower s hs (hAll s hs) t ht).2⟩
    have hLt := hBound _ (hAll s hs)
    omega

theorem new_eq_ok_iff {library : LibraryInfo} {structs : List StructDecl}
    {classes : List ClassDecl} :
    new library structs classes = .ok m ↔
      m = { library, structs, classes } ∧ checkStructs [] structs = .ok () ∧
        m.checkClasses [] classes = .ok () ∧ m.checkClosed = .ok () ∧
        m.checkContainment = .ok () ∧ m.checkBases = .ok () := by
  simp only [new, bind_eq_ok_iff]
  constructor
  · rintro ⟨_, hStructs, _, hClasses, _, hClosed, _, hContainment, _, hBases, hEq⟩
    cases hEq
    exact ⟨rfl, hStructs, hClasses, hClosed, hContainment, hBases⟩
  · rintro ⟨rfl, hStructs, hClasses, hClosed, hContainment, hBases⟩
    exact ⟨_, hStructs, _, hClasses, _, hClosed, _, hContainment, _, hBases, rfl⟩

theorem declaresStruct_iff {name : String} :
    m.declaresStruct name = true ↔ ∃ s ∈ m.structs, s.name = name :=
  find?_key_isSome_iff

theorem declaresClass_iff {name : String} :
    m.declaresClass name = true ↔ ∃ c ∈ m.classes, c.name = name :=
  find?_key_isSome_iff

theorem checkReference_eq_ok_iff {type : TypeRef} {site : Site} :
    m.checkReference type site = .ok () ↔ type.Resolves m.structs m.classes := by
  cases type with
  | struct name =>
    rw [checkReference, TypeRef.Resolves, ← declaresStruct_iff]
    by_cases hDeclared : m.declaresStruct name = true <;> simp [hDeclared, pure, Except.pure]
  | object name =>
    rw [checkReference, TypeRef.Resolves, ← declaresClass_iff]
    by_cases hDeclared : m.declaresClass name = true <;> simp [hDeclared, pure, Except.pure]
  | _ => exact iff_of_true rfl trivial

theorem checkClosed_eq_ok_iff :
    m.checkClosed = .ok () ↔
      (∀ s ∈ m.structs, ∀ f ∈ s.fields, f.type.Resolves m.structs m.classes) ∧
        ∀ c ∈ m.classes, ∀ d ∈ c.methods, d.returnType.Resolves m.structs m.classes ∧
          ∀ p ∈ d.params, p.type.Resolves m.structs m.classes := by
  have hStructs : (m.structs.forM fun s => s.fields.forM fun f =>
      m.checkReference f.type (.field s.name f.name)) = .ok () ↔
        ∀ s ∈ m.structs, ∀ f ∈ s.fields, f.type.Resolves m.structs m.classes := by
    refine forM_eq_ok_iff.trans (forall₂_congr fun s _ => ?_)
    exact forM_eq_ok_iff.trans (forall₂_congr fun f _ => checkReference_eq_ok_iff)
  have hClasses : (m.classes.forM fun c => c.methods.forM fun d => d.types.forM fun type =>
      m.checkReference type (.method c.name d.name)) = .ok () ↔
        ∀ c ∈ m.classes, ∀ d ∈ c.methods, d.returnType.Resolves m.structs m.classes ∧
          ∀ p ∈ d.params, p.type.Resolves m.structs m.classes := by
    refine forM_eq_ok_iff.trans (forall₂_congr fun c _ => ?_)
    refine forM_eq_ok_iff.trans (forall₂_congr fun d _ => ?_)
    refine forM_eq_ok_iff.trans ?_
    simp only [checkReference_eq_ok_iff, MethodDecl.types, List.forall_mem_cons,
      List.forall_mem_map]
  rw [← hStructs, ← hClasses]
  exact bind_eq_ok_iff.trans ⟨fun ⟨(), hBoth⟩ => hBoth, fun hBoth => ⟨(), hBoth⟩⟩

theorem structRules_of_new {library : LibraryInfo} {structs : List StructDecl}
    {classes : List ClassDecl} (h : new library structs classes = .ok m) : m.StructRules := by
  obtain ⟨hm, hStructs, -, hClosed, hContainment, -⟩ := new_eq_ok_iff.mp h
  obtain ⟨hFields, hNames⟩ := checkStructs_eq_ok_iff.mp hStructs
  have hSame : m.structs = structs := by rw [hm]
  rw [← hSame] at hFields hNames
  refine ⟨hNames, fun s hs => ?_, fun s hs f hf => ?_, fun s hs f hf name hType => ?_,
    checkContainment_ranked hNames hContainment⟩
  · exact (checkFields_eq_ok_iff.mp (hFields s hs).2).2
  · exact ((checkFields_eq_ok_iff.mp (hFields s hs).2).1 f hf).2
  · have hResolves := (checkClosed_eq_ok_iff.mp hClosed).1 s hs f hf
    rw [hType] at hResolves
    exact Option.isSome_iff_exists.mp (find?_key_isSome_iff.mpr hResolves)

end Model

end NativeBinding
