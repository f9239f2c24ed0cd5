import NativeBinding.Proofs.Binding.Rules
import NativeBinding.Proofs.Model.Coherence
import NativeBinding.Session.Module

/-! # Looking up by native name

The classes of a module have distinct native names, since those of its model do. A lookup takes
native and exposed names alike, though, and stops at the first class that has the name: a class is
found by its native name unless a class before it is exposed under that name. Exposed names are kept
distinct among themselves only, so renames and a stripped prefix can bring that about.
-/

set_option autoImplicit false

namespace NativeBinding

namespace Module

variable {model : Model} {options : GeneratorOptions} {m : Module}

theorem eq_arranged_of_assemble {classes : List ClassBinding} {records : List RecordBinding}
    {constants : List ConstantBinding}
    (h : assemble model options classes records constants = .ok m) :
    ∃ name, options.moduleNameFor model.library.name = .ok name ∧
      arranged model name classes records constants = m := by
  unfold assemble at h
  obtain ⟨name, hName, h⟩ := bind_eq_ok_iff.mp h
  obtain ⟨_, -, h⟩ := bind_eq_ok_iff.mp h
  obtain ⟨_, -, h⟩ := bind_eq_ok_iff.mp h
  obtain ⟨_, -, h⟩ := bind_eq_ok_iff.mp h
  obtain ⟨_, -, hEq⟩ := bind_eq_ok_iff.mp h
  exact ⟨name, hName, Except.ok.inj hEq⟩

theorem generate_eq_ok (h : generate model options = .ok m) :
    ∃ g classes, Generator.new model options = .ok g ∧ g.generateClasses = .ok classes ∧
      m.classes.Perm classes ∧ m.records.Perm g.generateRecords ∧
      m.modelFingerprint = model.fingerprint := by
  obtain ⟨g, hNew, h⟩ := bind_eq_ok_iff.mp h
  obtain ⟨classes, hClasses, h⟩ := bind_eq_ok_iff.mp h
  obtain ⟨_, -, rfl⟩ := eq_arranged_of_assemble h
  exact ⟨g, classes, hNew, hClasses, List.mergeSort_perm _ _, List.mergeSort_perm _ _, rfl⟩

theorem model_of_generator {g : Generator} (h : Generator.new model options = .ok g) :
    g.model = model ∧ g.options = options := by
  obtain ⟨_, -, hEq⟩ := bind_eq_ok_iff.mp h
  cases hEq
  exact ⟨rfl, rfl⟩

theorem classNames_of_generateClasses {g : Generator} {classes : List ClassBinding}
    (h : g.generateClasses = .ok classes) :
    (classes.map (·.className)).Sublist (g.model.classes.map (·.name)) := by
  have hNames : List.Forall₂ (· = ·) (classes.map (·.className))
      ((g.model.classes.filter fun c => !g.filter.isIgnored c.name).map (·.name)) := by
    rw [List.forall₂_map_left_iff, List.forall₂_map_right_iff]
    refine (mapM_eq_ok_iff.mp h).flip.imp fun b c hGenerated => ?_
    exact (Generator.names_of_generate hGenerated).1
  rw [List.forall₂_eq_eq_eq] at hNames
  rw [hNames]
  exact List.filter_sublist.map _

theorem nativeNames_nodup (hModel : model.Accepted) (h : generate model options = .ok m) :
    (m.classes.map (·.className)).Nodup ∧ (m.records.map (·.structName)).Nodup := by
  obtain ⟨g, classes, hNew, hClasses, hPerm, hPermRecords, -⟩ := generate_eq_ok h
  obtain ⟨rfl, -⟩ := model_of_generator hNew
  have hCoherent := hModel.coherent
  constructor
  · rw [(hPerm.map _).nodup_iff]
    exact hCoherent.classNames.sublist (classNames_of_generateClasses hClasses)
  · rw [(hPermRecords.map _).nodup_iff, Generator.generateRecords, List.map_map]
    exact hCoherent.structNames.sublist (List.filter_sublist.map _)

theorem generate_of_className (hModel : model.Accepted) (h : generate model options = .ok m)
    {g : Generator} (hNew : Generator.new model options = .ok g) {b : ClassBinding}
    (hb : b ∈ m.classes) {c : ClassDecl} (hc : c ∈ model.classes) (hName : c.name = b.className) :
    g.generate c = .ok b := by
  obtain ⟨other, classes, hOther, hClasses, hPerm, -⟩ := generate_eq_ok h
  cases hOther.symm.trans hNew
  obtain ⟨rfl, -⟩ := model_of_generator hNew
  obtain ⟨d, hd, hGenerated⟩ := exists_of_mem_mapM hClasses (hPerm.mem_iff.mp hb)
  have hSame : c.name = d.name := hName.trans (Generator.names_of_generate hGenerated).1
  have hDeclared : d ∈ g.model.classes := List.mem_of_mem_filter hd
  rwa [List.inj_on_of_nodup_map hModel.coherent.classNames hc hDeclared hSame]

theorem exposedName_of_generate (h : generate model options = .ok m) {b : ClassBinding}
    (hb : b ∈ m.classes) : b.exposedName = options.exposedName b.className := by
  obtain ⟨g, classes, hNew, hClasses, hPerm, -⟩ := generate_eq_ok h
  obtain ⟨-, rfl⟩ := model_of_generator hNew
  obtain ⟨c, -, hGenerated⟩ := exists_of_mem_mapM hClasses (hPerm.mem_iff.mp hb)
  obtain ⟨hName, hExposed, -⟩ := Generator.names_of_generate hGenerated
  rw [hExposed, hName]

theorem exposedName_of_record (h : generate model options = .ok m) {r : RecordBinding}
    (hr : r ∈ m.records) : r.exposedName = options.exposedName r.structName := by
  obtain ⟨g, _, hNew, -, -, hPerm, -⟩ := generate_eq_ok h
  obtain ⟨-, rfl⟩ := model_of_generator hNew
  obtain ⟨s, -, rfl⟩ := List.mem_map.mp (hPerm.mem_iff.mp hr)
  rfl

/-- What is generated keeps its source as it is rendered. -/
theorem sources_of_generate (h : generate model options = .ok m) :
    (∀ r ∈ m.records, r.source = r.render) ∧ ∀ c ∈ m.classes, c.source = c.render := by
  obtain ⟨g, classes, -, hClasses, hPerm, hPermRecords, -⟩ := generate_eq_ok h
  constructor
  · intro r hr
    obtain ⟨s, -, rfl⟩ := List.mem_map.mp (hPermRecords.mem_iff.mp hr)
    rfl
  · intro c hc
    obtain ⟨d, -, hGenerated⟩ := exists_of_mem_mapM hClasses (hPerm.mem_iff.mp hc)
    exact Generator.source_of_generate hGenerated

/-- No class that stands before it is exposed under its native name. -/
def Unshadowed (m : Module) (c : ClassBinding) : Prop :=
  ∀ before after, m.classes = before ++ c :: after → ∀ d ∈ before, d.exposedName ≠ c.className

def UnshadowedRecord (m : Module) (r : RecordBinding) : Prop :=
  ∀ before after, m.records = before ++ r :: after → ∀ q ∈ before, q.exposedName ≠ r.structName

theorem findClass?_eq_some_iff (hModel : model.Accepted) (h : generate model options = .ok m)
    {c : ClassBinding} (hc : c ∈ m.classes) :
    m.findClass? c.className = some c ↔ m.Unshadowed c :=
  find?_either_eq_some_iff (nativeNames_nodup hModel h).1 hc

theorem findRecord?_eq_some_iff (hModel : model.Accepted) (h : generate model options = .ok m)
    {r : RecordBinding} (hr : r ∈ m.records) :
    m.findRecord? r.structName = some r ↔ m.UnshadowedRecord r :=
  find?_either_eq_some_iff (nativeNames_nodup hModel h).2 hr

/-- Without renames and a prefix, native names are exposed and shadow nothing. -/
theorem unshadowed_of_nativeNames (hModel : model.Accepted)
    (h : generate model options = .ok m) (hRenames : options.renames = [])
    (hPrefix : options.stripPrefix = none) :
    (∀ c, m.Unshadowed c) ∧ ∀ r, m.UnshadowedRecord r := by
  have hSame (name : String) : options.exposedName name = name := by
    simp [GeneratorOptions.exposedName, hRenames, hPrefix]
  obtain ⟨hClasses, hRecords⟩ := nativeNames_nodup hModel h
  constructor
  · intro c before after hSplit d hd
    rw [exposedName_of_generate h (by rw [hSplit]; simp [hd]), hSame]
    rw [hSplit] at hClasses
    exact key_ne_of_nodup hClasses hd
  · intro r before after hSplit q hq
    rw [exposedName_of_record h (by rw [hSplit]; simp [hq]), hSame]
    rw [hSplit] at hRecords
    exact key_ne_of_nodup hRecords hq

end Module

namespace Session.LoadedModule

variable {model : Model} {options : GeneratorOptions} {l : LoadedModule} {name : String}
  {c : ClassBinding}

theorem class?_mem (h : l.class? name = some c) : c ∈ l.bindings.classes := by
  obtain ⟨d, -, hFind⟩ := Option.bind_eq_some_iff.mp h
  exact List.mem_reverse.mp (List.mem_of_find?_eq_some hFind)

theorem apiClass_eq_ok_iff :
    l.apiClass name = .ok c ↔ l.class? name = some c ∧ c.isInterface = false := by
  unfold apiClass
  cases hFind : l.class? name with
  | none => simp
  | some d =>
    by_cases hInterface : d.isInterface = true
    · simp only [hInterface, if_true, Option.some.injEq]
      exact iff_of_false nofun fun ⟨hSame, hFalse⟩ => by simp [← hSame, hInterface] at hFalse
    · simp only [hInterface, Option.some.injEq]
      exact ⟨fun hOk => by cases hOk; exact ⟨rfl, Bool.eq_false_iff.mpr hInterface⟩,
        fun ⟨hSame, _⟩ => by rw [hSame]; rfl⟩

theorem interfaceClass_eq_ok_iff :
    l.interfaceClass name = .ok c ↔ l.class? name = some c ∧ c.isInterface = true := by
  unfold interfaceClass
  cases hFind : l.class? name with
  | none => simp
  | some d =>
    by_cases hInterface : d.isInterface = true
    · simp only [hInterface, if_true, Option.some.injEq, Except.ok.injEq]
      exact ⟨fun hSame => ⟨hSame, hSame ▸ hInterface⟩, And.left⟩
    · simp only [hInterface, Option.some.injEq]
      exact iff_of_false nofun fun ⟨hSame, hTrue⟩ => hInterface (hSame ▸ hTrue)

/-- A loaded module finds the class that its module finds. -/
theorem class?_eq (hModel : model.Accepted) (h : Module.generate model options = .ok l.bindings)
    (name : String) : l.class? name = l.bindings.findClass? name := by
  rw [class?]
  cases hFind : l.bindings.findClass? name with
  | none => rfl
  | some c =>
    have hNames := (Module.nativeNames_nodup hModel h).1
    have hMem : c ∈ l.bindings.classes := List.mem_of_find?_eq_some hFind
    refine (find?_key_eq_some_iff ?_).mpr ⟨List.mem_reverse.mpr hMem, rfl⟩
    rw [List.map_reverse]
    exact List.nodup_reverse.mpr hNames

/-- What a wrapper of a class or a struct reaches by the native name that it passes. -/
theorem reaches_iff_unshadowed (hModel : model.Accepted)
    (h : Module.generate model options = .ok l.bindings) :
    (∀ c ∈ l.bindings.classes,
      (l.bindings.findClass? c.className = some c ↔ l.bindings.Unshadowed c) ∧
      (l.class? c.className = some c ↔ l.bindings.Unshadowed c) ∧
      (l.apiClass c.className = .ok c ↔ l.bindings.Unshadowed c ∧ c.isInterface = false) ∧
      (l.interfaceClass c.className = .ok c ↔ l.bindings.Unshadowed c ∧ c.isInterface = true)) ∧
    (∀ r ∈ l.bindings.records,
      (l.bindings.findRecord? r.structName = some r ↔ l.bindings.UnshadowedRecord r) ∧
      (l.bindings.UnshadowedRecord r →
        l.newRecord r.structName = (l.marshaler.newRecord r.structName).mapError .layout)) ∧
    (options.renames = [] → options.stripPrefix = none →
      (∀ c, l.bindings.Unshadowed c) ∧ ∀ r, l.bindings.UnshadowedRecord r) := by
  refine ⟨fun c hc => ?_, fun r hr => ?_, Module.unshadowed_of_nativeNames hModel h⟩
  · have hFound := Module.findClass?_eq_some_iff hModel h hc
    rw [apiClass_eq_ok_iff, interfaceClass_eq_ok_iff, class?_eq hModel h, hFound]
    exact ⟨Iff.rfl, Iff.rfl, Iff.rfl, Iff.rfl⟩
  · have hFound := Module.findRecord?_eq_some_iff hModel h hr
    refine ⟨hFound, fun hUnshadowed => ?_⟩
    rw [newRecord, hFound.mpr hUnshadowed]

/-- The exposed names of the first class and the first struct are the native names of the second
ones. -/
def sampleShadowing : Model where
  library := { name := "sample" }
  structs := [⟨"CCQuote", [⟨"bid", .scalar .f64⟩]⟩, ⟨"CQuote", [⟨"ask", .scalar .i32⟩]⟩]
  classes :=
    [{ name := "CCApi"
       methods := [{ name := "Create", returnType := .object "CCApi", isStatic := true }] },
      { name := "CApi"
        methods := [{ name := "Create", returnType := .object "CApi", isStatic := true }] }]

def sampleOptions : GeneratorOptions :=
  { moduleName := some "sample", stripPrefix := some "C" }

def sampleApi (className exposedName : String) : ClassBinding :=
  let factory : Trampoline :=
    { name := "Create", kind := .constructor, params := [], returnType := .object className
      returnRule := .object className }
  .rendered { className, exposedName, isInterface := false, constructors := [factory] }

def sampleShadowed : LoadedModule where
  bindings :=
    { name := "sample"
      library := { name := "sample" }
      modelFingerprint := sampleShadowing.fingerprint
      records :=
        [.rendered
          { structName := "CCQuote", exposedName := "CQuote", fields := [⟨"bid", .scalar .f64⟩] },
         .rendered
          { structName := "CQuote", exposedName := "Quote", fields := [⟨"ask", .scalar .i32⟩] }]
      classes := [sampleApi "CCApi" "CApi", sampleApi "CApi" "Api"]
      constants := [] }
  marshaler := ⟨sampleShadowing, (LayoutTable.build sampleShadowing).toOption.getD {}⟩

theorem sampleShadowing_accepted : sampleShadowing.Accepted :=
  have hNew : Model.new sampleShadowing.library sampleShadowing.structs sampleShadowing.classes =
    .ok sampleShadowing := rfl
  .new hNew

theorem generate_sampleShadowing :
    Module.generate sampleShadowing sampleOptions = .ok sampleShadowed.bindings := by
  have hClasses : Module.sortByPosition (fun c => sampleShadowing.classPosition? c.className)
      sampleShadowed.bindings.classes = sampleShadowed.bindings.classes :=
    List.mergeSort_of_pairwise (by decide)
  have hRecords : Module.sortByPosition (fun r => sampleShadowing.structPosition? r.structName)
      sampleShadowed.bindings.records = sampleShadowed.bindings.records :=
    List.mergeSort_of_pairwise (by decide)
  have hConstants : Model.sortConstants [] = [] := List.mergeSort_nil
  calc
    Module.generate sampleShadowing sampleOptions =
        Module.assemble sampleShadowing sampleOptions sampleShadowed.bindings.classes
          sampleShadowed.bindings.records [] := rfl
    _ = .ok sampleShadowed.bindings := by
      rw [Module.assemble, hClasses, hRecords, hConstants]
      rfl

theorem reaches_sample :
    sampleShadowing.Accepted ∧
      Module.generate sampleShadowing sampleOptions = .ok sampleShadowed.bindings ∧
      sampleShadowed.apiClass "CCApi" = .ok (sampleApi "CCApi" "CApi") ∧
      sampleShadowed.apiClass "CApi" ≠ .ok (sampleApi "CApi" "Api") := by
  obtain ⟨hReaches, -, -⟩ := reaches_iff_unshadowed (l := sampleShadowed) sampleShadowing_accepted
    generate_sampleShadowing
  have hFirst : sampleApi "CCApi" "CApi" ∈ sampleShadowed.bindings.classes := List.mem_cons_self
  have hSecond : sampleApi "CApi" "Api" ∈ sampleShadowed.bindings.classes :=
    List.mem_cons_of_mem _ List.mem_cons_self
  refine ⟨sampleShadowing_accepted, generate_sampleShadowing, ?_, fun hReached => ?_⟩
  · refine (hReaches _ hFirst).2.2.1.mpr ⟨fun before after hSplit d hd => ?_, rfl⟩
    have hNames := congrArg (List.map (·.className)) hSplit
    match before, hNames, hd with
    | [_], hNames, _ => simp [sampleShadowed, sampleApi, ClassBinding.rendered] at hNames
    | _ :: _ :: _, hNames, _ => simp [sampleShadowed, sampleApi] at hNames
  · obtain ⟨hUnshadowed, -⟩ := (hReaches _ hSecond).2.2.1.mp hReached
    exact hUnshadowed [sampleApi "CCApi" "CApi"] [] rfl _ List.mem_cons_self rfl

theorem class?_shadowed :
    Module.generate sampleShadowing sampleOptions = .ok sampleShadowed.bindings ∧
      ¬ ∀ c ∈ sampleShadowed.bindings.classes, sampleShadowed.class? c.className = some c := by
  refine ⟨generate_sampleShadowing, fun hAll => ?_⟩
  have hFound : sampleShadowed.class? "CApi" = some (sampleApi "CApi" "Api") :=
    hAll _ (List.mem_cons_of_mem _ List.mem_cons_self)
  have hOther : sampleShadowed.class? "CApi" = some (sampleApi "CCApi" "CApi") := rfl
  exact absurd (hFound.symm.trans hOther) (by decide)

end Session.LoadedModule

end NativeBinding
