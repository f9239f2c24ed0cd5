import NativeBinding.Proofs.Model.Search

/-! # Coherent declarations

What a list of structs and a list of classes must satisfy to be a model, said without the checks
that `Model.new` makes. The main statement is that these are all it asks for.
-/

set_option autoImplicit false

namespace NativeBinding

/-- Declarations that fit together. -/
structure Coherent (structs : List StructDecl) (classes : List ClassDecl) : Prop where
  structNames : (structs.map (·.name)).Nodup
  classNames : (classes.map (·.name)).Nodup
  structOrClass : ∀ c ∈ classes, ¬ ∃ s ∈ structs, s.name = c.name
  fieldNames : ∀ s ∈ structs, (s.fields.map (·.name)).Nodup
  fieldTypes : ∀ s ∈ structs, ∀ f ∈ s.fields, (∃ kind, f.type = .scalar kind) ∨
    (∃ width, f.type = .fixedText width) ∨ ∃ name, f.type = .struct name
  methodNames : ∀ c ∈ classes, (c.methods.map (·.name)).Nodup
  fieldsResolve : ∀ s ∈ structs, ∀ f ∈ s.fields, f.type.Resolves structs classes
  methodsResolve : ∀ c ∈ classes, ∀ d ∈ c.methods, d.returnType.Resolves structs classes ∧
    ∀ p ∈ d.params, p.type.Resolves structs classes
  noSelfContainment : ∀ s ∈ structs, ¬ Relation.TransGen (HoldsStruct structs) s s
  basesDeclared : ∀ c ∈ classes, ∀ base, c.base = some base → ∃ d ∈ classes, d.name = base
  noBaseCycle : ∀ c ∈ classes, ¬ Relation.TransGen (StandsOn classes) c c

theorem Coherent.perm {structs structs' : List StructDecl} {classes : List ClassDecl}
    (h : Coherent structs classes) (hPerm : structs'.Perm structs) : Coherent structs' classes := by
  have hHolds : HoldsStruct structs' = HoldsStruct structs := by
    funext s t
    simp only [HoldsStruct, hPerm.mem_iff]
  have hResolves (type : TypeRef) (hType : type.Resolves structs classes) :
      type.Resolves structs' classes := by
    cases type with
    | struct name => exact hType.imp fun s ⟨hs, hName⟩ => ⟨hPerm.mem_iff.mpr hs, hName⟩
    | _ => exact hType
  refine ⟨((hPerm.map _).nodup_iff).mpr h.structNames, h.classNames, ?_, ?_, ?_, h.methodNames,
    ?_, ?_, ?_, h.basesDeclared, h.noBaseCycle⟩
  · simpa only [hPerm.mem_iff] using h.structOrClass
  · simpa only [hPerm.mem_iff] using h.fieldNames
  · simpa only [hPerm.mem_iff] using h.fieldTypes
  · exact fun s hs f hf => hResolves _ (h.fieldsResolve s (hPerm.mem_iff.mp hs) f hf)
  · intro c hc d hd
    obtain ⟨hReturn, hParams⟩ := h.methodsResolve c hc d hd
    exact ⟨hResolves _ hReturn, fun p hp => hResolves _ (hParams p hp)⟩
  · rw [hHolds]
    exact fun s hs => h.noSelfContainment s (hPerm.mem_iff.mp hs)

namespace Model

/-- A model of given declarations: it holds them in their order, and finds each by its name. -/
structure Presents (m : Model) (structs : List StructDecl) (classes : List ClassDecl) : Prop where
  structs_eq : m.structs = structs
  classes_eq : m.classes = classes
  findStruct : ∀ name s, m.findStruct? name = some s ↔ s ∈ structs ∧ s.name = name
  findClass : ∀ name c, m.findClass? name = some c ↔ c ∈ classes ∧ c.name = name
  classPosition : ∀ name i, m.classPosition? name = some i ↔
    ∃ c, classes[i]? = some c ∧ c.name = name

theorem isFixedLayout_iff {type : TypeRef} :
    type.isFixedLayout = true ↔ (∃ kind, type = .scalar kind) ∨
      (∃ width, type = .fixedText width) ∨ ∃ name, type = .struct name := by
  cases type <;> simp [TypeRef.isFixedLayout]

theorem checkMethods_eq_ok_iff {className : String} {methods : List MethodDecl}
    {seen : List String} :
    checkMethods className seen methods = .ok () ↔
      (∀ d ∈ methods, d.name ∉ seen ∧ True) ∧ (methods.map (·.name)).Nodup := by
  induction methods generalizing seen with
  | nil => simp [checkMethods, pure, Except.pure]
  | cons d methods ih =>
    rw [fresh_cons_iff, checkMethods, ← ih]
    by_cases hSeen : d.name ∈ seen <;> simp [hSeen]

variable {m : Model}

theorem checkClasses_eq_ok_iff {classes : List ClassDecl} {seen : List String} :
    m.checkClasses seen classes = .ok () ↔
      (∀ c ∈ classes, c.name ∉ seen ∧
        (m.declaresStruct c.name = false ∧ checkMethods c.name [] c.methods = .ok ())) ∧
        (classes.map (·.name)).Nodup := by
  induction classes generalizing seen with
  | nil => simp [checkClasses, pure, Except.pure]
  | cons c classes ih =>
    rw [fresh_cons_iff, checkClasses, ← ih]
    by_cases hStruct : m.declaresStruct c.name = true
    · simp [hStruct]
    · by_cases hSeen : c.name ∈ seen
      · simp [hStruct, hSeen, bind, Except.bind, rejectModel]
      · cases hMethods : checkMethods c.name [] c.methods <;>
          simp [hStruct, hSeen, bind, Except.bind]

theorem checkStructs_nil_iff {structs : List StructDecl} :
    checkStructs [] structs = .ok () ↔
      (structs.map (·.name)).Nodup ∧ (∀ s ∈ structs, (s.fields.map (·.name)).Nodup) ∧
        ∀ s ∈ structs, ∀ f ∈ s.fields, (∃ kind, f.type = .scalar kind) ∨
          (∃ width, f.type = .fixedText width) ∨ ∃ name, f.type = .struct name := by
  simp only [checkStructs_eq_ok_iff, checkFields_eq_ok_iff, isFixedLayout_iff, List.not_mem_nil,
    not_false_eq_true, true_and]
  constructor
  · rintro ⟨hFields, hNames⟩
    exact ⟨hNames, fun s hs => (hFields s hs).2, fun s hs => (hFields s hs).1⟩
  · rintro ⟨hNames, hDistinct, hTypes⟩
    exact ⟨fun s hs => ⟨hTypes s hs, hDistinct s hs⟩, hNames⟩

theorem checkClasses_nil_iff :
    m.checkClasses [] m.classes = .ok () ↔
      (m.classes.map (·.name)).Nodup ∧
        (∀ c ∈ m.classes, ¬ ∃ s ∈ m.structs, s.name = c.name) ∧
        ∀ c ∈ m.classes, (c.methods.map (·.name)).Nodup := by
  simp only [checkClasses_eq_ok_iff, checkMethods_eq_ok_iff, ← declaresStruct_iff,
    Bool.not_eq_true, List.not_mem_nil, not_false_eq_true, true_and, implies_true, and_self]
  constructor
  · rintro ⟨hClasses, hNames⟩
    exact ⟨hNames, fun c hc => (hClasses c hc).1, fun c hc => (hClasses c hc).2⟩
  · rintro ⟨hNames, hApart, hMethods⟩
    exact ⟨fun c hc => ⟨hApart c hc, hMethods c hc⟩, hNames⟩

theorem checks_iff_coherent :
    (checkStructs [] m.structs = .ok () ∧ m.checkClasses [] m.classes = .ok () ∧
      m.checkClosed = .ok () ∧ m.checkContainment = .ok () ∧ m.checkBases = .ok ()) ↔
        Coherent m.structs m.classes := by
  rw [checkStructs_nil_iff, checkClasses_nil_iff, checkClosed_eq_ok_iff]
  constructor
  · rintro ⟨⟨hStructs, hFields, hTypes⟩, ⟨hClasses, hApart, hMethods⟩, ⟨hInFields, hInMethods⟩,
      hContainment, hBases⟩
    obtain ⟨hDeclared, hNoCycle⟩ := (checkBases_eq_ok_iff hClasses).mp hBases
    exact ⟨hStructs, hClasses, hApart, hFields, hTypes, hMethods, hInFields, hInMethods,
      (checkContainment_eq_ok_iff hStructs).mp hContainment, hDeclared, hNoCycle⟩
  · intro h
    exact ⟨⟨h.structNames, h.fieldNames, h.fieldTypes⟩,
      ⟨h.classNames, h.structOrClass, h.methodNames⟩, ⟨h.fieldsResolve, h.methodsResolve⟩,
      (checkContainment_eq_ok_iff h.structNames).mpr h.noSelfContainment,
      (checkBases_eq_ok_iff h.classNames).mpr ⟨h.basesDeclared, h.noBaseCycle⟩⟩

/-- A model that the checks made. -/
inductive Accepted : Model → Prop
  | new {library : LibraryInfo} {structs : List StructDecl} {classes : List ClassDecl} {m : Model} :
      Model.new library structs classes = .ok m → Accepted m
  | withConstants {m m' : Model} {constants : List ConstDecl} : Accepted m →
      m.withConstants constants = .ok m' → Accepted m'

theorem withConstants_eq_ok {m' : Model} {constants : List ConstDecl}
    (h : m.withConstants constants = .ok m') :
    m' = { m with constants := sortConstants constants } := by
  obtain ⟨_, -, h⟩ := bind_eq_ok_iff.mp h
  obtain ⟨_, -, hEq⟩ := bind_eq_ok_iff.mp h
  cases hEq
  rfl

theorem Accepted.coherent (h : m.Accepted) : Coherent m.structs m.classes := by
  induction h with
  | new h =>
    obtain ⟨rfl, hChecked⟩ := new_eq_ok_iff.mp h
    exact checks_iff_coherent.mp hChecked
  | withConstants _ h ih =>
    rw [withConstants_eq_ok h]
    exact ih

theorem Accepted.structRules (h : m.Accepted) : m.StructRules := by
  induction h with
  | new h => exact structRules_of_new h
  | withConstants _ h ih =>
    rw [withConstants_eq_ok h]
    exact ⟨ih.names, ih.fieldNames, ih.fixedLayout, ih.declared, ih.ranked⟩

theorem presents_of_coherent (h : Coherent m.structs m.classes) :
    m.Presents m.structs m.classes where
  structs_eq := rfl
  classes_eq := rfl
  findStruct _ _ := find?_key_eq_some_iff h.structNames
  findClass _ _ := find?_key_eq_some_iff h.classNames
  classPosition _ _ := findIdx?_key_eq_some_iff h.classNames

/-- Structs and classes make a model exactly when they are coherent, and the model is theirs. -/
theorem new_accepts_coherent (library : LibraryInfo) (structs : List StructDecl)
    (classes : List ClassDecl) :
    ((∃ m, new library structs classes = .ok m) ↔ Coherent structs classes) ∧
      ∀ m, new library structs classes = .ok m → m.Presents structs classes := by
  have hChecks := checks_iff_coherent (m := { library, structs, classes })
  refine ⟨⟨?_, fun hCoherent => ?_⟩, fun m hNew => ?_⟩
  · rintro ⟨m, hNew⟩
    obtain ⟨rfl, hChecked⟩ := new_eq_ok_iff.mp hNew
    exact hChecks.mp hChecked
  · exact ⟨_, new_eq_ok_iff.mpr ⟨rfl, hChecks.mpr hCoherent⟩⟩
  · obtain ⟨rfl, hChecked⟩ := new_eq_ok_iff.mp hNew
    exact presents_of_coherent (hChecks.mp hChecked)

/-- A struct reached on two ways, and a class two bases above its own. -/
def sampleLibrary : Model where
  library := { name := "sample" }
  structs :=
    [⟨"Quote", [⟨"bid", .struct "Level"⟩, ⟨"ask", .struct "Level"⟩, ⟨"at", .struct "Time"⟩]⟩,
      ⟨"Level", [⟨"price", .scalar .f64⟩, ⟨"at", .struct "Time"⟩]⟩,
      ⟨"Time", [⟨"text", .fixedText 9⟩]⟩]
  classes :=
    [{ name := "Feed", base := some "Source"
       methods := [{ name := "Last", returnType := .struct "Quote" }] },
      { name := "Source", base := some "Root" }, { name := "Root" }]

theorem sampleLibrary_coherent :
    Coherent sampleLibrary.structs sampleLibrary.classes ∧
      sampleLibrary.Presents sampleLibrary.structs sampleLibrary.classes :=
  have hNew : new sampleLibrary.library sampleLibrary.structs sampleLibrary.classes =
      .ok sampleLibrary := rfl
  have hAccepts := new_accepts_coherent sampleLibrary.library sampleLibrary.structs
    sampleLibrary.classes
  ⟨hAccepts.1.mp ⟨_, hNew⟩, hAccepts.2 _ hNew⟩

end Model

end NativeBinding
