import NativeBinding.Proofs.Binding.Declared
import NativeBinding.Proofs.Binding.Decoding
import NativeBinding.Proofs.Binding.Slots
import NativeBinding.Proofs.Module.Files
import NativeBinding.Proofs.Module.Lookup

/-! # A module is read back from its description

The types of a generated module are those of its model, and its rules are the rules of its types. So
its description is the text of a document that can be read and decoded, and gives the module back.
-/

set_option autoImplicit false

namespace NativeBinding

open Json

/-- Every width is one that memory can have. -/
structure Model.Fits (m : Model) : Prop where
  fields : ∀ s ∈ m.structs, ∀ f ∈ s.fields, f.type.Fits
  methods : ∀ c ∈ m.classes, ∀ d ∈ c.methods, ∀ type ∈ d.types, type.Fits

section Methods

variable {model : Model} {c d : ClassDecl}

theorem Model.mem_baseChain {fuel : Nat} (hc : c ∈ model.classes)
    (h : d ∈ model.baseChain fuel c) : d ∈ model.classes := by
  induction fuel generalizing c with
  | zero => exact List.mem_singleton.mp h ▸ hc
  | succ fuel ih =>
    rw [baseChain] at h
    split at h
    · rename_i base hBase
      rcases List.mem_cons.mp h with rfl | hRest
      · exact hc
      · obtain ⟨name, -, hFind⟩ := Option.bind_eq_some_iff.mp hBase
        exact ih (List.mem_of_find?_eq_some hFind) hRest
    · exact List.mem_singleton.mp h ▸ hc

theorem Model.eq_or_mem_of_mem_redeclare {m n : MethodDecl} {methods : List MethodDecl}
    (h : n ∈ redeclare m methods) : n = m ∨ n ∈ methods := by
  induction methods with
  | nil => exact Or.inl (List.mem_singleton.mp h)
  | cons first methods ih =>
    rw [redeclare] at h
    split at h
    · exact (List.mem_cons.mp h).imp_right (List.mem_cons_of_mem _)
    · rcases List.mem_cons.mp h with rfl | hRest
      · exact Or.inr List.mem_cons_self
      · exact (ih hRest).imp_right (List.mem_cons_of_mem _)

/-- Each of the methods is declared in a class. -/
def Model.Declares (model : Model) (methods : List MethodDecl) : Prop :=
  ∀ m ∈ methods, ∃ d ∈ model.classes, m ∈ d.methods

theorem Model.declares_allMethods (hc : c ∈ model.classes) :
    model.Declares (model.allMethods c) := by
  refine List.foldlRecOn (motive := model.Declares) _ _ (fun n hn => absurd hn List.not_mem_nil)
    fun methods hMethods d hd => ?_
  have hDeclared := mem_baseChain hc (List.mem_reverse.mp hd)
  refine List.foldlRecOn (motive := model.Declares) _ _ hMethods
    fun methods hMethods m hm n hn => ?_
  rcases eq_or_mem_of_mem_redeclare hn with rfl | hBefore
  · exact ⟨d, hDeclared, hm⟩
  · exact hMethods n hBefore

end Methods

section Generated

theorem MarshalRule.fits_of_select {type : TypeRef} {rule : MarshalRule}
    (h : select? type = some rule) (hType : type.Fits) : rule.Fits := by
  cases type <;> cases h <;> trivial

namespace Generator

variable {g : Generator} {c : ClassDecl} {b : ClassBinding} {m : MethodDecl}

theorem fits_of_params {bound : List ParamBinding}
    (hDeclared : bound.map ParamBinding.declared = m.params)
    (hCarried : ∀ p ∈ bound, g.Carries p.type p.rule) (hTypes : ∀ type ∈ m.types, type.Fits) :
    ∀ p ∈ bound, p.Fits := by
  intro p hp
  have hParam : p.declared ∈ m.params := hDeclared ▸ List.mem_map_of_mem hp
  have hType : p.type.Fits :=
    hTypes p.type (List.mem_cons_of_mem _ (List.mem_map.mpr ⟨_, hParam, rfl⟩))
  exact ⟨hType, MarshalRule.fits_of_select (hCarried p hp).selected hType⟩

theorem fits_of_declared {t : Trampoline} (hDeclared : t.Declared m) (hLawful : t.Lawful g)
    (hTypes : ∀ type ∈ m.types, type.Fits) : t.Fits := by
  have hReturn : t.returnType.Fits := hDeclared.returned ▸ hTypes _ List.mem_cons_self
  exact ⟨fits_of_params hDeclared.params hLawful.params hTypes, hReturn,
    MarshalRule.fits_of_select hLawful.returned.selected hReturn⟩

theorem slot_of_slotOf? {s : OverrideSlot} (h : g.slotOf? c m = some s) : g.slot m = .ok s := by
  unfold slotOf? at h
  split at h
  · cases h
  · split at h
    · rename_i slot hMember
      cases h
      unfold member at hMember
      split at hMember
      · split at hMember
        · cases hMember
        · obtain ⟨made, hMade, hEq⟩ := map_eq_ok_iff.mp hMember
          cases hEq
          exact hMade
      · obtain ⟨t, -, hEq⟩ := map_eq_ok_iff.mp hMember
        split at hEq <;> cases hEq
    · cases h

theorem fits_of_slot {s : OverrideSlot} (h : g.slot m = .ok s)
    (hTypes : ∀ type ∈ m.types, type.Fits) : s.Fits := by
  have hLawful := slot_lawful h
  obtain ⟨params, hParams, h⟩ := bind_eq_ok_iff.mp h
  obtain ⟨returnRule, -, hEq⟩ := bind_eq_ok_iff.mp h
  cases hEq
  have hReturn : m.returnType.Fits := hTypes _ List.mem_cons_self
  exact ⟨fits_of_params (declared_params hParams) hLawful.params hTypes, hReturn,
    MarshalRule.fits_of_select hLawful.returned.selected hReturn⟩

theorem fits_of_generate (hModel : g.model.Fits) (hc : c ∈ g.model.classes)
    (h : g.generate c = .ok b) : b.Fits := by
  have hTypes {m : MethodDecl} (hm : m ∈ g.model.allMethods c) : ∀ type ∈ m.types, type.Fits := by
    obtain ⟨d, hd, hMethod⟩ := Model.declares_allMethods hc m hm
    exact hModel.methods d hd m hMethod
  have hLawful := lawful_of_generate h
  have hTrampoline {t : Trampoline} (ht : t ∈ b.trampolines) (hLawful : t.Lawful g) : t.Fits := by
    obtain ⟨m, hm, hDeclared⟩ := declared_of_generate h ht
    exact fits_of_declared hDeclared hLawful (hTypes hm)
  refine ⟨fun t ht => hTrampoline (List.mem_append_left _ ht) (hLawful.constructors t ht).2,
    fun t ht => hTrampoline (List.mem_append_right _ ht) (hLawful.methods t ht).2, fun s hs => ?_⟩
  rw [overrides_of_generate h] at hs
  obtain ⟨m, hm, hSlot⟩ := List.mem_filterMap.mp hs
  exact fits_of_slot (slot_of_slotOf? hSlot) (hTypes hm)

end Generator

end Generated

namespace Module

variable {model : Model} {options : GeneratorOptions} {m : Module}

/-- Widths that memory can have, and floating-point constants that are read as they are written. -/
structure Fits (m : Module) : Prop where
  records : ∀ r ∈ m.records, ∀ f ∈ r.fields, f.type.Fits
  classes : ∀ c ∈ m.classes, c.Fits
  constants : ∀ c ∈ m.constants, c.value.ReadsBack

theorem fits_of_generate (hModel : model.Fits) (h : generate model options = .ok m)
    (hConstants : ∀ c ∈ m.constants, c.value.ReadsBack) : m.Fits := by
  obtain ⟨g, classes, hNew, hClasses, hPerm, hPermRecords, -⟩ := generate_eq_ok h
  obtain ⟨rfl, -⟩ := model_of_generator hNew
  refine ⟨fun r hr => ?_, fun c hc => ?_, hConstants⟩
  · obtain ⟨s, hs, rfl⟩ := List.mem_map.mp (hPermRecords.mem_iff.mp hr)
    exact hModel.fields s (List.mem_of_mem_filter hs)
  · obtain ⟨d, hd, hGenerated⟩ := exists_of_mem_mapM hClasses (hPerm.mem_iff.mp hc)
    exact Generator.fits_of_generate hModel (List.mem_of_mem_filter hd) hGenerated

/-- The module as it is described. -/
def bare (m : Module) : Module :=
  { m with records := m.records.map RecordBinding.bare, classes := m.classes.map ClassBinding.bare }

theorem ofJson?_toJson (h : m.Fits) : ofJson? m.toJson = some m.bare := by
  obtain ⟨name, library, modelFingerprint, records, classes, constants⟩ := m
  have hRecords := asList_map_map fun r hr => RecordBinding.ofJson?_toJson (h.records r hr)
  have hClasses := asList_map_map fun c hc => ClassBinding.ofJson?_toJson (h.classes c hc)
  have hConstants := asList_map fun c (_ : c ∈ constants) => ConstDecl.ofJson?_toJson c
  -- The constants are a member only if there are some.
  by_cases hNone : constants = []
  · simp [toJson, ofJson?, bare, fields?, required, withDefault, asText,
      LibraryInfo.ofJson?_toJson, hRecords, hClasses, hNone]
  · simp [toJson, ofJson?, bare, fields?, required, withDefault, asText,
      LibraryInfo.ofJson?_toJson, hRecords, hClasses, hConstants, hNone]

theorem rendered_bare (m : Module) : m.bare.rendered = m.rendered := by
  rw [rendered, bare, List.map_map, List.map_map]
  rfl

/-- Rendering a generated module again changes nothing. -/
theorem rendered_of_generate (h : generate model options = .ok m) : m.rendered = m := by
  obtain ⟨hRecords, hClasses⟩ := sources_of_generate h
  have hRecordsSame : m.records.map RecordBinding.rendered = m.records := by
    refine List.map_congr_left (fun r hr => ?_) |>.trans (List.map_id _)
    rw [RecordBinding.rendered, ← hRecords r hr]
    rfl
  have hClassesSame : m.classes.map ClassBinding.rendered = m.classes := by
    refine List.map_congr_left (fun c hc => ?_) |>.trans (List.map_id _)
    rw [ClassBinding.rendered, ← hClasses c hc]
    rfl
  rw [rendered, hRecordsSame, hClassesSame]

theorem readable_toJson {depth : Nat} (h : m.Fits) : Readable (depth + 9) m.toJson := by
  have hRecords : Readable (depth + 8) (.array (m.records.map RecordBinding.toJson)) :=
    readable_list fun r hr => RecordBinding.readable_toJson (h.records r hr)
  have hClasses : Readable (depth + 8) (.array (m.classes.map ClassBinding.toJson)) :=
    readable_list fun c hc => ClassBinding.readable_toJson (h.classes c hc)
  have hConstants : Readable (depth + 8) (.array (m.constants.map ConstDecl.toJson)) :=
    readable_list fun c hc => ConstDecl.readable_toJson (h.constants c hc)
  rw [toJson, readable_object_iff]
  split <;> simp [LibraryInfo.readable_toJson, hRecords, hClasses, hConstants]

/-- What is read is the module with its sources rendered, whatever they were. -/
theorem ofSurface_surface (h : m.Fits) : ofSurface m.surface = .ok m.rendered := by
  have hReadable : Readable (118 + 9) m.toJson := readable_toJson h
  rw [ofSurface, surface, parse?_indented hReadable, Option.bind_some, ofJson?_toJson h]
  exact congrArg Except.ok m.rendered_bare

/-- The description among the files of a generated module is read as the module itself, with the
sources that it does not hold, if every floating-point constant is read as it is written. -/
theorem surface_roundTrip (hModel : model.Fits) (h : generate model options = .ok m)
    (hConstants : ∀ c ∈ m.constants, ∀ x, c.value = .float x →
      Number.read? (floatText x) = some (.float x)) (maxLines : Nat) :
    ∃ text, (m.toFiles maxLines).text? surfaceFile = some text ∧ ofSurface text = .ok m := by
  have hReadsBack : ∀ c ∈ m.constants, c.value.ReadsBack := by
    intro c hc
    cases hValue : c.value with
    | float x => exact hConstants c hc x hValue
    | _ => trivial
  refine ⟨m.surface, text?_toFiles List.mem_cons_self, ?_⟩
  rw [ofSurface_surface (fits_of_generate hModel h hReadsBack), rendered_of_generate h]

/-- A record with a text, and a rate of one half. -/
def sampleRated : Model where
  library := { name := "sample" }
  structs := [⟨"Quote", [⟨"code", .fixedText 4⟩, ⟨"price", .scalar .f64⟩]⟩]
  constants := [⟨"RATE", .float ⟨0x3fe0000000000000⟩⟩]

def sampleRatedBindings : Module where
  name := "sample"
  library := { name := "sample" }
  modelFingerprint := sampleRated.fingerprint
  records := sampleRated.structs.map fun s =>
    .rendered { structName := s.name, exposedName := s.name, fields := s.fields }
  classes := []
  constants := [⟨"RATE", .float ⟨0x3fe0000000000000⟩⟩]

theorem generate_sampleRated :
    generate sampleRated { moduleName := some "sample" } = .ok sampleRatedBindings := by
  have hClasses : sortByPosition
      (fun c : ClassBinding => sampleRated.classPosition? c.className) [] = [] :=
    List.mergeSort_nil
  have hRecords : sortByPosition (fun r : RecordBinding => sampleRated.structPosition? r.structName)
      sampleRatedBindings.records = sampleRatedBindings.records :=
    List.mergeSort_singleton _
  have hConstants : Model.sortConstants sampleRated.constants = sampleRated.constants :=
    List.mergeSort_singleton _
  calc
    generate sampleRated { moduleName := some "sample" } =
        assemble sampleRated { moduleName := some "sample" } [] sampleRatedBindings.records
          sampleRated.constants := rfl
    _ = .ok sampleRatedBindings := by
      rw [assemble, hClasses, hRecords, hConstants]
      rfl

theorem read?_half : Number.read? (floatText ⟨0x3fe0000000000000⟩) =
    some (.float ⟨0x3fe0000000000000⟩) := by
  have hFloat : ((Number.read? (floatText ⟨0x3fe0000000000000⟩)).bind fun
      | .float x => some x
      | _ => none) = some ⟨0x3fe0000000000000⟩ := by decide +kernel
  obtain ⟨value, hRead, hValue⟩ := Option.bind_eq_some_iff.mp hFloat
  cases value <;> simp_all

theorem surface_roundTrip_sample :
    generate sampleRated { moduleName := some "sample" } = .ok sampleRatedBindings ∧
      ∃ text, (sampleRatedBindings.toFiles 100).text? surfaceFile = some text ∧
        ofSurface text = .ok sampleRatedBindings := by
  have hFits : sampleRated.Fits := by
    refine ⟨fun s hs f hf => ?_, fun c hc => by cases hc⟩
    cases List.mem_singleton.mp hs
    rcases List.mem_cons.mp hf with rfl | hf
    · exact (by decide : 4 < UInt64.size)
    · cases List.mem_singleton.mp hf
      trivial
  refine ⟨generate_sampleRated, surface_roundTrip hFits generate_sampleRated ?_ 100⟩
  intro c hc x hx
  cases List.mem_singleton.mp hc
  cases hx
  exact read?_half

end Module

end NativeBinding
