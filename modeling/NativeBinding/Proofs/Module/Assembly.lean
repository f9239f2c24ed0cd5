import Mathlib.Data.List.Sort
import NativeBinding.Proofs.Module.Lookup

/-! # What makes bindings one module

Bindings of one generator make a module when their exposed names, taken together, are spellable and
distinct. Nothing depends on the order in which they come: bindings of one declaration are the same,
so a sort by position or by name brings every order of them into one. The module therefore lists
records and classes as its model declares them, and a binding that comes twice is refused with its
name.
-/

set_option autoImplicit false

namespace NativeBinding

section Sorting

variable {α κ : Type} [LE κ] [DecidableLE κ] [Std.IsLinearOrder κ] {key : α → κ}

theorem pairwise_mergeSort_key (xs : List α) :
    (xs.mergeSort fun a b => key a ≤ key b).Pairwise fun a b => key a ≤ key b := by
  refine (List.pairwise_mergeSort (fun a b c hab hbc => ?_) (fun a b => ?_) xs).imp
    of_decide_eq_true
  · exact decide_eq_true (Std.le_trans (of_decide_eq_true hab) (of_decide_eq_true hbc))
  · simpa using Std.le_total

theorem mergeSort_key_eq_of_perm {xs ys : List α}
    (hSame : ∀ a ∈ xs, ∀ b ∈ xs, key a = key b → a = b) (hPerm : xs.Perm ys) :
    (xs.mergeSort fun a b => key a ≤ key b) = ys.mergeSort fun a b => key a ≤ key b := by
  refine List.Perm.eq_of_pairwise (fun a b ha hb hab hba => ?_) (pairwise_mergeSort_key xs)
    (pairwise_mergeSort_key ys)
    ((List.mergeSort_perm xs _).trans (hPerm.trans (List.mergeSort_perm ys _).symm))
  exact hSame a (List.mem_mergeSort.mp ha) b (hPerm.mem_iff.mpr (List.mem_mergeSort.mp hb))
    (Std.le_antisymm hab hba)

end Sorting

theorem Model.sortConstants_eq (constants : List ConstDecl) :
    sortConstants constants = constants.mergeSort fun a b => a.name ≤ b.name := by
  simp only [sortConstants, ← decide_not, String.not_lt]

section Position

variable {δ : Type} {declared : List δ} {nameOf : δ → String}

/-- The place of a name among declared ones. -/
private def place (declared : List δ) (nameOf : δ → String) (name : String) : Nat :=
  (declared.findIdx? fun d => nameOf d == name).getD 0

private theorem place_eq (hNames : (declared.map nameOf).Nodup) {i : Nat}
    (hi : i < (declared.map nameOf).length) :
    place declared nameOf (declared.map nameOf)[i] = i := by
  have hLength : i < declared.length := by simpa using hi
  have hFind : (declared.findIdx? fun d => nameOf d == nameOf declared[i]) = some i :=
    (findIdx?_key_eq_some_iff hNames).mpr ⟨_, List.getElem?_eq_getElem hLength, rfl⟩
  rw [place, List.getElem_map, hFind, Option.getD_some]

private theorem place_inj (hNames : (declared.map nameOf).Nodup) {name name' : String}
    (hName : name ∈ declared.map nameOf) (hName' : name' ∈ declared.map nameOf)
    (h : place declared nameOf name = place declared nameOf name') : name = name' := by
  obtain ⟨i, hi, rfl⟩ := List.mem_iff_getElem.mp hName
  obtain ⟨j, hj, rfl⟩ := List.mem_iff_getElem.mp hName'
  rw [place_eq hNames hi, place_eq hNames hj] at h
  subst h
  rfl

private theorem places_ascend (hNames : (declared.map nameOf).Nodup) :
    (declared.map nameOf).Pairwise fun a b => place declared nameOf a < place declared nameOf b := by
  refine List.pairwise_iff_getElem.mpr fun i j hi hj hLt => ?_
  simpa only [place_eq hNames hi, place_eq hNames hj] using hLt

private theorem sublist_of_places (hNames : (declared.map nameOf).Nodup) {names : List String}
    (hDeclared : names ⊆ declared.map nameOf) (hDistinct : names.Nodup)
    (hOrder : names.Pairwise fun a b => place declared nameOf a ≤ place declared nameOf b) :
    names.Sublist (declared.map nameOf) := by
  let before (a b : String) : Prop := place declared nameOf a < place declared nameOf b
  have hAntisymm : Std.Antisymm before :=
    ⟨fun a b hab hba => absurd (Nat.lt_trans hab hba) (Nat.lt_irrefl _)⟩
  have hBefore : names.Pairwise before := by
    refine (hOrder.and hDistinct).imp_of_mem fun ha hb ⟨hLe, hNe⟩ => ?_
    have hPlaces := mt (place_inj hNames (hDeclared ha) (hDeclared hb)) hNe
    exact Nat.lt_of_le_of_ne hLe hPlaces
  have hSubperm : names.Subperm (declared.map nameOf) := List.subperm_of_subset hDistinct hDeclared
  exact List.sublist_of_subperm_of_pairwise hSubperm hBefore (places_ascend hNames)

theorem Module.sortByPosition_of_sublist {α : Type} {key : α → String} {items : List α}
    (hNames : (declared.map nameOf).Nodup)
    (hOrder : (items.map key).Sublist (declared.map nameOf)) :
    sortByPosition (fun x => declared.findIdx? fun d => nameOf d == key x) items = items := by
  refine List.mergeSort_of_pairwise ?_
  refine (List.pairwise_map.mp ((places_ascend hNames).sublist hOrder)).imp fun hLt => ?_
  exact decide_eq_true (Nat.le_of_lt hLt)

end Position

namespace Model

variable {model : Model}

theorem sorted_of_checkDistinctConstants {constants : List ConstDecl}
    (hSorted : constants.Pairwise fun a b => a.name ≤ b.name)
    (h : checkDistinctConstants constants = .ok ()) :
    constants.Pairwise fun a b => a.name < b.name := by
  induction constants with
  | nil => exact .nil
  | cons a constants ih =>
    obtain ⟨hFirst, hRest⟩ := List.pairwise_cons.mp hSorted
    cases constants with
    | nil => exact List.pairwise_singleton _ _
    | cons b rest =>
      rw [checkDistinctConstants] at h
      have hNe : a.name ≠ b.name := fun hSame => by simp [hSame] at h
      have hBelow : a.name < b.name :=
        String.not_le.mp fun hLe => hNe (String.le_antisymm (hFirst b List.mem_cons_self) hLe)
      have hStrict := ih hRest (by simpa [hNe] using h)
      refine List.pairwise_cons.mpr ⟨fun c hc => ?_, hStrict⟩
      rcases List.mem_cons.mp hc with rfl | hc
      · exact hBelow
      · exact String.lt_trans hBelow ((List.pairwise_cons.mp hStrict).1 c hc)

theorem Accepted.constantOrder (h : model.Accepted) :
    model.constants.Pairwise fun a b => a.name < b.name := by
  cases h with
  | new h =>
    obtain ⟨rfl, -⟩ := new_eq_ok_iff.mp h
    exact .nil
  | withConstants _ h =>
    obtain ⟨_, hDistinct, -⟩ := bind_eq_ok_iff.mp h
    rw [withConstants_eq_ok h]
    refine sorted_of_checkDistinctConstants ?_ hDistinct
    rw [sortConstants_eq]
    exact pairwise_mergeSort_key _

theorem Accepted.constantNames (h : model.Accepted) : (model.constants.map (·.name)).Nodup := by
  refine List.pairwise_map.mpr (h.constantOrder.imp fun hLt hSame => ?_)
  rw [hSame] at hLt
  exact String.lt_irrefl _ hLt

end Model

/-- The name that a module asks for, or that its library gives it. -/
def GeneratorOptions.givenName (options : GeneratorOptions) (library : String) : String :=
  options.moduleName.getD
    (library.map fun c => if c == '-' || c == '.' || c == ' ' then '_' else c)

theorem GeneratorOptions.moduleNameFor_eq_ok_iff {options : GeneratorOptions}
    {library name : String} :
    options.moduleNameFor library = .ok name ↔
      name = options.givenName library ∧ Text.isIdentifier (options.givenName library) = true := by
  have hName : options.moduleNameFor library =
      if Text.isIdentifier (options.givenName library) then .ok (options.givenName library)
      else .error (.moduleName (options.givenName library)) := by
    unfold moduleNameFor givenName
    cases options.moduleName <;> rfl
  rw [hName]
  by_cases hIdentifier : Text.isIdentifier (options.givenName library) = true
  · simp [hIdentifier, eq_comm]
  · simp [hIdentifier]

/-- Bindings that a generator makes of declarations of its model. Some may be left out, and some may
come more than once. -/
structure Generator.Produces (g : Generator) (classes : List ClassBinding)
    (records : List RecordBinding) (constants : List ConstantBinding) : Prop where
  classes : ∀ b ∈ classes, ∃ c ∈ g.model.classes, g.generate c = .ok b
  records : ∀ r ∈ records, ∃ s ∈ g.model.structs, g.generateRecord s = r
  constants : ∀ k ∈ constants, k ∈ g.generateConstants

namespace Generator.Produces

variable {g : Generator} {classes classes' : List ClassBinding}
  {records records' : List RecordBinding} {constants constants' : List ConstantBinding}

theorem perm (h : g.Produces classes records constants) (hClasses : classes'.Perm classes)
    (hRecords : records'.Perm records) (hConstants : constants'.Perm constants) :
    g.Produces classes' records' constants' where
  classes b hb := h.classes b (hClasses.mem_iff.mp hb)
  records r hr := h.records r (hRecords.mem_iff.mp hr)
  constants k hk := h.constants k (hConstants.mem_iff.mp hk)

theorem className_mem (h : g.Produces classes records constants) {b : ClassBinding}
    (hb : b ∈ classes) : b.className ∈ g.model.classes.map (·.name) := by
  obtain ⟨c, hc, hGenerated⟩ := h.classes b hb
  rw [(Generator.names_of_generate hGenerated).1]
  exact List.mem_map_of_mem hc

theorem structName_mem (h : g.Produces classes records constants) {r : RecordBinding}
    (hr : r ∈ records) : r.structName ∈ g.model.structs.map (·.name) := by
  obtain ⟨s, hs, rfl⟩ := h.records r hr
  exact List.mem_map_of_mem hs

theorem constant_mem (h : g.Produces classes records constants) {k : ConstantBinding}
    (hk : k ∈ constants) : k ∈ g.model.constants := by
  have hExposed := h.constants k hk
  unfold generateConstants at hExposed
  split at hExposed
  · exact List.mem_of_mem_filter hExposed
  · cases hExposed

theorem of_generateClasses (h : g.generateClasses = .ok classes) :
    g.Produces classes g.generateRecords g.generateConstants where
  classes b hb := by
    obtain ⟨c, hc, hGenerated⟩ := exists_of_mem_mapM h hb
    exact ⟨c, List.mem_of_mem_filter hc, hGenerated⟩
  records r hr := by
    obtain ⟨s, hs, rfl⟩ := List.mem_map.mp hr
    exact ⟨s, List.mem_of_mem_filter hs, rfl⟩
  constants k hk := hk

theorem class_eq (hModel : g.model.Accepted) (h : g.Produces classes records constants)
    {a b : ClassBinding} (ha : a ∈ classes) (hb : b ∈ classes)
    (hSame : a.className = b.className) : a = b := by
  obtain ⟨c, hc, hGenerated⟩ := h.classes a ha
  obtain ⟨d, hd, hGenerated'⟩ := h.classes b hb
  rw [(Generator.names_of_generate hGenerated).1, (Generator.names_of_generate hGenerated').1]
    at hSame
  obtain rfl := List.inj_on_of_nodup_map hModel.coherent.classNames hc hd hSame
  exact Except.ok.inj (hGenerated.symm.trans hGenerated')

theorem record_eq (hModel : g.model.Accepted) (h : g.Produces classes records constants)
    {a b : RecordBinding} (ha : a ∈ records) (hb : b ∈ records)
    (hSame : a.structName = b.structName) : a = b := by
  obtain ⟨s, hs, rfl⟩ := h.records a ha
  obtain ⟨t, ht, rfl⟩ := h.records b hb
  rw [List.inj_on_of_nodup_map hModel.coherent.structNames hs ht hSame]

theorem constant_eq (hModel : g.model.Accepted) (h : g.Produces classes records constants)
    {a b : ConstantBinding} (ha : a ∈ constants) (hb : b ∈ constants) (hSame : a.name = b.name) :
    a = b :=
  List.inj_on_of_nodup_map hModel.constantNames (h.constant_mem ha) (h.constant_mem hb) hSame

end Generator.Produces

namespace Module

theorem isItemName_iff {name : String} :
    isItemName name = true ↔ Text.isIdentifier name = true ∧ name ∉ Source.unspellable := by
  simp [isItemName]

theorem checkNames_eq_ok_iff {taken names : List (String × String)} :
    checkNames taken names = .ok () ↔
      (∀ n ∈ names, n.1 ∉ taken.map Prod.fst ∧ isItemName n.1 = true) ∧
        (names.map Prod.fst).Nodup := by
  -- From any names that are taken, since an accepted name is taken for those after it.
  induction names generalizing taken with
  | nil => simp [checkNames, pure, Except.pure]
  | cons n names ih =>
    obtain ⟨exposed, native⟩ := n
    rw [fresh_cons_iff, checkNames]
    by_cases hItem : isItemName exposed = true
    · cases hFind : taken.find? fun t => t.1 == exposed with
      | some t =>
        have hTaken : exposed ∈ taken.map Prod.fst := by
          obtain rfl : t.1 = exposed := by simpa using List.find?_some hFind
          exact List.mem_map_of_mem (List.mem_of_find?_eq_some hFind)
        simp [hItem, hTaken]
      | none =>
        have hFree : exposed ∉ taken.map Prod.fst := by
          intro hTaken
          obtain ⟨t, ht, hName⟩ := List.mem_map.mp hTaken
          exact List.find?_eq_none.mp hFind t ht (by simpa using hName)
        simpa only [hItem, hFree, Bool.not_true, Bool.false_eq_true, if_false, not_false_eq_true,
          true_and, List.map_cons] using @ih ((exposed, native) :: taken)
    · simp [hItem]

theorem checkNames_of_generate {model : Model} {options : GeneratorOptions} {m : Module}
    (h : generate model options = .ok m) :
    checkNames (ownItems.map (·, "module")) m.exposedNames = .ok () := by
  obtain ⟨g, -, h⟩ := bind_eq_ok_iff.mp h
  obtain ⟨classes, -, h⟩ := bind_eq_ok_iff.mp h
  unfold assemble at h
  obtain ⟨name, -, h⟩ := bind_eq_ok_iff.mp h
  obtain ⟨_, -, h⟩ := bind_eq_ok_iff.mp h
  obtain ⟨_, -, h⟩ := bind_eq_ok_iff.mp h
  obtain ⟨_, -, h⟩ := bind_eq_ok_iff.mp h
  obtain ⟨_, hNames, hEq⟩ := bind_eq_ok_iff.mp h
  cases hEq
  exact hNames

def namesOf (classes : List ClassBinding) (records : List RecordBinding)
    (constants : List ConstantBinding) : List String :=
  records.map (·.exposedName) ++ classes.map (·.exposedName) ++ constants.map (·.name)

/-- The names of bindings are those of a module: all of them are items of its source, and none is
there twice. -/
structure Assemblable (options : GeneratorOptions) (library : String) (names : List String) :
    Prop where
  moduleName : Text.isIdentifier (options.givenName library) = true
  identifiers : ∀ name ∈ names, Text.isIdentifier name = true
  spellable : ∀ name ∈ names, name ∉ ["_", "crate", "self", "Self", "super"]
  distinct : (["MODULE_NAME", "MODEL_FINGERPRINT", "RECORDS", "CLASSES", "SURFACE_JSON"] ++
    names).Nodup

/-- A module of given bindings, in the order of their model. -/
structure Lists (m : Module) (model : Model) (options : GeneratorOptions)
    (classes : List ClassBinding) (records : List RecordBinding)
    (constants : List ConstantBinding) : Prop where
  name : m.name = options.givenName model.library.name
  library : m.library = model.library
  modelFingerprint : m.modelFingerprint = model.fingerprint
  records : m.records.Perm records
  recordOrder : (m.records.map (·.structName)).Sublist (model.structs.map (·.name))
  classes : m.classes.Perm classes
  classOrder : (m.classes.map (·.className)).Sublist (model.classes.map (·.name))
  constants : m.constants.Perm constants
  constantOrder : m.constants.Pairwise fun a b => a.name < b.name

variable {g : Generator} {options : GeneratorOptions} {classes classes' : List ClassBinding}
  {records records' : List RecordBinding} {constants constants' : List ConstantBinding}

theorem namesOf_arranged (model : Model) (name : String) :
    ((arranged model name classes records constants).exposedNames.map Prod.fst).Perm
      (namesOf classes records constants) := by
  simp only [exposedNames, namesOf, List.map_append, List.map_map, Function.comp_def]
  refine .append (.append ?_ ?_) ?_
  · exact (List.mergeSort_perm records _).map _
  · exact (List.mergeSort_perm classes _).map _
  · exact (List.mergeSort_perm constants _).map _

theorem arranged_eq_of_perm (hModel : g.model.Accepted)
    (h : g.Produces classes records constants) (hClasses : classes.Perm classes')
    (hRecords : records.Perm records') (hConstants : constants.Perm constants') (name : String) :
    arranged g.model name classes records constants =
      arranged g.model name classes' records' constants' := by
  have hClassOrder : sortByPosition (fun c => g.model.classPosition? c.className) classes =
      sortByPosition (fun c => g.model.classPosition? c.className) classes' := by
    refine mergeSort_key_eq_of_perm (fun a ha b hb hSame => ?_) hClasses
    exact h.class_eq hModel ha hb (place_inj hModel.coherent.classNames (h.className_mem ha)
      (h.className_mem hb) hSame)
  have hRecordOrder : sortByPosition (fun r => g.model.structPosition? r.structName) records =
      sortByPosition (fun r => g.model.structPosition? r.structName) records' := by
    refine mergeSort_key_eq_of_perm (fun a ha b hb hSame => ?_) hRecords
    exact h.record_eq hModel ha hb (place_inj hModel.coherent.structNames (h.structName_mem ha)
      (h.structName_mem hb) hSame)
  have hConstantOrder : Model.sortConstants constants = Model.sortConstants constants' := by
    rw [Model.sortConstants_eq, Model.sortConstants_eq]
    exact mergeSort_key_eq_of_perm (fun a ha b hb => h.constant_eq hModel ha hb) hConstants
  rw [arranged, arranged, hClassOrder, hRecordOrder, hConstantOrder]

theorem assemble_of_produces (h : g.Produces classes records constants) :
    assemble g.model options classes records constants = (do
      let name ← options.moduleNameFor g.model.library.name
      let m := arranged g.model name classes records constants
      checkNames (ownItems.map (·, "module")) m.exposedNames
      pure m) := by
  refine assemble_of_declared (fun r hr => ?_) (fun b hb => ?_) (fun k hk => ?_) options
  · exact Model.declaresStruct_iff.mpr (List.mem_map.mp (h.structName_mem hr))
  · exact Model.declaresClass_iff.mpr (List.mem_map.mp (h.className_mem hb))
  · exact find?_key_isSome_iff.mpr ⟨k, h.constant_mem hk, rfl⟩

/-- What a generator makes stands in the order of its model: a module lists it as it comes. -/
theorem arranged_of_generateClasses (hModel : g.model.Accepted)
    (hClasses : g.generateClasses = .ok classes) (name : String) :
    arranged g.model name classes g.generateRecords g.generateConstants =
      { name
        library := g.model.library
        modelFingerprint := g.model.fingerprint
        records := g.generateRecords
        classes
        constants := g.generateConstants } := by
  have hRecordNames : (g.generateRecords.map (·.structName)).Sublist
      (g.model.structs.map (·.name)) := by
    rw [Generator.generateRecords, List.map_map]
    exact List.filter_sublist.map _
  have hConstants : g.generateConstants.Sublist g.model.constants := by
    rw [Generator.generateConstants]
    split
    · exact List.filter_sublist
    · exact List.nil_sublist _
  have hClassOrder : sortByPosition (fun c => g.model.classPosition? c.className) classes =
      classes :=
    sortByPosition_of_sublist hModel.coherent.classNames (classNames_of_generateClasses hClasses)
  have hRecordOrder : sortByPosition (fun r => g.model.structPosition? r.structName)
      g.generateRecords = g.generateRecords :=
    sortByPosition_of_sublist hModel.coherent.structNames hRecordNames
  have hConstantOrder : Model.sortConstants g.generateConstants = g.generateConstants := by
    rw [Model.sortConstants_eq]
    refine List.mergeSort_of_pairwise ((hModel.constantOrder.sublist hConstants).imp fun hLt => ?_)
    exact decide_eq_true (Std.le_of_lt hLt)
  rw [arranged, hClassOrder, hRecordOrder, hConstantOrder]

/-- A generated module of an accepted model, with nothing sorted. -/
theorem generate_of_accepted {model : Model} (hModel : model.Accepted)
    (options : GeneratorOptions) :
    generate model options = (do
      let g ← Generator.new model options
      let classes ← g.generateClasses
      let name ← options.moduleNameFor model.library.name
      let m : Module :=
        { name
          library := model.library
          modelFingerprint := model.fingerprint
          records := g.generateRecords
          classes
          constants := g.generateConstants }
      checkNames (ownItems.map (·, "module")) m.exposedNames
      pure m) := by
  unfold generate
  cases hNew : Generator.new model options with
  | error _ => rfl
  | ok g =>
    obtain ⟨rfl, rfl⟩ := model_of_generator hNew
    cases hClasses : g.generateClasses with
    | error _ => simp only [bind, Except.bind, hClasses]
    | ok classes =>
      have hAssembled : assemble g.model g.options classes g.generateRecords g.generateConstants =
          _ := assemble_of_produces (.of_generateClasses hClasses)
      simp only [arranged_of_generateClasses hModel hClasses] at hAssembled
      simpa only [bind, Except.bind, hClasses] using hAssembled

theorem checkNames_arranged_iff (model : Model) (name : String) :
    checkNames (ownItems.map (·, "module"))
        (arranged model name classes records constants).exposedNames = .ok () ↔
      (∀ exposed ∈ namesOf classes records constants, isItemName exposed = true) ∧
        (ownItems ++ namesOf classes records constants).Nodup := by
  have hPerm : ((arranged model name classes records constants).exposedNames.map Prod.fst).Perm
      (namesOf classes records constants) := namesOf_arranged model name
  have hOwn : (ownItems.map (·, "module")).map Prod.fst = ownItems := rfl
  have hOwnDistinct : ownItems.Nodup := by decide
  rw [checkNames_eq_ok_iff, hOwn,
    ← List.forall_mem_map (P := fun n => n ∉ ownItems ∧ isItemName n), hPerm.nodup_iff]
  simp only [hPerm.mem_iff, List.nodup_append', List.disjoint_right, hOwnDistinct, true_and]
  constructor
  · rintro ⟨hNames, hDistinct⟩
    exact ⟨fun n hn => (hNames n hn).2, hDistinct, fun n hn => (hNames n hn).1⟩
  · rintro ⟨hItems, hDistinct, hFree⟩
    exact ⟨fun n hn => ⟨hFree hn, hItems n hn⟩, hDistinct⟩

theorem assemblable_iff {names : List String} {library : String} :
    Assemblable options library names ↔ Text.isIdentifier (options.givenName library) = true ∧
      (∀ name ∈ names, isItemName name = true) ∧ (ownItems ++ names).Nodup := by
  simp only [isItemName_iff]
  constructor
  · intro h
    exact ⟨h.moduleName, fun n hn => ⟨h.identifiers n hn, h.spellable n hn⟩, h.distinct⟩
  · rintro ⟨hName, hItems, hDistinct⟩
    exact ⟨hName, fun n hn => (hItems n hn).1, fun n hn => (hItems n hn).2, hDistinct⟩

theorem assemble_eq_ok_iff (h : g.Produces classes records constants) {m : Module} :
    assemble g.model options classes records constants = .ok m ↔
      Assemblable options g.model.library.name (namesOf classes records constants) ∧
        m = arranged g.model (options.givenName g.model.library.name) classes records
          constants := by
  rw [assemble_of_produces h, assemblable_iff]
  simp only [bind_eq_ok_iff, GeneratorOptions.moduleNameFor_eq_ok_iff]
  constructor
  · rintro ⟨_, ⟨rfl, hName⟩, _, hChecked, hEq⟩
    cases hEq
    exact ⟨⟨hName, (checkNames_arranged_iff _ _).mp hChecked⟩, rfl⟩
  · rintro ⟨⟨hName, hNames⟩, rfl⟩
    exact ⟨_, ⟨rfl, hName⟩, (), (checkNames_arranged_iff _ _).mpr hNames, rfl⟩

theorem sublist_of_arranged {α δ : Type} {declared : List δ} {nameOf : δ → String}
    {items : List α} {key exposed : α → String} (rename : String → String)
    (hNames : (declared.map nameOf).Nodup) (hDeclared : ∀ x ∈ items, key x ∈ declared.map nameOf)
    (hExposed : ∀ x ∈ items, exposed x = rename (key x)) (hDistinct : (items.map exposed).Nodup) :
    ((sortByPosition (fun x => declared.findIdx? fun d => nameOf d == key x) items).map key).Sublist
      (declared.map nameOf) := by
  have hKeys : (items.map key).Nodup := by
    refine List.Nodup.of_map rename ?_
    rw [List.map_map]
    rwa [List.map_congr_left hExposed] at hDistinct
  refine sublist_of_places hNames (fun name hName => ?_) ?_ ?_
  · obtain ⟨x, hx, rfl⟩ := List.mem_map.mp hName
    exact hDeclared x (List.mem_mergeSort.mp hx)
  · exact ((List.mergeSort_perm items _).map key).nodup_iff.mpr hKeys
  · exact List.pairwise_map.mpr (pairwise_mergeSort_key items)

theorem lists_of_assemble (hModel : g.model.Accepted) (h : g.Produces classes records constants)
    {m : Module} (hAssembled : assemble g.model g.options classes records constants = .ok m) :
    m.Lists g.model g.options classes records constants := by
  obtain ⟨hFits, rfl⟩ := (assemble_eq_ok_iff h).mp hAssembled
  obtain ⟨-, hDistinct, -⟩ := List.nodup_append'.mp hFits.distinct
  obtain ⟨hApart, hConstantNames, -⟩ := List.nodup_append'.mp hDistinct
  obtain ⟨hRecordNames, hClassNames, -⟩ := List.nodup_append'.mp hApart
  refine ⟨rfl, rfl, rfl, List.mergeSort_perm _ _, ?_, List.mergeSort_perm _ _, ?_,
    List.mergeSort_perm _ _, ?_⟩
  · refine sublist_of_arranged g.options.exposedName hModel.coherent.structNames
      (fun r => h.structName_mem) (fun r hr => ?_) hRecordNames
    obtain ⟨s, -, rfl⟩ := h.records r hr
    rfl
  · refine sublist_of_arranged g.options.exposedName hModel.coherent.classNames
      (fun b => h.className_mem) (fun b hb => ?_) hClassNames
    obtain ⟨c, -, hGenerated⟩ := h.classes b hb
    obtain ⟨hName, hExposed, -⟩ := Generator.names_of_generate hGenerated
    rw [hExposed, hName]
  · have hSorted : (Model.sortConstants constants).Pairwise fun a b => a.name ≤ b.name := by
      rw [Model.sortConstants_eq]
      exact pairwise_mergeSort_key constants
    have hNames : ((Model.sortConstants constants).map (·.name)).Nodup :=
      ((List.mergeSort_perm constants _).map _).nodup_iff.mpr hConstantNames
    refine (hSorted.and (List.pairwise_map.mp hNames)).imp fun ⟨hLe, hNe⟩ => ?_
    exact String.not_le.mp fun hGe => hNe (String.le_antisymm hLe hGe)

/-- Bindings make a module exactly when their names fit, in whatever order they come, and the module
lists them as the model declares them. -/
theorem assemble_decides {model : Model} (hModel : model.Accepted)
    (hNew : Generator.new model options = .ok g) (h : g.Produces classes records constants) :
    ((∃ m, assemble model options classes records constants = .ok m) ↔
      Assemblable options model.library.name (namesOf classes records constants)) ∧
    (∀ classes' records' constants', classes.Perm classes' → records.Perm records' →
      constants.Perm constants' →
      assemble model options classes' records' constants' =
        assemble model options classes records constants) ∧
    ∀ m, assemble model options classes records constants = .ok m →
      m.Lists model options classes records constants := by
  obtain ⟨rfl, rfl⟩ := model_of_generator hNew
  refine ⟨?_, fun classes' records' constants' hClasses hRecords hConstants => ?_,
    fun m => lists_of_assemble hModel h⟩
  · simp only [assemble_eq_ok_iff h, exists_and_left, exists_eq, and_true]
  · have h' := h.perm hClasses.symm hRecords.symm hConstants.symm
    rw [assemble_of_produces h, assemble_of_produces h']
    simp only [arranged_eq_of_perm hModel h hClasses hRecords hConstants]

/-- Two structs that stand against the order of their names, a class and a constant. -/
def sampleDeclared : Model where
  library := { name := "quote-feed" }
  structs := [⟨"Quote", [⟨"bid", .scalar .f64⟩]⟩, ⟨"Level", [⟨"price", .scalar .f64⟩]⟩]
  classes := [{ name := "Feed" }]
  constants := [⟨"Lot", .int 100⟩]

def sampleDeclaredOptions : GeneratorOptions :=
  { moduleName := some "feed" }

def sampleDeclaredGenerator : Generator where
  model := sampleDeclared
  options := sampleDeclaredOptions
  filter := { isIgnored := fun _ => false, isNoCallback := fun _ => false }

def sampleDeclaredRecords : List RecordBinding :=
  sampleDeclared.structs.reverse.map fun s =>
    .rendered { structName := s.name, exposedName := s.name, fields := s.fields }

def sampleDeclaredFeed : ClassBinding :=
  .rendered { className := "Feed", exposedName := "Feed", isInterface := false }

theorem sampleDeclared_accepted : sampleDeclared.Accepted := by
  have hNew : Model.new sampleDeclared.library sampleDeclared.structs sampleDeclared.classes =
    .ok { sampleDeclared with constants := [] } := rfl
  have hSort : Model.sortConstants sampleDeclared.constants = sampleDeclared.constants :=
    List.mergeSort_singleton _
  have hConstants : Model.withConstants { sampleDeclared with constants := [] }
      sampleDeclared.constants = .ok sampleDeclared := by
    rw [Model.withConstants, hSort]
    rfl
  exact .withConstants (.new hNew) hConstants

theorem sampleDeclared_produces {classes : List ClassBinding}
    (hClasses : ∀ b ∈ classes, b = sampleDeclaredFeed) :
    sampleDeclaredGenerator.Produces classes sampleDeclaredRecords sampleDeclared.constants where
  classes b hb := by
    rw [hClasses b hb]
    exact ⟨{ name := "Feed" }, List.mem_cons_self, rfl⟩
  records r hr := by
    obtain ⟨s, hs, rfl⟩ := List.mem_map.mp hr
    exact ⟨s, List.mem_reverse.mp hs, rfl⟩
  constants k hk := hk

theorem assemble_decides_sample :
    sampleDeclared.Accepted ∧
      Generator.new sampleDeclared sampleDeclaredOptions = .ok sampleDeclaredGenerator ∧
      (∃ m, assemble sampleDeclared sampleDeclaredOptions [sampleDeclaredFeed]
          sampleDeclaredRecords sampleDeclared.constants = .ok m ∧
        m.records.map (·.structName) = ["Quote", "Level"]) ∧
      ¬ ∃ m, assemble sampleDeclared sampleDeclaredOptions [sampleDeclaredFeed, sampleDeclaredFeed]
          sampleDeclaredRecords sampleDeclared.constants = .ok m := by
  have hNew : Generator.new sampleDeclared sampleDeclaredOptions = .ok sampleDeclaredGenerator :=
    rfl
  obtain ⟨hFits, -, hLists⟩ := assemble_decides sampleDeclared_accepted hNew
    (sampleDeclared_produces (by decide : ∀ b ∈ [sampleDeclaredFeed], b = sampleDeclaredFeed))
  obtain ⟨hTwice, -⟩ := assemble_decides sampleDeclared_accepted hNew (sampleDeclared_produces
    (by decide : ∀ b ∈ [sampleDeclaredFeed, sampleDeclaredFeed], b = sampleDeclaredFeed))
  refine ⟨sampleDeclared_accepted, hNew, ?_, fun hBoth => ?_⟩
  · obtain ⟨m, hAssembled⟩ := hFits.mpr ⟨by decide, by decide, by decide, by decide⟩
    have hLength := ((hLists m hAssembled).records.map (·.structName)).length_eq
    exact ⟨m, hAssembled, (hLists m hAssembled).recordOrder.eq_of_length hLength⟩
  · exact absurd (hTwice.mp hBoth).distinct (by decide)

end Module

end NativeBinding
