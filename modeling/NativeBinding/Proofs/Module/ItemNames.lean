import NativeBinding.Module.Files
import NativeBinding.Proofs.Module.Assembly

/-! # The names of records and classes in generated source

A record or a class is defined under its exposed name as it is; only constants get the raw form of a
keyword. The names are identifiers and distinct from each other, from the constants and from the
items of every module. They are not compared with the keywords, nor with what the template imports.
-/

set_option autoImplicit false

namespace NativeBinding

namespace Source

/-- Words that are kept for later keywords. -/
def laterKeywords : List String :=
  ["abstract", "become", "box", "do", "final", "macro", "override", "priv", "try", "typeof",
    "unsized", "virtual", "yield"]

/-- The words that cannot stand as a name in generated source. -/
def reserved : List String :=
  keywords ++ unspellable ++ laterKeywords

/-- The names that a line imports, those after its last colon. -/
def importsOf (line : String) : List String :=
  let last := (line.toList.reverse.takeWhile fun c => c != ':').reverse
  ((last.splitOnP fun c => !Text.continuesIdentifier c).filter fun name => !name.isEmpty).map
    String.ofList

/-- The names that every module imports. -/
def importedNames : List String :=
  importLines.flatMap importsOf

theorem importedNames_eq : importedNames =
    ["Arc", "ApiObject", "BridgeError", "CallError", "LoadedModule", "ScriptObject", "SpiObject",
      "Record", "Value"] := by
  cbv

/-- A definition that names a struct, after comments of its own. -/
def Defines (definition name : String) : Prop :=
  ∃ comments ending rest,
    definition = lines (comments ++ ("pub struct " ++ name ++ ending) :: rest) ∧
      (∀ line ∈ comments, "///".toList <+: line.toList) ∧
      ending ∈ [";", "(pub ApiObject);"]

theorem defines_record (r : RecordBinding) : Defines r.render r.exposedName :=
  ⟨["/// Record for native struct `" ++ r.structName ++ "`."], ";", _, rfl, by simp, by decide⟩

theorem defines_class (c : ClassBinding) : Defines c.render c.exposedName := by
  unfold ClassBinding.render
  split
  · exact ⟨["/// Overridable wrapper for native interface `" ++ c.className ++ "`.", "///",
      "/// Handler methods named after a hook are called from the native callback thread",
      "/// under the runtime lock; unimplemented hooks return their default."], ";", _, rfl,
      by simp, by decide⟩
  · exact ⟨["/// Wrapper for native class `" ++ c.className ++ "`."], "(pub ApiObject);", _, rfl,
      by simp, by decide⟩

end Source

namespace Module

open Source

def structNames (m : Module) : List String :=
  m.records.map (·.exposedName) ++ m.classes.map (·.exposedName)

/-- All names that the file of a module brings into scope, once for each time. -/
def scope (m : Module) : List String :=
  importedNames ++ (ownItems ++ m.exposedNames.map Prod.fst)

/-- A name that can be defined as it is, and that nothing else in the file has. -/
structure Usable (m : Module) (name : String) : Prop where
  identifier : Text.isIdentifier name = true
  unreserved : name ∉ reserved
  alone : m.scope.count name = 1

instance (m : Module) (name : String) : Decidable (m.Usable name) :=
  decidable_of_iff (Text.isIdentifier name = true ∧ name ∉ reserved ∧ m.scope.count name = 1)
    ⟨fun h => ⟨h.1, h.2.1, h.2.2⟩, fun h => ⟨h.1, h.2, h.3⟩⟩

variable {model : Model} {options : GeneratorOptions} {m : Module} {name : String}

theorem mem_exposedNames_of_structNames (h : name ∈ m.structNames) :
    name ∈ m.exposedNames.map Prod.fst := by
  simp only [structNames, exposedNames, List.map_append, List.map_map, Function.comp_def,
    List.mem_append] at h ⊢
  exact .inl h

theorem itemNames_of_generate (h : generate model options = .ok m) :
    (∀ name ∈ m.exposedNames.map Prod.fst,
      Text.isIdentifier name = true ∧ name ∉ unspellable) ∧
    (ownItems ++ m.exposedNames.map Prod.fst).Nodup := by
  obtain ⟨hNames, hDistinct⟩ := checkNames_eq_ok_iff.mp (checkNames_of_generate h)
  have hOwn : (ownItems.map (·, "module")).map Prod.fst = ownItems := rfl
  rw [hOwn, ← List.forall_mem_map (P := fun n => n ∉ ownItems ∧ isItemName n = true)] at hNames
  refine ⟨fun name hName => isItemName_iff.mp (hNames name hName).2, ?_⟩
  exact List.nodup_append'.mpr ⟨by decide, hDistinct,
    List.disjoint_right.mpr fun name hName => (hNames name hName).1⟩

/-- A name is alone in scope if it is not imported, since the checks keep all others apart. -/
theorem count_scope (h : generate model options = .ok m) (hName : name ∈ m.structNames) :
    m.scope.count name = 1 ↔ name ∉ importedNames := by
  have hMem : name ∈ ownItems ++ m.exposedNames.map Prod.fst :=
    List.mem_append_right _ (mem_exposedNames_of_structNames hName)
  have hOnce := List.count_eq_one_of_mem (itemNames_of_generate h).2 hMem
  rw [scope, List.count_append, hOnce, Nat.add_eq_right, List.count_eq_zero]

theorem defines_of_generate (h : generate model options = .ok m) :
    (∀ r ∈ m.records, Defines r.source r.exposedName) ∧
      ∀ c ∈ m.classes, Defines c.source c.exposedName := by
  obtain ⟨hRecords, hClasses⟩ := sources_of_generate h
  exact ⟨fun r hr => hRecords r hr ▸ defines_record r,
    fun c hc => hClasses c hc ▸ defines_class c⟩

/-- Records and classes of a generated module are defined under their exposed names as they are, and
these can be used unless one is a keyword or has the name of an import. -/
theorem usable_iff_of_generate (h : generate model options = .ok m) :
    (∀ r ∈ m.records, Defines r.source r.exposedName) ∧
    (∀ c ∈ m.classes, Defines c.source c.exposedName) ∧
    ∀ name ∈ m.structNames,
      m.Usable name ↔ name ∉ keywords ∧ name ∉ laterKeywords ∧ name ∉ importedNames := by
  obtain ⟨hRecords, hClasses⟩ := defines_of_generate h
  refine ⟨hRecords, hClasses, fun name hName => ?_⟩
  obtain ⟨hIdentifier, hSpellable⟩ :=
    (itemNames_of_generate h).1 name (mem_exposedNames_of_structNames hName)
  have hScope := count_scope h hName
  constructor
  · rintro ⟨-, hFree, hAlone⟩
    simp only [reserved, List.mem_append, not_or] at hFree
    exact ⟨hFree.1.1, hFree.2, hScope.mp hAlone⟩
  · rintro ⟨hKeyword, hLater, hImported⟩
    refine ⟨hIdentifier, ?_, hScope.mpr hImported⟩
    simp only [reserved, List.mem_append, not_or]
    exact ⟨⟨hKeyword, hSpellable⟩, hLater⟩

/-- A struct that has a keyword as its name, one that has the name of an import, and one between. -/
def sampleNamed : Model where
  library := { name := "named" }
  structs :=
    [⟨"match", [⟨"bid", .scalar .f64⟩]⟩, ⟨"Tick", [⟨"bid", .scalar .f64⟩]⟩,
      ⟨"Value", [⟨"bid", .scalar .f64⟩]⟩]

def sampleNamedOptions : GeneratorOptions :=
  { moduleName := some "named" }

def sampleNamedBindings : Module where
  name := "named"
  library := { name := "named" }
  modelFingerprint := sampleNamed.fingerprint
  records := sampleNamed.structs.map fun s =>
    .rendered { structName := s.name, exposedName := s.name, fields := s.fields }
  classes := []
  constants := []

theorem generate_sampleNamed : generate sampleNamed sampleNamedOptions = .ok sampleNamedBindings := by
  have hNew : Model.new sampleNamed.library sampleNamed.structs [] = .ok sampleNamed := rfl
  rw [generate_of_accepted (.new hNew)]
  rfl

theorem usable_iff_sample :
    generate sampleNamed sampleNamedOptions = .ok sampleNamedBindings ∧ sampleNamedBindings.Usable "Tick" := by
  obtain ⟨-, -, hUsable⟩ := usable_iff_of_generate generate_sampleNamed
  refine ⟨generate_sampleNamed, (hUsable "Tick" (by decide)).mpr ⟨by decide, by decide, ?_⟩⟩
  rw [importedNames_eq]
  decide

/-- A keyword is defined as it is, and so is a name that the file imports. -/
theorem usable_counterexample :
    generate sampleNamed sampleNamedOptions = .ok sampleNamedBindings ∧
      (∃ r ∈ sampleNamedBindings.records, Defines r.source "match" ∧
        ¬ sampleNamedBindings.Usable "match") ∧
      ∃ r ∈ sampleNamedBindings.records, Defines r.source "Value" ∧
        ¬ sampleNamedBindings.Usable "Value" := by
  obtain ⟨hDefines, -⟩ := defines_of_generate generate_sampleNamed
  have hFirst := hDefines _ (.head _)
  have hLast := hDefines _ (.tail _ (.tail _ (.head _)))
  refine ⟨generate_sampleNamed, ⟨_, .head _, hFirst, fun h => ?_⟩,
    ⟨_, .tail _ (.tail _ (.head _)), hLast, fun h => ?_⟩⟩
  · exact h.unreserved (by decide)
  · have hTwice : "Value" ∈ importedNames := by
      rw [importedNames_eq]
      decide
    exact (count_scope generate_sampleNamed (by decide)).mp h.alone hTwice

end Module

end NativeBinding
