import NativeBinding.Model.Json
import NativeBinding.Proofs.Json.Unambiguous
import NativeBinding.Proofs.Model.Coherence

/-! # The document form of a model is one-to-one

Each part of a declaration stands in its document under a name or a tag of its own, so declarations
with one document are the same. The constants of a model are finite, so its document is known from
its compact text.
-/

set_option autoImplicit false

namespace NativeBinding

namespace Json

theorem optionText_injective : Function.Injective optionText := by
  intro a b h
  cases a <;> cases b <;> simp_all [optionText]

theorem strings_injective : Function.Injective strings := by
  intro as bs h
  exact List.map_injective_iff.mpr (fun _ _ hText => text.inj hText) (array.inj h)

theorem nat_injective : Function.Injective nat := by
  intro n m h
  exact Int.ofNat.inj (int.inj h)

section Finite

variable {α : Type}

attribute [simp] Finite.null Finite.bool Finite.int Finite.text

theorem finite_object_iff {members : List (String × Json)} :
    Finite (object members) ↔ ∀ m ∈ members, Finite m.2 :=
  ⟨fun h => by cases h; assumption, .object⟩

@[simp] theorem finite_optionText (value : Option String) : Finite (optionText value) := by
  cases value <;> simp [optionText]

@[simp] theorem finite_strings (texts : List String) : Finite (strings texts) :=
  .array fun item hItem => by
    obtain ⟨value, -, rfl⟩ := List.mem_map.mp hItem
    exact .text value

@[simp] theorem finite_nat (n : Nat) : Finite (nat n) :=
  .int n

theorem finite_list {f : α → Json} {xs : List α} (h : ∀ x ∈ xs, Finite (f x)) :
    Finite (array (xs.map f)) :=
  .array fun item hItem => by
    obtain ⟨x, hx, rfl⟩ := List.mem_map.mp hItem
    exact h x hx

end Finite

end Json

section Injective

theorem ScalarKind.ofName?_name (kind : ScalarKind) : ofName? kind.name = some kind := by
  cases kind <;> rfl

theorem ScalarKind.toJson_injective : Function.Injective ScalarKind.toJson := by
  intro k j h
  have hName := ofName?_name k
  rw [Json.text.inj h, ofName?_name] at hName
  exact (Option.some.inj hName).symm

theorem TypeRef.toJson_injective : Function.Injective TypeRef.toJson := by
  intro s t h
  cases s <;> cases t <;> simp_all [toJson, ScalarKind.toJson_injective.eq_iff,
    Json.nat_injective.eq_iff]

theorem LibraryInfo.toJson_injective : Function.Injective LibraryInfo.toJson := by
  intro a b h
  cases a
  cases b
  simp_all [toJson, Json.optionText_injective.eq_iff, Json.strings_injective.eq_iff]

theorem Param.toJson_injective : Function.Injective Param.toJson := by
  intro p q h
  cases p
  cases q
  simp_all [toJson, TypeRef.toJson_injective.eq_iff, Json.optionText_injective.eq_iff]

theorem MethodDecl.toJson_injective : Function.Injective MethodDecl.toJson := by
  intro m n h
  cases m
  cases n
  simp_all [toJson, TypeRef.toJson_injective.eq_iff,
    (List.map_injective_iff.mpr Param.toJson_injective).eq_iff]

theorem ClassDecl.toJson_injective : Function.Injective ClassDecl.toJson := by
  intro c d h
  cases c
  cases d
  simp_all [toJson, Json.optionText_injective.eq_iff,
    (List.map_injective_iff.mpr MethodDecl.toJson_injective).eq_iff]

theorem FieldDecl.toJson_injective : Function.Injective FieldDecl.toJson := by
  intro f g h
  cases f
  cases g
  simp_all [toJson, TypeRef.toJson_injective.eq_iff]

theorem StructDecl.toJson_injective : Function.Injective StructDecl.toJson := by
  intro s t h
  cases s
  cases t
  simp_all [toJson, (List.map_injective_iff.mpr FieldDecl.toJson_injective).eq_iff]

theorem ConstValue.toJson_injective : Function.Injective ConstValue.toJson := by
  intro v w h
  cases v <;> cases w <;> simp_all [toJson, Int64.toInt_inj]

theorem ConstDecl.toJson_injective : Function.Injective ConstDecl.toJson := by
  intro c d h
  cases c
  cases d
  simp_all [toJson, ConstValue.toJson_injective.eq_iff]

theorem Model.toJson_injective : Function.Injective Model.toJson := by
  intro m n h
  cases m
  cases n
  simp_all [toJson, LibraryInfo.toJson_injective.eq_iff,
    (List.map_injective_iff.mpr StructDecl.toJson_injective).eq_iff,
    (List.map_injective_iff.mpr ClassDecl.toJson_injective).eq_iff,
    (List.map_injective_iff.mpr ConstDecl.toJson_injective).eq_iff]

end Injective

section Finite

open Json

theorem ScalarKind.finite_toJson (kind : ScalarKind) : Finite kind.toJson :=
  .text _

theorem TypeRef.finite_toJson (type : TypeRef) : Finite type.toJson := by
  cases type <;> simp [toJson, finite_object_iff, ScalarKind.finite_toJson]

theorem LibraryInfo.finite_toJson (library : LibraryInfo) : Finite library.toJson := by
  simp [toJson, finite_object_iff]

theorem Param.finite_toJson (p : Param) : Finite p.toJson := by
  simp [toJson, finite_object_iff, TypeRef.finite_toJson]

theorem MethodDecl.finite_toJson (m : MethodDecl) : Finite m.toJson := by
  simp [toJson, finite_object_iff, TypeRef.finite_toJson,
    finite_list fun p (_ : p ∈ m.params) => p.finite_toJson]

theorem ClassDecl.finite_toJson (c : ClassDecl) : Finite c.toJson := by
  simp [toJson, finite_object_iff, finite_list fun m (_ : m ∈ c.methods) => m.finite_toJson]

theorem FieldDecl.finite_toJson (f : FieldDecl) : Finite f.toJson := by
  simp [toJson, finite_object_iff, TypeRef.finite_toJson]

theorem StructDecl.finite_toJson (s : StructDecl) : Finite s.toJson := by
  simp [toJson, finite_object_iff, finite_list fun f (_ : f ∈ s.fields) => f.finite_toJson]

theorem ConstValue.finite_toJson {v : ConstValue} (h : v.isFinite = true) : Finite v.toJson := by
  cases v with
  | float x => exact .float h
  | _ => simp [toJson]

theorem ConstDecl.finite_toJson {c : ConstDecl} (h : c.value.isFinite = true) :
    Finite c.toJson := by
  simp [toJson, finite_object_iff, ConstValue.finite_toJson h]

namespace Model

variable {m m' : Model}

theorem finite_of_checkConstant {c : ConstDecl} (h : m.checkConstant c = .ok ()) :
    c.value.isFinite = true := by
  unfold checkConstant at h
  split_ifs at h <;> simp_all

theorem Accepted.finite_constants (h : m.Accepted) :
    ∀ c ∈ m.constants, c.value.isFinite = true := by
  cases h with
  | new h =>
    obtain ⟨rfl, -⟩ := new_eq_ok_iff.mp h
    exact fun c hc => by cases hc
  | withConstants _ h =>
    obtain ⟨_, -, h⟩ := bind_eq_ok_iff.mp h
    obtain ⟨_, hChecked, hEq⟩ := bind_eq_ok_iff.mp h
    cases hEq
    exact fun c hc => finite_of_checkConstant (forM_eq_ok_iff.mp hChecked c hc)

theorem Accepted.finite_toJson (h : m.Accepted) : Finite m.toJson := by
  refine .array ?_
  simp only [List.forall_mem_cons, List.not_mem_nil, false_implies, implies_true, and_true]
  exact ⟨m.library.finite_toJson, finite_list fun s _ => s.finite_toJson,
    finite_list fun c _ => c.finite_toJson,
    finite_list fun c hc => ConstDecl.finite_toJson (h.finite_constants c hc)⟩

/-- Accepted models have the same text only when they are the same. -/
theorem Accepted.compact_inj (h : m.Accepted) (h' : m'.Accepted) :
    m.toJson.compact = m'.toJson.compact ↔ m = m' :=
  ⟨fun hText => toJson_injective (compact_injective h.finite_toJson h'.finite_toJson hText),
    fun hSame => hSame ▸ rfl⟩

/-- A model that one of the constructors made, or the reader of declaration files. -/
inductive Constructed : Model → Prop
  | new {library : LibraryInfo} {structs : List StructDecl} {classes : List ClassDecl} {m : Model} :
      Model.new library structs classes = .ok m → Constructed m
  | withConstants {m m' : Model} {constants : List ConstDecl} : Constructed m →
      m.withConstants constants = .ok m' → Constructed m'
  | parse {input : String} {m : Model} : Model.parse input = .ok m → Constructed m

theorem accepted_of_parse {input : String} (h : Model.parse input = .ok m) : m.Accepted := by
  obtain ⟨file, -, h⟩ := bind_eq_ok_iff.mp h
  obtain ⟨_, -, h⟩ := bind_eq_ok_iff.mp h
  obtain ⟨_, -, h⟩ := bind_eq_ok_iff.mp h
  obtain ⟨_, -, h⟩ := bind_eq_ok_iff.mp h
  obtain ⟨_, hNew, h⟩ := bind_eq_ok_iff.mp h
  exact .withConstants (.new hNew) h

theorem Constructed.accepted (h : m.Constructed) : m.Accepted := by
  induction h with
  | new h => exact .new h
  | withConstants _ h ih => exact .withConstants ih h
  | parse h => exact accepted_of_parse h

end Model

end Finite

end NativeBinding
