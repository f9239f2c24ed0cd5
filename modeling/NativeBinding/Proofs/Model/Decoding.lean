import NativeBinding.Proofs.Json.Parsing
import NativeBinding.Proofs.Model.Encoding

/-! # Declarations are decoded as they were encoded

The document form of a declaration gives the declaration back, and its text can be read. Widths have
to be counts of 64 bits, and a floating-point constant has to be read as it is written.
-/

set_option autoImplicit false

namespace NativeBinding

namespace Json

variable {α β : Type}

theorem asNat_nat {n : Nat} (h : n < UInt64.size) : asNat (nat n) = some n := by
  have hRange : 0 ≤ (n : Int) ∧ (n : Int) < (UInt64.size : Nat) :=
    ⟨Int.natCast_nonneg n, Int.ofNat_lt.mpr h⟩
  rw [nat, asNat, if_pos hRange, Int.toNat_natCast]

@[simp] theorem asOption_optionText (value : Option String) :
    asOption asText (optionText value) = some value := by
  cases value <;> rfl

theorem asList_map_map {item : Json → Option α} {f : β → Json} {g : β → α} {xs : List β}
    (h : ∀ x ∈ xs, item (f x) = some (g x)) :
    asList item (array (xs.map f)) = some (xs.map g) := by
  rw [asList]
  induction xs with
  | nil => rfl
  | cons x xs ih =>
    obtain ⟨hx, hRest⟩ := List.forall_mem_cons.mp h
    simp [hx, ih hRest]

theorem asList_map {item : Json → Option α} {f : α → Json} {xs : List α}
    (h : ∀ x ∈ xs, item (f x) = some x) : asList item (array (xs.map f)) = some xs := by
  rw [asList_map_map h, List.map_id']

@[simp] theorem asList_strings (texts : List String) :
    asList asText (strings texts) = some texts :=
  asList_map fun _ _ => rfl

section Readable

variable {depth : Nat}

attribute [simp] Readable.null Readable.bool Readable.text

theorem readable_object_iff {members : List (String × Json)} :
    Readable (depth + 1) (object members) ↔ ∀ m ∈ members, Readable depth m.2 :=
  ⟨fun h => by cases h; assumption, .object⟩

@[simp] theorem readable_optionText (value : Option String) :
    Readable depth (optionText value) := by
  cases value <;> simp [optionText]

theorem readable_list {f : α → Json} {xs : List α} (h : ∀ x ∈ xs, Readable depth (f x)) :
    Readable (depth + 1) (array (xs.map f)) :=
  .array fun item hItem => by
    obtain ⟨x, hx, rfl⟩ := List.mem_map.mp hItem
    exact h x hx

@[simp] theorem readable_strings (texts : List String) : Readable (depth + 1) (strings texts) :=
  readable_list fun _ _ => .text _

theorem readable_nat {n : Nat} (h : n < UInt64.size) : Readable depth (nat n) := by
  refine .int ?_ (Int.ofNat_lt.mpr h)
  exact le_trans (by decide) (Int.natCast_nonneg n)

end Readable

end Json

open Json

/-- A width that memory can have. -/
def TypeRef.Fits : TypeRef → Prop
  | .fixedText width => width < UInt64.size
  | _ => True

/-- A floating-point constant that is read as it is written. -/
def ConstValue.ReadsBack : ConstValue → Prop
  | .float x => Number.read? (floatText x) = some (.float x)
  | _ => True

theorem ScalarKind.ofJson?_toJson (kind : ScalarKind) : ofJson? kind.toJson = some kind :=
  ofName?_name kind

section Decoded

theorem TypeRef.ofJson?_fixedText {value : Json} {width : Nat} (h : asNat value = some width) :
    ofJson? (.object [("kind", .text "fixed_text"), ("max_len", value)]) =
      some (.fixedText width) := by
  simp [ofJson?, ofContent?, fields?, required, h]

theorem TypeRef.ofJson?_toJson {type : TypeRef} (h : type.Fits) :
    ofJson? type.toJson = some type := by
  cases type with
  | scalar kind => simp [toJson, ofJson?, ofContent?, fields?, required, ScalarKind.ofJson?_toJson]
  | fixedText width =>
    rw [toJson, ofJson?_fixedText (asNat_nat h)]
  | _ => simp [toJson, ofJson?, ofContent?, fields?, required, asText]

theorem LibraryInfo.ofJson?_toJson (library : LibraryInfo) :
    ofJson? library.toJson = some library := by
  simp [toJson, ofJson?, fields?, required, withDefault, asText]

theorem FieldDecl.ofJson?_toJson {f : FieldDecl} (h : f.type.Fits) :
    ofJson? f.toJson = some f := by
  simp [toJson, ofJson?, fields?, required, asText, TypeRef.ofJson?_toJson h]

theorem ConstValue.ofJson?_toJson (value : ConstValue) : ofJson? value.toJson = some value := by
  cases value with
  | int n =>
    have hRead : asInt64 (.int n.toInt) = some n := by
      rw [asInt64, if_pos ⟨n.le_toInt, n.toInt_le⟩, Int64.ofInt_toInt]
    rw [toJson, ofJson?, hRead]
  | _ => rfl

theorem ConstDecl.ofJson?_toJson (c : ConstDecl) : ofJson? c.toJson = some c := by
  simp [toJson, ofJson?, fields?, required, asText, ConstValue.ofJson?_toJson]

end Decoded

section Readable

variable {depth : Nat}

theorem TypeRef.readable_toJson {type : TypeRef} (h : type.Fits) :
    Readable (depth + 1) type.toJson := by
  cases type with
  | fixedText width =>
    have hWidth : Readable depth (nat width) := readable_nat h
    simp [toJson, readable_object_iff, hWidth]
  | _ => simp [toJson, readable_object_iff, ScalarKind.toJson]

theorem LibraryInfo.readable_toJson (library : LibraryInfo) :
    Readable (depth + 2) library.toJson := by
  simp [toJson, readable_object_iff]

theorem FieldDecl.readable_toJson {f : FieldDecl} (h : f.type.Fits) :
    Readable (depth + 2) f.toJson := by
  simp [toJson, readable_object_iff, TypeRef.readable_toJson h]

theorem ConstValue.readable_toJson {value : ConstValue} (h : value.ReadsBack) :
    Readable depth value.toJson := by
  cases value with
  | bool value => exact .bool value
  | int n =>
    exact .int n.le_toInt (n.toInt_lt.trans (by decide))
  | float x =>
    refine .float ?_ h
    by_contra hNotFinite
    rw [ConstValue.ReadsBack, floatText, if_neg hNotFinite] at h
    cases h
  | text value => exact .text value

theorem ConstDecl.readable_toJson {c : ConstDecl} (h : c.value.ReadsBack) :
    Readable (depth + 1) c.toJson := by
  simp [toJson, readable_object_iff, ConstValue.readable_toJson h]

end Readable

end NativeBinding
