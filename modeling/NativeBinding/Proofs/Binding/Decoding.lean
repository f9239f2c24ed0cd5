import NativeBinding.Binding.Json
import NativeBinding.Proofs.Model.Decoding

/-! # Bindings are decoded as they were encoded

Each part of a binding is read back from its document form: tagged kinds and rules by their tag,
records by the names of their members, and a member that was left out as its default.
-/

set_option autoImplicit false

namespace NativeBinding

open Json

section Fits

/-- A rule with a width that memory can have. -/
def MarshalRule.Fits : MarshalRule → Prop
  | fixedText width => width < UInt64.size
  | _ => True

structure ParamBinding.Fits (p : ParamBinding) : Prop where
  type : p.type.Fits
  rule : p.rule.Fits

structure Trampoline.Fits (t : Trampoline) : Prop where
  params : ∀ p ∈ t.params, p.Fits
  returnType : t.returnType.Fits
  returnRule : t.returnRule.Fits

structure OverrideSlot.Fits (s : OverrideSlot) : Prop where
  params : ∀ p ∈ s.params, p.Fits
  returnType : s.returnType.Fits
  returnRule : s.returnRule.Fits

structure ClassBinding.Fits (c : ClassBinding) : Prop where
  constructors : ∀ t ∈ c.constructors, t.Fits
  methods : ∀ t ∈ c.methods, t.Fits
  overrides : ∀ s ∈ c.overrides, s.Fits

end Fits

section Decoded

theorem MarshalRule.ofJson?_fixedText {value : Json} {width : Nat} (h : asNat value = some width) :
    ofJson? (.object [("rule", .text "fixed_text"), ("of", .object [("max_len", value)])]) =
      some (.fixedText width) := by
  simp [ofJson?, ofContent?, fields?, required, h]

theorem MarshalRule.ofJson?_toJson {rule : MarshalRule} (h : rule.Fits) :
    ofJson? rule.toJson = some rule := by
  cases rule with
  | direct kind => simp [toJson, ofJson?, ofContent?, fields?, ScalarKind.ofJson?_toJson]
  | fixedText width => rw [toJson, ofJson?_fixedText (asNat_nat h)]
  | _ => simp [toJson, ofJson?, ofContent?, fields?, asText]

theorem TrampolineKind.ofJson?_toJson (kind : TrampolineKind) :
    ofJson? kind.toJson = some kind := by
  cases kind <;> simp [toJson, ofJson?, ofContent?, fields?, required, asText]

theorem ParamBinding.ofJson?_toJson {p : ParamBinding} (h : p.Fits) :
    ofJson? p.toJson = some p := by
  obtain ⟨name, type, rule, default⟩ := p
  have hType := TypeRef.ofJson?_toJson h.type
  have hRule := MarshalRule.ofJson?_toJson h.rule
  -- The default is a member only if there is one.
  cases default <;>
    simp [toJson, ofJson?, fields?, required, withDefault, asText, asOption, hType, hRule]

theorem Trampoline.ofJson?_toJson {t : Trampoline} (h : t.Fits) : ofJson? t.toJson = some t := by
  have hParams := asList_map fun p hp => ParamBinding.ofJson?_toJson (h.params p hp)
  simp [toJson, ofJson?, fields?, required, asText, TrampolineKind.ofJson?_toJson, hParams,
    TypeRef.ofJson?_toJson h.returnType, MarshalRule.ofJson?_toJson h.returnRule]

theorem OverrideSlot.ofJson?_toJson {s : OverrideSlot} (h : s.Fits) :
    ofJson? s.toJson = some s := by
  have hParams := asList_map fun p hp => ParamBinding.ofJson?_toJson (h.params p hp)
  simp [toJson, ofJson?, fields?, required, asText, asBool, hParams,
    TypeRef.ofJson?_toJson h.returnType, MarshalRule.ofJson?_toJson h.returnRule]

theorem SkippedMethod.ofJson?_toJson (s : SkippedMethod) : ofJson? s.toJson = some s := by
  simp [toJson, ofJson?, fields?, required, asText]

/-- The binding as it is described. -/
def ClassBinding.bare (c : ClassBinding) : ClassBinding :=
  { c with source := "" }

def RecordBinding.bare (r : RecordBinding) : RecordBinding :=
  { r with source := "" }

theorem ClassBinding.ofJson?_toJson {c : ClassBinding} (h : c.Fits) :
    ofJson? c.toJson = some c.bare := by
  obtain ⟨_, _, _, constructors, methods, overrides, skipped, _⟩ := c
  have hConstructors := asList_map fun t ht => Trampoline.ofJson?_toJson (h.constructors t ht)
  have hMethods := asList_map fun t ht => Trampoline.ofJson?_toJson (h.methods t ht)
  have hOverrides := asList_map fun s hs => OverrideSlot.ofJson?_toJson (h.overrides s hs)
  have hSkipped := asList_map fun s (_ : s ∈ skipped) => SkippedMethod.ofJson?_toJson s
  -- The skipped methods are a member only if there are some.
  by_cases hNone : skipped = []
  · simp [toJson, ofJson?, bare, fields?, required, withDefault, asText, asBool, hConstructors,
      hMethods, hOverrides, hNone]
  · simp [toJson, ofJson?, bare, fields?, required, withDefault, asText, asBool, hConstructors,
      hMethods, hOverrides, hSkipped, hNone]

theorem RecordBinding.ofJson?_toJson {r : RecordBinding} (h : ∀ f ∈ r.fields, f.type.Fits) :
    ofJson? r.toJson = some r.bare := by
  have hFields := asList_map fun f hf => FieldDecl.ofJson?_toJson (h f hf)
  simp [toJson, ofJson?, bare, fields?, required, asText, hFields]

end Decoded

section Readable

variable {depth : Nat}

theorem MarshalRule.readable_toJson {rule : MarshalRule} (h : rule.Fits) :
    Readable (depth + 2) rule.toJson := by
  cases rule with
  | fixedText width =>
    have hWidth : Readable depth (nat width) := readable_nat h
    simp [toJson, readable_object_iff, hWidth]
  | _ => simp [toJson, readable_object_iff, ScalarKind.toJson]

theorem TrampolineKind.readable_toJson (kind : TrampolineKind) :
    Readable (depth + 1) kind.toJson := by
  cases kind <;> simp [toJson, readable_object_iff]

theorem ParamBinding.readable_toJson {p : ParamBinding} (h : p.Fits) :
    Readable (depth + 3) p.toJson := by
  obtain ⟨name, type, rule, default⟩ := p
  cases default <;>
    simp [toJson, readable_object_iff, TypeRef.readable_toJson h.type,
      MarshalRule.readable_toJson h.rule]

theorem Trampoline.readable_toJson {t : Trampoline} (h : t.Fits) :
    Readable (depth + 5) t.toJson := by
  have hParams : Readable (depth + 4) (.array (t.params.map ParamBinding.toJson)) :=
    readable_list fun p hp => ParamBinding.readable_toJson (h.params p hp)
  simp [toJson, readable_object_iff, hParams, TrampolineKind.readable_toJson,
    TypeRef.readable_toJson h.returnType, MarshalRule.readable_toJson h.returnRule]

theorem OverrideSlot.readable_toJson {s : OverrideSlot} (h : s.Fits) :
    Readable (depth + 5) s.toJson := by
  have hParams : Readable (depth + 4) (.array (s.params.map ParamBinding.toJson)) :=
    readable_list fun p hp => ParamBinding.readable_toJson (h.params p hp)
  simp [toJson, readable_object_iff, hParams, TypeRef.readable_toJson h.returnType,
    MarshalRule.readable_toJson h.returnRule]

theorem SkippedMethod.readable_toJson (s : SkippedMethod) : Readable (depth + 1) s.toJson := by
  simp [toJson, readable_object_iff]

theorem ClassBinding.readable_toJson {c : ClassBinding} (h : c.Fits) :
    Readable (depth + 7) c.toJson := by
  have hConstructors : Readable (depth + 6) (.array (c.constructors.map Trampoline.toJson)) :=
    readable_list fun t ht => Trampoline.readable_toJson (h.constructors t ht)
  have hMethods : Readable (depth + 6) (.array (c.methods.map Trampoline.toJson)) :=
    readable_list fun t ht => Trampoline.readable_toJson (h.methods t ht)
  have hOverrides : Readable (depth + 6) (.array (c.overrides.map OverrideSlot.toJson)) :=
    readable_list fun s hs => OverrideSlot.readable_toJson (h.overrides s hs)
  have hSkipped : Readable (depth + 6) (.array (c.skipped.map SkippedMethod.toJson)) :=
    readable_list fun s _ => s.readable_toJson
  rw [toJson, readable_object_iff]
  split <;> simp [hConstructors, hMethods, hOverrides, hSkipped]

theorem RecordBinding.readable_toJson {r : RecordBinding} (h : ∀ f ∈ r.fields, f.type.Fits) :
    Readable (depth + 4) r.toJson := by
  have hFields : Readable (depth + 3) (.array (r.fields.map FieldDecl.toJson)) :=
    readable_list fun f hf => FieldDecl.readable_toJson (h f hf)
  simp [toJson, readable_object_iff, hFields]

end Readable

end NativeBinding
