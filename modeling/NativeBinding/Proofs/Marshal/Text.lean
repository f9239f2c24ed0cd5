import NativeBinding.Proofs.Marshal.Conforming
import NativeBinding.Proofs.Model.Coherence

/-! # Text that is read back

An array of characters takes any text that is not too long, and gives back what stands before the
first NUL. So text is read back as it was given exactly if no NUL is in it, as an argument and in a
field at any depth. Text of its own refuses a NUL, and is always read back.
-/

set_option autoImplicit false

namespace NativeBinding

/-- The type of a field of a field, and so on, that a value of the type has. -/
def Model.typeAt? (model : Model) : TypeRef → List String → Option TypeRef
  | type, [] => some type
  | type, field :: path => do
    let s ← type.structName?.bind model.findStruct?
    let f ← s.fields.find? fun f => f.name == field
    model.typeAt? f.type path

/-- The value in a field of a field, and so on. -/
def Value.at? : Value → List String → Option Value
  | v, [] => some v
  | v, field :: path => do
    let r ← v.asRecord?
    let w ← r.get? field
    Value.at? w path

namespace Marshaler

open Marshal

/-- Text given for an array of characters, and what is read back: what is before the first NUL. -/
structure CutAtNul (width : Nat) (v w : Value) (octets : List UInt8) : Prop where
  given : v.textBytes? = some octets
  fits : octets.length ≤ width
  read : w.textBytes? = some (untilNul octets)
  same : w.textBytes? = v.textBytes? ↔ 0 ∉ octets

variable {model : Model} {m : Marshaler} {rank : String → Nat} {l : StructLayout}

theorem cutAtNul_ofTextBytes {width : Nat} {given : Value} {octets : List UInt8}
    (hGiven : given.textBytes? = some octets) (hFits : octets.length ≤ width) :
    CutAtNul width given (Value.ofTextBytes (untilNul octets)) octets where
  given := hGiven
  fits := hFits
  read := Value.textBytes?_ofTextBytes _
  same := by
    rw [Value.textBytes?_ofTextBytes, hGiven, Option.some.injEq]
    exact untilNul_eq_self_iff

theorem fixedTextBytes_eq_ok_iff {path : String} {width : Nat} {v : Value} {octets : List UInt8} :
    fixedTextBytes path width v = .ok octets ↔
      v.textBytes? = some octets ∧ octets.length ≤ width := by
  unfold fixedTextBytes
  cases v.textBytes? with
  | none => simp
  | some text =>
    by_cases hLong : width < text.length
    · simp only [hLong, if_true, reduceCtorEq, Option.some.injEq, false_iff]
      rintro ⟨rfl, hFits⟩
      exact absurd hFits (Nat.not_le.mpr hLong)
    · simp only [hLong, if_false, Except.ok.injEq, Option.some.injEq]
      exact ⟨fun hSame => ⟨hSame, hSame ▸ Nat.not_lt.mp hLong⟩, And.left⟩

theorem toNative_fixedText_iff {width : Nat} {v : Value} {path : String} {arg : NativeArg} :
    m.toNative (.fixedText width) v path = .ok arg ↔
      ∃ octets, v.textBytes? = some octets ∧ octets.length ≤ width ∧ arg = .text octets := by
  simp only [toNative, map_eq_ok_iff, fixedTextBytes_eq_ok_iff, and_assoc]

theorem toNative_cString_iff {v : Value} {path : String} {arg : NativeArg} :
    m.toNative .cString v path = .ok arg ↔
      v.isNull = true ∧ arg = .null ∨
        ∃ octets, v.textBytes? = some octets ∧ 0 ∉ octets ∧ arg = .text octets := by
  have hTaken (octets : List UInt8) :
      (if octets.contains 0 then .error (.typeMismatch path .nulFree "text with embedded NUL")
        else .ok (.text octets) : Except MarshalError NativeArg) = .ok arg ↔
      0 ∉ octets ∧ arg = .text octets := by
    by_cases hNul : 0 ∈ octets
    · simp [hNul]
    · simp [hNul, eq_comm]
  cases v with
  | null => simp [toNative, Value.isNull, Value.textBytes?, eq_comm]
  | text value => simpa [toNative, Value.isNull, Value.textBytes?] using hTaken _
  | bytes octets => simpa [toNative, Value.isNull, Value.textBytes?] using hTaken _
  | _ => simp [toNative, Value.isNull, Value.textBytes?]

/-- Each text in a value, and the text at its place in the value that is read back. -/
def TextsCut (model : Model) (type : TypeRef) (v w : Value) : Prop :=
  ∀ path width, model.typeAt? type path = some (.fixedText width) →
    ∃ given read octets, v.at? path = some given ∧ w.at? path = some read ∧
      CutAtNul width given read octets

theorem textsCut_text {width : Nat} {v w : Value} {octets : List UInt8}
    (h : CutAtNul width v w octets) : TextsCut model (.fixedText width) v w := by
  intro path width' hType
  cases path with
  | nil =>
    cases hType
    exact ⟨v, w, octets, rfl, rfl, h⟩
  | cons field path => cases hType

theorem textsCut_flat {type : TypeRef} {v w : Value} (hText : ∀ width, type ≠ .fixedText width)
    (hStruct : ∀ name, type ≠ .struct name) : TextsCut model type v w := by
  intro path width hType
  cases path with
  | nil => exact absurd (Option.some.inj hType) (hText width)
  | cons field path =>
    cases type with
    | struct name => exact absurd rfl (hStruct name)
    | _ => cases hType

theorem textsCut_record {s : StructDecl} {r r' : Record} (hFind : model.findStruct? s.name = some s)
    (hNames : (l.fields.map (·.name)).Nodup)
    (hDeclared : l.fields.map (fun f => (f.name, f.type)) = s.fields.map fun f => (f.name, f.type))
    (hFields : List.Forall₂ (fun f g => g.1 = f.name ∧ ∃ v, r.get? f.name = some v ∧
      TextsCut model f.type v g.2) l.fields r'.fields) :
    TextsCut model (.struct s.name) r.toValue r'.toValue := by
  intro path width hType
  cases path with
  | nil => cases hType
  | cons field path =>
    simp only [Model.typeAt?, TypeRef.structName?, Option.bind_some, Option.bind_eq_bind, hFind,
      Option.bind_eq_some_iff] at hType
    obtain ⟨d, hd, hType⟩ := hType
    obtain rfl : d.name = field := by simpa using List.find?_some hd
    obtain ⟨f, hf, hEq⟩ : ∃ f ∈ l.fields, (f.name, f.type) = (d.name, d.type) := by
      rw [← List.mem_map, hDeclared]
      exact List.mem_map.mpr ⟨d, List.mem_of_find?_eq_some hd, rfl⟩
    obtain ⟨hName, hSame⟩ := Prod.mk.inj hEq
    obtain ⟨w, hw, v, hv, hCut⟩ := Record.get?_of_forall₂ r'.typeName
      (fun f w => ∃ v, r.get? f.name = some v ∧ TextsCut model f.type v w) hNames hFields f hf
    rw [← hSame] at hType
    obtain ⟨given, read, octets, hGiven, hRead, hText⟩ := hCut path width hType
    rw [hName] at hv hw
    refine ⟨given, read, octets, ?_, ?_, hText⟩
    · simpa [Value.at?, Record.toValue, Value.asRecord?, hv] using hGiven
    · simpa [Value.at?, Record.toValue, Value.asRecord?, hw] using hRead

theorem fieldwise_textsCut (hRanked : m.layouts.Ranked rank) (hCovers : m.layouts.Covers model)
    (hStructs : (model.structs.map (·.name)).Nodup) : m.Fieldwise (TextsCut model) where
  scalar _ _ := textsCut_flat nofun nofun
  text hText hFits := textsCut_text (cutAtNul_ofTextBytes hText hFits)
  record hGet _ hFields := by
    obtain ⟨s, hs, rfl⟩ := hCovers.owned hGet
    exact textsCut_record ((find?_key_eq_some_iff hStructs).mpr ⟨hs, rfl⟩)
      (hRanked.sound hGet).names (hCovers.declared hs hGet) hFields

/-- Which text is taken, and what of it is read back. -/
structure CutsTexts (m : Marshaler) (model : Model) : Prop where
  taken : ∀ width v path arg, m.toNative (.fixedText width) v path = .ok arg ↔
    ∃ octets, v.textBytes? = some octets ∧ octets.length ≤ width ∧ arg = .text octets
  argument : ∀ type v path back arg, m.toNative type v path = .ok arg → v.isNull = false →
    ∃ w, m.toScript type arg back = .ok w ∧ TextsCut model type v w
  record : ∀ r n, m.encodeStruct r = .ok n →
    ∃ r', m.decodeStruct n = .ok r' ∧ TextsCut model (.struct r.typeName) r.toValue r'.toValue
  ownTaken : ∀ v path arg, m.toNative .cString v path = .ok arg ↔
    v.isNull = true ∧ arg = .null ∨
      ∃ octets, v.textBytes? = some octets ∧ 0 ∉ octets ∧ arg = .text octets
  ownRead : ∀ octets back, 0 ∉ octets →
    ∃ w, m.toScript .cString (.text octets) back = .ok w ∧ w.textBytes? = some octets

theorem exists_toScript_of_toNative (hRanked : m.layouts.Ranked rank)
    (hTexts : m.Fieldwise (TextsCut model)) {type : TypeRef} {v : Value} {path back : String}
    {arg : NativeArg} (h : m.toNative type v path = .ok arg) (hSome : v.isNull = false) :
    ∃ w, m.toScript type arg back = .ok w ∧ TextsCut model type v w := by
  cases type with
  | void | scalar kind | cString =>
    obtain ⟨w, hw⟩ := (answers_toNative hRanked h).readable back
    exact ⟨w, hw, textsCut_flat nofun nofun⟩
  | fixedText width =>
    obtain ⟨octets, hText, hFits, rfl⟩ := toNative_fixedText_iff.mp h
    have hCut := cutAtNul_ofTextBytes hText hFits
    rw [← List.take_of_length_le hFits] at hCut
    exact ⟨_, rfl, textsCut_text hCut⟩
  | struct name =>
    cases v with
    | record typeName fields =>
      by_cases hName : typeName = name
      · subst hName
        simp only [toNative, if_true] at h
        obtain ⟨n, hWrite, rfl⟩ := map_eq_ok_iff.mp h
        obtain ⟨l, r', -, hOwner, -, hRead, hCut⟩ := hTexts.of_encodeStruct hRanked hWrite
        exact ⟨r'.toValue, by simp [toScript, hOwner, hRead, Except.map], hCut⟩
      · simp [toNative, hName] at h
    | null => cases hSome
    | _ => cases h
  | object name => cases h
  | unsupported spelling => cases h

/-- Text for an array of characters is taken if it is not too long, with a NUL or without, and what
follows its first NUL is not read back. -/
theorem cutsTexts_of_accepted (hModel : model.Accepted) :
    ∃ m, new model = .ok m ∧ m.CutsTexts model := by
  obtain ⟨table, rank, hBuild, hRanked, hCovers⟩ := LayoutTable.build_ranked hModel.structRules
  have hTexts := fieldwise_textsCut (m := ⟨model, table⟩) hRanked hCovers hModel.structRules.names
  refine ⟨⟨model, table⟩, by rw [new, hBuild]; rfl, ?_⟩
  refine ⟨fun _ _ _ _ => toNative_fixedText_iff, fun _ _ _ _ _ h hSome =>
    exists_toScript_of_toNative hRanked hTexts h hSome, fun r n h => ?_, fun _ _ _ =>
    toNative_cString_iff, fun octets back hFree => ⟨_, rfl, ?_⟩⟩
  · obtain ⟨l, r', -, -, -, hRead, hCut⟩ := hTexts.of_encodeStruct hRanked h
    exact ⟨r', hRead, hCut⟩
  · rw [Value.textBytes?_ofTextBytes, untilNul_eq_self_iff.mpr hFree]

def sampleTraded : Model where
  library := { name := "sample" }
  structs :=
    [⟨"Trade", [⟨"instrument", .struct "Instrument"⟩, ⟨"volume", .scalar .i32⟩]⟩,
      ⟨"Instrument", [⟨"symbol", .fixedText 5⟩]⟩]

/-- The text inside has a NUL between two letters. -/
def sampleTrade : Record :=
  ⟨"Trade", [("instrument", .record "Instrument" [("symbol", .bytes [65, 0, 66])]),
    ("volume", .int 7)]⟩

theorem sampleTraded_accepted : sampleTraded.Accepted :=
  have hNew : Model.new sampleTraded.library sampleTraded.structs sampleTraded.classes =
    .ok sampleTraded := rfl
  .new hNew

theorem encodeStruct_sampleTrade {m : Marshaler} (h : new sampleTraded = .ok m) :
    m.encodeStruct sampleTrade = .ok ⟨"Trade", [65, 0, 66, 0, 0, 0, 0, 0, 7, 0, 0, 0]⟩ := by
  cases h
  rfl

theorem cutsTexts_of_accepted_sample :
    ∃ m, new sampleTraded = .ok m ∧ ∃ r',
      m.decodeStruct ⟨"Trade", [65, 0, 66, 0, 0, 0, 0, 0, 7, 0, 0, 0]⟩ = .ok r' ∧
      ∃ read, r'.toValue.at? ["instrument", "symbol"] = some read ∧
        read.textBytes? = some [65] := by
  obtain ⟨m, hNew, hCuts⟩ := cutsTexts_of_accepted sampleTraded_accepted
  obtain ⟨r', hRead, hTexts⟩ := hCuts.record _ _ (encodeStruct_sampleTrade hNew)
  obtain ⟨given, read, octets, hGiven, hAt, hCut⟩ := hTexts ["instrument", "symbol"] 5 rfl
  have hOctets : octets = [65, 0, 66] := by
    obtain rfl := Option.some.inj hGiven
    exact (Option.some.inj hCut.given).symm
  subst hOctets
  exact ⟨m, hNew, r', hRead, read, hAt, hCut.read⟩

/-- A text with a NUL is taken for an array of characters, and read back without its end. Text of
its own is refused. -/
theorem text_with_nul_lost :
    ∃ m, new sampleTraded = .ok m ∧
      m.toNative (.fixedText 11) (.bytes [97, 0, 98]) "p" = .ok (.text [97, 0, 98]) ∧
      (∃ w, m.toScript (.fixedText 11) (.text [97, 0, 98]) "p" = .ok w ∧
        w.textBytes? = some [97]) ∧
      m.toNative .cString (.bytes [97, 0, 98]) "p" =
        .error (.typeMismatch "p" .nulFree "text with embedded NUL") :=
  ⟨_, rfl, rfl, ⟨_, rfl, Value.textBytes?_ofTextBytes _⟩, rfl⟩

end Marshaler

end NativeBinding
