import NativeBinding.Proofs.Marshal.RoundTrip

/-! # Writing a record and reading it back

A record may give its fields in any order, and a value in any spelling that its type takes. Reading
back gives the fields in declaration order, each in canonical form.
-/

set_option autoImplicit false

namespace NativeBinding

mutual

/-- The canonical form of a value given for a type: what is read back once it was written. -/
inductive Canonical (model : Model) : TypeRef → Value → Value → Prop where
  | scalar {kind : ScalarKind} {v w : Value} : Marshal.CanonicalScalar kind v w →
      Canonical model (.scalar kind) v w
  | text {width : Nat} {v : Value} {text : String} :
      v.textBytes? = some (Text.Utf8.ofString text) →
      Canonical model (.fixedText width) v (.text text)
  | bytes {width : Nat} {v : Value} {octets : List UInt8} : v.textBytes? = some octets →
      (∀ text, Text.Utf8.ofString text ≠ octets) →
      Canonical model (.fixedText width) v (.bytes octets)
  | record {s : StructDecl} {given fields : List (String × Value)} : s ∈ model.structs →
      CanonicalFields model s.fields ⟨s.name, given⟩ fields →
      Canonical model (.struct s.name) (.record s.name given) (.record s.name fields)

/-- The canonical form of a record's values, field by field as declared. -/
inductive CanonicalFields (model : Model) :
    List FieldDecl → Record → List (String × Value) → Prop where
  | nil {r : Record} : CanonicalFields model [] r []
  | cons {f : FieldDecl} {rest : List FieldDecl} {r : Record} {v w : Value}
      {fields : List (String × Value)} : r.get? f.name = some v → Canonical model f.type v w →
      CanonicalFields model rest r fields →
      CanonicalFields model (f :: rest) r ((f.name, w) :: fields)

end

/-- A value given for a type inside a value given for another, at any depth. -/
inductive Within (model : Model) : TypeRef → Value → TypeRef → Value → Prop where
  | here {type : TypeRef} {v : Value} : Within model type v type v
  | inner {s : StructDecl} {f : FieldDecl} {given : List (String × Value)} {v w : Value}
      {type : TypeRef} : s ∈ model.structs → f ∈ s.fields →
      Record.get? ⟨s.name, given⟩ f.name = some v → Within model f.type v type w →
      Within model (.struct s.name) (.record s.name given) type w

/-- No text given for an array of characters has a NUL. -/
def NulFree (model : Model) (type : TypeRef) (v : Value) : Prop :=
  ∀ width w octets, Within model type v (.fixedText width) w → w.textBytes? = some octets →
    0 ∉ octets

variable {model : Model}

theorem nulFree_scalar {kind : ScalarKind} {v : Value} : NulFree model (.scalar kind) v := by
  intro width w octets hWithin
  cases hWithin

theorem nulFree_fixedText {width : Nat} {v : Value} {octets : List UInt8}
    (hText : v.textBytes? = some octets) (hFree : 0 ∉ octets) :
    NulFree model (.fixedText width) v := by
  intro width' w octets' hWithin hOther
  cases hWithin
  cases hText.symm.trans hOther
  exact hFree

theorem nulFree_struct {name : String} {r : Record}
    (h : ∀ s ∈ model.structs, s.name = name → ∀ f ∈ s.fields, ∀ v, r.get? f.name = some v →
      NulFree model f.type v) : NulFree model (.struct name) r.toValue := by
  intro width w octets hWithin
  obtain ⟨typeName, given⟩ := r
  generalize hType : TypeRef.struct name = type, hValue : Record.toValue _ = value at hWithin
  cases hWithin with
  | here => cases hType
  | inner hs hf hGet hInner =>
    cases hType
    cases hValue
    exact h _ hs rfl _ hf _ hGet width w octets hInner

namespace Marshaler

open Marshal

variable {m : Marshaler} {rank : String → Nat} {l : StructLayout}

theorem NulFree.field {s : StructDecl} {f : FieldDecl} {r : Record} {v : Value}
    (h : NulFree model (.struct s.name) r.toValue) (hName : r.typeName = s.name)
    (hs : s ∈ model.structs) (hf : f ∈ s.fields) (hGet : r.get? f.name = some v) :
    NulFree model f.type v := by
  intro width w octets hWithin
  refine h width w octets ?_
  obtain ⟨typeName, given⟩ := r
  cases hName
  exact .inner hs hf hGet hWithin

theorem canonical_ofTextBytes {width : Nat} {v : Value} {octets : List UInt8}
    (h : v.textBytes? = some octets) :
    Canonical model (.fixedText width) v (Value.ofTextBytes octets) := by
  unfold Value.ofTextBytes
  split
  · rename_i text hText
    exact .text (by rw [h, Text.Utf8.toString?_eq_some_iff.mp hText])
  · rename_i hNone
    refine .bytes h fun text hText => ?_
    rw [Text.Utf8.toString?_eq_some_iff.mpr hText] at hNone
    cases hNone

theorem canonicalFields_of_forall₂ {r : Record} {fields : List FieldLayout}
    {decls : List FieldDecl} {values : List (String × Value)}
    (hDeclared : fields.map (fun f => (f.name, f.type)) = decls.map fun f => (f.name, f.type))
    (h : List.Forall₂ (fun f g => g.1 = f.name ∧ ∃ v, r.get? f.name = some v ∧
      Canonical model f.type v g.2) fields values) : CanonicalFields model decls r values := by
  induction h generalizing decls with
  | nil =>
    rw [List.map_nil, eq_comm, List.map_eq_nil_iff] at hDeclared
    exact hDeclared ▸ .nil
  | @cons f g fields values hHead _ ih =>
    cases decls with
    | nil => cases hDeclared
    | cons d decls =>
      rw [List.map_cons, List.map_cons, List.cons.injEq, Prod.mk.injEq] at hDeclared
      obtain ⟨⟨hName, hType⟩, hRest⟩ := hDeclared
      obtain ⟨name, w⟩ := g
      obtain ⟨rfl, v, hGet, hCanonical⟩ := hHead
      rw [hName] at hGet ⊢
      exact .cons hGet (hType ▸ hCanonical) (ih hRest)

theorem decodeField_encodeField {fuel : Nat} {owner : String} {f : FieldLayout}
    (hFits : m.layouts.Fits rank owner f)
    (hNested : ∀ inside l, m.layouts.get? inside = some l → rank inside < rank owner →
      ∀ r under written path, r.typeName = inside → under.length = l.size →
        NulFree model (.struct inside) r.toValue →
        m.encodeFields fuel l r under path = .ok written →
        ∃ r', m.decodeFields fuel l written = .ok r' ∧
          Canonical model (.struct inside) r.toValue r'.toValue)
    {v : Value} (hFree : NulFree model f.type v) {under written : List UInt8}
    (hUnder : under.length = f.size) {path : String}
    (h : m.encodeField (m.encodeFields fuel) path f v under = .ok written) :
    ∃ w, m.decodeField (m.decodeFields fuel) owner f written = .ok w ∧
      Canonical model f.type v w := by
  cases hFits with
  | scalar kind hType hSize =>
    obtain ⟨s, hTaken, rfl⟩ := (encodeField_scalar hType).mp h
    obtain ⟨hKind, w, hRead, hCanonical⟩ := ofScalar_toScalar hTaken (owner ++ "." ++ f.name)
    refine ⟨w, ?_, hType ▸ .scalar hCanonical⟩
    rwa [decodeField_scalar hType, ← hKind, s.read_write]
  | text width hType hSize =>
    obtain ⟨text, hText, -, rfl⟩ := (encodeField_text hType).mp h
    rw [hType] at hFree
    refine ⟨Value.ofTextBytes text, ?_, hType ▸ canonical_ofTextBytes hText⟩
    rw [decodeField_text hType, untilNul_append_zeros (hFree width v text .here hText)]
  | struct inside l hType hGet hSize hLower =>
    obtain ⟨given, rfl, hWritten⟩ := (encodeField_struct hType hGet).mp h
    obtain ⟨r', hRead, hCanonical⟩ := hNested inside l hGet hLower ⟨inside, given⟩ under written
      path rfl (hSize ▸ hUnder) (hType ▸ hFree) hWritten
    exact ⟨r'.toValue, (decodeField_struct hType hGet).mpr ⟨r', hRead, rfl⟩, hType ▸ hCanonical⟩

theorem decodeFields_encodeFields (hRanked : m.layouts.Ranked rank)
    (hCovers : m.layouts.Covers model) {fuel : Nat} {name : String}
    (hGet : m.layouts.get? name = some l) (hFuel : rank name < fuel)
    {r : Record} {under written : List UInt8} {path : String} (hTypeName : r.typeName = name)
    (hUnder : under.length = l.size) (hFree : NulFree model (.struct name) r.toValue)
    (h : m.encodeFields fuel l r under path = .ok written) :
    ∃ r', m.decodeFields fuel l written = .ok r' ∧
      Canonical model (.struct name) r.toValue r'.toValue := by
  induction fuel generalizing name l r under written path with
  | zero => exact absurd hFuel (Nat.not_lt_zero _)
  | succ fuel ih =>
    obtain ⟨-, hName⟩ := LayoutTable.get?_eq_some hGet
    obtain ⟨s, hs, rfl⟩ := hCovers.owned hGet
    have hDeclared := hCovers.declared hs hGet
    have hSound := hRanked.sound hGet
    have hNested : ∀ inside l', m.layouts.get? inside = some l' → rank inside < rank l.name →
        ∀ r under written path, r.typeName = inside → under.length = l'.size →
          NulFree model (.struct inside) r.toValue →
          m.encodeFields fuel l' r under path = .ok written →
          ∃ r', m.decodeFields fuel l' written = .ok r' ∧
            Canonical model (.struct inside) r.toValue r'.toValue := by
      intro inside l' hGet' hLower r under written path hTypeName hUnder hFree hWrite
      rw [hName] at hLower
      exact ih hGet' (by omega) hTypeName hUnder hFree hWrite
    have hField : ∀ f ∈ l.fields, ∀ v octets, r.get? f.name = some v →
        m.encodeField (m.encodeFields fuel) (path ++ "." ++ f.name) f v (slot f under) =
          .ok octets →
        ∃ w, m.decodeField (m.decodeFields fuel) l.name f octets = .ok w ∧
          Canonical model f.type v w := by
      intro f hf v octets hv hEncode
      have hPair : (f.name, f.type) ∈ s.fields.map fun f => (f.name, f.type) := by
        rw [← hDeclared]
        exact List.mem_map.mpr ⟨f, hf, rfl⟩
      obtain ⟨d, hd, hEq⟩ := List.mem_map.mp hPair
      obtain ⟨hdName, hdType⟩ := Prod.mk.inj hEq
      have hFreeField := hdType ▸ NulFree.field hFree hTypeName hs hd (hdName ▸ hv)
      exact decodeField_encodeField (hSound.fits f hf) hNested hFreeField
        (length_part (hUnder ▸ hSound.inside f hf)) hEncode
    obtain ⟨r', hRead, hTypeName', hFields⟩ :=
      exists_decodeFields_of_written hRanked hGet hUnder hField h
    refine ⟨r', hRead, ?_⟩
    have hCanonical : CanonicalFields model s.fields r r'.fields :=
      canonicalFields_of_forall₂ hDeclared hFields
    obtain ⟨typeName, given⟩ := r
    obtain ⟨typeName', fields⟩ := r'
    cases hTypeName
    cases hTypeName'.trans hName
    exact .record hs hCanonical

theorem fields_of_canonical {name : String} {r r' : Record}
    (h : Canonical model (.struct name) r.toValue r'.toValue) :
    ∃ s ∈ model.structs, s.name = name ∧ r'.typeName = s.name ∧
      CanonicalFields model s.fields r r'.fields := by
  obtain ⟨typeName, given⟩ := r
  obtain ⟨typeName', fields⟩ := r'
  simp only [Record.toValue] at h
  cases h with
  | record hs hFields => exact ⟨_, hs, rfl, rfl, hFields⟩

/-- A record that was written to the struct of its name is read back with the struct's fields in
declaration order, each in canonical form. -/
theorem canonical_of_encodeStruct {library : LibraryInfo} {structs : List StructDecl}
    {classes : List ClassDecl} (hAccepted : Model.new library structs classes = .ok model)
    (hNew : new model = .ok m) {r : Record} {n : NativeStruct} (hWrite : m.encodeStruct r = .ok n)
    (hFree : NulFree model (.struct r.typeName) r.toValue) :
    ∃ s ∈ model.structs, s.name = r.typeName ∧ ∃ fields,
      m.decodeStruct n = .ok ⟨s.name, fields⟩ ∧ CanonicalFields model s.fields r fields := by
  obtain ⟨table, rank, hBuild, hRanked, hCovers⟩ :=
    LayoutTable.build_ranked (Model.structRules_of_new hAccepted)
  rw [new, hBuild] at hNew
  cases hNew
  cases hGet : table.get? r.typeName with
  | none =>
    simp only [encodeStruct, LayoutTable.require, hGet] at hWrite
    cases hWrite
  | some l =>
    obtain ⟨written, rfl, hWritten⟩ := (encodeStruct_of_get? hGet).mp hWrite
    have hZeros : (List.replicate l.size (0 : UInt8)).length = l.size := List.length_replicate
    have hLength : written.length = l.size :=
      keepsSize_encodeFields hRanked _ hGet hZeros hWritten
    obtain ⟨r', hRead, hCanonical⟩ := decodeFields_encodeFields hRanked hCovers hGet
      (Nat.lt_succ_of_lt (hRanked.bound hGet)) rfl hZeros hFree hWritten
    obtain ⟨s, hs, hName, hTypeName, hFields⟩ := fields_of_canonical hCanonical
    refine ⟨s, hs, hName, r'.fields, ?_, hFields⟩
    rw [decodeStruct_of_get? hGet hLength, ← hTypeName]
    exact hRead

def sampleLevel : Record :=
  ⟨"Level", [("volume", .int 7), ("open", .bool true)]⟩

def sampleRecord : Record :=
  ⟨"Quote", [("price", .int 3), ("level", sampleLevel.toValue),
    ("symbol", .bytes [65, 66, 67, 68, 69])]⟩

def sampleLayouts : LayoutTable where
  layouts :=
    [⟨"Level", 16, 8, [⟨"open", .scalar .bool, 0, 1⟩, ⟨"volume", .scalar .u64, 8, 8⟩]⟩,
      ⟨"Quote", 32, 8, [⟨"symbol", .fixedText 5, 0, 5⟩, ⟨"level", .struct "Level", 8, 16⟩,
        ⟨"price", .scalar .f32, 24, 4⟩]⟩]

theorem nulFree_sampleLevel : NulFree sampleModel (.struct "Level") sampleLevel.toValue := by
  refine nulFree_struct fun s hs hName f hf v _ => ?_
  simp only [sampleModel, List.mem_cons, List.not_mem_nil, or_false] at hs
  rcases hs with rfl | rfl
  · exact absurd hName (by decide)
  · simp only [List.mem_cons, List.not_mem_nil, or_false] at hf
    rcases hf with rfl | rfl <;> exact nulFree_scalar

theorem nulFree_sampleRecord : NulFree sampleModel (.struct "Quote") sampleRecord.toValue := by
  refine nulFree_struct fun s hs hName f hf v hGet => ?_
  simp only [sampleModel, List.mem_cons, List.not_mem_nil, or_false] at hs
  rcases hs with rfl | rfl
  · simp only [List.mem_cons, List.not_mem_nil, or_false] at hf
    rcases hf with rfl | rfl | rfl
    · obtain rfl : .bytes [65, 66, 67, 68, 69] = v := Option.some.inj hGet
      exact nulFree_fixedText rfl (by decide)
    · obtain rfl : sampleLevel.toValue = v := Option.some.inj hGet
      exact nulFree_sampleLevel
    · exact nulFree_scalar
  · exact absurd hName (by decide)

theorem canonical_of_encodeStruct_sample :
    ∃ s ∈ sampleModel.structs, s.name = "Quote" ∧ ∃ fields,
      decodeStruct ⟨sampleModel, sampleLayouts⟩
          ⟨"Quote", [65, 66, 67, 68, 69, 0, 0, 0, 1, 0, 0, 0, 0, 0, 0, 0, 7, 0, 0, 0, 0, 0, 0, 0,
            0, 0, 64, 64, 0, 0, 0, 0]⟩ = .ok ⟨s.name, fields⟩ ∧
        CanonicalFields sampleModel s.fields sampleRecord fields :=
  have hNew : new sampleModel = .ok ⟨sampleModel, sampleLayouts⟩ := rfl
  have hWrite : encodeStruct ⟨sampleModel, sampleLayouts⟩ sampleRecord =
      .ok ⟨"Quote", [65, 66, 67, 68, 69, 0, 0, 0, 1, 0, 0, 0, 0, 0, 0, 0, 7, 0, 0, 0, 0, 0, 0, 0,
        0, 0, 64, 64, 0, 0, 0, 0]⟩ := by rfl
  canonical_of_encodeStruct sampleModel_accepted hNew hWrite nulFree_sampleRecord

end Marshaler

end NativeBinding
