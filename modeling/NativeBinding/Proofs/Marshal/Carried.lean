import NativeBinding.Proofs.Marshal.RoundTrip

/-! # Records that fit a struct

A struct without structs inside takes every record whose fields hold values that its memory can
hold, and gives the same record back. Values keep to fields of one type, whatever struct they are
in.
-/

set_option autoImplicit false

namespace NativeBinding

namespace Record

variable {r r' : Record} {field name : String} {value : Value}

theorem find?_replaceField {fields fields' : List (String × Value)}
    (h : replaceField field value fields = some fields') (name : String) :
    (fields'.find? fun f => f.1 == name).map (·.2) =
      if name = field then some value else (fields.find? fun f => f.1 == name).map (·.2) := by
  induction fields generalizing fields' with
  | nil => cases h
  | cons f fields ih =>
    rw [replaceField] at h
    split at h
    · rename_i hHere
      cases h
      by_cases hName : name = field
      · simp [hName, eq_of_beq hHere]
      · have hOther : (f.1 == name) = false := by
          rw [eq_of_beq hHere]
          simpa using Ne.symm hName
        simp [hName, hOther]
    · rename_i hOther
      obtain ⟨rest, hRest, rfl⟩ := Option.map_eq_some_iff.mp h
      by_cases hName : f.1 = name
      · have hField : name ≠ field := by
          rintro rfl
          exact hOther (beq_iff_eq.mpr hName)
        simp [hName, hField]
      · have hSkip : (f.1 == name) = false := by simpa using hName
        simpa [hSkip] using ih hRest

theorem get?_of_set? (h : r.set? field value = some r') (name : String) :
    r'.get? name = if name = field then some value else r.get? name := by
  obtain ⟨fields, hFields, rfl⟩ := Option.map_eq_some_iff.mp h
  exact find?_replaceField hFields name

end Record

namespace Marshal

/-- A value that a slot of a type gives when it is read. -/
inductive Carried : TypeRef → Value → Prop where
  | scalar {s : Scalar} {v : Value} (hRead : ∀ path, ofScalar path s = .ok v) :
      Carried (.scalar s.kind) v
  | text {width : Nat} {octets : List UInt8} (hWidth : octets.length ≤ width)
      (hFree : 0 ∉ octets) : Carried (.fixedText width) (Value.ofTextBytes octets)

theorem ofScalar_path {path : String} {s : Scalar} {v : Value} (h : ofScalar path s = .ok v)
    (other : String) : ofScalar other s = .ok v := by
  cases s with
  | u64 value =>
    rw [ofScalar] at h ⊢
    split at h
    · rename_i hSmall
      rw [if_pos hSmall]
      exact h
    · cases h
  | _ => exact h

theorem carried_int (n : Int32) : Carried (.scalar .i32) (.int n.toInt64) :=
  @Carried.scalar (.i32 n) _ fun _ => rfl

theorem carried_float (x : Ieee.Binary64) : Carried (.scalar .f64) (.float x) :=
  @Carried.scalar (.f64 x) _ fun _ => rfl

theorem carried_char (code : UInt8) : Carried (.scalar .char) (charValue code) :=
  @Carried.scalar (.char code) _ fun _ => rfl

theorem carried_text {width : Nat} {text : String}
    (hWidth : (Text.Utf8.ofString text).length ≤ width) (hFree : 0 ∉ Text.Utf8.ofString text) :
    Carried (.fixedText width) (.text text) := by
  have hValue : Value.ofTextBytes (Text.Utf8.ofString text) = .text text := by
    rw [Value.ofTextBytes, Text.Utf8.toString?_eq_some_iff.mpr rfl]
  rw [← hValue]
  exact .text hWidth hFree

end Marshal

/-- A record of a struct whose fields hold values of their types. -/
structure Record.FillsStruct (r : Record) (s : StructDecl) : Prop where
  typeName : r.typeName = s.name
  fields : List.Forall₂ (fun f g => g.1 = f.name ∧ Marshal.Carried f.type g.2) s.fields r.fields

namespace Record.FillsStruct

open Marshal

variable {r r' : Record} {s : StructDecl} {f : FieldDecl} {v : Value}

theorem exists_get? (h : r.FillsStruct s) (hNames : (s.fields.map (·.name)).Nodup)
    (hf : f ∈ s.fields) : ∃ v, r.get? f.name = some v ∧ Carried f.type v :=
  get?_of_forall₂ r.typeName (fun f v => Carried f.type v) hNames h.fields f hf

theorem exists_field {name : String} (h : r.FillsStruct s) (hGet : r.get? name = some v) :
    ∃ f ∈ s.fields, f.name = name ∧ Carried f.type v := by
  obtain ⟨g, hFind, rfl⟩ := Option.map_eq_some_iff.mp hGet
  have hMem := List.mem_of_find?_eq_some hFind
  have hName : g.1 = name := by simpa using List.find?_some hFind
  obtain ⟨f, hf, hSame, hCarried⟩ := exists_of_mem_forall₂ h.fields hMem
  exact ⟨f, hf, hSame.symm.trans hName, hCarried⟩

theorem forall_replaceField {fields : List FieldDecl} {values : List (String × Value)}
    (hNames : (fields.map (·.name)).Nodup)
    (h : List.Forall₂ (fun f g => g.1 = f.name ∧ Carried f.type g.2) fields values)
    (hf : f ∈ fields) (hv : Carried f.type v) :
    ∃ values', replaceField f.name v values = some values' ∧
      List.Forall₂ (fun f g => g.1 = f.name ∧ Carried f.type g.2) fields values' := by
  induction h with
  | nil => cases hf
  | @cons d g fields values hHead hTail ih =>
    obtain ⟨hFresh, hNames⟩ := List.nodup_cons.mp hNames
    rcases List.mem_cons.mp hf with rfl | hf
    · refine ⟨(g.1, v) :: values, ?_, .cons ⟨hHead.1, hv⟩ hTail⟩
      rw [replaceField, if_pos (beq_iff_eq.mpr hHead.1)]
    · have hOther : g.1 ≠ f.name := by
        intro hEq
        exact hFresh (List.mem_map.mpr ⟨f, hf, by rw [← hEq, hHead.1]⟩)
      obtain ⟨values', hReplace, hFills⟩ := ih hNames hf
      refine ⟨g :: values', ?_, .cons hHead hFills⟩
      rw [replaceField, if_neg (by simpa using hOther), hReplace]
      rfl

theorem exists_set? (h : r.FillsStruct s) (hNames : (s.fields.map (·.name)).Nodup)
    (hf : f ∈ s.fields) (hv : Carried f.type v) :
    ∃ r', r.set? f.name v = some r' ∧ r'.FillsStruct s := by
  obtain ⟨values, hReplace, hFills⟩ := forall_replaceField hNames h.fields hf hv
  exact ⟨{ r with fields := values }, by rw [set?, hReplace]; rfl, h.typeName, hFills⟩

theorem exists_setAll {given : List (String × Value)} (h : r.FillsStruct s)
    (hNames : (s.fields.map (·.name)).Nodup) (hGiven : (given.map (·.1)).Nodup)
    (hCarried : ∀ g ∈ given, ∃ f ∈ s.fields, f.name = g.1 ∧ Carried f.type g.2) :
    ∃ r', r.setAll given = .ok r' ∧ r'.FillsStruct s ∧
      (∀ g ∈ given, r'.get? g.1 = some g.2) ∧
      ∀ name ∉ given.map (·.1), r'.get? name = r.get? name := by
  induction given generalizing r with
  | nil => exact ⟨r, rfl, h, List.forall_mem_nil _, fun _ _ => rfl⟩
  | cons g given ih =>
    rw [List.map_cons, List.nodup_cons] at hGiven
    rw [List.forall_mem_cons] at hCarried
    obtain ⟨⟨f, hf, hName, hv⟩, hCarried⟩ := hCarried
    obtain ⟨r₁, hSet, hFills⟩ := h.exists_set? hNames hf hv
    rw [hName] at hSet
    obtain ⟨r', hAll, hFills', hTaken, hKept⟩ := ih hFills hGiven.2 hCarried
    have hGet := get?_of_set? hSet
    refine ⟨r', ?_, hFills', ?_, fun name hOther => ?_⟩
    · obtain ⟨field, value⟩ := g
      rw [setAll, hSet]
      exact hAll
    · refine List.forall_mem_cons.mpr ⟨?_, hTaken⟩
      rw [hKept g.1 hGiven.1, hGet, if_pos rfl]
    · rw [List.map_cons, List.mem_cons, not_or] at hOther
      rw [hKept name hOther.2, hGet, if_neg hOther.1]

end Record.FillsStruct

namespace Marshaler

open Marshal

variable {m : Marshaler} {rank : String → Nat} {l : StructLayout} {f : FieldLayout}
  {owner path : String} {v : Value} {memory : List UInt8}

theorem carried_decodeField
    {nested : StructLayout → List UInt8 → Except MarshalError Record}
    (hFits : m.layouts.Fits rank owner f) (hFlat : ∀ name, f.type ≠ .struct name)
    (hMemory : memory.length = f.size) (h : m.decodeField nested owner f memory = .ok v) :
    Carried f.type v := by
  cases hFits with
  | scalar kind hType hSize =>
    rw [decodeField_scalar hType] at h
    rw [hType, ← Scalar.kind_read kind memory]
    exact .scalar (ofScalar_path h)
  | text width hType hSize =>
    rw [decodeField_text hType] at h
    cases h
    rw [hType]
    exact .text (hSize ▸ hMemory ▸ length_untilNul_le memory) (zero_notMem_untilNul memory)
  | struct name l hType => exact absurd hType (hFlat name)

theorem exists_encodeField
    {writeNested : StructLayout → Record → List UInt8 → String → Except MarshalError (List UInt8)}
    {readNested : StructLayout → List UInt8 → Except MarshalError Record}
    (hv : Carried f.type v) (memory : List UInt8) :
    ∃ written, m.encodeField writeNested path f v memory = .ok written ∧
      m.decodeField readNested owner f written = .ok v := by
  generalize hType : f.type = type at hv
  cases hv with
  | @scalar s v hRead =>
    obtain ⟨t, hTaken, -, hAgain⟩ := toScalar_ofScalar (hRead (owner ++ "." ++ f.name)) path
    have hKind : t.kind = s.kind := (ofScalar_toScalar hTaken path).1
    refine ⟨t.write, (encodeField_scalar hType).mpr ⟨t, hTaken, rfl⟩, ?_⟩
    rw [decodeField_scalar hType, ← hKind, t.read_write]
    exact hAgain
  | @text width octets hWidth hFree =>
    refine ⟨_, (encodeField_text hType).mpr
      ⟨octets, Value.textBytes?_ofTextBytes octets, hWidth, rfl⟩, ?_⟩
    rw [decodeField_text hType, untilNul_append_zeros hFree]

theorem exists_decodeField_zeros
    {nested : StructLayout → List UInt8 → Except MarshalError Record}
    (hFits : m.layouts.Fits rank owner f) (hFlat : ∀ name, f.type ≠ .struct name) :
    ∃ v, m.decodeField nested owner f (List.replicate f.size 0) = .ok v := by
  cases hFits with
  | scalar kind hType hSize =>
    have hZeros (count : Nat) : ofLittleEndian (List.replicate count 0) = 0 := by
      induction count with
      | zero => rfl
      | succ count ih =>
        rw [List.replicate_succ, ofLittleEndian, ih]
        rfl
    rw [decodeField_scalar hType, hSize]
    by_contra hNone
    have hBig := (ofScalar_read_error_iff List.length_replicate).mp (exists_error_iff.mpr hNone)
    rw [hZeros] at hBig
    omega
  | text width hType hSize => exact ⟨_, decodeField_text hType⟩
  | struct name l hType => exact absurd hType (hFlat name)

/-- A model of structs without structs inside, laid out. -/
structure Flat (m : Marshaler) : Prop where
  ranked : ∃ rank, m.layouts.Ranked rank
  covers : m.layouts.Covers m.model
  plain : ∀ s ∈ m.model.structs, ∀ f ∈ s.fields, ∀ name, f.type ≠ .struct name

theorem flat_of_new {model : Model} (hRules : model.StructRules)
    (hPlain : ∀ s ∈ model.structs, ∀ f ∈ s.fields, ∀ name, f.type ≠ .struct name)
    (hNew : new model = .ok m) : m.model = model ∧ m.Flat := by
  obtain ⟨table, rank, hBuild, hRanked, hCovers⟩ := LayoutTable.build_ranked hRules
  rw [new, hBuild] at hNew
  cases hNew
  exact ⟨rfl, ⟨rank, hRanked⟩, hCovers, hPlain⟩

/-- The layout of a struct, with what its fields may hold. -/
structure LaidFlat (m : Marshaler) (s : StructDecl) (l : StructLayout) (rank : String → Nat) :
    Prop where
  ranked : m.layouts.Ranked rank
  found : m.layouts.get? s.name = some l
  declared : l.fields.map (fun f => (f.name, f.type)) = s.fields.map fun f => (f.name, f.type)
  plain : ∀ f ∈ l.fields, ∀ name, f.type ≠ .struct name

namespace Flat

variable {s : StructDecl}

theorem exists_layout (h : m.Flat) (hs : s ∈ m.model.structs) : ∃ l rank, m.LaidFlat s l rank := by
  obtain ⟨rank, hRanked⟩ := h.ranked
  obtain ⟨l, hGet⟩ := h.covers.complete s hs
  have hDeclared := h.covers.declared hs hGet
  refine ⟨l, rank, hRanked, hGet, hDeclared, fun f hf name hType => ?_⟩
  have hPair : (f.name, f.type) ∈ s.fields.map fun f => (f.name, f.type) := by
    rw [← hDeclared]
    exact List.mem_map.mpr ⟨f, hf, rfl⟩
  obtain ⟨d, hd, hEq⟩ := List.mem_map.mp hPair
  exact h.plain s hs d hd name ((congrArg Prod.snd hEq).trans hType)

end Flat

namespace LaidFlat

variable {s : StructDecl} {r : Record} {octets : List UInt8}

theorem names (h : m.LaidFlat s l rank) : (s.fields.map (·.name)).Nodup := by
  have hNames := congrArg (List.map Prod.fst) h.declared
  rw [List.map_map, List.map_map] at hNames
  exact hNames ▸ (h.ranked.sound h.found).names

theorem forall₂_declared (h : m.LaidFlat s l rank) {values : List (String × Value)} :
    List.Forall₂ (fun f g => g.1 = f.name ∧ Carried f.type g.2) l.fields values ↔
      List.Forall₂ (fun f g => g.1 = f.name ∧ Carried f.type g.2) s.fields values := by
  have hFields : List.Forall₂ (fun (p : String × TypeRef) (g : String × Value) =>
      g.1 = p.1 ∧ Carried p.2 g.2) (l.fields.map fun f => (f.name, f.type)) values ↔ _ :=
    List.forall₂_map_left_iff
  rw [← hFields, h.declared]
  exact List.forall₂_map_left_iff

theorem length_slot (h : m.LaidFlat s l rank) (hLength : octets.length = l.size)
    (hf : f ∈ l.fields) : (slot f octets).length = f.size :=
  length_part (hLength ▸ (h.ranked.sound h.found).inside f hf)

theorem fillsStruct_of_decodeFields (h : m.LaidFlat s l rank) {fuel : Nat}
    (hLength : octets.length = l.size) (hRead : m.decodeFields fuel l octets = .ok r) :
    r.FillsStruct s := by
  have hName := (LayoutTable.get?_eq_some h.found).2
  cases fuel with
  | zero => cases hRead
  | succ fuel =>
    obtain ⟨hTypeName, hFields⟩ := decodeFields_eq_ok_iff.mp hRead
    refine ⟨hTypeName.trans hName, h.forall₂_declared.mp ?_⟩
    have hFits : ∀ f ∈ l.fields, m.layouts.Fits rank l.name f ∧
        (∀ name, f.type ≠ .struct name) ∧ (slot f octets).length = f.size :=
      fun f hf => ⟨(h.ranked.sound h.found).fits f hf, h.plain f hf, h.length_slot hLength hf⟩
    refine ((List.forall₂_and_left _ _).mpr ⟨hFits, hFields⟩).imp ?_
    rintro f g ⟨⟨hFits, hPlain, hSlot⟩, hSame, hRead⟩
    exact ⟨hSame, carried_decodeField hFits hPlain hSlot hRead⟩

theorem exists_encodeStruct (h : m.LaidFlat s l rank) (hr : r.FillsStruct s) :
    ∃ octets, m.encodeStruct r = .ok ⟨s.name, octets⟩ ∧
      m.decodeStruct ⟨s.name, octets⟩ = .ok r := by
  have hName := (LayoutTable.get?_eq_some h.found).2
  have hNames := (h.ranked.sound h.found).names
  have hFields := h.forall₂_declared.mpr hr.fields
  have hKnown : ∀ g ∈ r.fields, g.1 ∈ l.fields.map (·.name) := by
    intro g hg
    rw [← map_fst_of_forall₂ (hFields.imp fun _ _ hField => hField.1)]
    exact List.mem_map.mpr ⟨g, hg, rfl⟩
  have hEach : ∀ f ∈ l.fields, ∃ v, r.get? f.name = some v ∧ ∃ written,
      m.encodeField (m.encodeFields m.layouts.size) (s.name ++ "." ++ f.name) f v
        (slot f (List.replicate l.size 0)) = .ok written ∧
      ∀ w, r.get? f.name = some w →
        m.decodeField (m.decodeFields m.layouts.size) l.name f written = .ok w := by
    intro f hf
    obtain ⟨v, hv, hCarried⟩ := Record.get?_of_forall₂ r.typeName
      (fun (f : FieldLayout) v => Carried f.type v) hNames hFields f hf
    obtain ⟨written, hWritten, hRead⟩ := exists_encodeField hCarried _
    refine ⟨v, hv, written, hWritten, fun w hw => ?_⟩
    cases hv.symm.trans hw
    exact hRead
  obtain ⟨octets, hWritten, hLength, hSlots, -⟩ :=
    exists_encodeFields h.ranked h.found List.length_replicate hKnown hEach
  refine ⟨octets, ?_, ?_⟩
  · have hFound := h.found
    rw [← hr.typeName] at hFound hWritten ⊢
    exact (encodeStruct_of_get? hFound).mpr ⟨octets, rfl, hWritten⟩
  · rw [decodeStruct_of_get? h.found hLength]
    refine decodeFields_eq_ok_iff.mpr ⟨hr.typeName.trans hName.symm, ?_⟩
    have hGet := Record.forall₂_get? r.typeName hNames hFields
    refine ((List.forall₂_and_left _ _).mpr ⟨hSlots, hGet⟩).imp ?_
    rintro f g ⟨hAgain, hSame, -, hg⟩
    exact ⟨hSame, hAgain g.2 hg⟩

theorem exists_newRecord (h : m.LaidFlat s l rank) :
    ∃ r, m.newRecord s.name = .ok r ∧ r.FillsStruct s := by
  have hZeros : (List.replicate l.size (0 : UInt8)).length = l.size := List.length_replicate
  have hSlot : ∀ f ∈ l.fields, slot f (List.replicate l.size 0) = List.replicate f.size 0 := by
    intro f hf
    refine List.eq_replicate_iff.mpr ⟨h.length_slot hZeros hf, fun b hb => ?_⟩
    exact List.eq_of_mem_replicate (List.mem_of_mem_drop (List.mem_of_mem_take hb))
  obtain ⟨r, hRead⟩ :
      ∃ r, m.decodeFields (m.layouts.size + 1) l (List.replicate l.size 0) = .ok r := by
    refine exists_decodeFields_iff.mpr fun f hf => ?_
    rw [hSlot f hf]
    exact exists_decodeField_zeros ((h.ranked.sound h.found).fits f hf) (h.plain f hf)
  refine ⟨r, ?_, h.fillsStruct_of_decodeFields hZeros hRead⟩
  rw [newRecord, LayoutTable.require_eq_ok h.found]
  exact hRead

end LaidFlat

theorem exists_layout_of_decodeStruct {n : NativeStruct} {r : Record}
    (hRead : m.decodeStruct n = .ok r) : ∃ l, m.layouts.get? n.name = some l ∧
      n.bytes.length = l.size ∧ m.decodeFields m.depth l n.bytes = .ok r := by
  obtain ⟨l, hRequire, hRead⟩ := bind_eq_ok_iff.mp hRead
  have hGet : m.layouts.get? n.name = some l := by
    unfold LayoutTable.require at hRequire
    split at hRequire
    · cases hRequire
      assumption
    · cases hRequire
  refine ⟨l, hGet, ?_⟩
  by_cases hLength : n.bytes.length = l.size
  · exact ⟨hLength, by simpa [hLength] using hRead⟩
  · simp [hLength, throw, throwThe, MonadExceptOf.throw, bind, Except.bind] at hRead

theorem Flat.fillsStruct_of_decodeStruct (h : m.Flat) {n : NativeStruct} {r : Record}
    (hRead : m.decodeStruct n = .ok r) : ∃ s ∈ m.model.structs, r.FillsStruct s := by
  obtain ⟨l, hGet, hLength, hFields⟩ := exists_layout_of_decodeStruct hRead
  obtain ⟨s, hs, hName⟩ := h.covers.owned hGet
  obtain ⟨l', rank, hLaid⟩ := h.exists_layout hs
  cases (hName ▸ hLaid.found).symm.trans hGet
  exact ⟨s, hs, hLaid.fillsStruct_of_decodeFields hLength hFields⟩

end Marshaler

end NativeBinding
