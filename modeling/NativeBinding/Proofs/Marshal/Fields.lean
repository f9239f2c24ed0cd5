import NativeBinding.Proofs.Layout.Slot
import NativeBinding.Proofs.Marshal.Memory
import NativeBinding.Proofs.Marshal.Scalar
import NativeBinding.Proofs.Native.Octets

/-! # Records field by field

When a record is read and when one is written, in terms of its fields alone.
-/

set_option autoImplicit false

namespace NativeBinding

theorem LayoutTable.require_eq_ok {table : LayoutTable} {name : String} {l : StructLayout}
    (h : table.get? name = some l) : table.require name = .ok l := by
  rw [LayoutTable.require, h]

namespace StructLayout

variable {l : StructLayout} {name : String}

theorem field?_isSome_iff : (l.field? name).isSome = true ↔ ∃ f ∈ l.fields, f.name = name := by
  simp [field?]

end StructLayout

namespace Record

theorem forall₂_get? {α : Type} {key : α → String} {l : List α} {fields : List (String × Value)}
    (typeName : String) {read : α → Value → Prop} (hNames : (l.map key).Nodup)
    (h : List.Forall₂ (fun f g => g.1 = key f ∧ read f g.2) l fields) :
    List.Forall₂ (fun f g => g.1 = key f ∧ read f g.2 ∧
      Record.get? ⟨typeName, fields⟩ (key f) = some g.2) l fields := by
  induction h with
  | nil => exact .nil
  | @cons f g l fields hHead hTail ih =>
    obtain ⟨hFresh, hNames⟩ := List.nodup_cons.mp hNames
    have hOther : ∀ f' ∈ l, g.1 ≠ key f' := by
      intro f' hf' hEq
      exact hFresh (List.mem_map.mpr ⟨f', hf', by rw [← hEq, hHead.1]⟩)
    refine .cons ⟨hHead.1, hHead.2, by simp [get?, hHead.1]⟩ ?_
    refine ((List.forall₂_and_left _ _).mpr ⟨hOther, ih hNames⟩).imp ?_
    rintro f' g' ⟨hSkip, hSame, hRead, hGet⟩
    refine ⟨hSame, hRead, ?_⟩
    rw [get?] at hGet ⊢
    rwa [List.find?_cons_of_neg (by simpa using hSkip)]

theorem get?_of_forall₂ {α : Type} {key : α → String} {l : List α} {fields : List (String × Value)}
    (typeName : String) (read : α → Value → Prop) (hNames : (l.map key).Nodup)
    (h : List.Forall₂ (fun f g => g.1 = key f ∧ read f g.2) l fields) :
    ∀ f ∈ l, ∃ v, Record.get? ⟨typeName, fields⟩ (key f) = some v ∧ read f v := by
  have hGet := forall₂_get? typeName hNames h
  generalize Record.get? ⟨typeName, fields⟩ = get at hGet
  clear h hNames
  induction hGet with
  | nil => exact fun _ hf => nomatch hf
  | @cons f g l fields hHead _ ih =>
    exact List.forall_mem_cons.mpr ⟨⟨g.2, hHead.2.2, hHead.2.1⟩, ih⟩

end Record

namespace Marshaler

open Marshal

variable {m : Marshaler} {rank : String → Nat} {fuel : Nat} {l : StructLayout}

section Field

variable {readNested : StructLayout → List UInt8 → Except MarshalError Record}
  {writeNested : StructLayout → Record → List UInt8 → String → Except MarshalError (List UInt8)}
  {owner path : String} {f : FieldLayout} {v : Value} {memory written : List UInt8}

theorem decodeField_scalar {kind : ScalarKind} (hType : f.type = .scalar kind) :
    m.decodeField readNested owner f memory =
      ofScalar (owner ++ "." ++ f.name) (Scalar.read kind memory) := by
  simp only [decodeField, hType]

theorem decodeField_text {width : Nat} (hType : f.type = .fixedText width) :
    m.decodeField readNested owner f memory = .ok (Value.ofTextBytes (untilNul memory)) := by
  simp only [decodeField, hType]
  rfl

theorem decodeField_struct {name : String} (hType : f.type = .struct name)
    (hGet : m.layouts.get? name = some l) :
    m.decodeField readNested owner f memory = .ok v ↔
      ∃ r, readNested l memory = .ok r ∧ v = r.toValue := by
  simp only [decodeField, hType, LayoutTable.require_eq_ok hGet, bind_eq_ok_iff]
  constructor
  · rintro ⟨_, hLayout, r, hRead, hEq⟩
    cases hLayout
    cases hEq
    exact ⟨r, hRead, rfl⟩
  · rintro ⟨r, hRead, rfl⟩
    exact ⟨l, rfl, r, hRead, rfl⟩

theorem encodeField_scalar {kind : ScalarKind} (hType : f.type = .scalar kind) :
    m.encodeField writeNested path f v memory = .ok written ↔
      ∃ s, toScalar kind path v = .ok s ∧ written = s.write := by
  simp only [encodeField, hType, bind_eq_ok_iff, pure, Except.pure, Except.ok.injEq,
    eq_comm (a := written)]

theorem encodeField_text {width : Nat} (hType : f.type = .fixedText width) :
    m.encodeField writeNested path f v memory = .ok written ↔
      ∃ text, v.textBytes? = some text ∧ text.length ≤ width ∧
        written = text ++ List.replicate (f.size - text.length) 0 := by
  simp only [encodeField, hType, fixedTextBytes, bind_eq_ok_iff, pure, Except.pure,
    Except.ok.injEq, eq_comm (a := written)]
  constructor
  · rintro ⟨text, hText, hWritten⟩
    split at hText
    · cases hText
    · rename_i octets hBytes
      split at hText
      · cases hText
      · rename_i hWidth
        cases hText
        exact ⟨text, hBytes, Nat.le_of_not_lt hWidth, hWritten⟩
  · rintro ⟨text, hBytes, hWidth, hWritten⟩
    refine ⟨text, ?_, hWritten⟩
    rw [hBytes]
    exact if_neg (Nat.not_lt.mpr hWidth)

theorem encodeField_struct {name : String} (hType : f.type = .struct name)
    (hGet : m.layouts.get? name = some l) :
    m.encodeField writeNested path f v memory = .ok written ↔
      ∃ fields, v = .record name fields ∧
        writeNested l ⟨name, fields⟩ memory path = .ok written := by
  simp only [encodeField, hType, LayoutTable.require_eq_ok hGet, bind_eq_ok_iff]
  constructor
  · rintro ⟨_, hLayout, h⟩
    cases hLayout
    split at h
    · rename_i typeName fields
      split at h
      · rename_i hName
        subst hName
        exact ⟨fields, rfl, h⟩
      · cases h
    · cases h
  · rintro ⟨fields, rfl, h⟩
    exact ⟨l, rfl, by simpa using h⟩

end Field

theorem decodeFields_eq_ok_iff {octets : List UInt8} {r : Record} :
    m.decodeFields (fuel + 1) l octets = .ok r ↔
      r.typeName = l.name ∧ List.Forall₂ (fun f g => g.1 = f.name ∧
        m.decodeField (m.decodeFields fuel) l.name f (slot f octets) = .ok g.2)
          l.fields r.fields := by
  have hField (f : FieldLayout) (g : String × Value) :
      (do
        let value ← m.decodeField (m.decodeFields fuel) l.name f (slot f octets)
        pure (f.name, value)) = (.ok g : Except MarshalError (String × Value)) ↔
      g.1 = f.name ∧ m.decodeField (m.decodeFields fuel) l.name f (slot f octets) = .ok g.2 := by
    rw [bind_eq_ok_iff]
    constructor
    · rintro ⟨v, hv, hEq⟩
      cases hEq
      exact ⟨rfl, hv⟩
    · rintro ⟨hName, hv⟩
      exact ⟨g.2, hv, by rw [← hName]; rfl⟩
  rw [decodeFields, bind_eq_ok_iff]
  simp only [mapM_eq_ok_iff, hField]
  constructor
  · rintro ⟨fields, hFields, hEq⟩
    cases hEq
    exact ⟨rfl, hFields⟩
  · rintro ⟨hName, hFields⟩
    exact ⟨r.fields, hFields, by rw [← hName]; rfl⟩

theorem typeName_of_decodeFields {octets : List UInt8} {r : Record}
    (h : m.decodeFields fuel l octets = .ok r) : r.typeName = l.name := by
  cases fuel with
  | zero => cases h
  | succ fuel => exact (decodeFields_eq_ok_iff.mp h).1

theorem exists_decodeFields_iff {octets : List UInt8} :
    (∃ r, m.decodeFields (fuel + 1) l octets = .ok r) ↔
      ∀ f ∈ l.fields, ∃ v,
        m.decodeField (m.decodeFields fuel) l.name f (slot f octets) = .ok v := by
  have hFields : (∃ r, m.decodeFields (fuel + 1) l octets = .ok r) ↔
      ∃ fields, l.fields.mapM (fun f => do
        let value ← m.decodeField (m.decodeFields fuel) l.name f (slot f octets)
        pure (f.name, value)) = .ok fields := by
    simp only [decodeFields, bind_eq_ok_iff]
    exact ⟨fun ⟨_, fields, h, _⟩ => ⟨fields, h⟩, fun ⟨fields, h⟩ => ⟨_, fields, h, rfl⟩⟩
  rw [hFields, exists_mapM_eq_ok_iff]
  simp only [bind_eq_ok_iff]
  refine forall₂_congr fun f _ => ?_
  exact ⟨fun ⟨_, v, hv, _⟩ => ⟨v, hv⟩, fun ⟨v, hv⟩ => ⟨_, v, hv, rfl⟩⟩

theorem encodeMember_eq_ok_iff
    {nested : StructLayout → Record → List UInt8 → String → Except MarshalError (List UInt8)}
    {owner path : String} {r : Record} {f : FieldLayout} {memory written : List UInt8} :
    m.encodeMember nested owner r path f memory = .ok written ↔
      ∃ v, r.get? f.name = some v ∧
        m.encodeField nested (path ++ "." ++ f.name) f v memory = .ok written := by
  unfold encodeMember
  cases r.get? f.name <;> simp

/-- Structs are written over memory of their size and leave memory of that size. -/
def KeepsSize (m : Marshaler)
    (writeNested : StructLayout → Record → List UInt8 → String →
      Except MarshalError (List UInt8)) : Prop :=
  ∀ ⦃name l r memory path written⦄, m.layouts.get? name = some l → memory.length = l.size →
    writeNested l r memory path = .ok written → written.length = l.size

theorem length_encodeField
    {writeNested : StructLayout → Record → List UInt8 → String → Except MarshalError (List UInt8)}
    (hNested : m.KeepsSize writeNested) {owner path : String} {f : FieldLayout} {v : Value}
    {memory written : List UInt8} (hFits : m.layouts.Fits rank owner f)
    (hMemory : memory.length = f.size)
    (h : m.encodeField writeNested path f v memory = .ok written) : written.length = f.size := by
  cases hFits with
  | scalar kind hType hSize =>
    obtain ⟨s, hScalar, rfl⟩ := (encodeField_scalar hType).mp h
    rw [hSize, Scalar.length_write, (ofScalar_toScalar hScalar "").1]
  | text width hType hSize =>
    obtain ⟨text, -, hWidth, rfl⟩ := (encodeField_text hType).mp h
    rw [List.length_append, List.length_replicate]
    omega
  | struct name l hType hGet hSize =>
    obtain ⟨fields, -, hWritten⟩ := (encodeField_struct hType hGet).mp h
    rw [hSize] at hMemory ⊢
    exact hNested hGet hMemory hWritten

theorem separate_of_sound
    {writeNested : StructLayout → Record → List UInt8 → String → Except MarshalError (List UInt8)}
    (hNested : m.KeepsSize writeNested) (hSound : m.layouts.Sound rank l) (r : Record)
    (path : String) : Separate (m.encodeMember writeNested l.name r path) l.size l.fields where
  apart := hSound.apart
  inside := hSound.inside
  keeps f hf memory written hMemory hWritten := by
    obtain ⟨v, -, hEncode⟩ := encodeMember_eq_ok_iff.mp hWritten
    exact length_encodeField hNested (hSound.fits f hf) hMemory hEncode

theorem encodeFields_succ {r : Record} {path : String} {memory written : List UInt8} :
    m.encodeFields (fuel + 1) l r memory path = .ok written ↔
      (∀ g ∈ r.fields, (l.field? g.1).isSome = true) ∧
        writeAll (m.encodeMember (m.encodeFields fuel) l.name r path) l.fields memory =
          .ok written := by
  have hKnown (g : String × Value) :
      (if (l.field? g.1).isSome = true then pure ()
        else throw (.unknownField l.name g.1) : Except MarshalError Unit) = .ok () ↔
      (l.field? g.1).isSome = true := by
    split
    · exact ⟨fun _ => ‹_›, fun _ => rfl⟩
    · exact ⟨nofun, fun hName => absurd hName ‹_›⟩
  rw [encodeFields, bind_eq_ok_iff]
  constructor
  · rintro ⟨⟨⟩, hNames, hFields⟩
    exact ⟨fun g hg => (hKnown g).mp (forM_eq_ok_iff.mp hNames g hg), hFields⟩
  · rintro ⟨hNames, hFields⟩
    exact ⟨(), forM_eq_ok_iff.mpr fun g hg => (hKnown g).mpr (hNames g hg), hFields⟩

theorem keepsSize_encodeFields (hRanked : m.layouts.Ranked rank) (fuel : Nat) :
    m.KeepsSize (m.encodeFields fuel) := by
  induction fuel with
  | zero =>
    intro _ _ _ _ _ _ _ _ h
    cases h
  | succ fuel ih =>
    intro _ _ r _ path _ hGet hMemory h
    have hSeparate := separate_of_sound ih (hRanked.sound hGet) r path
    rw [← hMemory] at hSeparate
    rw [(hSeparate.written_of_writeAll (encodeFields_succ.mp h).2).length, hMemory]

theorem separate_encodeMember (hRanked : m.layouts.Ranked rank) (fuel : Nat) {name : String}
    (hGet : m.layouts.get? name = some l) (r : Record) (path : String) {memory : List UInt8}
    (hMemory : memory.length = l.size) :
    Separate (m.encodeMember (m.encodeFields fuel) l.name r path) memory.length l.fields :=
  hMemory ▸ separate_of_sound (keepsSize_encodeFields hRanked fuel) (hRanked.sound hGet) r path

theorem exists_decodeFields_of_written (hRanked : m.layouts.Ranked rank) {name : String}
    (hGet : m.layouts.get? name = some l) {r : Record} {path : String}
    {under written : List UInt8} (hUnder : under.length = l.size)
    {good : FieldLayout → Value → Value → Prop}
    (hField : ∀ f ∈ l.fields, ∀ v octets, r.get? f.name = some v →
      m.encodeField (m.encodeFields fuel) (path ++ "." ++ f.name) f v (slot f under) =
        .ok octets →
      ∃ w, m.decodeField (m.decodeFields fuel) l.name f octets = .ok w ∧ good f v w)
    (h : m.encodeFields (fuel + 1) l r under path = .ok written) :
    ∃ r', m.decodeFields (fuel + 1) l written = .ok r' ∧ r'.typeName = l.name ∧
      List.Forall₂ (fun f g => g.1 = f.name ∧ ∃ v, r.get? f.name = some v ∧ good f v g.2)
        l.fields r'.fields := by
  have hWritten := (separate_encodeMember hRanked fuel hGet r path hUnder).written_of_writeAll
    (encodeFields_succ.mp h).2
  have hSlot : ∀ f ∈ l.fields, ∃ w,
      m.decodeField (m.decodeFields fuel) l.name f (slot f written) = .ok w ∧
        ∃ v, r.get? f.name = some v ∧ good f v w := by
    intro f hf
    obtain ⟨v, hv, hEncode⟩ := encodeMember_eq_ok_iff.mp (hWritten.slots f hf)
    obtain ⟨w, hRead, hGood⟩ := hField f hf v _ hv hEncode
    exact ⟨w, hRead, v, hv, hGood⟩
  obtain ⟨r', hRead⟩ := exists_decodeFields_iff.mpr fun f hf => (hSlot f hf).imp fun _ hw => hw.1
  obtain ⟨hTypeName, hFields⟩ := decodeFields_eq_ok_iff.mp hRead
  refine ⟨r', hRead, hTypeName, ((List.forall₂_and_left _ _).mpr ⟨hSlot, hFields⟩).imp ?_⟩
  rintro f g ⟨⟨w, hw, hGood⟩, hSame, hRead'⟩
  cases hw.symm.trans hRead'
  exact ⟨hSame, hGood⟩

end Marshaler

end NativeBinding
