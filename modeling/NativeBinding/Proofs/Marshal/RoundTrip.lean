import Mathlib.Data.List.TakeWhile
import NativeBinding.Proofs.Marshal.Fields

/-! # Reading a struct and writing it back

Reading fails only on an unsigned number above the signed range. What was read is written back over
zeros with the same octets, except for padding, the octets after the end of a text, and the octet of
a true `bool`; it is then read again as the same record.
-/

set_option autoImplicit false

namespace NativeBinding

open Ieee

namespace Value

theorem textBytes?_ofTextBytes (octets : List UInt8) :
    (ofTextBytes octets).textBytes? = some octets := by
  unfold ofTextBytes
  split
  · rename_i text hText
    exact congrArg some (Text.Utf8.toString?_eq_some_iff.mp hText)
  · rfl

end Value

namespace Marshaler

open Marshal

section Nul

theorem untilNul_cons (b : UInt8) (octets : List UInt8) :
    untilNul (b :: octets) = if b = 0 then [] else b :: untilNul octets := by
  rw [untilNul, List.takeWhile_cons]
  by_cases hZero : b = 0 <;> simp [hZero, untilNul]

theorem untilNul_eq_self_iff {octets : List UInt8} : untilNul octets = octets ↔ 0 ∉ octets := by
  rw [untilNul, List.takeWhile_eq_self_iff]
  constructor
  · exact fun h hMem => absurd (h 0 hMem) (by decide)
  · exact fun h b hb => bne_iff_ne.mpr fun hZero => h (hZero ▸ hb)

theorem untilNul_padded (octets : List UInt8) (count : Nat) :
    untilNul (octets ++ List.replicate count 0) = untilNul octets := by
  induction octets with
  | nil => cases count <;> rfl
  | cons b octets ih => rw [List.cons_append, untilNul_cons, untilNul_cons, ih]

theorem untilNul_append_zeros {text : List UInt8} (hFree : 0 ∉ text) (count : Nat) :
    untilNul (text ++ List.replicate count 0) = text := by
  rw [untilNul_padded, untilNul_eq_self_iff.mpr hFree]

theorem zero_notMem_untilNul (octets : List UInt8) : 0 ∉ untilNul octets := by
  intro hMem
  have hNonzero := List.mem_takeWhile_imp hMem
  simp at hNonzero

theorem length_untilNul_le (octets : List UInt8) : (untilNul octets).length ≤ octets.length :=
  (List.takeWhile_prefix _).length_le

end Nul

/-- The octets of a slot after reading and writing it: the octet of a `bool` becomes zero or one, a
NaN stays a NaN, a text is followed by zeros, all else is the same. -/
def NormalSlot : TypeRef → List UInt8 → List UInt8 → Prop
  | .scalar .bool, before, after => after = before.map fun b => if b = 0 then 0 else 1
  | .scalar .f32, before, after =>
      after = before ∨ ∃ x y, Scalar.read .f32 before = .f32 x ∧ Scalar.read .f32 after = .f32 y ∧
        x.isNan = true ∧ y.isNan = true
  | .scalar _, before, after => after = before
  | .fixedText width, before, after =>
      after = untilNul before ++ List.replicate (width - (untilNul before).length) 0
  | _, _, _ => True

/-- The memory of a struct after reading it and writing it over other memory: every slot is normal,
and the octets in no slot are those of the memory written over. -/
structure Normalized (table : LayoutTable) (name : String) (under before after : List UInt8) :
    Prop where
  length : after.length = before.length
  slots : ∀ offset type, table.Slot name offset type →
    NormalSlot type (part offset type.slotSize before) (part offset type.slotSize after)
  padding : ∀ i, (∀ offset type, table.Slot name offset type →
    ¬ (offset ≤ i ∧ i < offset + type.slotSize)) → after[i]? = under[i]?

variable {m : Marshaler} {rank : String → Nat} {l : StructLayout} {name : String}

/-- A scalar slot after reading and writing it, and what is read from it then. -/
theorem scalar_roundTrip {kind : ScalarKind} {path : String} {before : List UInt8} {v : Value}
    (hLength : before.length = kind.size) (h : ofScalar path (Scalar.read kind before) = .ok v)
    (back : String) :
    ∃ s, toScalar kind back v = .ok s ∧ NormalSlot (.scalar kind) before s.write ∧
      ofScalar path (Scalar.read kind s.write) = .ok v := by
  obtain ⟨s, hTaken, hSame, hAgain⟩ := toScalar_ofScalar h back
  rw [Scalar.kind_read] at hTaken
  have hKind : s.kind = kind := (ofScalar_toScalar hTaken back).1
  have hRead : Scalar.read kind s.write = s := hKind ▸ s.read_write
  refine ⟨s, hTaken, ?_, by rwa [hRead]⟩
  rcases hSame with rfl | ⟨x, y, hx, rfl, hNan, hNan'⟩
  · by_cases hBool : kind = .bool
    · subst hBool
      obtain ⟨b, rfl⟩ := List.length_eq_one_iff.mp hLength
      exact Scalar.write_read_bool b
    · have hWritten := Scalar.write_read hBool hLength
      cases kind with
      | bool => exact absurd rfl hBool
      | f32 => exact Or.inl hWritten
      | _ => exact hWritten
  · cases hKind
    exact Or.inr ⟨x, y, hx, hRead, hNan, hNan'⟩

theorem text_roundTrip {width : Nat} {before : List UInt8} (hLength : before.length = width) :
    ∃ text, (Value.ofTextBytes (untilNul before)).textBytes? = some text ∧ text.length ≤ width ∧
      NormalSlot (.fixedText width) before
        (text ++ List.replicate (width - text.length) 0) ∧
      untilNul (text ++ List.replicate (width - text.length) 0) = untilNul before :=
  ⟨untilNul before, Value.textBytes?_ofTextBytes _, hLength ▸ length_untilNul_le before, rfl,
    untilNul_append_zeros (zero_notMem_untilNul before) _⟩

theorem slot_cases (hRanked : m.layouts.Ranked rank) (hGet : m.layouts.get? name = some l)
    {offset : Nat} {type : TypeRef} (h : m.layouts.Slot name offset type) :
    ∃ f ∈ l.fields,
      ((∀ inside, f.type ≠ .struct inside) ∧ f.type = type ∧ offset = f.offset ∧
        type.slotSize = f.size) ∨
      ∃ inside offset', f.type = .struct inside ∧ m.layouts.Slot inside offset' type ∧
        offset = f.offset + offset' ∧ offset' + type.slotSize ≤ f.size := by
  cases h with
  | scalar hOwner hf hType | text hOwner hf hType =>
    cases hOwner.symm.trans hGet
    have hFlat : ∀ inside, _ ≠ TypeRef.struct inside :=
      fun _ hOther => nomatch hType.symm.trans hOther
    have hSize := ((hRanked.sound hGet).fits _ hf).size_eq hFlat
    exact ⟨_, hf, Or.inl ⟨hFlat, hType, rfl, by rw [hSize, hType]⟩⟩
  | inner hOwner hf hType hSlot =>
    cases hOwner.symm.trans hGet
    obtain ⟨l', hGet', hSize, -⟩ := ((hRanked.sound hGet).fits _ hf).struct_layout hType
    exact ⟨_, hf, Or.inr ⟨_, _, hType, hSlot, rfl, hSize ▸ hSlot.inside hRanked hGet'⟩⟩

theorem ofScalar_read_error_iff {kind : ScalarKind} {path : String} {octets : List UInt8}
    (hLength : octets.length = kind.size) :
    (∃ e, ofScalar path (Scalar.read kind octets) = .error e) ↔
      kind = .u64 ∧ 2 ^ 63 ≤ ofLittleEndian octets := by
  rw [ofScalar_eq_error_iff]
  have hLt := hLength ▸ ofLittleEndian_lt octets
  constructor
  · rintro ⟨n, hRead, hBig⟩
    have hKind : kind = .u64 := by rw [← Scalar.kind_read kind octets, hRead]; rfl
    subst hKind
    have hBits := congrArg Scalar.toBits hRead
    rw [Scalar.read, List.take_of_length_le (Nat.le_of_eq hLength),
      Scalar.toBits_ofBits (show ScalarKind.u64 ≠ .bool by decide) hLt] at hBits
    exact ⟨rfl, hBits ▸ hBig⟩
  · rintro ⟨rfl, hBig⟩
    have hLt : ofLittleEndian octets < 2 ^ 64 := hLt
    refine ⟨UInt64.ofNat (ofLittleEndian octets), ?_, ?_⟩
    · rw [Scalar.read, List.take_of_length_le (Nat.le_of_eq hLength)]
      rfl
    · rwa [UInt64.toNat_ofNat', Nat.mod_eq_of_lt hLt]

/-- A field cannot be read when its number, or one in the struct that it holds, is too large. -/
theorem decodeField_error_iff {fuel : Nat} {owner : String} {f : FieldLayout}
    (hFits : m.layouts.Fits rank owner f)
    (hNested : ∀ inside l, m.layouts.get? inside = some l → rank inside < rank owner →
      ∀ octets, octets.length = l.size →
        ((∃ e, m.decodeFields fuel l octets = .error e) ↔
          ∃ offset, m.layouts.Slot inside offset (.scalar .u64) ∧
            2 ^ 63 ≤ ofLittleEndian (part offset 8 octets)))
    {memory : List UInt8} (hLength : memory.length = f.size) :
    (∃ e, m.decodeField (m.decodeFields fuel) owner f memory = .error e) ↔
      (f.type = .scalar .u64 ∧ 2 ^ 63 ≤ ofLittleEndian memory) ∨
      ∃ inside offset, f.type = .struct inside ∧ m.layouts.Slot inside offset (.scalar .u64) ∧
        2 ^ 63 ≤ ofLittleEndian (part offset 8 memory) := by
  cases hFits with
  | scalar kind hType hSize =>
    have hKind := @ofScalar_read_error_iff kind (owner ++ "." ++ f.name) memory (hSize ▸ hLength)
    rw [exists_error_iff] at hKind ⊢
    simp only [decodeField_scalar hType, hKind, hType, TypeRef.scalar.injEq, reduceCtorEq,
      false_and, exists_false, or_false]
  | text width hType hSize =>
    have hReads : ∃ v, m.decodeField (m.decodeFields fuel) owner f memory = .ok v :=
      ⟨_, decodeField_text hType⟩
    simp only [exists_error_iff, hReads, hType, not_true_eq_false, reduceCtorEq, false_and,
      exists_false, or_false]
  | struct inside l hType hGet hSize hLower =>
    have hInside := hNested inside l hGet hLower memory (hSize ▸ hLength)
    have hSame : (∃ v, m.decodeField (m.decodeFields fuel) owner f memory = .ok v) ↔
        ∃ r, m.decodeFields fuel l memory = .ok r := by
      constructor
      · rintro ⟨v, hv⟩
        exact ((decodeField_struct hType hGet).mp hv).imp fun _ hr => hr.1
      · rintro ⟨r, hr⟩
        exact ⟨r.toValue, (decodeField_struct hType hGet).mpr ⟨r, hr, rfl⟩⟩
    rw [exists_error_iff, hSame, ← exists_error_iff, hInside]
    simp only [hType, reduceCtorEq, false_and, false_or, TypeRef.struct.injEq]
    constructor
    · rintro ⟨offset, hSlot, hBig⟩
      exact ⟨inside, offset, rfl, hSlot, hBig⟩
    · rintro ⟨_, offset, rfl, hSlot, hBig⟩
      exact ⟨offset, hSlot, hBig⟩

theorem decodeFields_error_iff (hRanked : m.layouts.Ranked rank) {fuel : Nat}
    (hGet : m.layouts.get? name = some l) (hFuel : rank name < fuel) {octets : List UInt8}
    (hLength : octets.length = l.size) :
    (∃ e, m.decodeFields fuel l octets = .error e) ↔
      ∃ offset, m.layouts.Slot name offset (.scalar .u64) ∧
        2 ^ 63 ≤ ofLittleEndian (part offset 8 octets) := by
  -- The fuel stays above the rank, and a struct inside has a lower rank than the one around it.
  induction fuel generalizing name l octets with
  | zero => exact absurd hFuel (Nat.not_lt_zero _)
  | succ fuel ih =>
    obtain ⟨-, hName⟩ := LayoutTable.get?_eq_some hGet
    have hSound := hRanked.sound hGet
    have hSlot {f : FieldLayout} (hf : f ∈ l.fields) : (slot f octets).length = f.size :=
      length_part (hLength ▸ hSound.inside f hf)
    have hField {f : FieldLayout} (hf : f ∈ l.fields) :
        (∃ e, m.decodeField (m.decodeFields fuel) l.name f (slot f octets) = .error e) ↔ _ :=
      decodeField_error_iff (hSound.fits f hf)
        (fun inside l' hGet' hLower octets hOctets =>
          ih hGet' (by rw [hName] at hLower; omega) hOctets)
        (hSlot hf)
    have hFields : (∃ e, m.decodeFields (fuel + 1) l octets = .error e) ↔
        ∃ f ∈ l.fields, ∃ e,
          m.decodeField (m.decodeFields fuel) l.name f (slot f octets) = .error e := by
      simp only [exists_error_iff, exists_decodeFields_iff, not_forall, exists_prop]
    rw [hFields]
    constructor
    · rintro ⟨f, hf, hFails⟩
      rcases (hField hf).mp hFails with ⟨hType, hBig⟩ | ⟨inside, offset, hType, hInner, hBig⟩
      · have hSize := (hSound.fits f hf).size_eq (by rw [hType]; exact nofun)
        rw [slot_eq_part, hSize, hType] at hBig
        exact ⟨f.offset, .scalar hGet hf hType, hBig⟩
      · obtain ⟨l', hGet', hSize, -⟩ := (hSound.fits f hf).struct_layout hType
        have hRoom : offset + 8 ≤ f.size := hSize ▸ hInner.inside hRanked hGet'
        rw [slot_eq_part, part_part _ hRoom] at hBig
        exact ⟨f.offset + offset, .inner hGet hf hType hInner, hBig⟩
    · rintro ⟨offset, hU64, hBig⟩
      obtain ⟨f, hf, ⟨-, hType, rfl, hSize⟩ | ⟨inside, offset', hType, hInner, rfl, hRoom⟩⟩ :=
        slot_cases hRanked hGet hU64
      · refine ⟨f, hf, (hField hf).mpr (Or.inl ⟨hType, ?_⟩)⟩
        rwa [slot_eq_part, ← hSize]
      · have hRoom : offset' + 8 ≤ f.size := hRoom
        refine ⟨f, hf, (hField hf).mpr (Or.inr ⟨inside, offset', hType, hInner, ?_⟩)⟩
        rwa [slot_eq_part, part_part _ hRoom]

/-- The memory of one field after reading and writing it. -/
structure NormalizedField (table : LayoutTable) (f : FieldLayout)
    (under before after : List UInt8) : Prop where
  flat : (∀ name, f.type ≠ .struct name) → NormalSlot f.type before after
  struct : ∀ name, f.type = .struct name → Normalized table name under before after

/-- The octets of a struct that are in no slot are as they were. -/
def Untouched (table : LayoutTable) (name : String) (under after : List UInt8) : Prop :=
  ∀ i, (∀ offset type, table.Slot name offset type →
    ¬ (offset ≤ i ∧ i < offset + type.slotSize)) → after[i]? = under[i]?

theorem untouched_of_fields (hRanked : m.layouts.Ranked rank)
    (hGet : m.layouts.get? name = some l) {under after : List UInt8}
    (hInside : ∀ f ∈ l.fields, ∀ inside, f.type = .struct inside →
      Untouched m.layouts inside (slot f under) (slot f after))
    (hRest : ∀ i, Outside l.fields i → after[i]? = under[i]?) :
    Untouched m.layouts name under after := by
  intro i hPadding
  by_cases hOut : Outside l.fields i
  · exact hRest i hOut
  · unfold Outside at hOut
    push Not at hOut
    obtain ⟨f, hf, hLe, hLt⟩ := hOut
    cases (hRanked.sound hGet).fits f hf with
    | scalar kind hType hSize =>
      rw [hSize] at hLt
      exact absurd ⟨hLe, hLt⟩ (hPadding _ _ (.scalar hGet hf hType))
    | text width hType hSize =>
      rw [hSize] at hLt
      exact absurd ⟨hLe, hLt⟩ (hPadding _ _ (.text hGet hf hType))
    | struct inside l' hType hGet' hSize hLower =>
      have hInner := hInside f hf inside hType (i - f.offset) fun offset type hSlot hIn =>
        hPadding _ _ (.inner hGet hf hType hSlot) ⟨by omega, by omega⟩
      rw [slot_eq_part, getElem?_part _ (by omega), slot_eq_part, getElem?_part _ (by omega)]
        at hInner
      rwa [Nat.add_sub_cancel' hLe] at hInner

theorem normalized_of_fields (hRanked : m.layouts.Ranked rank)
    (hGet : m.layouts.get? name = some l) {under before after : List UInt8}
    (hLength : after.length = before.length)
    (hFields : ∀ f ∈ l.fields,
      NormalizedField m.layouts f (slot f under) (slot f before) (slot f after))
    (hRest : ∀ i, Outside l.fields i → after[i]? = under[i]?) :
    Normalized m.layouts name under before after where
  length := hLength
  slots offset type hSlot := by
    obtain ⟨f, hf, ⟨hFlat, rfl, rfl, hSize⟩ | ⟨inside, offset', hType, hInner, rfl, hRoom⟩⟩ :=
      slot_cases hRanked hGet hSlot
    · rw [hSize]
      exact (hFields f hf).flat hFlat
    · rw [← part_part _ hRoom, ← part_part _ hRoom]
      exact ((hFields f hf).struct inside hType).slots offset' type hInner
  padding := untouched_of_fields hRanked hGet
    (fun f hf inside hType => ((hFields f hf).struct inside hType).padding) hRest

theorem map_fst_of_forall₂ {fields : List FieldLayout} {values : List (String × Value)}
    (h : List.Forall₂ (fun f g => g.1 = f.name) fields values) :
    values.map (·.1) = fields.map (·.name) := by
  induction h with
  | nil => rfl
  | cons hHead _ ih => rw [List.map_cons, List.map_cons, hHead, ih]

theorem encodeField_decodeField {fuel : Nat} {owner : String} {f : FieldLayout}
    (hFits : m.layouts.Fits rank owner f)
    (hNested : ∀ inside l, m.layouts.get? inside = some l → rank inside < rank owner →
      ∀ under before r path, under.length = l.size → before.length = l.size →
        m.decodeFields fuel l before = .ok r →
        ∃ after, m.encodeFields fuel l r under path = .ok after ∧
          Normalized m.layouts inside under before after ∧ m.decodeFields fuel l after = .ok r)
    {under before : List UInt8} (hUnder : under.length = f.size)
    (hBefore : before.length = f.size) {v : Value}
    (hRead : m.decodeField (m.decodeFields fuel) owner f before = .ok v) (path : String) :
    ∃ written, m.encodeField (m.encodeFields fuel) path f v under = .ok written ∧
      NormalizedField m.layouts f under before written ∧
      m.decodeField (m.decodeFields fuel) owner f written = .ok v := by
  cases hFits with
  | scalar kind hType hSize =>
    rw [decodeField_scalar hType] at hRead
    obtain ⟨s, hTaken, hNormal, hAgain⟩ := scalar_roundTrip (hSize ▸ hBefore) hRead path
    refine ⟨s.write, (encodeField_scalar hType).mpr ⟨s, hTaken, rfl⟩, ⟨fun _ => ?_, ?_⟩, ?_⟩
    · rwa [hType]
    · exact fun _ hOther => nomatch hType.symm.trans hOther
    · rwa [decodeField_scalar hType]
  | text width hType hSize =>
    rw [decodeField_text hType] at hRead
    cases hRead
    obtain ⟨text, hText, hWidth, hNormal, hAgain⟩ := text_roundTrip (hSize ▸ hBefore)
    refine ⟨_, (encodeField_text hType).mpr ⟨text, hText, hWidth, rfl⟩, ⟨fun _ => ?_, ?_⟩, ?_⟩
    · rwa [hType, hSize]
    · exact fun _ hOther => nomatch hType.symm.trans hOther
    · rw [decodeField_text hType, hSize, hAgain]
  | struct inside l hType hGet hSize hLower =>
    obtain ⟨r, hInner, rfl⟩ := (decodeField_struct hType hGet).mp hRead
    obtain ⟨written, hWritten, hNormal, hAgain⟩ := hNested inside l hGet hLower under before r path
      (hSize ▸ hUnder) (hSize ▸ hBefore) hInner
    have hName : r.typeName = inside :=
      (typeName_of_decodeFields hInner).trans (LayoutTable.get?_eq_some hGet).2
    refine ⟨written, (encodeField_struct hType hGet).mpr ⟨r.fields, ?_, ?_⟩,
      ⟨fun hFlat => absurd hType (hFlat _), fun _ hSame => ?_⟩, ?_⟩
    · rw [Record.toValue, hName]
    · rwa [← hName]
    · cases hType.symm.trans hSame
      exact hNormal
    · exact (decodeField_struct hType hGet).mpr ⟨r, hAgain, rfl⟩

theorem exists_encodeFields (hRanked : m.layouts.Ranked rank) {fuel : Nat}
    (hGet : m.layouts.get? name = some l) {r : Record} {under : List UInt8}
    (hUnder : under.length = l.size) {path : String} {good : FieldLayout → List UInt8 → Prop}
    (hKnown : ∀ g ∈ r.fields, g.1 ∈ l.fields.map (·.name))
    (hFields : ∀ f ∈ l.fields, ∃ v, r.get? f.name = some v ∧ ∃ written,
      m.encodeField (m.encodeFields fuel) (path ++ "." ++ f.name) f v (slot f under) =
        .ok written ∧ good f written) :
    ∃ after, m.encodeFields (fuel + 1) l r under path = .ok after ∧ after.length = l.size ∧
      (∀ f ∈ l.fields, good f (slot f after)) ∧
      ∀ i, Outside l.fields i → after[i]? = under[i]? := by
  have hSeparate := separate_encodeMember hRanked fuel hGet r path hUnder
  obtain ⟨after, hWrite⟩ := hSeparate.exists_writeAll fun f hf => by
    obtain ⟨v, hv, written, hEncode, -⟩ := hFields f hf
    exact ⟨written, encodeMember_eq_ok_iff.mpr ⟨v, hv, hEncode⟩⟩
  have hWritten := hSeparate.written_of_writeAll hWrite
  refine ⟨after, encodeFields_succ.mpr ⟨fun g hg => ?_, hWrite⟩, hWritten.length.trans hUnder,
    fun f hf => ?_, hWritten.rest⟩
  · rw [StructLayout.field?_isSome_iff]
    simpa using hKnown g hg
  · obtain ⟨v, hv, written, hEncode, hGood⟩ := hFields f hf
    obtain ⟨v', hv', hEncode'⟩ := encodeMember_eq_ok_iff.mp (hWritten.slots f hf)
    cases hv.symm.trans hv'
    cases hEncode.symm.trans hEncode'
    exact hGood

/-- What was read is written back in normal form and read again the same. -/
theorem encodeFields_decodeFields (hRanked : m.layouts.Ranked rank) {fuel : Nat}
    (hGet : m.layouts.get? name = some l) (hFuel : rank name < fuel)
    {under before : List UInt8} (hUnder : under.length = l.size) (hBefore : before.length = l.size)
    {r : Record} (h : m.decodeFields fuel l before = .ok r) (path : String) :
    ∃ after, m.encodeFields fuel l r under path = .ok after ∧
      Normalized m.layouts name under before after ∧ m.decodeFields fuel l after = .ok r := by
  induction fuel generalizing name l under before r path with
  | zero => exact absurd hFuel (Nat.not_lt_zero _)
  | succ fuel ih =>
    obtain ⟨-, hName⟩ := LayoutTable.get?_eq_some hGet
    have hSound := hRanked.sound hGet
    obtain ⟨hTypeName, hFields⟩ := decodeFields_eq_ok_iff.mp h
    have hSlot {octets : List UInt8} (hOctets : octets.length = l.size) {f : FieldLayout}
        (hf : f ∈ l.fields) : (slot f octets).length = f.size :=
      length_part (hOctets ▸ hSound.inside f hf)
    have hNested : ∀ inside l', m.layouts.get? inside = some l' → rank inside < rank l.name →
        ∀ under before r path, under.length = l'.size → before.length = l'.size →
          m.decodeFields fuel l' before = .ok r →
          ∃ after, m.encodeFields fuel l' r under path = .ok after ∧
            Normalized m.layouts inside under before after ∧
            m.decodeFields fuel l' after = .ok r := by
      intro inside l' hGet' hLower under before r path hUnder hBefore hRead
      rw [hName] at hLower
      exact ih hGet' (by omega) hUnder hBefore hRead path
    have hKnown : ∀ g ∈ r.fields, g.1 ∈ l.fields.map (·.name) := by
      intro g hg
      rw [← map_fst_of_forall₂ (hFields.imp fun _ _ hField => hField.1)]
      exact List.mem_map.mpr ⟨g, hg, rfl⟩
    have hValues := Record.get?_of_forall₂ r.typeName
      (fun f v => m.decodeField (m.decodeFields fuel) l.name f (slot f before) = .ok v)
      hSound.names hFields
    have hEach : ∀ f ∈ l.fields, ∃ v, r.get? f.name = some v ∧ ∃ written,
        m.encodeField (m.encodeFields fuel) (path ++ "." ++ f.name) f v (slot f under) =
          .ok written ∧
        NormalizedField m.layouts f (slot f under) (slot f before) written ∧
        ∀ w, m.decodeField (m.decodeFields fuel) l.name f (slot f before) = .ok w →
          m.decodeField (m.decodeFields fuel) l.name f written = .ok w := by
      intro f hf
      obtain ⟨v, hv, hRead⟩ := hValues f hf
      obtain ⟨written, hEncode, hNormal, hAgain⟩ := encodeField_decodeField (hSound.fits f hf)
        hNested (hSlot hUnder hf) (hSlot hBefore hf) hRead (path ++ "." ++ f.name)
      refine ⟨v, hv, written, hEncode, hNormal, fun w hOther => ?_⟩
      cases hRead.symm.trans hOther
      exact hAgain
    obtain ⟨after, hEncode, hLength, hDone, hRest⟩ :=
      exists_encodeFields hRanked hGet hUnder hKnown hEach
    refine ⟨after, hEncode, normalized_of_fields hRanked hGet (hLength.trans hBefore.symm)
      (fun f hf => (hDone f hf).1) hRest, decodeFields_eq_ok_iff.mpr ⟨hTypeName, ?_⟩⟩
    refine List.Forall₂.imp ?_ ((List.forall₂_and_left _ _).mpr
      ⟨fun f hf => (hDone f hf).2, hFields⟩)
    exact fun f g ⟨hAgain, hSame, hRead⟩ => ⟨hSame, hAgain _ hRead⟩

/-- Reading and writing the memory of a struct, with its layout. -/
structure RoundTrips (m : Marshaler) (s : StructDecl) (l : StructLayout) : Prop where
  found : m.layouts.get? s.name = some l
  declared : l.fields.map (fun f => (f.name, f.type)) = s.fields.map fun f => (f.name, f.type)
  fails : ∀ octets : List UInt8, octets.length = l.size →
    ((∃ e, m.decodeStruct ⟨s.name, octets⟩ = .error e) ↔
      ∃ offset, m.layouts.Slot s.name offset (.scalar .u64) ∧
        2 ^ 63 ≤ ofLittleEndian (part offset 8 octets))
  writes : ∀ octets r, octets.length = l.size → m.decodeStruct ⟨s.name, octets⟩ = .ok r →
    ∃ after, m.encodeStruct r = .ok ⟨s.name, after⟩ ∧
      Normalized m.layouts s.name (List.replicate l.size 0) octets after ∧
      m.decodeStruct ⟨s.name, after⟩ = .ok r

theorem decodeStruct_of_get? (hGet : m.layouts.get? name = some l) {octets : List UInt8}
    (hLength : octets.length = l.size) :
    m.decodeStruct ⟨name, octets⟩ = m.decodeFields m.depth l octets := by
  simp [decodeStruct, LayoutTable.require_eq_ok hGet, hLength, bind, Except.bind]

theorem encodeStruct_of_get? {r : Record} (hGet : m.layouts.get? r.typeName = some l)
    {n : NativeStruct} :
    m.encodeStruct r = .ok n ↔ ∃ after, n = ⟨r.typeName, after⟩ ∧
      m.encodeFields m.depth l r (List.replicate l.size 0) r.typeName = .ok after := by
  have hName := (LayoutTable.get?_eq_some hGet).2
  simp only [encodeStruct, LayoutTable.require_eq_ok hGet, bind_eq_ok_iff]
  constructor
  · rintro ⟨_, hLayout, after, hAfter, hEq⟩
    cases hLayout
    cases hEq
    exact ⟨after, by rw [hName], hAfter⟩
  · rintro ⟨after, rfl, hAfter⟩
    exact ⟨l, rfl, after, hAfter, by rw [hName]; rfl⟩

/-- In an accepted model the memory of every struct can be read, but for unsigned numbers above the
signed range, and written back in normal form. -/
theorem roundTrips_of_new {library : LibraryInfo} {structs : List StructDecl}
    {classes : List ClassDecl} {model : Model} (h : Model.new library structs classes = .ok model) :
    ∃ m, new model = .ok m ∧ ∀ s ∈ model.structs, ∃ l, m.RoundTrips s l := by
  obtain ⟨table, rank, hBuild, hRanked, hCovers⟩ :=
    LayoutTable.build_ranked (Model.structRules_of_new h)
  refine ⟨⟨model, table⟩, by rw [new, hBuild]; rfl, fun s hs => ?_⟩
  obtain ⟨l, hGet⟩ := hCovers.complete s hs
  have hFuel : rank s.name < depth ⟨model, table⟩ := Nat.lt_succ_of_lt (hRanked.bound hGet)
  have hZeros : (List.replicate l.size (0 : UInt8)).length = l.size := List.length_replicate
  refine ⟨l, hGet, hCovers.declared hs hGet, fun octets hLength => ?_,
    fun octets r hLength hRead => ?_⟩
  · rw [decodeStruct_of_get? hGet hLength]
    exact decodeFields_error_iff hRanked hGet hFuel hLength
  · rw [decodeStruct_of_get? hGet hLength] at hRead
    obtain ⟨after, hWritten, hNormal, hAgain⟩ :=
      encodeFields_decodeFields hRanked hGet hFuel hZeros hLength hRead s.name
    have hName : r.typeName = s.name :=
      (typeName_of_decodeFields hRead).trans (LayoutTable.get?_eq_some hGet).2
    refine ⟨after, ?_, hNormal, ?_⟩
    · rw [← hName] at hGet hWritten ⊢
      exact (encodeStruct_of_get? hGet).mpr ⟨after, rfl, hWritten⟩
    · rwa [decodeStruct_of_get? hGet (hNormal.length.trans hLength)]

def sampleModel : Model where
  library := { name := "sample" }
  structs :=
    [⟨"Quote", [⟨"symbol", .fixedText 5⟩, ⟨"level", .struct "Level"⟩, ⟨"price", .scalar .f32⟩]⟩,
      ⟨"Level", [⟨"open", .scalar .bool⟩, ⟨"volume", .scalar .u64⟩]⟩]

theorem sampleModel_accepted :
    Model.new sampleModel.library sampleModel.structs sampleModel.classes = .ok sampleModel := rfl

theorem roundTrips_sample :
    ∃ m, new sampleModel = .ok m ∧ ∀ s ∈ sampleModel.structs, ∃ l, m.RoundTrips s l :=
  roundTrips_of_new sampleModel_accepted

end Marshaler

end NativeBinding
