import NativeBinding.Proofs.Marshal.Canonical
import NativeBinding.Proofs.Model.Coherence

/-! # What a field can change in memory

A record is written over zeros, and each field within its own range. Of two records that differ in
one field the memory is the same outside of the field's range, at whatever depth the field lies;
what is in no slot stays zero in all of them. The memory of a fresh record is all zeros.
-/

set_option autoImplicit false

namespace NativeBinding.Marshaler

open Ieee

/-- Two records that have the same values but for one field of a layout. -/
def AgreeBut (l : StructLayout) (f : FieldLayout) (r r' : Record) : Prop :=
  ∀ g ∈ l.fields, g.name ≠ f.name → r.get? g.name = r'.get? g.name

/-- Two records of a struct that differ in one field at most, with the offset and the size of the
field: one of the struct itself, or one of a struct that a field holds. -/
inductive DifferAt (table : LayoutTable) : String → Nat → Nat → Record → Record → Prop where
  | field {l : StructLayout} {f : FieldLayout} {name : String}
      {given given' : List (String × Value)} :
      table.get? name = some l → f ∈ l.fields → AgreeBut l f ⟨name, given⟩ ⟨name, given'⟩ →
      DifferAt table name f.offset f.size ⟨name, given⟩ ⟨name, given'⟩
  | inner {l : StructLayout} {f : FieldLayout} {name inside : String} {offset size : Nat}
      {given given' below below' : List (String × Value)} :
      table.get? name = some l → f ∈ l.fields → f.type = .struct inside →
      AgreeBut l f ⟨name, given⟩ ⟨name, given'⟩ →
      Record.get? ⟨name, given⟩ f.name = some (.record inside below) →
      Record.get? ⟨name, given'⟩ f.name = some (.record inside below') →
      DifferAt table inside offset size ⟨inside, below⟩ ⟨inside, below'⟩ →
      DifferAt table name (f.offset + offset) size ⟨name, given⟩ ⟨name, given'⟩

/-- The same memory outside of a range. -/
def SameOutside (offset size : Nat) (octets octets' : List UInt8) : Prop :=
  ∀ i, ¬ (offset ≤ i ∧ i < offset + size) → octets[i]? = octets'[i]?

variable {m : Marshaler} {rank : String → Nat} {fuel : Nat} {l : StructLayout} {name path : String}
  {r r' : Record} {under after after' : List UInt8}

theorem written_of_encodeFields (hRanked : m.layouts.Ranked rank)
    (hGet : m.layouts.get? name = some l) (hUnder : under.length = l.size)
    (h : m.encodeFields (fuel + 1) l r under path = .ok after) :
    Written (m.encodeMember (m.encodeFields fuel) l.name r path) l.fields under after :=
  (separate_encodeMember hRanked fuel hGet r path hUnder).written_of_writeAll
    (encodeFields_succ.mp h).2

theorem untouched_encodeFields (hRanked : m.layouts.Ranked rank)
    (hGet : m.layouts.get? name = some l) (hUnder : under.length = l.size)
    (h : m.encodeFields fuel l r under path = .ok after) :
    Untouched m.layouts name under after := by
  induction fuel generalizing name l r under after path with
  | zero => cases h
  | succ fuel ih =>
    have hWritten := written_of_encodeFields hRanked hGet hUnder h
    refine untouched_of_fields hRanked hGet (fun f hf inside hType => ?_) hWritten.rest
    have hSound := hRanked.sound hGet
    obtain ⟨l', hGet', hSize, -⟩ := (hSound.fits f hf).struct_layout hType
    obtain ⟨v, -, hEncode⟩ := encodeMember_eq_ok_iff.mp (hWritten.slots f hf)
    obtain ⟨given, -, hNested⟩ := (encodeField_struct hType hGet').mp hEncode
    have hSlot : (slot f under).length = f.size := length_part (hUnder ▸ hSound.inside f hf)
    exact ih hGet' (hSlot.trans hSize) hNested

/-- Fields with the same values in two records are written the same, whatever the others are. -/
theorem sameOutside_of_agreeBut (hRanked : m.layouts.Ranked rank)
    (hGet : m.layouts.get? name = some l) (hUnder : under.length = l.size) {f : FieldLayout}
    (hf : f ∈ l.fields) (hAgree : AgreeBut l f r r')
    (h : m.encodeFields (fuel + 1) l r under path = .ok after)
    (h' : m.encodeFields (fuel + 1) l r' under path = .ok after') :
    SameOutside f.offset f.size after after' := by
  intro i hOther
  have hWritten := written_of_encodeFields hRanked hGet hUnder h
  have hWritten' := written_of_encodeFields hRanked hGet hUnder h'
  by_cases hOut : Outside l.fields i
  · rw [hWritten.rest i hOut, hWritten'.rest i hOut]
  · unfold Outside at hOut
    push Not at hOut
    obtain ⟨g, hg, hLe, hLt⟩ := hOut
    have hName : g.name ≠ f.name := by
      intro hSame
      obtain rfl := List.inj_on_of_nodup_map (hRanked.sound hGet).names hg hf hSame
      exact hOther ⟨hLe, hLt⟩
    have hMember : m.encodeMember (m.encodeFields fuel) l.name r path g (slot g under) =
        m.encodeMember (m.encodeFields fuel) l.name r' path g (slot g under) := by
      rw [encodeMember, encodeMember, hAgree g hg hName]
    have hSlots : slot g after = slot g after' :=
      Except.ok.inj ((hWritten.slots g hg).symm.trans (hMember.trans (hWritten'.slots g hg)))
    have hAt : (slot g after)[i - g.offset]? = (slot g after')[i - g.offset]? := by rw [hSlots]
    rw [slot_eq_part, slot_eq_part, getElem?_part _ (by omega), getElem?_part _ (by omega)] at hAt
    rwa [Nat.add_sub_cancel' hLe] at hAt

/-- What two records differ in is all that their memory differs in. -/
theorem sameOutside_of_differAt (hRanked : m.layouts.Ranked rank) {offset size : Nat}
    (hDiffer : DifferAt m.layouts name offset size r r') (hGet : m.layouts.get? name = some l)
    (hUnder : under.length = l.size) (h : m.encodeFields fuel l r under path = .ok after)
    (h' : m.encodeFields fuel l r' under path = .ok after') :
    SameOutside offset size after after' := by
  induction hDiffer generalizing fuel l under after after' path with
  | field hOwner hf hAgree =>
    cases hOwner.symm.trans hGet
    cases fuel with
    | zero => cases h
    | succ fuel => exact sameOutside_of_agreeBut hRanked hGet hUnder hf hAgree h h'
  | @inner owner f _ inside offset size _ _ _ _ hOwner hf hType hAgree hBelow hBelow' _ ih =>
    cases hOwner.symm.trans hGet
    cases fuel with
    | zero => cases h
    | succ fuel =>
      have hSound := hRanked.sound hGet
      obtain ⟨l', hGet', hSize, -⟩ := (hSound.fits f hf).struct_layout hType
      have hSlot : (slot f under).length = f.size := length_part (hUnder ▸ hSound.inside f hf)
      have hNested {r : Record} {given : List (String × Value)} {after : List UInt8}
          (hValue : r.get? f.name = some (.record inside given))
          (hEncode : m.encodeFields (fuel + 1) owner r under path = .ok after) :
          m.encodeFields fuel l' ⟨inside, given⟩ (slot f under) (path ++ "." ++ f.name) =
            .ok (slot f after) := by
        have hWritten := written_of_encodeFields hRanked hGet hUnder hEncode
        obtain ⟨v, hv, hField⟩ := encodeMember_eq_ok_iff.mp (hWritten.slots f hf)
        cases hValue.symm.trans hv
        obtain ⟨fields, hEq, hWrite⟩ := (encodeField_struct hType hGet').mp hField
        cases hEq
        exact hWrite
      have hInside : SameOutside offset size (slot f after) (slot f after') :=
        ih hGet' (hSlot.trans hSize) (hNested hBelow h) (hNested hBelow' h')
      intro i hOther
      by_cases hIn : f.offset ≤ i ∧ i < f.offset + f.size
      · have hAt := hInside (i - f.offset) (by omega)
        rw [slot_eq_part, slot_eq_part, getElem?_part _ (by omega), getElem?_part _ (by omega)]
          at hAt
        rwa [Nat.add_sub_cancel' hIn.1] at hAt
      · exact sameOutside_of_agreeBut hRanked hGet hUnder hf hAgree h h' i hIn

section Zeros

theorem ofLittleEndian_zeros (count : Nat) : ofLittleEndian (List.replicate count 0) = 0 := by
  induction count with
  | zero => rfl
  | succ count ih =>
    rw [List.replicate_succ, ofLittleEndian, ih]
    rfl

theorem part_zeros {offset size room : Nat} (h : offset + size ≤ room) :
    part offset size (List.replicate room 0) = List.replicate size 0 := by
  rw [part, List.drop_replicate, List.take_replicate]
  congr 1
  omega

theorem NormalSlot.zeros {type : TypeRef} {after : List UInt8}
    (hLength : after.length = type.slotSize)
    (h : NormalSlot type (List.replicate type.slotSize 0) after) :
    after = List.replicate type.slotSize 0 := by
  cases type with
  | scalar kind =>
    cases kind with
    | f32 =>
      obtain hSame | ⟨x, -, hRead, -, hNan, -⟩ := h
      · exact hSame
      · -- Four zeros are the number zero, so no NaN was read from them.
        obtain rfl : (⟨0⟩ : Binary32) = x := Scalar.f32.inj hRead
        cases hNan
    | _ => exact h
  | fixedText width =>
    have hEmpty : untilNul (List.replicate width 0) = [] := untilNul_padded [] width
    rw [TypeRef.slotSize, NormalSlot, hEmpty] at h
    exact h
  | _ => exact List.length_eq_zero_iff.mp hLength

theorem Normalized.zeros (hRanked : m.layouts.Ranked rank) (hGet : m.layouts.get? name = some l)
    (h : Normalized m.layouts name (List.replicate l.size 0) (List.replicate l.size 0) after) :
    after = List.replicate l.size 0 := by
  have hLength : after.length = l.size := h.length.trans List.length_replicate
  refine List.ext_getElem? fun i => ?_
  by_cases hCovered : ∃ offset type, m.layouts.Slot name offset type ∧
      offset ≤ i ∧ i < offset + type.slotSize
  · obtain ⟨offset, type, hSlot, hLe, hLt⟩ := hCovered
    have hRoom : offset + type.slotSize ≤ l.size := hSlot.inside hRanked hGet
    have hNormal := h.slots offset type hSlot
    rw [part_zeros hRoom] at hNormal
    have hSame := NormalSlot.zeros (length_part (hLength ▸ hRoom)) hNormal
    have hAt : (part offset type.slotSize after)[i - offset]? =
        (part offset type.slotSize (List.replicate l.size 0))[i - offset]? := by
      rw [hSame, part_zeros hRoom]
    rw [getElem?_part _ (by omega), getElem?_part _ (by omega)] at hAt
    rwa [Nat.add_sub_cancel' hLe] at hAt
  · exact h.padding i fun offset type hSlot hIn => hCovered ⟨offset, type, hSlot, hIn⟩

theorem exists_decodeFields_zeros (hRanked : m.layouts.Ranked rank)
    (hGet : m.layouts.get? name = some l) (hFuel : rank name < fuel) :
    ∃ r, m.decodeFields fuel l (List.replicate l.size 0) = .ok r := by
  by_contra hNone
  obtain ⟨offset, hSlot, hBig⟩ := (decodeFields_error_iff hRanked hGet hFuel
    List.length_replicate).mp (exists_error_iff.mpr hNone)
  have hRoom : offset + 8 ≤ l.size := hSlot.inside hRanked hGet
  rw [part_zeros hRoom, ofLittleEndian_zeros] at hBig
  exact absurd hBig (by decide)

end Zeros

/-- What the fields of a struct can change in its memory, with the struct's layout. -/
structure Framed (m : Marshaler) (s : StructDecl) (l : StructLayout) : Prop where
  found : m.layouts.get? s.name = some l
  declared : l.fields.map (fun f => (f.name, f.type)) = s.fields.map fun f => (f.name, f.type)
  frame : ∀ offset size r r' n n', DifferAt m.layouts s.name offset size r r' →
    m.encodeStruct r = .ok n → m.encodeStruct r' = .ok n' →
    n.bytes.length = l.size ∧ n'.bytes.length = l.size ∧
      SameOutside offset size n.bytes n'.bytes
  padding : ∀ r n, r.typeName = s.name → m.encodeStruct r = .ok n → ∀ i, i < l.size →
    (∀ offset type, m.layouts.Slot s.name offset type →
      ¬ (offset ≤ i ∧ i < offset + type.slotSize)) → n.bytes[i]? = some 0
  fresh : ∃ r, m.newRecord s.name = .ok r ∧
    m.encodeStruct r = .ok ⟨s.name, List.replicate l.size 0⟩

theorem DifferAt.typeName {table : LayoutTable} {offset size : Nat}
    (h : DifferAt table name offset size r r') : r.typeName = name ∧ r'.typeName = name := by
  cases h <;> exact ⟨rfl, rfl⟩

theorem encodeFields_of_encodeStruct {r : Record} {n : NativeStruct}
    (hGet : m.layouts.get? name = some l) (hName : r.typeName = name)
    (h : m.encodeStruct r = .ok n) :
    m.encodeFields m.depth l r (List.replicate l.size 0) name = .ok n.bytes := by
  rw [← hName] at hGet ⊢
  obtain ⟨after, rfl, hWrite⟩ := (encodeStruct_of_get? hGet).mp h
  exact hWrite

theorem exists_newRecord_zeros (hRanked : m.layouts.Ranked rank)
    (hGet : m.layouts.get? name = some l) (hFuel : rank name < m.depth) :
    ∃ r, m.newRecord name = .ok r ∧ m.encodeStruct r = .ok ⟨name, List.replicate l.size 0⟩ := by
  have hZeros : (List.replicate l.size (0 : UInt8)).length = l.size := List.length_replicate
  obtain ⟨r, hRead⟩ := exists_decodeFields_zeros hRanked hGet hFuel
  obtain ⟨after, hWrite, hNormal, -⟩ :=
    encodeFields_decodeFields hRanked hGet hFuel hZeros hZeros hRead name
  obtain rfl : after = List.replicate l.size 0 := hNormal.zeros hRanked hGet
  obtain rfl : r.typeName = name :=
    (typeName_of_decodeFields hRead).trans (LayoutTable.get?_eq_some hGet).2
  refine ⟨r, ?_, (encodeStruct_of_get? hGet).mpr ⟨_, rfl, hWrite⟩⟩
  rw [newRecord, LayoutTable.require_eq_ok hGet]
  exact hRead

/-- In an accepted model a field changes only its own range of a struct's memory, padding is zero,
and a fresh record is all zeros. -/
theorem framed_of_accepted {model : Model} (h : model.Accepted) :
    ∃ m, new model = .ok m ∧ ∀ s ∈ model.structs, ∃ l, m.Framed s l := by
  obtain ⟨table, rank, hBuild, hRanked, hCovers⟩ := LayoutTable.build_ranked h.structRules
  refine ⟨⟨model, table⟩, by rw [new, hBuild]; rfl, fun s hs => ?_⟩
  obtain ⟨l, hGet⟩ := hCovers.complete s hs
  have hFuel : rank s.name < depth ⟨model, table⟩ := Nat.lt_succ_of_lt (hRanked.bound hGet)
  have hZeros : (List.replicate l.size (0 : UInt8)).length = l.size := List.length_replicate
  refine ⟨l, hGet, hCovers.declared hs hGet, ?_, ?_, exists_newRecord_zeros hRanked hGet hFuel⟩
  · intro offset size r r' n n' hDiffer hEncode hEncode'
    obtain ⟨hName, hName'⟩ := hDiffer.typeName
    have hWrite := encodeFields_of_encodeStruct hGet hName hEncode
    have hWrite' := encodeFields_of_encodeStruct hGet hName' hEncode'
    exact ⟨keepsSize_encodeFields hRanked _ hGet hZeros hWrite,
      keepsSize_encodeFields hRanked _ hGet hZeros hWrite',
      sameOutside_of_differAt hRanked hDiffer hGet hZeros hWrite hWrite'⟩
  · intro r n hName hEncode i hLt hPadding
    have hWrite := encodeFields_of_encodeStruct hGet hName hEncode
    rw [untouched_encodeFields hRanked hGet hZeros hWrite i hPadding]
    exact List.getElem?_replicate_of_lt hLt

theorem framed_sample :
    ∃ m, new sampleModel = .ok m ∧ ∀ s ∈ sampleModel.structs, ∃ l, m.Framed s l :=
  framed_of_accepted (.new sampleModel_accepted)

def sampleQuote (volume : Int64) : Record :=
  ⟨"Quote", [("symbol", .text "AB"), ("price", .int 3),
    ("level", .record "Level" [("volume", .int volume), ("open", .bool true)])]⟩

example : DifferAt sampleLayouts "Quote" (8 + 8) 8 (sampleQuote 7) (sampleQuote 9) := by
  refine .inner (l := sampleLayouts.layouts[1]) (f := ⟨"level", .struct "Level", 8, 16⟩) rfl
    (by decide) rfl ?_ rfl rfl
    (.field (l := sampleLayouts.layouts[0]) (f := ⟨"volume", .scalar .u64, 8, 8⟩) rfl
      (by decide) ?_)
  · simp [AgreeBut, sampleLayouts, Record.get?]
  · simp [AgreeBut, sampleLayouts, Record.get?]

end NativeBinding.Marshaler
