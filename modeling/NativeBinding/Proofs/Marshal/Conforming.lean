import NativeBinding.Proofs.Marshal.Blame
import NativeBinding.Proofs.Marshal.RoundTrip

/-! # Native values of a type

What a native caller may rely on when it is given a value of a declared type. Values that scripting
code gives for a carried type conform to it, and so does the default of the type; all of them can be
read back.
-/

set_option autoImplicit false

namespace NativeBinding.Marshaler

open Marshal

/-- A value as a native function of the declared type takes and gives it. -/
inductive Conforms (m : Marshaler) : TypeRef → NativeArg → Prop where
  | void : Conforms m .void .void
  | scalar {kind : ScalarKind} {s : Scalar} : s.kind = kind → Conforms m (.scalar kind) (.scalar s)
  | fixedText {width : Nat} {octets : List UInt8} : octets.length ≤ width →
      Conforms m (.fixedText width) (.text octets)
  | cString {octets : List UInt8} : 0 ∉ octets → Conforms m .cString (.text octets)
  | noCString : Conforms m .cString .null
  | struct {name : String} {l : StructLayout} {octets : List UInt8} :
      m.layouts.get? name = some l → octets.length = l.size →
      Conforms m (.struct name) (.struct ⟨name, octets⟩)
  | noStruct {name : String} : Conforms m (.struct name) .null

/-- A value of the type that scripting code can be shown. -/
structure Answers (m : Marshaler) (type : TypeRef) (arg : NativeArg) : Prop where
  conforms : m.Conforms type arg
  readable : ∀ path, ∃ v, m.toScript type arg path = .ok v

variable {m : Marshaler} {rank : String → Nat} {path : String}

theorem answers_void : m.Answers .void .void :=
  ⟨.void, fun _ => ⟨.null, rfl⟩⟩

theorem Answers.eq_void {type : TypeRef} (h : m.Answers type .void) : type = .void := by
  obtain ⟨hConforms, -⟩ := h
  cases hConforms
  rfl

theorem answers_scalar {s : Scalar} (h : ∀ path, ∃ v, ofScalar path s = .ok v) :
    m.Answers (.scalar s.kind) (.scalar s) :=
  ⟨.scalar rfl, fun path => by simpa [toScript] using h path⟩

theorem answers_fixedText {width : Nat} {octets : List UInt8} (h : octets.length ≤ width) :
    m.Answers (.fixedText width) (.text octets) :=
  ⟨.fixedText h, fun _ => ⟨_, rfl⟩⟩

/-- A relation of given values with what is read back that goes from the fields of a record to the
record. -/
structure Fieldwise (m : Marshaler) (good : TypeRef → Value → Value → Prop) : Prop where
  scalar : ∀ {kind given back v s w}, toScalar kind given v = .ok s → ofScalar back s = .ok w →
    good (.scalar kind) v w
  text : ∀ {width v octets}, v.textBytes? = some octets → octets.length ≤ width →
    good (.fixedText width) v (Value.ofTextBytes (untilNul octets))
  record : ∀ {name l} {r r' : Record}, m.layouts.get? name = some l → r'.typeName = l.name →
    List.Forall₂ (fun f g => g.1 = f.name ∧ ∃ v, r.get? f.name = some v ∧ good f.type v g.2)
      l.fields r'.fields →
    good (.struct name) r.toValue r'.toValue

theorem Fieldwise.of_encodeFields {good : TypeRef → Value → Value → Prop} (hGood : m.Fieldwise good)
    (hRanked : m.layouts.Ranked rank) {fuel : Nat} {name : String} {l : StructLayout}
    (hGet : m.layouts.get? name = some l) (hFuel : rank name < fuel) {r : Record}
    {under written : List UInt8} (hUnder : under.length = l.size)
    (h : m.encodeFields fuel l r under path = .ok written) :
    ∃ r', m.decodeFields fuel l written = .ok r' ∧ good (.struct name) r.toValue r'.toValue := by
  -- On the fuel, which the rank of a struct stays below; a struct inside has a lower rank.
  induction fuel generalizing name l r under written path with
  | zero => exact absurd hFuel (Nat.not_lt_zero _)
  | succ fuel ih =>
    obtain ⟨-, hName⟩ := LayoutTable.get?_eq_some hGet
    have hSound := hRanked.sound hGet
    have hField : ∀ f ∈ l.fields, ∀ v octets, r.get? f.name = some v →
        m.encodeField (m.encodeFields fuel) (path ++ "." ++ f.name) f v (slot f under) =
          .ok octets →
        ∃ w, m.decodeField (m.decodeFields fuel) l.name f octets = .ok w ∧ good f.type v w := by
      intro f hf v octets _ hEncode
      cases hSound.fits f hf with
      | scalar kind hType hSize =>
        obtain ⟨s, hTaken, rfl⟩ := (encodeField_scalar hType).mp hEncode
        obtain ⟨hKind, w, hRead, -⟩ := ofScalar_toScalar hTaken (l.name ++ "." ++ f.name)
        refine ⟨w, ?_, hType ▸ hGood.scalar hTaken hRead⟩
        rwa [decodeField_scalar hType, ← hKind, s.read_write]
      | text width hType hSize =>
        obtain ⟨text, hText, hRoom, rfl⟩ := (encodeField_text hType).mp hEncode
        refine ⟨Value.ofTextBytes (untilNul text), ?_, hType ▸ hGood.text hText hRoom⟩
        rw [decodeField_text hType, untilNul_padded]
      | struct inside l' hType hGet' hSize hLower =>
        obtain ⟨given, rfl, hWritten⟩ := (encodeField_struct hType hGet').mp hEncode
        have hRoom : (slot f under).length = f.size :=
          length_part (hUnder ▸ hSound.inside f hf)
        rw [hName] at hLower
        obtain ⟨r', hRead, hInside⟩ := ih hGet' (by omega) (hSize ▸ hRoom) hWritten
        exact ⟨r'.toValue, (decodeField_struct hType hGet').mpr ⟨r', hRead, rfl⟩, hType ▸ hInside⟩
    obtain ⟨r', hRead, hTypeName, hFields⟩ :=
      exists_decodeFields_of_written hRanked hGet hUnder hField h
    exact ⟨r', hRead, hGood.record hGet hTypeName hFields⟩

theorem Fieldwise.of_encodeStruct {good : TypeRef → Value → Value → Prop} (hGood : m.Fieldwise good)
    (hRanked : m.layouts.Ranked rank) {r : Record} {n : NativeStruct}
    (h : m.encodeStruct r = .ok n) :
    ∃ l r', m.layouts.get? r.typeName = some l ∧ n.name = r.typeName ∧ n.bytes.length = l.size ∧
      m.decodeStruct n = .ok r' ∧ good (.struct r.typeName) r.toValue r'.toValue := by
  cases hGet : m.layouts.get? r.typeName with
  | none =>
    simp only [encodeStruct, LayoutTable.require, hGet] at h
    cases h
  | some l =>
    obtain ⟨written, rfl, hWritten⟩ := (encodeStruct_of_get? hGet).mp h
    have hZeros : (List.replicate l.size (0 : UInt8)).length = l.size := List.length_replicate
    have hLength := keepsSize_encodeFields hRanked _ hGet hZeros hWritten
    have hFuel : rank r.typeName < m.depth := Nat.lt_succ_of_lt (hRanked.bound hGet)
    obtain ⟨r', hRead, hRelated⟩ := hGood.of_encodeFields hRanked hGet hFuel hZeros hWritten
    exact ⟨l, r', rfl, rfl, hLength, by rwa [decodeStruct_of_get? hGet hLength], hRelated⟩

theorem fieldwise_true : m.Fieldwise fun _ _ _ => True :=
  ⟨fun _ _ => trivial, fun _ _ => trivial, fun _ _ _ => trivial⟩

theorem answers_encodeStruct (hRanked : m.layouts.Ranked rank) {r : Record} {n : NativeStruct}
    (h : m.encodeStruct r = .ok n) : m.Answers (.struct r.typeName) (.struct n) := by
  obtain ⟨l, r', hGet, hName, hLength, hRead, -⟩ := fieldwise_true.of_encodeStruct hRanked h
  obtain ⟨name, octets⟩ := n
  cases hName
  exact ⟨.struct hGet hLength, fun path => ⟨r'.toValue, by simp [toScript, hRead, Except.map]⟩⟩

/-- What scripting code gives for a carried type is a value of it, once it is taken. -/
theorem answers_toNative (hRanked : m.layouts.Ranked rank) {type : TypeRef} {v : Value}
    {arg : NativeArg} (h : m.toNative type v path = .ok arg) : m.Answers type arg := by
  unfold toNative at h
  cases type with
  | void =>
    cases h
    exact answers_void
  | scalar kind =>
    obtain ⟨s, hTaken, rfl⟩ := map_eq_ok_iff.mp h
    obtain ⟨rfl, -⟩ := ofScalar_toScalar hTaken path
    exact answers_scalar fun back => (ofScalar_toScalar hTaken back).2.imp fun _ hw => hw.1
  | fixedText width =>
    obtain ⟨octets, hTaken, rfl⟩ := map_eq_ok_iff.mp h
    unfold fixedTextBytes at hTaken
    split at hTaken
    · cases hTaken
    · split at hTaken
      · cases hTaken
      · cases hTaken
        exact answers_fixedText (Nat.not_lt.mp ‹_›)
  | cString =>
    dsimp only at h
    split at h
    · cases h
      exact ⟨.noCString, fun _ => ⟨_, rfl⟩⟩
    · split at h
      · cases h
      · split at h
        · cases h
        · rename_i hFree
          cases h
          exact ⟨.cString (by simpa using hFree), fun _ => ⟨_, rfl⟩⟩
  | struct name =>
    dsimp only at h
    split at h
    · cases h
      exact ⟨.noStruct, fun _ => ⟨_, rfl⟩⟩
    · split at h
      · rename_i hName
        obtain ⟨n, hWritten, rfl⟩ := map_eq_ok_iff.mp h
        exact hName ▸ answers_encodeStruct hRanked hWritten
      · cases h
    · cases h
  | object name => cases h
  | unsupported spelling => cases h

theorem answers_defaultNative {type : TypeRef} (h : m.Carries type) :
    m.Answers type (defaultNative type) := by
  cases type with
  | void => exact answers_void
  | scalar kind =>
    have hKind : (Scalar.zero kind).kind = kind := by cases kind <;> rfl
    have hRead : ∀ path, ∃ v, ofScalar path (Scalar.zero kind) = .ok v := fun path => by
      cases kind <;> exact ⟨_, rfl⟩
    have hZero : m.Answers (.scalar (Scalar.zero kind).kind) (.scalar (Scalar.zero kind)) :=
      answers_scalar hRead
    rwa [hKind] at hZero
  | fixedText width => exact answers_fixedText (Nat.zero_le _)
  | cString => exact ⟨.noCString, fun _ => ⟨_, rfl⟩⟩
  | struct name => exact ⟨.noStruct, fun _ => ⟨_, rfl⟩⟩
  | object name => exact absurd h id
  | unsupported spelling => exact absurd h id

end NativeBinding.Marshaler
