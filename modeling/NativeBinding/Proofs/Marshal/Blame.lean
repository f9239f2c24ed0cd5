import NativeBinding.Proofs.Marshal.Fields

/-! # What marshaling blames

An error of marshaling is about a value, such as one out of range, or about a type that cannot be
carried at all. A type is carried if it is no handle and has a rule, and a struct has a layout; the
structs inside have one too. Values of carried types are never refused because of the type.
-/

set_option autoImplicit false

namespace NativeBinding

def MarshalError.blamesType : MarshalError → Bool
  | unknownStruct _ | unsupported .. | unsupportedField .. => true
  | _ => false

namespace Marshaler

open Marshal

def Carries (m : Marshaler) : TypeRef → Prop
  | .struct name => ∃ l, m.layouts.get? name = some l
  | .object _ | .unsupported _ => False
  | _ => True

/-- A result that is no refusal of a type. -/
abbrev Accepts {α : Type} (result : Except MarshalError α) : Prop :=
  Yields (fun _ => True) (fun e => e.blamesType = false) result

variable {m : Marshaler} {rank : String → Nat} {path : String}

theorem accepts_ofScalar (s : Scalar) : Accepts (ofScalar path s) := by
  unfold ofScalar
  split <;> try trivial
  split <;> trivial

theorem accepts_integerToScalar (kind : ScalarKind) (v : Value) :
    Accepts (integerToScalar kind path v) := by
  unfold integerToScalar
  split
  · exact rfl
  · split
    · split <;> trivial
    · exact rfl

theorem accepts_toScalar (kind : ScalarKind) (v : Value) : Accepts (toScalar kind path v) := by
  unfold toScalar
  split
  · split <;> trivial
  · split <;> try trivial
    exact accepts_integerToScalar _ _
  · split
    · split <;> trivial
    · trivial
  · split <;> trivial
  · exact accepts_integerToScalar _ _

theorem accepts_fixedTextBytes (width : Nat) (v : Value) :
    Accepts (fixedTextBytes path width v) := by
  unfold fixedTextBytes
  split
  · exact rfl
  · split <;> trivial

theorem accepts_require {name : String} (h : m.Carries (.struct name)) :
    Yields (fun l => m.layouts.get? name = some l) (fun e : MarshalError => e.blamesType = false)
      (m.layouts.require name) := by
  obtain ⟨l, hGet⟩ := h
  rw [LayoutTable.require_eq_ok hGet]
  exact hGet

section Reading

variable {l : StructLayout} {name : String}

theorem accepts_decodeField {read : StructLayout → List UInt8 → Except MarshalError Record}
    {owner : String} {f : FieldLayout} (hFits : m.layouts.Fits rank owner f)
    (hNested : ∀ inside l', m.layouts.get? inside = some l' → rank inside < rank owner →
      ∀ memory, Accepts (read l' memory)) (memory : List UInt8) :
    Accepts (m.decodeField read owner f memory) := by
  cases hFits with
  | scalar kind hType =>
    rw [decodeField_scalar hType]
    exact accepts_ofScalar _
  | text width hType =>
    rw [decodeField_text hType]
    trivial
  | struct inside l' hType hGet hSize hLower =>
    simp only [decodeField, hType]
    refine yields_bind (accepts_require ⟨l', hGet⟩) fun l'' hGet' => ?_
    exact yields_bind (hNested inside l'' hGet' hLower memory) fun _ _ => trivial

theorem accepts_decodeFields (hRanked : m.layouts.Ranked rank) {fuel : Nat}
    (hGet : m.layouts.get? name = some l) (hFuel : rank name < fuel) (octets : List UInt8) :
    Accepts (m.decodeFields fuel l octets) := by
  -- The rank falls with every struct inside, so the fuel lasts.
  induction fuel generalizing name l octets with
  | zero => exact absurd hFuel (Nat.not_lt_zero _)
  | succ fuel ih =>
    obtain ⟨-, rfl⟩ := LayoutTable.get?_eq_some hGet
    rw [decodeFields]
    refine yields_bind (yields_mapM fun f hf => ?_) fun _ _ => trivial
    have hField := accepts_decodeField ((hRanked.sound hGet).fits f hf)
      (fun inside l' hGet' hLower memory => ih hGet' (by omega) memory) (slot f octets)
    exact yields_bind hField fun _ _ => trivial

theorem accepts_decodeStruct (hRanked : m.layouts.Ranked rank) (n : NativeStruct)
    (h : m.Carries (.struct n.name)) : Accepts (m.decodeStruct n) := by
  unfold decodeStruct
  refine yields_bind (accepts_require h) fun l hGet => ?_
  dsimp only
  split
  · exact rfl
  · exact accepts_decodeFields hRanked hGet (Nat.lt_succ_of_lt (hRanked.bound hGet)) _

theorem accepts_toScript (hRanked : m.layouts.Ranked rank) {type : TypeRef} (h : m.Carries type)
    (arg : NativeArg) : Accepts (m.toScript type arg path) := by
  unfold toScript
  dsimp only
  cases type with
  | void => trivial
  | scalar kind =>
    dsimp only
    split
    · split
      · exact accepts_ofScalar _
      · exact rfl
    · exact rfl
  | fixedText width => dsimp only; split <;> trivial
  | cString => dsimp only; split <;> trivial
  | struct name =>
    dsimp only
    split
    · trivial
    · split
      · rename_i native hName
        exact yields_map (accepts_decodeStruct hRanked native (hName ▸ h))
      · exact rfl
    · exact rfl
  | object name => exact absurd h id
  | unsupported spelling => exact absurd h id

end Reading

section Writing

variable {l : StructLayout} {name : String}

variable {write : StructLayout → Record → List UInt8 → String → Except MarshalError (List UInt8)}

theorem accepts_encodeField {owner : String} {f : FieldLayout}
    (hFits : m.layouts.Fits rank owner f)
    (hNested : ∀ inside l', m.layouts.get? inside = some l' → rank inside < rank owner →
      ∀ r memory path, Accepts (write l' r memory path)) (path : String) (v : Value)
    (memory : List UInt8) : Accepts (m.encodeField write path f v memory) := by
  cases hFits with
  | scalar kind hType =>
    simp only [encodeField, hType]
    exact yields_bind (accepts_toScalar _ _) fun _ _ => trivial
  | text width hType =>
    simp only [encodeField, hType]
    exact yields_bind (accepts_fixedTextBytes _ _) fun _ _ => trivial
  | struct inside l' hType hGet hSize hLower =>
    simp only [encodeField, hType]
    refine yields_bind (accepts_require ⟨l', hGet⟩) fun l'' hGet' => ?_
    split
    · split
      · exact hNested inside l'' hGet' hLower _ _ _
      · exact rfl
    · exact rfl

theorem accepts_encodeFields (hRanked : m.layouts.Ranked rank) {fuel : Nat}
    (hGet : m.layouts.get? name = some l) (hFuel : rank name < fuel) (r : Record)
    (octets : List UInt8) (path : String) : Accepts (m.encodeFields fuel l r octets path) := by
  induction fuel generalizing name l r octets path with
  | zero => exact absurd hFuel (Nat.not_lt_zero _)
  | succ fuel ih =>
    obtain ⟨-, rfl⟩ := LayoutTable.get?_eq_some hGet
    have hMember : ∀ f ∈ l.fields, ∀ memory,
        Accepts (m.encodeMember (m.encodeFields fuel) l.name r path f memory) := by
      intro f hf memory
      unfold encodeMember
      split
      · exact accepts_encodeField ((hRanked.sound hGet).fits f hf)
          (fun inside l' hGet' hLower r memory path => ih hGet' (by omega) r memory path) _ _ _
      · exact rfl
    rw [encodeFields]
    refine yields_bind (yields_forM fun g _ => ?_) fun _ _ =>
      yields_foldlM (fun f hf before => ?_) _
    · split <;> trivial
    · exact yields_bind (hMember f hf _) fun _ _ => trivial

theorem accepts_encodeStruct (hRanked : m.layouts.Ranked rank) (r : Record)
    (h : m.Carries (.struct r.typeName)) : Accepts (m.encodeStruct r) := by
  unfold encodeStruct
  refine yields_bind (accepts_require h) fun l hGet => ?_
  have hFuel := Nat.lt_succ_of_lt (hRanked.bound hGet)
  exact yields_bind (accepts_encodeFields hRanked hGet hFuel _ _ _) fun _ _ => trivial

theorem accepts_toNative (hRanked : m.layouts.Ranked rank) {type : TypeRef} (h : m.Carries type)
    (v : Value) : Accepts (m.toNative type v path) := by
  unfold toNative
  cases type with
  | void => trivial
  | scalar kind => exact yields_map (f := NativeArg.scalar) (accepts_toScalar kind v)
  | fixedText width => exact yields_map (f := NativeArg.text) (accepts_fixedTextBytes width v)
  | cString =>
    dsimp only
    split
    · trivial
    · split
      · exact rfl
      · split <;> trivial
  | struct name =>
    dsimp only
    split
    · trivial
    · split
      · rename_i fields hName
        exact yields_map (accepts_encodeStruct hRanked _ (hName ▸ h))
      · exact rfl
    · exact rfl
  | object name => exact absurd h id
  | unsupported spelling => exact absurd h id

end Writing

end Marshaler

end NativeBinding
