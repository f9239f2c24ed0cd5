import NativeBinding.Proofs.Layout.Table

/-! # Slots

The scalars and texts of a struct, at any depth, with the offsets they have from its start. Slots
lie inside the struct; the struct's remaining octets are padding.
-/

set_option autoImplicit false

namespace NativeBinding

def TypeRef.slotSize : TypeRef → Nat
  | .scalar kind => kind.size
  | .fixedText width => width
  | _ => 0

namespace LayoutTable

/-- A scalar or a text at an offset of a struct: a field of its own or of a struct inside. -/
inductive Slot (table : LayoutTable) : String → Nat → TypeRef → Prop where
  | scalar {name : String} {l : StructLayout} {f : FieldLayout} {kind : ScalarKind} :
      table.get? name = some l → f ∈ l.fields → f.type = .scalar kind →
      Slot table name f.offset (.scalar kind)
  | text {name : String} {l : StructLayout} {f : FieldLayout} {width : Nat} :
      table.get? name = some l → f ∈ l.fields → f.type = .fixedText width →
      Slot table name f.offset (.fixedText width)
  | inner {name inside : String} {l : StructLayout} {f : FieldLayout} {offset : Nat}
      {type : TypeRef} :
      table.get? name = some l → f ∈ l.fields → f.type = .struct inside →
      Slot table inside offset type → Slot table name (f.offset + offset) type

/-- A field whose size is that of its type, structs inside having lower rank. -/
inductive Fits (table : LayoutTable) (rank : String → Nat) (owner : String) (f : FieldLayout) :
    Prop where
  | scalar (kind : ScalarKind) : f.type = .scalar kind → f.size = kind.size →
      Fits table rank owner f
  | text (width : Nat) : f.type = .fixedText width → f.size = width → Fits table rank owner f
  | struct (name : String) (l : StructLayout) : f.type = .struct name →
      table.get? name = some l → f.size = l.size → rank name < rank owner →
      Fits table rank owner f

/-- A layout that can be read and written field by field. -/
structure Sound (table : LayoutTable) (rank : String → Nat) (l : StructLayout) : Prop where
  names : (l.fields.map (·.name)).Nodup
  apart : l.fields.Pairwise fun f g => f.offset + f.size ≤ g.offset
  inside : ∀ f ∈ l.fields, f.offset + f.size ≤ l.size
  fits : ∀ f ∈ l.fields, table.Fits rank l.name f

/-- Every layout of the table is sound, with ranks below its size. -/
structure Ranked (table : LayoutTable) (rank : String → Nat) : Prop where
  bound : ∀ {name l}, table.get? name = some l → rank name < table.size
  sound : ∀ {name l}, table.get? name = some l → table.Sound rank l

theorem LaidOut.sound {m : Model} {table : LayoutTable} {rank : String → Nat}
    (hRules : m.StructRules)
    (hRank : ∀ s ∈ m.structs, ∀ t ∈ m.containedStructs s, rank t.name < rank s.name)
    {s : StructDecl} (hs : s ∈ m.structs) {l : StructLayout} (h : table.LaidOut s l) :
    table.Sound rank l where
  names := by
    have hNames := congrArg (List.map Prod.fst) h.fields_eq
    rw [List.map_map, List.map_map] at hNames
    exact hNames ▸ hRules.fieldNames s hs
  apart := h.pairwise
  inside _ hf := h.inside hf
  fits f hf := by
    have hPair : (f.name, f.type) ∈ s.fields.map fun f => (f.name, f.type) := by
      rw [← h.fields_eq]
      exact List.mem_map.mpr ⟨f, hf, rfl⟩
    obtain ⟨d, hd, hEq⟩ := List.mem_map.mp hPair
    have hType : f.type = d.type := (congrArg Prod.snd hEq).symm
    obtain ⟨e, hExtent, hSize⟩ := h.sized hf
    cases hCase : f.type with
    | scalar kind =>
      rw [hCase] at hExtent
      cases hExtent
      exact .scalar kind hCase hSize
    | fixedText width =>
      rw [hCase] at hExtent
      cases hExtent
      exact .text width hCase hSize
    | struct name =>
      rw [hCase] at hExtent
      obtain ⟨inner, hGet, rfl⟩ := Option.map_eq_some_iff.mp hExtent
      obtain ⟨t, hFind⟩ := hRules.declared s hs d hd name (hType ▸ hCase)
      have hHeld : t ∈ m.containedStructs s :=
        Model.mem_containedStructs_iff.mpr ⟨d, hd, name, hType ▸ hCase, hFind⟩
      have hLower := hRank s hs t hHeld
      rw [(Model.findStruct?_eq_some hFind).2] at hLower
      exact .struct name inner hCase hGet hSize (h.name_eq ▸ hLower)
    | _ =>
      rw [hCase] at hExtent
      cases hExtent

/-- The structs of a model are the ones laid out, with their own fields. -/
structure Covers (table : LayoutTable) (m : Model) : Prop where
  complete : ∀ s ∈ m.structs, ∃ l, table.get? s.name = some l
  owned : ∀ {name l}, table.get? name = some l → ∃ s ∈ m.structs, s.name = name
  declared : ∀ {s l}, s ∈ m.structs → table.get? s.name = some l →
    l.fields.map (fun f => (f.name, f.type)) = s.fields.map fun f => (f.name, f.type)

/-- The table of an accepted model has all its structs and can be read. -/
theorem build_ranked {m : Model} (hRules : m.StructRules) :
    ∃ table rank, build m = .ok table ∧ table.Ranked rank ∧ table.Covers m := by
  obtain ⟨rank, hBound, hRank⟩ := hRules.ranked
  obtain ⟨table, hBuild, hValid, hSize, hAll⟩ := build_spec hRules
  have hOwner : ∀ {name l}, table.get? name = some l →
      ∃ s ∈ m.structs, s.name = name ∧ table.LaidOut s l := by
    intro name l hGet
    obtain ⟨hl, rfl⟩ := get?_eq_some hGet
    obtain ⟨s, hs, hLaid⟩ := hValid.laid l hl
    exact ⟨s, hs, hLaid.name_eq.symm, hLaid⟩
  refine ⟨table, rank, hBuild, ⟨fun hGet => ?_, fun hGet => ?_⟩,
    ⟨fun s hs => ?_, fun hGet => ?_, fun hs hGet => ?_⟩⟩
  · obtain ⟨s, hs, rfl, -⟩ := hOwner hGet
    exact hSize ▸ hBound s hs
  · obtain ⟨s, hs, -, hLaid⟩ := hOwner hGet
    exact hLaid.sound hRules hRank hs
  · obtain ⟨l, hGet, -⟩ := hAll s hs
    exact ⟨l, hGet⟩
  · obtain ⟨s, hs, hName, -⟩ := hOwner hGet
    exact ⟨s, hs, hName⟩
  · exact (hValid.laidOut hRules.names hs hGet).fields_eq

variable {table : LayoutTable} {rank : String → Nat}

theorem Fits.size_eq {owner : String} {f : FieldLayout} (h : table.Fits rank owner f)
    (hFlat : ∀ name, f.type ≠ .struct name) : f.size = f.type.slotSize := by
  cases h with
  | scalar kind hType hSize => rw [hType, hSize, TypeRef.slotSize]
  | text width hType hSize => rw [hType, hSize, TypeRef.slotSize]
  | struct name _ hType => exact absurd hType (hFlat name)

theorem Fits.struct_layout {owner : String} {f : FieldLayout} (h : table.Fits rank owner f)
    {name : String} (hType : f.type = .struct name) :
    ∃ l, table.get? name = some l ∧ f.size = l.size ∧ rank name < rank owner := by
  cases h with
  | scalar _ hOther => cases hType.symm.trans hOther
  | text _ hOther => cases hType.symm.trans hOther
  | struct _ l hSame hGet hSize hLower =>
    cases hType.symm.trans hSame
    exact ⟨l, hGet, hSize, hLower⟩

theorem Slot.inside (hRanked : table.Ranked rank) {name : String} {l : StructLayout}
    {offset : Nat} {type : TypeRef} (h : table.Slot name offset type)
    (hGet : table.get? name = some l) : offset + type.slotSize ≤ l.size := by
  induction h generalizing l with
  | scalar hOwner hf hType | text hOwner hf hType =>
    cases hOwner.symm.trans hGet
    have hInside := (hRanked.sound hGet).inside _ hf
    have hSize := ((hRanked.sound hGet).fits _ hf).size_eq (by rw [hType]; exact nofun)
    rw [hSize, hType] at hInside
    exact hInside
  | inner hOwner hf hType _ ih =>
    cases hOwner.symm.trans hGet
    have hInside := (hRanked.sound hGet).inside _ hf
    obtain ⟨l', hGet', hSize, -⟩ := ((hRanked.sound hGet).fits _ hf).struct_layout hType
    have hBelow := ih hGet'
    omega

end LayoutTable

end NativeBinding
