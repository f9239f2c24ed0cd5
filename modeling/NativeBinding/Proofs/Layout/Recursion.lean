import Mathlib.Algebra.Ring.Nat
import Mathlib.Order.Bounds.Basic
import NativeBinding.Proofs.Layout.Table

/-! # Layouts by recursion on the declarations

C's rules as relations between declarations and layouts, without a table: a field lies at the least
multiple of its alignment that is not below the end of the field before it, and a struct inside has
the size and alignment of its own layout. The main statements are that a struct has at most one such
layout and that the table of a model holds it.
-/

set_option autoImplicit false

namespace NativeBinding

def IsNextMultiple (align value next : Nat) : Prop :=
  IsLeast {x | align ∣ x ∧ value ≤ x} next

def IsAlignment (align : Nat) : Prop :=
  align = 1 ∨ align = 2 ∨ align = 4 ∨ align = 8

/-- Clearing the low bits rounds down; that is to the next multiple only for a power of two. -/
theorem isNextMultiple_alignUp (exponent value : Nat) :
    IsNextMultiple (2 ^ exponent) value (alignUp value (2 ^ exponent)) := by
  have hPos : 0 < 2 ^ exponent := Nat.two_pow_pos exponent
  have hRounded : alignUp value (2 ^ exponent) =
      2 ^ exponent * ((value + 2 ^ exponent - 1) / 2 ^ exponent) := by
    have hTop := Nat.div_add_mod (value + 2 ^ exponent - 1) (2 ^ exponent)
    unfold alignUp
    split
    · have hOne : 2 ^ exponent = 1 := by omega
      simp [hOne]
    · simp only [Nat.and_two_pow_sub_one_eq_mod]
      omega
  refine ⟨⟨hRounded ▸ Nat.dvd_mul_right _ _, le_alignUp _ _⟩, fun x ⟨⟨count, hCount⟩, hLe⟩ => ?_⟩
  rw [hRounded, hCount]
  refine Nat.mul_le_mul_left _ (Nat.lt_succ_iff.mp ((Nat.div_lt_iff_lt_mul hPos).mpr ?_))
  rw [Nat.succ_mul, Nat.mul_comm count, ← hCount]
  omega

namespace IsAlignment

variable {align align' : Nat}

theorem exists_pow (h : IsAlignment align) : ∃ exponent, align = 2 ^ exponent := by
  rcases h with rfl | rfl | rfl | rfl
  · exact ⟨0, rfl⟩
  · exact ⟨1, rfl⟩
  · exact ⟨2, rfl⟩
  · exact ⟨3, rfl⟩

theorem max (h : IsAlignment align) (h' : IsAlignment align') : IsAlignment (max align align') := by
  rcases Nat.le_total align align' with hLe | hLe
  · rwa [Nat.max_eq_right hLe]
  · rwa [Nat.max_eq_left hLe]

theorem isNextMultiple (h : IsAlignment align) (value : Nat) :
    IsNextMultiple align value (alignUp value align) := by
  obtain ⟨exponent, rfl⟩ := h.exists_pow
  exact isNextMultiple_alignUp exponent value

end IsAlignment

theorem ScalarKind.isAlignment (kind : ScalarKind) : IsAlignment kind.align := by
  cases kind <;> simp [IsAlignment, align, size]

mutual

/-- Size and alignment of a field type, with structs found by the function given. -/
inductive NaturalExtent (find : String → Option StructDecl) : TypeRef → Nat → Nat → Prop
  | scalar (kind : ScalarKind) : NaturalExtent find (.scalar kind) kind.size kind.align
  | text (width : Nat) : NaturalExtent find (.fixedText width) width 1
  | struct {name : String} {s : StructDecl} {l : StructLayout} : find name = some s →
      NaturalLayout find s l → NaturalExtent find (.struct name) l.size l.align

/-- Fields placed from an offset on, with the end of the last one and the greatest alignment. -/
inductive NaturalFields (find : String → Option StructDecl) :
    Nat → List FieldDecl → List FieldLayout → Nat → Nat → Prop
  | nil (start : Nat) : NaturalFields find start [] [] start 1
  | cons {start offset size align last greatest : Nat} {f : FieldDecl} {fields : List FieldDecl}
      {placed : List FieldLayout} : NaturalExtent find f.type size align →
      IsNextMultiple align start offset →
      NaturalFields find (offset + size) fields placed last greatest →
      NaturalFields find start (f :: fields) (⟨f.name, f.type, offset, size⟩ :: placed) last
        (max align greatest)

inductive NaturalLayout (find : String → Option StructDecl) : StructDecl → StructLayout → Prop
  | mk {s : StructDecl} {placed : List FieldLayout} {last align size : Nat} :
      NaturalFields find 0 s.fields placed last align → IsNextMultiple align last size →
      NaturalLayout find s ⟨s.name, size, align, placed⟩

end

variable {find : String → Option StructDecl}

mutual

theorem NaturalExtent.isAlignment {type : TypeRef} {size align : Nat} :
    NaturalExtent find type size align → IsAlignment align
  | .scalar kind => kind.isAlignment
  | .text _ => Or.inl rfl
  | .struct _ hLayout => hLayout.isAlignment

theorem NaturalFields.isAlignment {start last greatest : Nat} {fields : List FieldDecl}
    {placed : List FieldLayout} :
    NaturalFields find start fields placed last greatest → IsAlignment greatest
  | .nil _ => Or.inl rfl
  | .cons hExtent _ hRest => hExtent.isAlignment.max hRest.isAlignment

theorem NaturalLayout.isAlignment {s : StructDecl} {l : StructLayout} :
    NaturalLayout find s l → IsAlignment l.align
  | .mk hFields _ => hFields.isAlignment

end

mutual

theorem NaturalExtent.unique {type : TypeRef} {size align size' align' : Nat} :
    NaturalExtent find type size align → NaturalExtent find type size' align' →
      size = size' ∧ align = align'
  | .scalar _, .scalar _ => ⟨rfl, rfl⟩
  | .text _, .text _ => ⟨rfl, rfl⟩
  | .struct hFind hLayout, .struct hFind' hLayout' => by
    cases hFind.symm.trans hFind'
    cases hLayout.unique hLayout'
    exact ⟨rfl, rfl⟩

theorem NaturalFields.unique {start last last' greatest greatest' : Nat} {fields : List FieldDecl}
    {placed placed' : List FieldLayout} :
    NaturalFields find start fields placed last greatest →
      NaturalFields find start fields placed' last' greatest' →
      placed = placed' ∧ last = last' ∧ greatest = greatest'
  | .nil _, .nil _ => ⟨rfl, rfl, rfl⟩
  | .cons hExtent hOffset hRest, .cons hExtent' hOffset' hRest' => by
    obtain ⟨rfl, rfl⟩ := hExtent.unique hExtent'
    cases hOffset.unique hOffset'
    obtain ⟨rfl, rfl, rfl⟩ := hRest.unique hRest'
    exact ⟨rfl, rfl, rfl⟩

theorem NaturalLayout.unique {s : StructDecl} {l l' : StructLayout} :
    NaturalLayout find s l → NaturalLayout find s l' → l = l'
  | .mk hFields hSize, .mk hFields' hSize' => by
    obtain ⟨rfl, rfl, rfl⟩ := hFields.unique hFields'
    cases hSize.unique hSize'
    rfl

end

namespace LayoutTable

variable {m : Model} {table : LayoutTable}

theorem naturalFields_of_placeFrom {fields : List FieldDecl} {p q : Placement}
    (hExtents : ∀ f ∈ fields, ∀ e, table.extent? f.type = some e →
      NaturalExtent find f.type e.1 e.2)
    (hPositive : 1 ≤ p.align) (h : table.placeFrom p fields = some q) :
    ∃ placed greatest, NaturalFields find p.offset fields placed q.offset greatest ∧
      q.placed.reverse = p.placed.reverse ++ placed ∧ q.align = max p.align greatest := by
  induction fields generalizing p with
  | nil =>
    cases h
    exact ⟨[], 1, .nil _, by simp, (Nat.max_eq_left hPositive).symm⟩
  | cons f fields ih =>
    obtain ⟨e, hExtent, hRest⟩ := placeFrom_cons.mp h
    have hNatural := hExtents f List.mem_cons_self e hExtent
    have hPositive' : 1 ≤ (p.add f e.1 e.2).align := Nat.le_trans hPositive (Nat.le_max_left _ _)
    obtain ⟨placed, greatest, hFields, hPlaced, hAlign⟩ :=
      ih (fun g hg => hExtents g (List.mem_cons_of_mem _ hg)) hPositive' hRest
    refine ⟨_, _, .cons hNatural (hNatural.isAlignment.isNextMultiple _) hFields, ?_, ?_⟩
    · simpa [Placement.add] using hPlaced
    · rw [hAlign, Placement.add, Nat.max_assoc]

theorem LaidOut.natural (hRules : m.StructRules)
    (hAll : ∀ s ∈ m.structs, ∃ l, table.get? s.name = some l ∧ table.LaidOut s l)
    {s : StructDecl} (hs : s ∈ m.structs) {l : StructLayout} (h : table.LaidOut s l) :
    NaturalLayout m.findStruct? s l := by
  obtain ⟨rank, -, hRank⟩ := hRules.ranked
  -- By the rank, since the structs inside must have natural layouts first.
  induction hBelow : rank s.name using Nat.strong_induction_on generalizing s l with
  | _ bound ih =>
    obtain ⟨p, hPlace, rfl⟩ := h
    have hExtents : ∀ f ∈ s.fields, ∀ e, table.extent? f.type = some e →
        NaturalExtent m.findStruct? f.type e.1 e.2 := by
      intro f hf e hExtent
      cases hType : f.type <;> rw [hType] at hExtent <;> try cases hExtent
      case scalar kind => exact .scalar kind
      case fixedText width => exact .text width
      case struct name =>
        obtain ⟨t, hFind⟩ := hRules.declared s hs f hf name hType
        obtain ⟨ht, rfl⟩ := Model.findStruct?_eq_some hFind
        obtain ⟨l, hGet, hLaid⟩ := hAll t ht
        have hLower := hRank s hs t (Model.mem_containedStructs_iff.mpr ⟨f, hf, _, hType, hFind⟩)
        rw [extent?, hGet] at hExtent
        cases hExtent
        exact .struct hFind (ih _ (hBelow ▸ hLower) ht hLaid rfl)
    obtain ⟨placed, greatest, hFields, hPlaced, hAlign⟩ :=
      naturalFields_of_placeFrom hExtents (Nat.le_refl 1) hPlace
    have hGreatest : p.align = greatest := by
      rcases hFields.isAlignment with rfl | rfl | rfl | rfl <;> exact hAlign
    rw [Placement.finish, hPlaced, hGreatest]
    exact .mk hFields (hFields.isAlignment.isNextMultiple _)

/-- The table of a model holds the natural layouts of its structs and nothing else. -/
theorem build_natural (hRules : m.StructRules) :
    ∃ table, build m = .ok table ∧
      (table.layouts.map (·.name)).Perm (m.structs.map (·.name)) ∧
      ∀ name l, table.get? name = some l ↔
        ∃ s ∈ m.structs, s.name = name ∧ NaturalLayout m.findStruct? s l := by
  obtain ⟨table, hBuild, hValid, -, hAll⟩ := build_spec hRules
  have hOwner : ∀ l ∈ table.layouts, ∃ s ∈ m.structs, s.name = l.name := by
    intro l hl
    obtain ⟨s, hs, hLaid⟩ := hValid.laid l hl
    exact ⟨s, hs, hLaid.name_eq.symm⟩
  refine ⟨table, hBuild, ?_, fun name l => ⟨fun hGet => ?_, ?_⟩⟩
  · refine (List.perm_ext_iff_of_nodup hValid.names hRules.names).mpr fun name => ?_
    constructor
    · intro hName
      obtain ⟨l, hl, rfl⟩ := List.mem_map.mp hName
      exact List.mem_map.mpr (hOwner l hl)
    · intro hName
      obtain ⟨s, hs, rfl⟩ := List.mem_map.mp hName
      obtain ⟨l, hGet, -⟩ := hAll s hs
      exact List.mem_map.mpr ⟨l, get?_eq_some hGet⟩
  · obtain ⟨hl, rfl⟩ := get?_eq_some hGet
    obtain ⟨s, hs, hName⟩ := hOwner l hl
    exact ⟨s, hs, hName, (hValid.laidOut hRules.names hs (hName ▸ hGet)).natural hRules hAll hs⟩
  · rintro ⟨s, hs, rfl, hNatural⟩
    obtain ⟨l', hGet, hLaid⟩ := hAll s hs
    rw [hNatural.unique (hLaid.natural hRules hAll hs), hGet]

end LayoutTable

end NativeBinding
