import Mathlib.Data.List.Nodup
import NativeBinding.Layout.Basic

/-! # Placed fields

Fields placed one after another lie apart, in order, and inside their struct.
-/

set_option autoImplicit false

namespace NativeBinding

theorem le_alignUp (value align : Nat) : value ≤ alignUp value align := by
  unfold alignUp
  split
  · exact Nat.le_refl _
  · have hAnd : (value + align - 1) &&& (align - 1) ≤ align - 1 := Nat.and_le_right
    simp only
    omega

namespace LayoutTable

/-- Size and alignment of a field type, with the layouts known so far. -/
def extent? (table : LayoutTable) : TypeRef → Option (Nat × Nat)
  | .scalar kind => some (kind.size, kind.align)
  | .fixedText width => some (width, 1)
  | .struct name => (table.get? name).map fun l => (l.size, l.align)
  | _ => none

namespace Placement

/-- The placed fields lie apart, each of them before the end. -/
structure Apart (p : Placement) : Prop where
  apart : p.placed.Pairwise fun g f => f.offset + f.size ≤ g.offset
  inside : ∀ f ∈ p.placed, f.offset + f.size ≤ p.offset

@[simp] theorem finish_fields (p : Placement) (name : String) :
    (p.finish name).fields = p.placed.reverse := rfl

theorem Apart.empty : Apart {} := ⟨List.Pairwise.nil, by simp⟩

theorem Apart.add {p : Placement} (h : p.Apart) (f : FieldDecl) (size align : Nat) :
    (p.add f size align).Apart := by
  have hLe := le_alignUp p.offset align
  refine ⟨List.Pairwise.cons (fun g hg => Nat.le_trans (h.inside g hg) hLe) h.apart, fun g hg => ?_⟩
  rcases List.mem_cons.mp hg with rfl | hg
  · exact Nat.le_refl _
  · have hInside := h.inside g hg
    simp only [Placement.add]
    omega

end Placement

/-- The fields of a struct placed after those that are placed already. -/
def placeFrom (table : LayoutTable) (p : Placement) (fields : List FieldDecl) : Option Placement :=
  fields.foldlM (fun p f => (table.extent? f.type).map fun e => p.add f e.1 e.2) p

variable {table : LayoutTable}

theorem placeFrom_cons {p q : Placement} {f : FieldDecl} {fields : List FieldDecl} :
    table.placeFrom p (f :: fields) = some q ↔
      ∃ e, table.extent? f.type = some e ∧ table.placeFrom (p.add f e.1 e.2) fields = some q := by
  simp [placeFrom, Option.bind_eq_some_iff]

theorem placeFrom_spec {p q : Placement} {fields : List FieldDecl}
    (h : table.placeFrom p fields = some q) (hApart : p.Apart) :
    q.Apart ∧
      q.placed.reverse.map (fun f => (f.name, f.type)) =
        p.placed.reverse.map (fun f => (f.name, f.type)) ++ fields.map (fun f => (f.name, f.type)) ∧
      ∀ f ∈ q.placed, f ∈ p.placed ∨ ∃ e, table.extent? f.type = some e ∧ f.size = e.1 := by
  induction fields generalizing p with
  | nil =>
    cases h
    exact ⟨hApart, by simp, fun f hf => Or.inl hf⟩
  | cons f fields ih =>
    obtain ⟨e, hExtent, hRest⟩ := placeFrom_cons.mp h
    obtain ⟨hApart', hNames, hSizes⟩ := ih hRest (hApart.add f e.1 e.2)
    refine ⟨hApart', ?_, fun g hg => ?_⟩
    · rw [hNames]
      simp [Placement.add]
    · rcases hSizes g hg with hg | hg
      · rcases List.mem_cons.mp hg with rfl | hg
        · exact Or.inr ⟨e, hExtent, rfl⟩
        · exact Or.inl hg
      · exact Or.inr hg

/-- The layout of a struct by C's rules, with the layouts of the structs inside from the table. -/
def LaidOut (table : LayoutTable) (s : StructDecl) (l : StructLayout) : Prop :=
  ∃ p, table.placeFrom {} s.fields = some p ∧ l = p.finish s.name

namespace LaidOut

variable {s : StructDecl} {l : StructLayout}

theorem name_eq (h : table.LaidOut s l) : l.name = s.name := by
  obtain ⟨p, -, rfl⟩ := h
  rfl

theorem fields_eq (h : table.LaidOut s l) :
    l.fields.map (fun f => (f.name, f.type)) = s.fields.map (fun f => (f.name, f.type)) := by
  obtain ⟨p, hPlace, rfl⟩ := h
  simpa using (placeFrom_spec hPlace .empty).2.1

theorem pairwise (h : table.LaidOut s l) :
    l.fields.Pairwise fun f g => f.offset + f.size ≤ g.offset := by
  obtain ⟨p, hPlace, rfl⟩ := h
  exact List.pairwise_reverse.mpr (placeFrom_spec hPlace .empty).1.apart

theorem inside (h : table.LaidOut s l) {f : FieldLayout} (hf : f ∈ l.fields) :
    f.offset + f.size ≤ l.size := by
  obtain ⟨p, hPlace, rfl⟩ := h
  exact Nat.le_trans ((placeFrom_spec hPlace .empty).1.inside f (List.mem_reverse.mp hf))
    (le_alignUp _ _)

theorem sized (h : table.LaidOut s l) {f : FieldLayout} (hf : f ∈ l.fields) :
    ∃ e, table.extent? f.type = some e ∧ f.size = e.1 := by
  obtain ⟨p, hPlace, rfl⟩ := h
  rcases (placeFrom_spec hPlace .empty).2.2 f (List.mem_reverse.mp hf) with hMem | hSize
  · cases hMem
  · exact hSize

end LaidOut

end LayoutTable

end NativeBinding
