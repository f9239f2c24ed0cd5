import Mathlib.Data.List.Nodup
import Mathlib.Data.List.Perm.Subperm

/-! # Looking up by a key

In a list with distinct keys a search by key finds the one element that has it. A search by either
of two names finds the first element that has the name in any way.
-/

set_option autoImplicit false

namespace NativeBinding

variable {α : Type} {key : α → String} {xs : List α} {name : String}

theorem find?_key_isSome_iff :
    (xs.find? fun x => key x == name).isSome = true ↔ ∃ x ∈ xs, key x = name := by
  simp [List.find?_isSome]

theorem find?_key_eq_some_iff (hKeys : (xs.map key).Nodup) {x : α} :
    (xs.find? fun y => key y == name) = some x ↔ x ∈ xs ∧ key x = name := by
  constructor
  · intro hFind
    exact ⟨List.mem_of_find?_eq_some hFind, by simpa using List.find?_some hFind⟩
  · rintro ⟨hx, rfl⟩
    obtain ⟨y, hFind⟩ : ∃ y, (xs.find? fun y => key y == key x) = some y :=
      Option.isSome_iff_exists.mp (find?_key_isSome_iff.mpr ⟨x, hx, rfl⟩)
    have hSame : key y = key x := by simpa using List.find?_some hFind
    rw [hFind, List.inj_on_of_nodup_map hKeys (List.mem_of_find?_eq_some hFind) hx hSame]

theorem findIdx?_key_eq_some_iff (hKeys : (xs.map key).Nodup) {i : Nat} :
    (xs.findIdx? fun y => key y == name) = some i ↔ ∃ x, xs[i]? = some x ∧ key x = name := by
  rw [List.findIdx?_eq_some_iff_getElem]
  constructor
  · rintro ⟨hi, hKey, -⟩
    exact ⟨xs[i], List.getElem?_eq_getElem hi, by simpa using hKey⟩
  · rintro ⟨x, hGet, rfl⟩
    obtain ⟨hi, rfl⟩ := List.getElem?_eq_some_iff.mp hGet
    refine ⟨hi, by simp, fun j hj hSame => ?_⟩
    have hi' : i < (xs.map key).length := by simpa using hi
    have hj' : j < (xs.map key).length := Nat.lt_trans hj hi'
    have hSame' : (xs.map key)[j] = (xs.map key)[i] := by simpa using hSame
    exact absurd ((List.Nodup.getElem_inj_iff hKeys).mp hSame') (Nat.ne_of_lt hj)

theorem key_ne_of_nodup {before after : List α} {x y : α}
    (hKeys : ((before ++ x :: after).map key).Nodup) (hy : y ∈ before) : key y ≠ key x := by
  rw [List.map_append, List.nodup_append] at hKeys
  exact hKeys.2.2 _ (List.mem_map_of_mem hy) _ (List.mem_map_of_mem List.mem_cons_self)

theorem find?_either_eq_some_iff {other : α → String} (hKeys : (xs.map key).Nodup) {x : α}
    (hx : x ∈ xs) :
    (xs.find? fun y => key y == key x || other y == key x) = some x ↔
      ∀ before after, xs = before ++ x :: after → ∀ y ∈ before, other y ≠ key x := by
  constructor
  · rintro hFound before after rfl y hy hOther
    obtain ⟨z, hFind⟩ : ∃ z, (before.find? fun y => key y == key x || other y == key x) = some z :=
      Option.isSome_iff_exists.mp (List.find?_isSome.mpr ⟨y, hy, by simp [hOther]⟩)
    rw [List.find?_append, hFind, Option.some_or] at hFound
    cases hFound
    exact key_ne_of_nodup hKeys (List.mem_of_find?_eq_some hFind) rfl
  · intro hOther
    obtain ⟨before, after, rfl⟩ := List.append_of_mem hx
    have hNone : (before.find? fun y => key y == key x || other y == key x) = none := by
      refine List.find?_eq_none.mpr fun y hy => ?_
      simp [key_ne_of_nodup hKeys hy, hOther before after rfl y hy]
    rw [List.find?_append, hNone, Option.none_or, List.find?_cons_of_pos (by simp)]

theorem length_le_of_named {names : List String}
    (hDistinct : names.Nodup) (hNamed : ∀ name ∈ names, ∃ x ∈ xs, key x = name) :
    names.length ≤ xs.length := by
  have hSubset : names ⊆ xs.map key := fun name hName => List.mem_map.mpr (hNamed name hName)
  simpa using (List.subperm_of_subset hDistinct hSubset).length_le

end NativeBinding
