import Mathlib.Logic.Relation
import NativeBinding.Proofs.Model.Acceptance

/-! # The two searches of a model

The search for self-containment succeeds exactly when no struct holds itself through any chain of
fields, and the walk along bases exactly when bases are declared and no class is below itself. Both
keep distinct names of the model on the way, so that neither runs out of its bound.
-/

set_option autoImplicit false

namespace NativeBinding

def HoldsStruct (structs : List StructDecl) (s t : StructDecl) : Prop :=
  t ∈ structs ∧ ∃ f ∈ s.fields, f.type = .struct t.name

def StandsOn (classes : List ClassDecl) (c d : ClassDecl) : Prop :=
  d ∈ classes ∧ c.base = some d.name

theorem exists_foldlM_eq_ok {α β ε : Type} {f : β → α → Except ε β} {xs : List α}
    (h : ∀ x ∈ xs, ∀ b, ∃ b', f b x = .ok b') (b : β) : ∃ b', xs.foldlM f b = .ok b' := by
  induction xs generalizing b with
  | nil => exact ⟨b, rfl⟩
  | cons x xs ih =>
    obtain ⟨b₁, hFirst⟩ := h x List.mem_cons_self b
    obtain ⟨b', hRest⟩ := ih (fun y hy => h y (List.mem_cons_of_mem _ hy)) b₁
    exact ⟨b', by rw [List.foldlM_cons, hFirst]; exact hRest⟩

namespace Model

variable {m : Model}

section Containment

variable (hNames : (m.structs.map (·.name)).Nodup)

include hNames

theorem mem_containedStructs_iff_holds {s t : StructDecl} :
    t ∈ m.containedStructs s ↔ HoldsStruct m.structs s t := by
  rw [mem_containedStructs_iff]
  constructor
  · rintro ⟨f, hf, name, hType, hFind⟩
    obtain ⟨ht, rfl⟩ := (find?_key_eq_some_iff hNames).mp hFind
    exact ⟨ht, f, hf, hType⟩
  · rintro ⟨ht, f, hf, hType⟩
    exact ⟨f, hf, t.name, hType, (find?_key_eq_some_iff hNames).mpr ⟨ht, rfl⟩⟩

theorem exists_searchContainment
    (hAcyclic : ∀ s ∈ m.structs, ¬ Relation.TransGen (HoldsStruct m.structs) s s)
    {fuel : Nat} {path : List String} {s : StructDecl} (hs : s ∈ m.structs)
    (hPath : path.Nodup)
    (hAbove : ∀ name ∈ path, ∃ u ∈ m.structs, u.name = name ∧
      Relation.TransGen (HoldsStruct m.structs) u s)
    (hFuel : m.structs.length < fuel + path.length) (before : List String) :
    ∃ after, m.searchContainment fuel path before s = .ok after := by
  induction fuel generalizing path s before with
  | zero =>
    have hLength := length_le_of_named hPath fun name hName =>
      (hAbove name hName).imp fun _ hu => ⟨hu.1, hu.2.1⟩
    omega
  | succ fuel ih =>
    have hNotAbove : s.name ∉ path := by
      intro hMem
      obtain ⟨u, hu, hSame, hHolds⟩ := hAbove _ hMem
      cases List.inj_on_of_nodup_map hNames hu hs hSame
      exact hAcyclic _ hs hHolds
    have hBelow : ∀ t ∈ m.containedStructs s, ∀ before,
        ∃ after, m.searchContainment fuel (s.name :: path) before t = .ok after := by
      intro t ht before
      have hHolds := (mem_containedStructs_iff_holds hNames).mp ht
      refine ih hHolds.1 (List.nodup_cons.mpr ⟨hNotAbove, hPath⟩) (fun name hName => ?_)
        (by rw [List.length_cons]; omega) before
      rcases List.mem_cons.mp hName with rfl | hName
      · exact ⟨s, hs, rfl, .single hHolds⟩
      · obtain ⟨u, hu, hSame, hAbove⟩ := hAbove name hName
        exact ⟨u, hu, hSame, hAbove.tail hHolds⟩
    rw [searchContainment]
    split
    · exact ⟨before, rfl⟩
    · obtain ⟨below, hFold⟩ := exists_foldlM_eq_ok hBelow before
      exact ⟨s.name :: below, by rw [if_neg (by simpa using hNotAbove), hFold]; rfl⟩

theorem checkContainment_eq_ok_iff :
    m.checkContainment = .ok () ↔
      ∀ s ∈ m.structs, ¬ Relation.TransGen (HoldsStruct m.structs) s s := by
  constructor
  · intro hChecked s hs hHolds
    obtain ⟨rank, -, hLower⟩ := checkContainment_ranked hNames hChecked
    have hDescends : ∀ {t}, Relation.TransGen (HoldsStruct m.structs) s t →
        t ∈ m.structs ∧ rank t.name < rank s.name := by
      intro t hHolds
      induction hHolds with
      | single hStep =>
        exact ⟨hStep.1, hLower s hs _ ((mem_containedStructs_iff_holds hNames).mpr hStep)⟩
      | tail _ hStep ih =>
        have hNext := hLower _ ih.1 _ ((mem_containedStructs_iff_holds hNames).mpr hStep)
        exact ⟨hStep.1, Nat.lt_trans hNext ih.2⟩
    exact Nat.lt_irrefl _ (hDescends hHolds).2
  · intro hAcyclic
    obtain ⟨after, hFold⟩ := exists_foldlM_eq_ok (fun s hs before =>
      exists_searchContainment hNames hAcyclic hs List.nodup_nil (by simp)
        (Nat.lt_succ_self m.structs.length) before) []
    rw [checkContainment, hFold]
    rfl

end Containment

section Bases

variable (hNames : (m.classes.map (·.name)).Nodup)

include hNames

theorem notMem_seen_of_followBases {start : String} {fuel : Nat} {seen : List String}
    {c d : ClassDecl} (h : m.followBases start fuel seen c = .ok ())
    (hAbove : Relation.TransGen (StandsOn m.classes) c d) : d.name ∉ seen := by
  induction fuel generalizing seen c with
  | zero => exact absurd h rejectModel_ne_ok
  | succ fuel ih =>
    obtain ⟨e, ⟨he, hBase⟩, hRest⟩ := Relation.TransGen.head'_iff.mp hAbove
    have hFind : m.findClass? e.name = some e := (find?_key_eq_some_iff hNames).mpr ⟨he, rfl⟩
    simp only [followBases, hBase, hFind] at h
    split at h
    · exact absurd h rejectModel_ne_ok
    · rename_i hFresh
      rcases Relation.reflTransGen_iff_eq_or_transGen.mp hRest with rfl | hRest
      · simpa using hFresh
      · exact fun hSeen => ih h hRest (List.mem_cons_of_mem _ hSeen)

theorem followBases_of_acyclic
    (hDeclared : ∀ c ∈ m.classes, ∀ base, c.base = some base → ∃ d ∈ m.classes, d.name = base)
    (hAcyclic : ∀ c ∈ m.classes, ¬ Relation.TransGen (StandsOn m.classes) c c)
    {start : String} {fuel : Nat} {seen : List String} {c : ClassDecl} (hc : c ∈ m.classes)
    (hDistinct : seen.Nodup)
    (hBelow : ∀ name ∈ seen, ∃ u ∈ m.classes, u.name = name ∧
      Relation.ReflTransGen (StandsOn m.classes) u c)
    (hFuel : m.classes.length < fuel + seen.length) :
    m.followBases start fuel seen c = .ok () := by
  induction fuel generalizing seen c with
  | zero =>
    have hLength := length_le_of_named hDistinct fun name hName =>
      (hBelow name hName).imp fun _ hu => ⟨hu.1, hu.2.1⟩
    omega
  | succ fuel ih =>
    cases hBase : c.base with
    | none =>
      simp only [followBases, hBase]
      rfl
    | some base =>
      obtain ⟨d, hd, rfl⟩ := hDeclared c hc base hBase
      have hStep : StandsOn m.classes c d := ⟨hd, hBase⟩
      have hFind : m.findClass? d.name = some d := (find?_key_eq_some_iff hNames).mpr ⟨hd, rfl⟩
      have hFresh : d.name ∉ seen := by
        intro hSeen
        obtain ⟨u, hu, hSame, hReach⟩ := hBelow _ hSeen
        cases List.inj_on_of_nodup_map hNames hu hd hSame
        exact hAcyclic _ hd (.tail' hReach hStep)
      simp only [followBases, hBase, hFind]
      rw [if_neg (by simpa using hFresh)]
      refine ih hd (List.nodup_cons.mpr ⟨hFresh, hDistinct⟩) (fun name hName => ?_)
        (by rw [List.length_cons]; omega)
      rcases List.mem_cons.mp hName with rfl | hName
      · exact ⟨d, hd, rfl, .refl⟩
      · obtain ⟨u, hu, hSame, hReach⟩ := hBelow name hName
        exact ⟨u, hu, hSame, hReach.tail hStep⟩

theorem checkBases_eq_ok_iff :
    m.checkBases = .ok () ↔
      (∀ c ∈ m.classes, ∀ base, c.base = some base → ∃ d ∈ m.classes, d.name = base) ∧
        ∀ c ∈ m.classes, ¬ Relation.TransGen (StandsOn m.classes) c c := by
  rw [checkBases]
  refine forM_eq_ok_iff.trans ?_
  constructor
  · intro hFollowed
    refine ⟨fun c hc base hBase => ?_, fun c hc hAbove => ?_⟩
    · have hFirst := hFollowed c hc
      simp only [followBases, hBase] at hFirst
      cases hFind : m.findClass? base with
      | none =>
        rw [hFind] at hFirst
        exact absurd hFirst rejectModel_ne_ok
      | some d => exact ⟨d, (find?_key_eq_some_iff hNames).mp hFind⟩
    · exact notMem_seen_of_followBases hNames (hFollowed c hc) hAbove (List.mem_singleton_self _)
  · rintro ⟨hDeclared, hAcyclic⟩ c hc
    refine followBases_of_acyclic hNames hDeclared hAcyclic hc (List.nodup_singleton _)
      (fun name hName => ?_) (by rw [List.length_singleton]; omega)
    exact ⟨c, hc, (List.mem_singleton.mp hName).symm, .refl⟩

end Bases

end Model

end NativeBinding
