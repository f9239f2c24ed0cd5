import NativeBinding.Proofs.Model.Coherence

/-! # Inherited methods

The bases of a class of an accepted model end at a class that stands on none, so that the walk along
them never runs out of its bound. The methods of the class are laid over those of its bases, class by
class from the root: a redeclared method stays where it stood, and what is new comes at the end.
-/

set_option autoImplicit false

namespace NativeBinding

/-- A class and its bases, the class first, up to one that stands on none. -/
inductive Lineage (classes : List ClassDecl) : ClassDecl → List ClassDecl → Prop
  | root {c : ClassDecl} : c.base = none → Lineage classes c [c]
  | derived {c d : ClassDecl} {chain : List ClassDecl} : StandsOn classes c d →
      Lineage classes d chain → Lineage classes c (c :: chain)

def ClassDecl.methodNames (c : ClassDecl) : List String :=
  c.methods.map (·.name)

/-- Where a name is declared first: how many bases the class has that declares it, and how many
methods stand before it there. -/
def firstDeclared (chain : List ClassDecl) (name : String) : Nat × Nat :=
  let fromRoot := chain.reverse
  let i := fromRoot.findIdx fun d => d.methodNames.contains name
  (i, (fromRoot[i]?.map fun d => d.methodNames.idxOf name).getD 0)

/-- The methods of a class with a given line of bases. -/
structure Inherited (chain : List ClassDecl) (methods : List MethodDecl) : Prop where
  distinct : (methods.map (·.name)).Nodup
  declared : ∀ name, name ∈ methods.map (·.name) ↔ ∃ d ∈ chain, name ∈ d.methodNames
  mostDerived : ∀ m ∈ methods, ∃ below d above, chain = below ++ d :: above ∧ m ∈ d.methods ∧
    ∀ e ∈ below, m.name ∉ e.methodNames
  ordered : (methods.map (·.name)).Pairwise fun first second =>
    Prod.Lex (· < ·) (· < ·) (firstDeclared chain first) (firstDeclared chain second)

theorem Lineage.mem {classes chain : List ClassDecl} {c : ClassDecl}
    (h : Lineage classes c chain) (hc : c ∈ classes) : ∀ d ∈ chain, d ∈ classes := by
  induction h with
  | root => simpa using hc
  | derived hStands _ ih => exact List.forall_mem_cons.mpr ⟨hc, ih hStands.1⟩

namespace Model

variable {m : Model} {c : ClassDecl} {chain : List ClassDecl}

section Chain

theorem exists_lineage_of_followBases {start : String} {fuel : Nat} {seen : List String}
    (h : m.followBases start fuel seen c = .ok ()) :
    ∃ above, Lineage m.classes c (c :: above) ∧ (above.map (·.name)).Nodup ∧
      ∀ d ∈ above, d.name ∉ seen := by
  induction fuel generalizing seen c with
  | zero => exact absurd h rejectModel_ne_ok
  | succ fuel ih =>
    cases hBase : c.base with
    | none => exact ⟨[], .root hBase, List.nodup_nil, by simp⟩
    | some base =>
      simp only [followBases, hBase] at h
      cases hFind : m.findClass? base with
      | none =>
        rw [hFind] at h
        exact absurd h rejectModel_ne_ok
      | some next =>
        simp only [hFind] at h
        split at h
        · exact absurd h rejectModel_ne_ok
        · rename_i hFresh
          obtain ⟨above, hLineage, hDistinct, hNew⟩ := ih h
          have hName : next.name = base := by simpa using List.find?_some hFind
          have hStands : StandsOn m.classes c next :=
            ⟨List.mem_of_find?_eq_some hFind, hName ▸ hBase⟩
          -- The next name is seen from here on, so it does not come again above.
          simp only [List.mem_cons, not_or] at hNew
          refine ⟨next :: above, .derived hStands hLineage, ?_, ?_⟩
          · rw [List.map_cons, List.nodup_cons, List.mem_map]
            refine ⟨?_, hDistinct⟩
            rintro ⟨d, hd, hSame⟩
            exact (hNew d hd).1 hSame
          · intro d hd
            rcases List.mem_cons.mp hd with rfl | hd
            · simpa using hFresh
            · exact (hNew d hd).2

theorem Accepted.exists_lineage (h : m.Accepted) (hc : c ∈ m.classes) :
    ∃ chain, Lineage m.classes c chain ∧ (chain.map (·.name)).Nodup := by
  have hCoherent := h.coherent
  have hBases : m.checkBases = .ok () := (checkBases_eq_ok_iff hCoherent.classNames).mpr
    ⟨hCoherent.basesDeclared, hCoherent.noBaseCycle⟩
  obtain ⟨above, hLineage, hDistinct, hNew⟩ :=
    exists_lineage_of_followBases (forM_eq_ok_iff.mp hBases c hc)
  refine ⟨c :: above, hLineage, List.nodup_cons.mpr ⟨?_, hDistinct⟩⟩
  intro hMem
  obtain ⟨d, hd, hSame⟩ := List.mem_map.mp hMem
  exact hNew d hd (List.mem_singleton.mpr hSame)

theorem baseChain_of_lineage (hNames : (m.classes.map (·.name)).Nodup)
    (h : Lineage m.classes c chain) {fuel : Nat} (hFuel : chain.length ≤ fuel + 1) :
    m.baseChain fuel c = chain := by
  induction h generalizing fuel with
  | root hBase => cases fuel <;> simp [baseChain, hBase]
  | @derived c d chain hStands hAbove ih =>
    have hSome : chain ≠ [] := by cases hAbove <;> simp
    have hLength := List.length_pos_iff.mpr hSome
    rw [List.length_cons] at hFuel
    obtain ⟨fuel, rfl⟩ : ∃ k, fuel = k + 1 := ⟨fuel - 1, by omega⟩
    have hFind : m.findClass? d.name = some d := (find?_key_eq_some_iff hNames).mpr ⟨hStands.1, rfl⟩
    simp [baseChain, hStands.2, hFind, ih (by omega : chain.length ≤ fuel + 1)]

end Chain

section Overlay

variable {methods : List MethodDecl} {n : MethodDecl}

theorem names_redeclare (d : MethodDecl) (methods : List MethodDecl) :
    (redeclare d methods).map (·.name) =
      if d.name ∈ methods.map (·.name) then methods.map (·.name)
      else methods.map (·.name) ++ [d.name] := by
  induction methods with
  | nil => rfl
  | cons n rest ih =>
    rw [redeclare]
    split
    · rename_i hSame
      simp [eq_of_beq hSame]
    · rename_i hOther
      have hNe : d.name ≠ n.name := fun hEq => hOther (by simp [hEq])
      simp only [List.map_cons, ih, List.mem_cons, hNe, false_or]
      split <;> rfl

theorem nodup_redeclare (h : (methods.map (·.name)).Nodup) (d : MethodDecl) :
    ((redeclare d methods).map (·.name)).Nodup := by
  rw [names_redeclare]
  split
  · exact h
  · rename_i hNew
    exact List.nodup_append.mpr ⟨h, List.nodup_singleton _, fun name hName other hOther => by
      rw [List.mem_singleton.mp hOther]
      exact fun hSame => hNew (hSame ▸ hName)⟩

theorem mem_redeclare_iff (h : (methods.map (·.name)).Nodup) {d : MethodDecl} :
    n ∈ redeclare d methods ↔ n = d ∨ n ∈ methods ∧ n.name ≠ d.name := by
  induction methods with
  | nil => simp [redeclare]
  | cons first rest ih =>
    rw [List.map_cons, List.nodup_cons, List.mem_map] at h
    rw [redeclare]
    split
    · rename_i hSame
      have hSame : first.name = d.name := eq_of_beq hSame
      have hOther : n ∈ rest → n.name ≠ d.name := fun hn hEq => h.1 ⟨n, hn, hEq.trans hSame.symm⟩
      grind
    · rename_i hOther
      have hOther : first.name ≠ d.name := fun hEq => hOther (by simp [hEq])
      grind

/-- The methods of one class laid over inherited ones. -/
def overlay (methods : List MethodDecl) (c : ClassDecl) : List MethodDecl :=
  c.methods.foldl (fun methods d => redeclare d methods) methods

theorem nodup_overlay (h : (methods.map (·.name)).Nodup) (c : ClassDecl) :
    ((overlay methods c).map (·.name)).Nodup :=
  List.foldlRecOn (motive := fun methods : List MethodDecl => (methods.map (·.name)).Nodup) _ _ h
    fun _ hMethods d _ => nodup_redeclare hMethods d

theorem mem_overlay_iff (h : (methods.map (·.name)).Nodup) (hc : c.methodNames.Nodup) :
    n ∈ overlay methods c ↔ n ∈ c.methods ∨ n ∈ methods ∧ n.name ∉ c.methodNames := by
  rw [overlay, ClassDecl.methodNames] at *
  generalize c.methods = declared at hc ⊢
  induction declared generalizing methods with
  | nil => simp
  | cons d rest ih =>
    rw [List.map_cons, List.nodup_cons] at hc
    rw [List.foldl_cons, ih (nodup_redeclare h d) hc.2, mem_redeclare_iff h]
    have hFirst : n = d → n.name ∉ rest.map (·.name) := by
      rintro rfl
      exact hc.1
    simp only [List.mem_cons, List.map_cons, not_or]
    tauto

theorem names_overlay (methods : List MethodDecl) (hc : c.methodNames.Nodup) :
    (overlay methods c).map (·.name) =
      methods.map (·.name) ++ c.methodNames.filter (· ∉ methods.map (·.name)) := by
  rw [overlay, ClassDecl.methodNames] at *
  generalize c.methods = declared at hc ⊢
  induction declared generalizing methods with
  | nil => simp
  | cons d rest ih =>
    rw [List.map_cons, List.nodup_cons] at hc
    rw [List.foldl_cons, ih _ hc.2, names_redeclare, List.map_cons]
    split
    · rename_i hOld
      rw [List.filter_cons_of_neg (by simpa using hOld)]
    · rename_i hNew
      rw [List.filter_cons_of_pos (by simpa using hNew), List.append_assoc, List.singleton_append]
      congr 2
      refine List.filter_congr fun name hName => ?_
      have hNe : name ≠ d.name := fun hEq => hc.1 (hEq ▸ hName)
      simp [hNe]

end Overlay

/-- The methods of a line of classes, the derived one first. -/
def layered : List ClassDecl → List MethodDecl
  | [] => []
  | c :: above => overlay (layered above) c

theorem allMethods_eq_layered (m : Model) (c : ClassDecl) :
    m.allMethods c = layered (m.baseChain m.classes.length c) := by
  rw [allMethods, List.foldl_reverse]
  generalize m.baseChain m.classes.length c = chain
  induction chain with
  | nil => rfl
  | cons d above ih => rw [List.foldr_cons, ih, layered, overlay]

theorem nodup_layered (chain : List ClassDecl) : ((layered chain).map (·.name)).Nodup := by
  induction chain with
  | nil => exact List.nodup_nil
  | cons c above ih => exact nodup_overlay ih c

theorem methodNames_nodup (m : Model) (c : ClassDecl) : ((m.allMethods c).map (·.name)).Nodup := by
  rw [allMethods_eq_layered]
  exact nodup_layered _

section Layers

variable {name : String} (hDistinct : ∀ d ∈ chain, d.methodNames.Nodup)

include hDistinct

theorem mem_layered_iff :
    name ∈ (layered chain).map (·.name) ↔ ∃ d ∈ chain, name ∈ d.methodNames := by
  induction chain with
  | nil => simp [layered]
  | cons c above ih =>
    rw [List.forall_mem_cons] at hDistinct
    have hAbove := ih hDistinct.2
    simp only [layered, names_overlay _ hDistinct.1, List.mem_append, List.mem_filter, hAbove,
      List.exists_mem_cons_iff, decide_eq_true_eq]
    by_cases hBase : ∃ d ∈ above, name ∈ d.methodNames <;> simp only [hBase] <;> tauto

theorem mostDerived_of_mem_layered {d : MethodDecl} (h : d ∈ layered chain) :
    ∃ below c above, chain = below ++ c :: above ∧ d ∈ c.methods ∧
      ∀ e ∈ below, d.name ∉ e.methodNames := by
  induction chain with
  | nil => cases h
  | cons c above ih =>
    rw [List.forall_mem_cons] at hDistinct
    rcases (mem_overlay_iff (nodup_layered above) hDistinct.1).mp h with hOwn | ⟨hBase, hKept⟩
    · exact ⟨[], c, above, rfl, hOwn, by simp⟩
    · obtain ⟨below, e, rest, rfl, he, hNone⟩ := ih hDistinct.2 hBase
      exact ⟨c :: below, e, rest, rfl, he, List.forall_mem_cons.mpr ⟨hKept, hNone⟩⟩

end Layers

end Model

section FirstDeclared

variable {chain : List ClassDecl} {c : ClassDecl} {name : String}

theorem firstDeclared_cons (h : ∃ d ∈ chain, name ∈ d.methodNames) :
    firstDeclared (c :: chain) name = firstDeclared chain name ∧
      (firstDeclared chain name).1 < chain.length := by
  have hFound : ∃ d ∈ chain.reverse, d.methodNames.contains name = true := by
    obtain ⟨d, hd, hName⟩ := h
    exact ⟨d, List.mem_reverse.mpr hd, by simpa using hName⟩
  have hLess := List.findIdx_lt_length_of_exists hFound
  rw [List.length_reverse] at hLess
  refine ⟨?_, hLess⟩
  simp only [firstDeclared, List.reverse_cons, List.findIdx_append, List.length_reverse, hLess,
    if_true]
  rw [List.getElem?_append_left (by simpa using hLess)]

theorem firstDeclared_new (hNone : ¬ ∃ d ∈ chain, name ∈ d.methodNames)
    (h : name ∈ c.methodNames) :
    firstDeclared (c :: chain) name = (chain.length, c.methodNames.idxOf name) := by
  have hEnd : chain.reverse.findIdx (fun d => d.methodNames.contains name) = chain.length := by
    rw [← List.length_reverse, List.findIdx_eq_length]
    intro d hd
    simp only [List.contains_eq_mem, decide_eq_false_iff_not]
    exact fun hName => hNone ⟨d, List.mem_reverse.mp hd, hName⟩
  have hOwn : [c].findIdx (fun d => d.methodNames.contains name) = 0 := by
    simp [List.findIdx_cons, h]
  simp only [firstDeclared, List.reverse_cons, List.findIdx_append, hEnd, hOwn, List.length_reverse,
    Nat.lt_irrefl, if_false, Nat.zero_add]
  rw [List.getElem?_append_right (by simp)]
  simp

end FirstDeclared

theorem pairwise_idxOf {names : List String} (h : names.Nodup) :
    names.Pairwise fun first second => names.idxOf first < names.idxOf second := by
  rw [List.pairwise_iff_getElem]
  intro i j hi hj hLess
  rwa [h.idxOf_getElem, h.idxOf_getElem]

namespace Model

variable {m : Model} {c : ClassDecl} {chain : List ClassDecl}

theorem ordered_layered (hDistinct : ∀ d ∈ chain, d.methodNames.Nodup) :
    ((layered chain).map (·.name)).Pairwise fun first second =>
      Prod.Lex (· < ·) (· < ·) (firstDeclared chain first) (firstDeclared chain second) := by
  induction chain with
  | nil => exact .nil
  | cons c above ih =>
    rw [List.forall_mem_cons] at hDistinct
    have hOld {name : String} (h : name ∈ (layered above).map (·.name)) :=
      firstDeclared_cons (c := c) ((mem_layered_iff hDistinct.2).mp h)
    have hNew {name : String}
        (h : name ∈ c.methodNames.filter (· ∉ (layered above).map (·.name))) :
        firstDeclared (c :: above) name = (above.length, c.methodNames.idxOf name) := by
      rw [List.mem_filter, decide_eq_true_eq, mem_layered_iff hDistinct.2] at h
      exact firstDeclared_new h.2 h.1
    rw [layered, names_overlay _ hDistinct.1, List.pairwise_append]
    refine ⟨?_, ?_, ?_⟩
    · refine (ih hDistinct.2).imp_of_mem fun hFirst hSecond hLess => ?_
      rwa [(hOld hFirst).1, (hOld hSecond).1]
    · refine ((pairwise_idxOf hDistinct.1).filter _).imp_of_mem fun hFirst hSecond hLess => ?_
      rw [hNew hFirst, hNew hSecond]
      exact .right _ hLess
    · intro first hFirst second hSecond
      rw [(hOld hFirst).1, hNew hSecond]
      exact Prod.lex_def.mpr (.inl (hOld hFirst).2)

theorem inherited_layered (hDistinct : ∀ d ∈ chain, d.methodNames.Nodup) :
    Inherited chain (layered chain) where
  distinct := nodup_layered chain
  declared _ := mem_layered_iff hDistinct
  mostDerived _ := mostDerived_of_mem_layered hDistinct
  ordered := ordered_layered hDistinct

/-- A class of an accepted model has a line of bases that ends, and its methods are those that are
inherited along it. -/
theorem allMethods_inherited (h : m.Accepted) (hc : c ∈ m.classes) :
    ∃ chain, Lineage m.classes c chain ∧ (chain.map (·.name)).Nodup ∧
      (∀ fuel, m.classes.length ≤ fuel → m.baseChain fuel c = chain) ∧
        Inherited chain (m.allMethods c) := by
  obtain ⟨chain, hLineage, hNames⟩ := h.exists_lineage hc
  have hMem := hLineage.mem hc
  have hLength : chain.length ≤ m.classes.length := by
    have hNamed : ∀ name ∈ chain.map (·.name), ∃ d ∈ m.classes, d.name = name := by
      intro name hName
      obtain ⟨d, hd, hSame⟩ := List.mem_map.mp hName
      exact ⟨d, hMem d hd, hSame⟩
    have hLength := length_le_of_named hNames hNamed
    rwa [List.length_map] at hLength
  have hBound (fuel : Nat) (hFuel : m.classes.length ≤ fuel) : m.baseChain fuel c = chain :=
    baseChain_of_lineage h.coherent.classNames hLineage (by omega)
  refine ⟨chain, hLineage, hNames, hBound, ?_⟩
  rw [allMethods_eq_layered, hBound _ (Nat.le_refl _)]
  exact inherited_layered fun d hd => h.coherent.methodNames d (hMem d hd)

/-- Each class declares a method of its base anew, and one of its own. -/
def sampleDerived : Model where
  library := { name := "derived" }
  classes :=
    [{ name := "Feed", base := some "Source"
       methods := [{ name := "Last" }, { name := "Start", isFinal := true }] },
      { name := "Root", methods := [{ name := "Start" }, { name := "Stop" }] },
      { name := "Source", base := some "Root"
        methods := [{ name := "Read" }, { name := "Stop", isVirtual := true }] }]

theorem sampleDerived_accepted : sampleDerived.Accepted :=
  have hNew : new sampleDerived.library sampleDerived.structs sampleDerived.classes =
      .ok sampleDerived := rfl
  .new hNew

theorem allMethods_inherited_sample :
    sampleDerived.Accepted ∧ ∃ c ∈ sampleDerived.classes,
      sampleDerived.allMethods c =
        [{ name := "Start", isFinal := true }, { name := "Stop", isVirtual := true },
          { name := "Read" }, { name := "Last" }] ∧
      ∃ chain, Lineage sampleDerived.classes c chain ∧ chain.length = 3 ∧
        Inherited chain (sampleDerived.allMethods c) := by
  have hFeed : sampleDerived.classes[0] ∈ sampleDerived.classes := List.getElem_mem _
  obtain ⟨chain, hLineage, -, hBound, hInherited⟩ :=
    allMethods_inherited sampleDerived_accepted hFeed
  have hLength : chain.length = 3 := by
    rw [← hBound _ (Nat.le_refl _)]
    rfl
  exact ⟨sampleDerived_accepted, _, hFeed, rfl, chain, hLineage, hLength, hInherited⟩

end Model

end NativeBinding
