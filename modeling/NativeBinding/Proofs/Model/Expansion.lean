import Mathlib.Algebra.Ring.Nat
import NativeBinding.Model.Resolver
import NativeBinding.Proofs.Lookup

/-! # Expanded types

A type leads through typedefs to a type that no typedef names, in at most as many steps as there are
typedefs. The type found is put together from all types on the way. There is none if the way comes
back to a name, if a spelling on it cannot be read, or if two types on it are arrays.
-/

set_option autoImplicit false

namespace NativeBinding.Resolver

open Header

variable {r : Resolver} {seen : List String} {type target t : TypeSpelling} {n : Nat}
  {links chain : List TypeSpelling}

/-- The typedef that the base of a type names stands for another type. -/
def Leads (r : Resolver) (type target : TypeSpelling) : Prop :=
  ∃ spelling, r.typedef? type.base = some spelling ∧ TypeSpelling.parse spelling = .ok target

/-- Following typedefs without a bound, where a number counts those that are taken up. -/
inductive Expands (r : Resolver) :
    List String → TypeSpelling → Nat → Except DeclError TypeSpelling → Prop
  | done {seen : List String} {type : TypeSpelling} : r.typedef? type.base = none →
      Expands r seen type 0 (.ok type)
  | cycle {seen : List String} {type : TypeSpelling} {spelling : String} :
      r.typedef? type.base = some spelling → type.base ∈ seen →
      Expands r seen type 0 (.error (.model (.typedefCycle type.base)))
  | rejected {seen : List String} {type : TypeSpelling} {spelling : String} {e : SignatureError} :
      r.typedef? type.base = some spelling → type.base ∉ seen →
      TypeSpelling.parse spelling = .error e → Expands r seen type 1 (.error (.signature e))
  | arrays {seen : List String} {type target : TypeSpelling} {spelling : String} :
      r.typedef? type.base = some spelling → type.base ∉ seen →
      TypeSpelling.parse spelling = .ok target →
      target.arrayLength.isSome = true → type.arrayLength.isSome = true →
      Expands r seen type 1 (.error (.model (.arrayOfArray type.base)))
  | step {seen : List String} {type target : TypeSpelling} {spelling : String} {n : Nat}
      {result : Except DeclError TypeSpelling} :
      r.typedef? type.base = some spelling → type.base ∉ seen →
      TypeSpelling.parse spelling = .ok target →
      target.arrayLength = none ∨ type.arrayLength = none →
      Expands r (type.base :: seen) (substitute type target) n result →
      Expands r seen type (n + 1) result

/-- A type put together from a chain of types. -/
structure Combines (chain : List TypeSpelling) (t : TypeSpelling) : Prop where
  base : (chain.map (·.base)).getLast? = some t.base
  isConst : t.isConst = true ↔ ∃ link ∈ chain, link.isConst = true
  isReference : t.isReference = true ↔ ∃ link ∈ chain, link.isReference = true
  pointerDepth : t.pointerDepth.toNat = (chain.map (·.pointerDepth.toNat)).sum % 256
  arrayLength : chain.filterMap (·.arrayLength) = t.arrayLength.toList

/-- Whether a chain, after names already replaced, is one that cannot be followed. -/
def Fails (r : Resolver) (seen : List String) (chain : List TypeSpelling) : Prop :=
  ¬ (seen ++ chain.map (·.base)).Nodup ∨
  (∃ name spelling e, (chain.map (·.base)).getLast? = some name ∧
    r.typedef? name = some spelling ∧ TypeSpelling.parse spelling = .error e) ∨
  2 ≤ (chain.filterMap (·.arrayLength)).length

theorem typedef?_isSome_iff {name : String} :
    (r.typedef? name).isSome = true ↔ ∃ d ∈ r.typedefs, d.1 = name := by
  rw [typedef?, Option.isSome_map]
  exact find?_key_isSome_iff

section Bound

theorem length_seen_le (hSeen : seen.Nodup)
    (hNamed : ∀ name ∈ seen, (r.typedef? name).isSome = true) :
    seen.length ≤ r.typedefs.length :=
  length_le_of_named hSeen fun name hName => typedef?_isSome_iff.mp (hNamed name hName)

theorem exists_expands {fuel : Nat} (hSeen : seen.Nodup)
    (hNamed : ∀ name ∈ seen, (r.typedef? name).isSome = true)
    (hFuel : r.typedefs.length < seen.length + fuel) :
    ∃ n, seen.length + n ≤ r.typedefs.length ∧
      r.Expands seen type n (r.expandFrom fuel seen type) := by
  induction fuel generalizing seen type with
  | zero =>
    -- The names seen are typedefs and all different, so the bound cannot be used up.
    have hLength := length_seen_le hSeen hNamed
    omega
  | succ fuel ih =>
    have hLength := length_seen_le hSeen hNamed
    unfold expandFrom
    cases hTypedef : r.typedef? type.base with
    | none => exact ⟨0, hLength, .done hTypedef⟩
    | some spelling =>
      dsimp only
      by_cases hOld : type.base ∈ seen
      · rw [if_pos (by simpa using hOld)]
        exact ⟨0, hLength, .cycle hTypedef hOld⟩
      · have hSeen' : (type.base :: seen).Nodup := List.nodup_cons.mpr ⟨hOld, hSeen⟩
        have hNamed' : ∀ name ∈ type.base :: seen, (r.typedef? name).isSome = true :=
          List.forall_mem_cons.mpr ⟨by simp [hTypedef], hNamed⟩
        have hLength' := length_seen_le hSeen' hNamed'
        rw [List.length_cons] at hLength'
        rw [if_neg (by simpa using hOld)]
        cases hParse : TypeSpelling.parse spelling with
        | error e => exact ⟨1, hLength', .rejected hTypedef hOld hParse⟩
        | ok target =>
          dsimp only
          by_cases hArrays : (target.arrayLength.isSome && type.arrayLength.isSome) = true
          · rw [if_pos hArrays]
            rw [Bool.and_eq_true] at hArrays
            exact ⟨1, hLength', .arrays hTypedef hOld hParse hArrays.1 hArrays.2⟩
          · rw [if_neg hArrays]
            rw [Bool.and_eq_true, not_and_or] at hArrays
            let next := substitute type target
            obtain ⟨n, hBound, hRest⟩ : ∃ n, (type.base :: seen).length + n ≤ r.typedefs.length ∧
                r.Expands (type.base :: seen) next n (r.expandFrom fuel (type.base :: seen) next) :=
              ih hSeen' hNamed' (by rw [List.length_cons]; omega)
            rw [List.length_cons] at hBound
            refine ⟨n + 1, by omega, .step hTypedef hOld hParse ?_ hRest⟩
            simpa using hArrays

end Bound

section Chain

theorem Leads.eq {other : TypeSpelling} (h : r.Leads type target) (h' : r.Leads type other) :
    target = other := by
  obtain ⟨spelling, hTypedef, hParse⟩ := h
  obtain ⟨spelling', hTypedef', hParse'⟩ := h'
  cases hTypedef.symm.trans hTypedef'
  cases hParse.symm.trans hParse'
  rfl

theorem isChain_substitute :
    (substitute type target :: links).IsChain r.Leads ↔ (target :: links).IsChain r.Leads := by
  cases links with
  | nil => simp
  | cons link links =>
    simp only [List.isChain_cons_cons]
    rfl

variable (hExtent : target.arrayLength = none ∨ type.arrayLength = none)

include hExtent

theorem filterMap_substitute :
    (substitute type target :: links).filterMap (·.arrayLength) =
      (type :: target :: links).filterMap (·.arrayLength) := by
  rcases hExtent with hNone | hNone
  · cases hType : type.arrayLength <;> simp [substitute, hNone, hType]
  · cases hTarget : target.arrayLength <;> simp [substitute, hNone, hTarget]

theorem Combines.substitute (h : Combines (substitute type target :: links) t) :
    Combines (type :: target :: links) t where
  base := h.base
  isConst := by simp [h.isConst, Resolver.substitute, or_assoc]
  isReference := by simp [h.isReference, Resolver.substitute, or_assoc]
  pointerDepth := by
    rw [h.pointerDepth]
    simp [Resolver.substitute, UInt8.toNat_add, Nat.add_assoc]
  arrayLength := (filterMap_substitute hExtent).symm.trans h.arrayLength

theorem fails_substitute_iff :
    r.Fails seen (type :: target :: links) ↔
      r.Fails (type.base :: seen) (substitute type target :: links) := by
  have hDistinct : (seen ++ (type :: target :: links).map (·.base)).Nodup ↔
      (type.base :: seen ++ (substitute type target :: links).map (·.base)).Nodup :=
    List.nodup_middle
  rw [Fails, Fails, hDistinct, filterMap_substitute hExtent]
  rfl

end Chain

theorem not_fails_singleton (hSeen : seen.Nodup) (hNew : type.base ∉ seen)
    (hRead : ∀ spelling e, r.typedef? type.base = some spelling →
      TypeSpelling.parse spelling ≠ .error e) : ¬ r.Fails seen [type] := by
  rintro (hRepeats | ⟨name, spelling, e, hLast, hTypedef, hParse⟩ | hExtents)
  · apply hRepeats
    rw [List.map_singleton, List.nodup_append]
    refine ⟨hSeen, List.nodup_singleton _, ?_⟩
    intro name hName other hOther hSame
    rw [List.mem_singleton.mp hOther] at hSame
    exact hNew (hSame ▸ hName)
  · cases hLast
    exact hRead spelling e hTypedef hParse
  · have hShort : ([type].filterMap (·.arrayLength)).length ≤ 1 := List.length_filterMap_le _ _
    omega

namespace Expands

theorem exists_chain (h : r.Expands seen type n (.ok t)) :
    r.typedef? t.base = none ∧
      ∃ links, links.length = n ∧ (type :: links).IsChain r.Leads ∧ Combines (type :: links) t := by
  generalize hResult : Except.ok t = result at h
  induction h with
  | done hNone =>
    cases hResult
    refine ⟨hNone, [], rfl, List.IsChain.singleton _, rfl, by simp, by simp, ?_, ?_⟩
    · exact (Nat.mod_eq_of_lt t.pointerDepth.toNat_lt).symm
    · cases hExtent : t.arrayLength <;> simp [hExtent]
  | step hTypedef _ hParse hExtent _ ih =>
    obtain ⟨hNone, links, hLength, hChain, hCombines⟩ := ih hResult
    refine ⟨hNone, _ :: links, by rw [List.length_cons, hLength], ?_, hCombines.substitute hExtent⟩
    exact List.isChain_cons_cons.mpr ⟨⟨_, hTypedef, hParse⟩, isChain_substitute.mp hChain⟩
  | _ => cases hResult

theorem exists_fails {e : DeclError} (h : r.Expands seen type n (.error e)) :
    ∃ links, (type :: links).IsChain r.Leads ∧ r.Fails seen (type :: links) := by
  generalize hResult : Except.error e = result at h
  induction h with
  | done => cases hResult
  | cycle _ hOld =>
    refine ⟨[], List.IsChain.singleton _, .inl ?_⟩
    intro hDistinct
    exact (List.nodup_append.mp hDistinct).2.2 _ hOld _ List.mem_cons_self rfl
  | rejected hTypedef _ hParse =>
    exact ⟨[], List.IsChain.singleton _, .inr (.inl ⟨_, _, _, rfl, hTypedef, hParse⟩)⟩
  | @arrays _ type target _ hTypedef _ hParse hTarget hType =>
    refine ⟨[target], List.isChain_cons_cons.mpr ⟨⟨_, hTypedef, hParse⟩, List.IsChain.singleton _⟩,
      .inr (.inr ?_)⟩
    obtain ⟨outer, hOuter⟩ := Option.isSome_iff_exists.mp hType
    obtain ⟨inner, hInner⟩ := Option.isSome_iff_exists.mp hTarget
    simp [hOuter, hInner]
  | step hTypedef _ hParse hExtent _ ih =>
    obtain ⟨links, hChain, hFails⟩ := ih hResult
    refine ⟨_ :: links, ?_, (fails_substitute_iff hExtent).mpr hFails⟩
    exact List.isChain_cons_cons.mpr ⟨⟨_, hTypedef, hParse⟩, isChain_substitute.mp hChain⟩

theorem not_fails (h : r.Expands seen type n (.ok t)) (hSeen : seen.Nodup)
    (hNamed : ∀ name ∈ seen, (r.typedef? name).isSome = true)
    (hChain : (type :: links).IsChain r.Leads) : ¬ r.Fails seen (type :: links) := by
  -- Any chain goes along with the expansion, as every type leads to one type at most.
  generalize hResult : Except.ok t = result at h
  induction h generalizing links with
  | @done seen type hNone =>
    cases links with
    | nil =>
      apply not_fails_singleton hSeen
      · intro hOld
        have hSome := hNamed _ hOld
        rw [hNone] at hSome
        cases hSome
      · intro spelling e hTypedef
        cases hNone.symm.trans hTypedef
    | cons link links =>
      obtain ⟨⟨spelling, hTypedef, -⟩, -⟩ := List.isChain_cons_cons.mp hChain
      cases hNone.symm.trans hTypedef
  | @step seen type target spelling n result hTypedef hNew hParse hExtent _ ih =>
    cases links with
    | nil =>
      apply not_fails_singleton hSeen hNew
      intro spelling' e hTypedef' hRejected
      cases hTypedef.symm.trans hTypedef'
      cases hParse.symm.trans hRejected
    | cons link links =>
      obtain ⟨hLeads, hRest⟩ := List.isChain_cons_cons.mp hChain
      cases Leads.eq ⟨spelling, hTypedef, hParse⟩ hLeads
      rw [fails_substitute_iff hExtent]
      refine ih (List.nodup_cons.mpr ⟨hNew, hSeen⟩) ?_ (isChain_substitute.mpr hRest) hResult
      exact List.forall_mem_cons.mpr ⟨by simp [hTypedef], hNamed⟩
  | _ => cases hResult

end Expands

/-- What an expansion of a type comes to. -/
structure Expansion (r : Resolver) (type : TypeSpelling)
    (result : Except DeclError TypeSpelling) : Prop where
  terminates : ∃ n ≤ r.typedefs.length, r.Expands [] type n result
  combined : ∀ t, result = .ok t → t.base ∉ r.typedefs.map (·.1) ∧
    ∃ links, (type :: links).IsChain r.Leads ∧ Combines (type :: links) t
  fails : (∃ e, result = .error e) ↔
    ∃ links, (type :: links).IsChain r.Leads ∧ r.Fails [] (type :: links)

/-- Typedefs may lead in circles: every type is expanded, or it is found to have no expansion. -/
theorem expansion (r : Resolver) (type : TypeSpelling) : r.Expansion type (r.expand type) := by
  obtain ⟨n, hBound, hExpands⟩ : ∃ n, ([] : List String).length + n ≤ r.typedefs.length ∧
      r.Expands [] type n (r.expand type) :=
    exists_expands List.nodup_nil (List.forall_mem_nil _) (by simp)
  refine ⟨⟨n, by simpa using hBound, hExpands⟩, ?_, ?_, ?_⟩
  · intro t hOk
    rw [hOk] at hExpands
    obtain ⟨hNone, links, -, hChain, hCombines⟩ := hExpands.exists_chain
    refine ⟨?_, links, hChain, hCombines⟩
    intro hMem
    have hSome := typedef?_isSome_iff.mpr (List.mem_map.mp hMem)
    rw [hNone] at hSome
    cases hSome
  · rintro ⟨e, hError⟩
    rw [hError] at hExpands
    exact hExpands.exists_fails
  · rintro ⟨links, hChain, hFails⟩
    cases hResult : r.expand type with
    | error e => exact ⟨e, rfl⟩
    | ok t =>
      rw [hResult] at hExpands
      exact absurd hFails (hExpands.not_fails List.nodup_nil (List.forall_mem_nil _) hChain)

end NativeBinding.Resolver
