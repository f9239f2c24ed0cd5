import NativeBinding.Proofs.Binding.Rules
import NativeBinding.Proofs.Model.Inheritance

/-! # The slots of an interface

A hook that an interface declares or inherits has a slot in its binding exactly if no name filter
leaves it out and all its types can be carried. A class has one method of each name, so a search for
the name of the hook finds this slot or none.
-/

set_option autoImplicit false

namespace NativeBinding

namespace Generator

variable {g : Generator} {c : ClassDecl} {hook : MethodDecl} {slot : OverrideSlot}

/-- Whether a hook of an interface is one that a handler can override: no name filter leaves it out,
and no type of it stands in the way. -/
structure Keeps (g : Generator) (c : ClassDecl) (hook : MethodDecl) : Prop where
  generated : g.filter.isIgnored (c.name ++ "::" ++ hook.name) = false
  callable : g.filter.isNoCallback (c.name ++ "::" ++ hook.name) = false
  carried : ∀ type ∈ hook.types, (∃ rule, g.Carries type rule) ∧ ∀ name, type ≠ .object name

theorem names_slot (h : g.slot hook = .ok slot) :
    slot.name = hook.name ∧ slot.returnType = hook.returnType := by
  obtain ⟨_, -, h⟩ := bind_eq_ok_iff.mp h
  obtain ⟨_, -, hEq⟩ := bind_eq_ok_iff.mp h
  cases hEq
  exact ⟨rfl, rfl⟩

theorem exists_rule_iff {type : TypeRef} : (∃ rule, g.rule none type = .ok rule) ↔
    (∃ rule, g.Carries type rule) ∧ ∀ name, type ≠ .object name := by
  simp only [rule_eq_ok_iff, exists_and_right, reduceCtorEq, imp_false, ne_eq]

theorem exists_slot_iff : (∃ slot, g.slot hook = .ok slot) ↔
    ∀ type ∈ hook.types, (∃ rule, g.Carries type rule) ∧ ∀ name, type ≠ .object name := by
  have hParam (p : Param) :
      (∃ q, g.param none p = .ok q) ↔ ∃ rule, g.rule none p.type = .ok rule := by
    simp [param, bind_eq_ok_iff, pure, Except.pure]
  simp only [← exists_rule_iff, MethodDecl.types, List.forall_mem_cons, List.forall_mem_map]
  rw [← forall₂_congr fun p _ => hParam p, ← exists_mapM_eq_ok_iff]
  simp [Generator.slot, bind_eq_ok_iff, pure, Except.pure, and_comm]

/-- The slot that one method adds to the binding of a class. -/
def slotOf? (g : Generator) (c : ClassDecl) (m : MethodDecl) : Option OverrideSlot :=
  if g.filter.isIgnored (c.name ++ "::" ++ m.name) then none
  else
    match g.member c m with
    | .ok (.override slot) => some slot
    | _ => none

theorem overrides_take {b next : ClassBinding} {m : MethodDecl} (h : g.take c b m = .ok next) :
    next.overrides = b.overrides ++ (g.slotOf? c m).toList := by
  unfold take at h
  unfold slotOf?
  split at h
  · rename_i hIgnored
    cases h
    simp [hIgnored]
  · rename_i hGenerated
    rw [if_neg hGenerated]
    split at h
    · rename_i part hMember
      cases h
      cases part <;> simp [hMember, add]
    · rename_i obstacle hMember
      split at h <;> cases h
      simp [hMember, skip]

theorem overrides_of_generate {b : ClassBinding} (h : g.generate c = .ok b) :
    b.overrides = (g.model.allMethods c).filterMap (g.slotOf? c) := by
  -- By induction on the methods, from any binding: what is taken before comes first.
  have hFold (methods : List MethodDecl) (start : ClassBinding)
      {last : ClassBinding} (hRun : methods.foldlM (g.take c) start = .ok last) :
      last.overrides = start.overrides ++ methods.filterMap (g.slotOf? c) := by
    induction methods generalizing start with
    | nil =>
      cases hRun
      simp
    | cons m methods ih =>
      rw [List.foldlM_cons] at hRun
      obtain ⟨next, hTake, hRest⟩ := bind_eq_ok_iff.mp hRun
      rw [ih next hRest, overrides_take hTake, List.append_assoc]
      cases hSlot : g.slotOf? c m <;> simp [hSlot]
  obtain ⟨made, hMade, rfl⟩ := generate_eq_ok_iff.mp h
  exact hFold _ _ hMade

theorem slotOf?_eq_some_iff (hInterface : c.isInterface = true)
    (hOverridable : hook.isOverridable = true) : g.slotOf? c hook = some slot ↔
      g.filter.isIgnored (c.name ++ "::" ++ hook.name) = false ∧
        g.filter.isNoCallback (c.name ++ "::" ++ hook.name) = false ∧ g.slot hook = .ok slot := by
  unfold slotOf? member
  cases g.filter.isIgnored (c.name ++ "::" ++ hook.name) with
  | true => simp
  | false =>
    cases g.filter.isNoCallback (c.name ++ "::" ++ hook.name) with
    | true => simp [hInterface]
    | false =>
      cases g.slot hook <;> simp [hInterface, hOverridable, Except.map]

theorem name_slotOf? {m : MethodDecl} (h : g.slotOf? c m = some slot) : slot.name = m.name := by
  unfold slotOf? member at h
  split at h
  · cases h
  · split at h
    · rename_i taken hMember
      cases h
      split at hMember
      · split at hMember
        · cases hMember
        · obtain ⟨_, hSlot, hEq⟩ := map_eq_ok_iff.mp hMember
          cases hEq
          exact (names_slot hSlot).1
      · obtain ⟨_, -, hEq⟩ := map_eq_ok_iff.mp hMember
        split at hEq <;> cases hEq
    · cases h

variable {b : ClassBinding}

theorem slot?_of_generate (h : g.generate c = .ok b) (hHook : hook ∈ g.model.allMethods c) :
    b.slot? hook.name = g.slotOf? c hook := by
  let found (m : MethodDecl) : Bool := (g.slotOf? c m).any fun slot => slot.name == hook.name
  have hSame {m : MethodDecl} (hm : m ∈ g.model.allMethods c) (hFound : found m = true) :
      m = hook := by
    obtain ⟨slot, hSlot, hName⟩ := (Option.any_eq_true _ _).mp hFound
    have hEq : m.name = hook.name := (name_slotOf? hSlot).symm.trans (eq_of_beq hName)
    exact List.inj_on_of_nodup_map (g.model.methodNames_nodup c) hm hHook hEq
  rw [ClassBinding.slot?, overrides_of_generate h, List.find?_filterMap]
  change ((g.model.allMethods c).find? found).bind (g.slotOf? c) = g.slotOf? c hook
  cases hFind : (g.model.allMethods c).find? found with
  | some m => rw [Option.bind_some, hSame (List.mem_of_find?_eq_some hFind) (List.find?_some hFind)]
  | none =>
    refine (Option.eq_none_iff_forall_ne_some.mpr fun slot hSlot => ?_).symm
    exact List.find?_eq_none.mp hFind hook hHook (by simp [found, hSlot, name_slotOf? hSlot])

theorem slot?_of_keeps (h : g.generate c = .ok b) (hInterface : c.isInterface = true)
    (hHook : hook ∈ g.model.allMethods c) (hOverridable : hook.isOverridable = true)
    (hKeeps : g.Keeps c hook) :
    ∃ slot, b.slot? hook.name = some slot ∧ slot.returnType = hook.returnType := by
  obtain ⟨slot, hSlot⟩ := exists_slot_iff.mpr hKeeps.carried
  refine ⟨slot, ?_, (names_slot hSlot).2⟩
  rw [slot?_of_generate h hHook]
  exact (slotOf?_eq_some_iff hInterface hOverridable).mpr ⟨hKeeps.generated, hKeeps.callable, hSlot⟩

theorem slot?_of_not_keeps (h : g.generate c = .ok b) (hInterface : c.isInterface = true)
    (hHook : hook ∈ g.model.allMethods c) (hOverridable : hook.isOverridable = true)
    (hLeftOut : ¬ g.Keeps c hook) : b.slot? hook.name = none := by
  rw [slot?_of_generate h hHook]
  refine Option.eq_none_iff_forall_ne_some.mpr fun slot hTaken => hLeftOut ?_
  obtain ⟨hGenerated, hCallable, hSlot⟩ := (slotOf?_eq_some_iff hInterface hOverridable).mp hTaken
  exact ⟨hGenerated, hCallable, exists_slot_iff.mp ⟨slot, hSlot⟩⟩

end Generator

end NativeBinding
