import NativeBinding.Proofs.Binding.Rules
import NativeBinding.Proofs.Model.Inheritance

/-! # Declared methods in a binding

Generation goes through the methods of a class once. A method that concerns the binding becomes one
trampoline or one slot, with the name, the parameters and the defaults of its declaration, or it is
skipped; every other one leaves no trace.
-/

set_option autoImplicit false

namespace NativeBinding

def ParamBinding.declared (p : ParamBinding) : Param :=
  { name := p.name, type := p.type, default := p.default }

def ClassBinding.trampolines (b : ClassBinding) : List Trampoline :=
  b.constructors ++ b.methods

structure Trampoline.Declared (t : Trampoline) (m : MethodDecl) : Prop where
  name : t.name = m.name
  params : t.params.map ParamBinding.declared = m.params
  returned : t.returnType = m.returnType

structure OverrideSlot.Declared (s : OverrideSlot) (m : MethodDecl) : Prop where
  name : s.name = m.name
  params : s.params.map ParamBinding.declared = m.params
  returned : s.returnType = m.returnType

/-- Names that several lists share, each name in one place, with the order of the names in each. -/
structure Shared (names : List String) (parts : List (List String)) : Prop where
  once : parts.flatten.Perm names
  ordered : ∀ part ∈ parts, part.Sublist names

/-- The names of the methods that a binding accounts for. -/
def ClassBinding.parts (b : ClassBinding) : List (List String) :=
  [b.constructors.map (·.name), b.methods.map (·.name), b.overrides.map (·.name),
    b.skipped.map (·.name)]

/-- Every one of the methods is in the binding, and nothing else is. -/
structure ClassBinding.Accounts (b : ClassBinding) (methods : List MethodDecl) : Prop where
  shared : Shared (methods.map (·.name)) b.parts
  trampolines : ∀ t ∈ b.trampolines, ∃ m ∈ methods, t.Declared m
  slots : ∀ s ∈ b.overrides, ∃ m ∈ methods, s.Declared m

section Shared

variable {names : List String} {parts : List (List String)} {i : Nat}

theorem perm_flatten_modify (hi : i < parts.length) (name : String) :
    (parts.modify i (· ++ [name])).flatten.Perm (parts.flatten ++ [name]) := by
  induction parts generalizing i with
  | nil => exact absurd hi (Nat.not_lt_zero i)
  | cons part parts ih =>
    cases i with
    | zero =>
      simp only [List.modify_zero_cons, List.flatten_cons, List.append_assoc]
      exact List.Perm.append_left _ List.perm_append_comm
    | succ i =>
      simp only [List.modify_succ_cons, List.flatten_cons, List.append_assoc]
      exact (ih (Nat.lt_of_succ_lt_succ hi)).append_left _

theorem Shared.extend (h : Shared names parts) (hi : i < parts.length) (name : String) :
    Shared (names ++ [name]) (parts.modify i (· ++ [name])) := by
  constructor
  · exact (perm_flatten_modify hi name).trans (h.once.append_right _)
  · intro part hPart
    obtain ⟨j, hj, rfl⟩ := List.mem_iff_getElem.mp hPart
    rw [List.length_modify] at hj
    have hOrdered := h.ordered _ (List.getElem_mem hj)
    rw [List.getElem_modify]
    split
    · exact hOrdered.append (List.Sublist.refl _)
    · exact hOrdered.trans (List.sublist_append_left _ _)

theorem Shared.dropNil (before : List (List String)) {after : List (List String)}
    (h : Shared names (before ++ [] :: after)) : Shared names (before ++ after) := by
  constructor
  · simpa using h.once
  · intro part hPart
    apply h.ordered
    rw [List.mem_append, List.mem_cons]
    rcases List.mem_append.mp hPart with hBefore | hAfter
    · exact .inl hBefore
    · exact .inr (.inr hAfter)

end Shared

theorem ClassBinding.Accounts.extend {b next : ClassBinding} {methods : List MethodDecl}
    {m : MethodDecl} {i : Nat} (h : b.Accounts methods) (hi : i < 4)
    (hParts : next.parts = b.parts.modify i (· ++ [m.name]))
    (hTrampolines : ∀ t ∈ next.trampolines, t ∈ b.trampolines ∨ t.Declared m)
    (hSlots : ∀ s ∈ next.overrides, s ∈ b.overrides ∨ s.Declared m) :
    next.Accounts (methods ++ [m]) := by
  have hLast : m ∈ methods ++ [m] := List.mem_append_right _ (List.mem_singleton_self m)
  constructor
  · rw [List.map_append, hParts]
    exact h.shared.extend hi m.name
  · intro t ht
    rcases hTrampolines t ht with hOld | hNew
    · obtain ⟨d, hd, hDeclared⟩ := h.trampolines t hOld
      exact ⟨d, List.mem_append_left _ hd, hDeclared⟩
    · exact ⟨m, hLast, hNew⟩
  · intro s hs
    rcases hSlots s hs with hOld | hNew
    · obtain ⟨d, hd, hDeclared⟩ := h.slots s hOld
      exact ⟨d, List.mem_append_left _ hd, hDeclared⟩
    · exact ⟨m, hLast, hNew⟩

namespace Generator

variable {g : Generator} {c : ClassDecl} {b next : ClassBinding} {m : MethodDecl} {t : Trampoline}
  {s : OverrideSlot}

theorem declared_params {allowed : Option String} {params : List Param}
    {bound : List ParamBinding} (h : params.mapM (g.param allowed) = .ok bound) :
    bound.map ParamBinding.declared = params := by
  rw [← List.forall₂_eq_eq_eq, List.forall₂_map_left_iff]
  refine (mapM_eq_ok_iff.mp h).flip.imp fun q p hParam => ?_
  obtain ⟨rule, -, hEq⟩ := bind_eq_ok_iff.mp hParam
  cases hEq
  rfl

theorem declared_trampolineOf {kind : TrampolineKind} {paramClass returnClass : Option String}
    (h : g.trampolineOf m kind paramClass returnClass = .ok t) : t.Declared m := by
  obtain ⟨params, hParams, h⟩ := bind_eq_ok_iff.mp h
  obtain ⟨returnRule, -, hEq⟩ := bind_eq_ok_iff.mp h
  cases hEq
  exact ⟨rfl, declared_params hParams, rfl⟩

theorem declared_trampoline (h : g.trampoline c m = .ok t) : t.Declared m := by
  unfold Generator.trampoline at h
  split at h
  · exact declared_trampolineOf h
  · split at h
    · exact declared_trampolineOf h
    · split at h <;> exact declared_trampolineOf h

theorem declared_slot (h : g.slot m = .ok s) : s.Declared m := by
  obtain ⟨params, hParams, h⟩ := bind_eq_ok_iff.mp h
  obtain ⟨returnRule, -, hEq⟩ := bind_eq_ok_iff.mp h
  cases hEq
  exact ⟨rfl, declared_params hParams, rfl⟩

def kept (g : Generator) (c : ClassDecl) : List MethodDecl :=
  (g.model.allMethods c).filter fun m => !g.filter.isIgnored (c.name ++ "::" ++ m.name)

/-- Whether a handler of the class could override a method. -/
def isOpen (g : Generator) (c : ClassDecl) (m : MethodDecl) : Bool :=
  m.isVirtual && !m.isStatic && !m.isFinal && !g.filter.isNoCallback (c.name ++ "::" ++ m.name)

def hooks (g : Generator) (c : ClassDecl) : List MethodDecl :=
  (g.kept c).filter (g.isOpen c)

/-- Whether the binding of a class has to account for a method. -/
def concerns (g : Generator) (c : ClassDecl) (m : MethodDecl) : Bool :=
  !g.filter.isIgnored (c.name ++ "::" ++ m.name) && (!c.isInterface || g.isOpen c m)

theorem filter_concerns (g : Generator) (c : ClassDecl) :
    (g.model.allMethods c).filter (g.concerns c) =
      if c.isInterface then g.hooks c else g.kept c := by
  split
  · rename_i hInterface
    rw [hooks, kept, List.filter_filter]
    congr 1
    funext m
    simp [concerns, hInterface, Bool.and_comm]
  · rename_i hOther
    rw [kept]
    congr 1
    funext m
    simp [concerns, hOther]

theorem member_interface (h : c.isInterface = true) :
    g.member c m = if g.isOpen c m then (g.slot m).map Member.override else .ok .omitted := by
  have hClosed : (!m.isOverridable || g.filter.isNoCallback (c.name ++ "::" ++ m.name)) =
      !g.isOpen c m := by
    simp [isOpen, MethodDecl.isOverridable, Bool.or_assoc]
  unfold member
  rw [if_pos h, hClosed]
  cases g.isOpen c m <;> rfl

theorem member_inversion {part : Member} (h : g.member c m = .ok part) :
    c.isInterface = true ∧ g.isOpen c m = false ∧ part = .omitted ∨
    c.isInterface = true ∧ g.isOpen c m = true ∧ (∃ s, s.Declared m ∧ part = .override s) ∨
    c.isInterface = false ∧ ∃ t, t.Declared m ∧ (part = .constructor t ∨ part = .method t) := by
  cases hInterface : c.isInterface with
  | true =>
    rw [member_interface hInterface] at h
    cases hOpen : g.isOpen c m with
    | false =>
      rw [hOpen] at h
      cases h
      exact .inl ⟨rfl, rfl, rfl⟩
    | true =>
      rw [hOpen, if_pos rfl] at h
      obtain ⟨s, hSlot, rfl⟩ := map_eq_ok_iff.mp h
      exact .inr (.inl ⟨rfl, rfl, s, declared_slot hSlot, rfl⟩)
  | false =>
    unfold member at h
    rw [if_neg (by simp [hInterface])] at h
    obtain ⟨t, hTrampoline, rfl⟩ := map_eq_ok_iff.mp h
    refine .inr (.inr ⟨rfl, t, declared_trampoline hTrampoline, ?_⟩)
    split
    · exact .inl rfl
    · exact .inr rfl

theorem concerns_of_obstacle {obstacle : TypeObstacle}
    (hKept : g.filter.isIgnored (c.name ++ "::" ++ m.name) = false)
    (h : g.member c m = .error obstacle) : g.concerns c m = true := by
  cases hInterface : c.isInterface with
  | false => simp [concerns, hKept, hInterface]
  | true =>
    rw [member_interface hInterface] at h
    split at h
    · rename_i hOpen
      simp [concerns, hKept, hOpen]
    · cases h

/-- What taking a method can do to a binding. -/
theorem take_inversion (h : g.take c b m = .ok next) :
    g.concerns c m = false ∧ next = b ∨
    g.concerns c m = true ∧
      ((∃ t, t.Declared m ∧ (next = add b (.constructor t) ∨ next = add b (.method t))) ∨
        (∃ s, s.Declared m ∧ next = add b (.override s)) ∨ ∃ obstacle, next = skip b m obstacle) := by
  unfold take at h
  split at h
  · rename_i hIgnored
    cases h
    exact .inl ⟨by simp [concerns, hIgnored], rfl⟩
  · rename_i hKept
    rw [Bool.not_eq_true] at hKept
    split at h
    · rename_i part hMember
      cases h
      obtain ⟨hInterface, hClosed, rfl⟩ | ⟨-, hOpen, s, hSlot, rfl⟩ | ⟨hOther, t, hDeclared, hPart⟩ :=
        member_inversion hMember
      · exact .inl ⟨by simp [concerns, hInterface, hClosed], rfl⟩
      · exact .inr ⟨by simp [concerns, hKept, hOpen], .inr (.inl ⟨s, hSlot, rfl⟩)⟩
      · refine .inr ⟨by simp [concerns, hKept, hOther], .inl ⟨t, hDeclared, ?_⟩⟩
        exact hPart.imp (congrArg _) (congrArg _)
    · rename_i obstacle hMember
      split at h <;> cases h
      exact .inr ⟨concerns_of_obstacle hKept hMember, .inr (.inr ⟨obstacle, rfl⟩)⟩

theorem accounts_take {methods : List MethodDecl} (hb : b.Accounts methods)
    (h : g.take c b m = .ok next) :
    next.Accounts (methods ++ [m].filter (g.concerns c)) := by
  obtain ⟨hLeftOut, rfl⟩ | ⟨hConcerned, hNext⟩ := take_inversion h
  · rwa [List.filter_cons_of_neg (by simp [hLeftOut]), List.filter_nil, List.append_nil]
  · rw [List.filter_cons_of_pos hConcerned, List.filter_nil]
    -- One of the four parts gets the name: constructors, methods, overrides or what is skipped.
    obtain ⟨t, hDeclared, rfl | rfl⟩ | ⟨s, hDeclared, rfl⟩ | ⟨obstacle, rfl⟩ := hNext
    · refine hb.extend (i := 0) (by omega) ?_ ?_ ?_
      · simp [ClassBinding.parts, add, hDeclared.name]
      · intro u hu
        simp only [add, ClassBinding.trampolines, List.mem_append, List.mem_singleton] at hu ⊢
        rcases hu with (hOld | rfl) | hOld
        · exact .inl (.inl hOld)
        · exact .inr hDeclared
        · exact .inl (.inr hOld)
      · exact fun s hs => .inl hs
    · refine hb.extend (i := 1) (by omega) ?_ ?_ ?_
      · simp [ClassBinding.parts, add, hDeclared.name]
      · intro u hu
        simp only [add, ClassBinding.trampolines, List.mem_append, List.mem_singleton] at hu ⊢
        rcases hu with hOld | hOld | rfl
        · exact .inl (.inl hOld)
        · exact .inl (.inr hOld)
        · exact .inr hDeclared
      · exact fun s hs => .inl hs
    · refine hb.extend (i := 2) (by omega) ?_ (fun t ht => .inl ht) ?_
      · simp [ClassBinding.parts, add, hDeclared.name]
      · intro u hu
        rcases List.mem_append.mp hu with hOld | hNew
        · exact .inl hOld
        · rw [List.mem_singleton.mp hNew]
          exact .inr hDeclared
    · refine hb.extend (i := 3) (by omega) ?_ (fun t ht => .inl ht) (fun s hs => .inl hs)
      simp [ClassBinding.parts, skip]

theorem accounts_of_foldlM {methods taken : List MethodDecl} (hb : b.Accounts taken)
    (h : methods.foldlM (g.take c) b = .ok next) :
    next.Accounts (taken ++ methods.filter (g.concerns c)) := by
  induction methods generalizing b taken with
  | nil =>
    cases h
    simpa using hb
  | cons m methods ih =>
    rw [List.foldlM_cons] at h
    obtain ⟨middle, hTake, hRest⟩ := bind_eq_ok_iff.mp h
    have hNext := ih (accounts_take hb hTake) hRest
    rwa [List.append_assoc, ← List.filter_append, List.singleton_append] at hNext

theorem accounts_of_generate (h : g.generate c = .ok b) :
    b.Accounts ((g.model.allMethods c).filter (g.concerns c)) := by
  have hStart : ClassBinding.Accounts
      { className := c.name, exposedName := g.options.exposedName c.name
        isInterface := c.isInterface } [] := by
    constructor
    · constructor
      · exact List.Perm.nil
      · simp [ClassBinding.parts]
    · exact fun t ht => nomatch ht
    · exact fun s hs => nomatch hs
  obtain ⟨made, hMade, rfl⟩ := generate_eq_ok_iff.mp h
  have hAccounts := accounts_of_foldlM hStart hMade
  exact ⟨hAccounts.shared, hAccounts.trampolines, hAccounts.slots⟩

theorem declared_of_generate (h : g.generate c = .ok b) (ht : t ∈ b.trampolines) :
    ∃ m ∈ g.model.allMethods c, t.Declared m := by
  obtain ⟨m, hm, hDeclared⟩ := (accounts_of_generate h).trampolines t ht
  exact ⟨m, List.mem_of_mem_filter hm, hDeclared⟩

/-- An interface has no trampolines, and no other class has slots. -/
theorem kinds_of_generate (h : g.generate c = .ok b) :
    if c.isInterface then b.constructors = [] ∧ b.methods = [] else b.overrides = [] := by
  apply generate_induct (fun b => if c.isInterface then b.constructors = [] ∧ b.methods = []
    else b.overrides = []) ?_ ?_ ?_ ?_ h
  · split
    · exact ⟨rfl, rfl⟩
    · rfl
  · intro b m part hb hMember
    obtain ⟨-, -, rfl⟩ | ⟨hInterface, -, s, -, rfl⟩ | ⟨hOther, t, -, rfl | rfl⟩ :=
      member_inversion hMember
    · exact hb
    · rwa [if_pos hInterface] at hb ⊢
    · rwa [if_neg (by simp [hOther])] at hb ⊢
    · rwa [if_neg (by simp [hOther])] at hb ⊢
  · exact fun b m obstacle hb => hb
  · exact fun b hb => hb

/-- What becomes of the methods of a class in its binding. -/
structure Conserves (g : Generator) (c : ClassDecl) (b : ClassBinding) : Prop where
  distinct : ((g.kept c).map (·.name)).Nodup
  ordinary : c.isInterface = false → b.overrides = [] ∧
    Shared ((g.kept c).map (·.name))
      [b.constructors.map (·.name), b.methods.map (·.name), b.skipped.map (·.name)]
  interface : c.isInterface = true → b.constructors = [] ∧ b.methods = [] ∧
    Shared ((g.hooks c).map (·.name)) [b.overrides.map (·.name), b.skipped.map (·.name)]
  trampolines : ∀ t ∈ b.constructors ++ b.methods, ∃ m ∈ g.kept c, t.Declared m
  slots : ∀ s ∈ b.overrides, ∃ m ∈ g.hooks c, s.Declared m

theorem conserves_of_generate (h : g.generate c = .ok b) : g.Conserves c b := by
  have hAccounts := accounts_of_generate h
  have hKinds := kinds_of_generate h
  have hDistinct : ((g.kept c).map (·.name)).Nodup :=
    (g.model.methodNames_nodup c).sublist (List.filter_sublist.map _)
  rw [filter_concerns] at hAccounts
  cases hInterface : c.isInterface with
  | true =>
    rw [hInterface, if_pos rfl] at hAccounts hKinds
    obtain ⟨hConstructors, hMethods⟩ := hKinds
    have hShared := hAccounts.shared
    rw [ClassBinding.parts, hConstructors, hMethods] at hShared
    refine ⟨hDistinct, fun hOther => ?_, fun _ => ⟨hConstructors, hMethods, ?_⟩, ?_,
      hAccounts.slots⟩
    · cases hInterface.symm.trans hOther
    · exact (hShared.dropNil []).dropNil []
    · simp [hConstructors, hMethods]
  | false =>
    rw [hInterface, if_neg Bool.false_ne_true] at hAccounts hKinds
    have hShared := hAccounts.shared
    rw [ClassBinding.parts, hKinds] at hShared
    refine ⟨hDistinct, fun _ => ⟨hKinds, ?_⟩, fun hOther => ?_, hAccounts.trampolines, ?_⟩
    · exact hShared.dropNil [_, _]
    · cases hInterface.symm.trans hOther
    · simp [hKinds]

def sampleListener : ClassDecl where
  name := "Listener"
  isInterface := true
  methods :=
    [{ name := "OnQuote", params := [⟨"price", .scalar .f64, some "0"⟩], isVirtual := true },
      { name := "OnRaw", params := [⟨"data", .unsupported "void *", none⟩], isVirtual := true },
      { name := "OnLog", isVirtual := true },
      { name := "OnLast", isVirtual := true, isFinal := true }]

def sampleShop : ClassDecl where
  name := "Shop"
  base := some "Place"
  methods :=
    [{ name := "Make", returnType := .object "Shop", isStatic := true },
      { name := "Copy", returnType := .object "Shop" },
      { name := "Order", params := [⟨"count", .scalar .i32, some "1"⟩] }]

def sampleShops : Model where
  library := { name := "shops" }
  classes :=
    [sampleListener, { name := "Place", methods := [{ name := "Close" }, { name := "Old" }] },
      sampleShop]

def sampleShopsOptions : GeneratorOptions :=
  { ignoreNames := ["Shop::Old"], noCallbackNames := ["Listener::OnLog"], ignoreUnsupported := true }

theorem conserves_of_generate_sample :
    ∃ g, Generator.new sampleShops sampleShopsOptions = .ok g ∧
      (∃ b, g.generate sampleListener = .ok b ∧ g.Conserves sampleListener b ∧
        (g.hooks sampleListener).map (·.name) = ["OnQuote", "OnRaw"] ∧
        b.parts = [[], [], ["OnQuote"], ["OnRaw"]]) ∧
      ∃ b, g.generate sampleShop = .ok b ∧ g.Conserves sampleShop b ∧
        (g.kept sampleShop).map (·.name) = ["Close", "Make", "Copy", "Order"] ∧
        b.parts = [["Make"], ["Close", "Order"], [], ["Copy"]] := by
  refine ⟨_, rfl, ⟨_, rfl, conserves_of_generate rfl, ?_, ?_⟩,
    ⟨_, rfl, conserves_of_generate rfl, ?_, ?_⟩⟩
  all_goals decide

end Generator

end NativeBinding
