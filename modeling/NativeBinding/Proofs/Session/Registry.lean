import NativeBinding.Session.Registry

/-! # Consistent registrations

A bridge that is live is the active one of its Spi object and the current one of its instance, which
is not released. Every change of the registry keeps this; a registration may retire two bridges.
-/

set_option autoImplicit false

namespace NativeBinding.Session

theorem getElem?_modify_eq_some {α : Type} {f : α → α} {xs : List α} {i j : Nat} {y : α} :
    (xs.modify i f)[j]? = some y ↔ ∃ x, xs[j]? = some x ∧ y = if i = j then f x else x := by
  rw [List.getElem?_modify, Option.map_eq_map, Option.map_eq_some_iff]
  simp only [eq_comm (a := y)]

theorem getElem?_append_of_eq_some {α : Type} {xs ys : List α} {i : Nat} {x : α}
    (h : xs[i]? = some x) : (xs ++ ys)[i]? = some x := by
  rw [List.getElem?_append_left (List.getElem?_eq_some_iff.mp h).1, h]

namespace Registry

variable {r : Registry} {bridge : Nat} {b : Bridge}

/-- A bridge of the registry that is not retired. -/
def Live (r : Registry) (bridge : Nat) (b : Bridge) : Prop :=
  r.bridges[bridge]? = some b ∧ b.released = false

/-- Live bridges are the ones that Spi objects and instances name. -/
structure Consistent (r : Registry) : Prop where
  active : ∀ {bridge b}, r.Live bridge b → ∃ s, r.spis[b.spi]? = some s ∧ s.active = some bridge
  current : ∀ {bridge b}, r.Live bridge b →
    ∃ a, r.apis[b.api]? = some a ∧ a.bridge = some bridge ∧ a.released = false

/-- The instance that a bridge was handed to. -/
def owner? (r : Registry) (bridge : Nat) : Option Nat :=
  (r.bridges[bridge]?).map (·.api)

def Released (r : Registry) (api : Nat) : Prop :=
  ∃ a, r.apis[api]? = some a ∧ a.released = true

theorem Consistent.not_live (h : r.Consistent) {api : Nat} (hReleased : r.Released api)
    (hOwner : r.owner? bridge = some api) : ∀ b, ¬ r.Live bridge b := by
  intro b hLive
  obtain ⟨a, hGet, hTrue⟩ := hReleased
  obtain ⟨a', hGet', -, hFalse⟩ := h.current hLive
  obtain ⟨b', hb', rfl⟩ := Option.map_eq_some_iff.mp hOwner
  cases hLive.1.symm.trans hb'
  cases hGet.symm.trans hGet'
  rw [hTrue] at hFalse
  cases hFalse

theorem Consistent.eq_of_spi (h : r.Consistent) {other : Nat} {b' : Bridge}
    (hLive : r.Live bridge b) (hLive' : r.Live other b') (hSame : b.spi = b'.spi) :
    bridge = other := by
  obtain ⟨s, hGet, hActive⟩ := h.active hLive
  obtain ⟨s', hGet', hActive'⟩ := h.active hLive'
  rw [hSame] at hGet
  cases hGet.symm.trans hGet'
  exact Option.some.inj (hActive.symm.trans hActive')

theorem Consistent.eq_of_api (h : r.Consistent) {other : Nat} {b' : Bridge}
    (hLive : r.Live bridge b) (hLive' : r.Live other b') (hSame : b.api = b'.api) :
    bridge = other := by
  obtain ⟨a, hGet, hCurrent, -⟩ := h.current hLive
  obtain ⟨a', hGet', hCurrent', -⟩ := h.current hLive'
  rw [hSame] at hGet
  cases hGet.symm.trans hGet'
  exact Option.some.inj (hCurrent.symm.trans hCurrent')

theorem isLive_iff : r.isLive bridge = true ↔ ∃ b, r.Live bridge b := by
  unfold isLive Live
  cases r.bridges[bridge]? <;> simp

theorem Consistent.empty : Consistent {} where
  active hLive := nomatch hLive.1
  current hLive := nomatch hLive.1

section Retire

variable {retired : Option Nat}

@[simp] theorem spis_retireAny : (r.retireAny retired).spis = r.spis := by
  cases retired <;> rfl

@[simp] theorem apis_retireAny : (r.retireAny retired).apis = r.apis := by
  cases retired <;> rfl

theorem Live.of_retireAny (h : (r.retireAny retired).Live bridge b) :
    r.Live bridge b ∧ retired ≠ some bridge := by
  cases retired with
  | none => exact ⟨h, nofun⟩
  | some retired =>
    obtain ⟨hGet, hLive⟩ := h
    obtain ⟨old, hOld, rfl⟩ := getElem?_modify_eq_some.mp hGet
    split at hLive
    · cases hLive
    · rename_i hOther
      rw [if_neg hOther]
      exact ⟨⟨hOld, hLive⟩, fun hSame => hOther (Option.some.inj hSame)⟩

end Retire

section Add

theorem Consistent.addApi (h : r.Consistent) (binding : ClassBinding) :
    (r.addApi binding).2.Consistent where
  active hLive := h.active hLive
  current hLive := by
    obtain ⟨a, hGet, hCurrent⟩ := h.current hLive
    exact ⟨a, getElem?_append_of_eq_some hGet, hCurrent⟩

theorem Consistent.addSpi (h : r.Consistent) (binding : ClassBinding) (handler : Nat) :
    (r.addSpi binding handler).2.Consistent where
  active hLive := by
    obtain ⟨s, hGet, hActive⟩ := h.active hLive
    exact ⟨s, getElem?_append_of_eq_some hGet, hActive⟩
  current hLive := h.current hLive

theorem Consistent.addHandler (h : r.Consistent) (handler : Handler) :
    (r.addHandler handler).2.Consistent :=
  ⟨h.active, h.current⟩

theorem Consistent.letGo (h : r.Consistent) (handler : Nat) : (r.letGo handler).Consistent :=
  ⟨h.active, h.current⟩

end Add

theorem Consistent.close (h : r.Consistent) (api : Nat) : (r.close api).Consistent where
  active hLive := by
    obtain ⟨hLive, -⟩ := hLive.of_retireAny
    rw [Registry.close, spis_retireAny]
    exact h.active hLive
  current hLive := by
    obtain ⟨hLive, hOther⟩ := hLive.of_retireAny
    obtain ⟨a, hGet, hCurrent, hReleased⟩ := h.current hLive
    rw [Registry.close, apis_retireAny]
    refine ⟨a, getElem?_modify_eq_some.mpr ⟨a, hGet, ?_⟩, hCurrent, hReleased⟩
    rw [if_neg]
    rintro rfl
    exact hOther (by rw [hGet]; exact hCurrent)

section Register

variable {api spi : Nat} {a : Api} {p : Spi}

theorem Live.of_openBridge {handler : Handler}
    (h : (r.openBridge api spi p handler).2.Live bridge b) :
    r.Live bridge b ∨ bridge = r.bridges.length ∧ b.api = api ∧ b.spi = spi := by
  obtain ⟨hGet, hLive⟩ := h
  change (r.bridges ++ [_])[bridge]? = some b at hGet
  rcases Nat.lt_trichotomy bridge r.bridges.length with hLt | hEq | hGt
  · rw [List.getElem?_append_left hLt] at hGet
    exact Or.inl ⟨hGet, hLive⟩
  · subst hEq
    rw [List.getElem?_concat_length] at hGet
    cases hGet
    exact Or.inr ⟨rfl, rfl, rfl⟩
  · rw [List.getElem?_eq_none (by rw [List.length_append, List.length_singleton]; omega)] at hGet
    cases hGet

theorem Consistent.refused (h : r.Consistent) (handler : Handler) :
    ((r.openBridge api spi p handler).2.retire (r.openBridge api spi p handler).1).Consistent := by
  have hOld : ∀ {bridge b},
      ((r.openBridge api spi p handler).2.retire (r.openBridge api spi p handler).1).Live bridge b →
        r.Live bridge b := by
    intro bridge b hLive
    obtain ⟨hLive, hOther⟩ := @Live.of_retireAny _ _ _ (some _) hLive
    rcases hLive.of_openBridge with hOld | ⟨hNew, -, -⟩
    · exact hOld
    · exact absurd (congrArg some hNew.symm) hOther
  exact ⟨fun hLive => h.active (hOld hLive), fun hLive => h.current (hOld hLive)⟩

theorem spis_accept (r : Registry) (api spi bridge : Nat) :
    (r.accept api spi bridge).spis =
      r.spis.modify spi fun s => { s with active := some bridge } := by
  simp only [accept, spis_retireAny]

theorem apis_accept (r : Registry) (api spi bridge : Nat) :
    (r.accept api spi bridge).apis =
      r.apis.modify api fun a => { a with bridge := some bridge } := by
  simp only [accept, apis_retireAny]

theorem Live.of_accept {api spi accepted : Nat} (h : (r.accept api spi accepted).Live bridge b) :
    r.Live bridge b ∧ (r.spis[spi]?).bind (·.active) ≠ some bridge ∧
      (r.apis[api]?).bind (·.bridge) ≠ some bridge := by
  obtain ⟨hLive, hApi⟩ := h.of_retireAny
  rw [apis_retireAny] at hApi
  obtain ⟨hLive, hSpi⟩ := Live.of_retireAny (r := { r with spis := _ }) hLive
  exact ⟨hLive, hSpi, hApi⟩

theorem Consistent.accepted (h : r.Consistent) (hApi : r.apis[api]? = some a)
    (hReleased : a.released = false) (hSpi : r.spis[spi]? = some p) (handler : Handler) :
    ((r.openBridge api spi p handler).2.accept api spi
      (r.openBridge api spi p handler).1).Consistent where
  active hLive := by
    obtain ⟨hLive, hOther, -⟩ := hLive.of_accept
    rw [spis_accept]
    rcases hLive.of_openBridge with hOld | ⟨rfl, -, hSame⟩
    · obtain ⟨s, hGet, hActive⟩ := h.active hOld
      refine ⟨s, getElem?_modify_eq_some.mpr ⟨s, hGet, ?_⟩, hActive⟩
      rw [if_neg]
      rintro rfl
      exact hOther (by change (r.spis[_]?).bind _ = _; rw [hGet]; exact hActive)
    · refine ⟨{ p with active := some _ }, getElem?_modify_eq_some.mpr ⟨p, hSame ▸ hSpi, ?_⟩, rfl⟩
      rw [if_pos hSame.symm]
      rfl
  current hLive := by
    obtain ⟨hLive, -, hOther⟩ := hLive.of_accept
    rw [apis_accept]
    rcases hLive.of_openBridge with hOld | ⟨rfl, hSame, -⟩
    · obtain ⟨a', hGet, hCurrent, hLive'⟩ := h.current hOld
      refine ⟨a', getElem?_modify_eq_some.mpr ⟨a', hGet, ?_⟩, hCurrent, hLive'⟩
      rw [if_neg]
      rintro rfl
      exact hOther (by change (r.apis[_]?).bind _ = _; rw [hGet]; exact hCurrent)
    · refine ⟨{ a with bridge := some _ }, getElem?_modify_eq_some.mpr ⟨a, hSame ▸ hApi, ?_⟩, rfl,
        hReleased⟩
      rw [if_pos hSame.symm]
      rfl

end Register

section Keep

theorem owner?_retireAny (r : Registry) (retired : Option Nat) (bridge : Nat) :
    (r.retireAny retired).owner? bridge = r.owner? bridge := by
  cases retired with
  | none => rfl
  | some retired =>
    change ((r.bridges.modify _ _)[bridge]?).map _ = _
    rw [List.getElem?_modify, Option.map_eq_map, Option.map_map]
    refine congrArg (fun f => (r.bridges[bridge]?).map f) (funext fun b => ?_)
    simp only [Function.comp_apply]
    split <;> rfl

theorem owner?_openBridge {r : Registry} {bridge owner api spi : Nat} (p : Spi) (handler : Handler)
    (h : r.owner? bridge = some owner) :
    (r.openBridge api spi p handler).2.owner? bridge = some owner := by
  obtain ⟨b, hGet, rfl⟩ := Option.map_eq_some_iff.mp h
  exact Option.map_eq_some_iff.mpr ⟨b, getElem?_append_of_eq_some hGet, rfl⟩

theorem owner?_accept (r : Registry) (api spi accepted bridge : Nat) :
    (r.accept api spi accepted).owner? bridge = r.owner? bridge := by
  rw [accept, owner?_retireAny]
  exact owner?_retireAny _ _ _

theorem owner?_close (r : Registry) (api bridge : Nat) :
    (r.close api).owner? bridge = r.owner? bridge :=
  owner?_retireAny _ _ _

theorem released_addApi_iff {r : Registry} {binding : ClassBinding} {api : Nat} :
    (r.addApi binding).2.Released api ↔ r.Released api := by
  constructor
  · rintro ⟨a, hGet, hReleased⟩
    change (r.apis ++ [_])[api]? = some a at hGet
    rw [List.getElem?_append] at hGet
    split at hGet
    · exact ⟨a, hGet, hReleased⟩
    · rw [List.mem_singleton.mp (List.mem_of_getElem? hGet)] at hReleased
      cases hReleased
  · rintro ⟨a, hGet, hReleased⟩
    exact ⟨a, getElem?_append_of_eq_some hGet, hReleased⟩

theorem released_accept_iff {r : Registry} {api spi accepted other : Nat} :
    (r.accept api spi accepted).Released other ↔ r.Released other := by
  rw [Released, apis_accept]
  constructor
  · rintro ⟨_, hGet, hReleased⟩
    obtain ⟨a, hOld, rfl⟩ := getElem?_modify_eq_some.mp hGet
    refine ⟨a, hOld, ?_⟩
    split at hReleased <;> exact hReleased
  · rintro ⟨a, hGet, hReleased⟩
    refine ⟨_, getElem?_modify_eq_some.mpr ⟨a, hGet, rfl⟩, ?_⟩
    split <;> exact hReleased

theorem released_close_iff {r : Registry} {api other : Nat} {a : Api}
    (hApi : r.apis[api]? = some a) :
    (r.close api).Released other ↔ api = other ∨ r.Released other := by
  rw [Released, close, apis_retireAny]
  constructor
  · rintro ⟨_, hGet, hReleased⟩
    obtain ⟨a', hOld, rfl⟩ := getElem?_modify_eq_some.mp hGet
    split at hReleased
    · exact Or.inl ‹_›
    · exact Or.inr ⟨a', hOld, hReleased⟩
  · rintro (rfl | ⟨a', hGet, hReleased⟩)
    · exact ⟨_, getElem?_modify_eq_some.mpr ⟨a, hApi, rfl⟩, by rw [if_pos rfl]⟩
    · refine ⟨_, getElem?_modify_eq_some.mpr ⟨a', hGet, rfl⟩, ?_⟩
      split
      · rfl
      · exact hReleased

end Keep

end Registry

end NativeBinding.Session
