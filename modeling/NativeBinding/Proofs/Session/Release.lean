import NativeBinding.Proofs.Session.Registration

/-! # Releasing an instance

An instance is released once. From the moment its release is entered no other entry of it is
reached, and callbacks through any bridge it was ever given are answered by default without running
a handler, also those that the library makes while it releases the instance.
-/

set_option autoImplicit false

namespace NativeBinding.Session

variable {σ : Type} {host : Host σ} {s s' : State σ}

/-- What may happen after an event: once an instance is released, none of its entries is reached and
no handler begins through a bridge of it. -/
def MayFollow (r : Registry) (earlier later : Event) : Prop :=
  ∀ api, earlier = .entered (.release api) → later.enters? ≠ some api ∧
    ∀ bridge, later.begins? = some bridge → r.owner? bridge ≠ some api

/-- The log agrees with the objects: an instance is released when its release was entered, and
nothing of it follows. -/
structure Orderly (s : State σ) : Prop where
  released : ∀ api, .entered (.release api) ∈ s.log ↔ s.objects.Released api
  begun : ∀ event ∈ s.log, ∀ bridge, event.begins? = some bridge →
    ∃ api, s.objects.owner? bridge = some api
  order : s.log.Pairwise (MayFollow s.objects)

namespace Orderly

theorem start (native : σ) : Orderly { native : State σ } where
  released api := by simp [Registry.Released]
  begun := by simp
  order := .nil

theorem aside (h : Orderly s) (hObjects : s'.objects = s.objects) (hLog : s'.log = s.log) :
    Orderly s' := by
  obtain ⟨hReleased, hBegun, hOrder⟩ := h
  refine ⟨?_, ?_, ?_⟩ <;> rw [hLog, hObjects] <;> assumption

theorem mayFollow (h : Orderly s) {r : Registry}
    (hOwner : ∀ bridge api, s.objects.owner? bridge = some api → r.owner? bridge = some api) :
    s.log.Pairwise (MayFollow r) := by
  refine h.order.imp_of_mem fun _ hLater hFollow api hRelease => ?_
  obtain ⟨hEnters, hBegins⟩ := hFollow api hRelease
  refine ⟨hEnters, fun bridge hBridge hSame => ?_⟩
  obtain ⟨owner, hOld⟩ := h.begun _ hLater bridge hBridge
  cases (hOwner _ _ hOld).symm.trans hSame
  exact hBegins bridge hBridge hOld

theorem withObjects (h : Orderly s) {r : Registry}
    (hOwner : ∀ bridge api, s.objects.owner? bridge = some api → r.owner? bridge = some api)
    (hReleased : ∀ api, r.Released api ↔ s.objects.Released api) : Orderly (s.withObjects r) where
  released api := (h.released api).trans (hReleased api).symm
  begun event hEvent bridge hBridge := (h.begun event hEvent bridge hBridge).imp (hOwner bridge)
  order := h.mayFollow hOwner

theorem logged (h : Orderly s) {event : Event} (hOther : ∀ api, event ≠ .entered (.release api))
    (hEnters : ∀ api, event.enters? = some api → ¬ s.objects.Released api)
    (hBegins : ∀ bridge, event.begins? = some bridge →
      ∃ api, s.objects.owner? bridge = some api ∧ ¬ s.objects.Released api) :
    Orderly (s.logged event) where
  released api := by
    refine Iff.trans ?_ (h.released api)
    simp only [State.logged, List.mem_append, List.mem_singleton, (hOther api).symm, or_false]
  begun := by
    intro event' hEvent bridge hBridge
    rcases List.mem_append.mp hEvent with hOld | hNew
    · exact h.begun event' hOld bridge hBridge
    · rw [List.mem_singleton.mp hNew] at hBridge
      exact (hBegins bridge hBridge).imp fun _ hOwner => hOwner.1
  order := by
    refine List.pairwise_append.mpr ⟨h.order, List.pairwise_singleton _ _, ?_⟩
    rintro earlier hEarlier later hLater api rfl
    rw [List.mem_singleton.mp hLater]
    have hReleased := (h.released api).mp hEarlier
    refine ⟨fun hSame => hEnters api hSame hReleased, fun bridge hBridge hOwner => ?_⟩
    obtain ⟨owner, hOwner', hLive⟩ := hBegins bridge hBridge
    cases hOwner.symm.trans hOwner'
    exact hLive hReleased

theorem register (h : Orderly s) {api spi : Nat} {p : Spi} (hLive : ¬ s.objects.Released api)
    (handler : Handler) (accepted : Bool) (native : σ) :
    Orderly (s.registered api spi p handler accepted native) := by
  have hLogged : Orderly (s.logged (.entered (.register api))) := by
    refine h.logged (by simp) (fun other hOther => ?_) (by simp [Event.begins?])
    cases hOther
    exact hLive
  cases accepted with
  | true =>
    have hObjects : Orderly ((s.logged (.entered (.register api))).withObjects
        ((s.objects.openBridge api spi p handler).2.accept api spi s.objects.bridges.length)) := by
      refine hLogged.withObjects (fun bridge owner hOwner => ?_) fun _ =>
        Registry.released_accept_iff
      rw [Registry.owner?_accept]
      exact Registry.owner?_openBridge p handler hOwner
    exact hObjects.aside rfl rfl
  | false =>
    have hObjects : Orderly ((s.logged (.entered (.register api))).withObjects
        ((s.objects.openBridge api spi p handler).2.retire s.objects.bridges.length)) := by
      refine hLogged.withObjects (fun bridge owner hOwner => ?_) fun _ => .rfl
      refine (Registry.owner?_retireAny _ (some _) bridge).trans ?_
      exact Registry.owner?_openBridge p handler hOwner
    exact hObjects.aside rfl rfl

theorem release (h : Orderly s) {api : Nat} {a : Api} (hApi : s.objects.apis[api]? = some a)
    (hLive : ¬ s.objects.Released api) :
    Orderly ((s.withObjects (s.objects.close api)).logged (.entered (.release api))) where
  released other := by
    refine Iff.trans ?_ (Registry.released_close_iff hApi).symm
    rw [← h.released other]
    simp only [State.logged, State.withObjects, List.mem_append, List.mem_singleton,
      Event.entered.injEq, Entry.release.injEq]
    rw [or_comm, eq_comm]
  begun := by
    intro event hEvent bridge hBridge
    rcases List.mem_append.mp hEvent with hOld | hNew
    · refine (h.begun event hOld bridge hBridge).imp fun owner hOwner => ?_
      exact (Registry.owner?_close s.objects api bridge).trans hOwner
    · rw [List.mem_singleton.mp hNew] at hBridge
      cases hBridge
  order := by
    have hOld : s.log.Pairwise (MayFollow (s.objects.close api)) :=
      h.mayFollow fun bridge owner hOwner =>
        (Registry.owner?_close s.objects api bridge).trans hOwner
    refine List.pairwise_append.mpr ⟨hOld, List.pairwise_singleton _ _, ?_⟩
    rintro earlier hEarlier later hLater other rfl
    rw [List.mem_singleton.mp hLater]
    refine ⟨fun hSame => ?_, nofun⟩
    cases hSame
    exact hLive ((h.released api).mp hEarlier)

end Orderly

theorem Move.orderly (hMove : Move s s') (hConsistent : s.objects.Consistent) (h : Orderly s) :
    Orderly s' := by
  have hNot : ∀ {api a}, s.objects.apis[api]? = some a → a.released = false →
      ¬ s.objects.Released api := by
    rintro api a hApi hLive ⟨a', hApi', hReleased⟩
    cases hApi.symm.trans hApi'
    rw [hLive] at hReleased
    cases hReleased
  cases hMove with
  | aside hObjects hLog => exact h.aside hObjects hLog
  | event hEnters hBegins =>
    refine h.logged ?_ (fun api hSame => ?_) fun bridge hSame => ?_
    · rintro api rfl
      cases hEnters
    · rw [hEnters] at hSame
      cases hSame
    · rw [hBegins] at hSame
      cases hSame
  | addApi binding => exact h.withObjects (fun _ _ => id) fun _ => Registry.released_addApi_iff
  | addSpi binding handler => exact h.withObjects (fun _ _ => id) fun _ => .rfl
  | addHandler handler => exact h.withObjects (fun _ _ => id) fun _ => .rfl
  | letGo handler => exact h.withObjects (fun _ _ => id) fun _ => .rfl
  | register handler accepted native hApi hLive hSpi =>
    exact h.register (hNot hApi hLive) handler accepted native
  | enter hEntry hOther hApi hLive =>
    refine h.logged (fun other hSame => ?_) (fun other hSame => ?_) nofun
    · rw [Event.entered.inj hSame] at hEntry hOther
      exact hOther (congrArg Entry.release (Option.some.inj hEntry))
    · rw [← Option.some.inj (hEntry.symm.trans hSame)]
      exact hNot hApi hLive
  | release hApi hLive => exact h.release hApi (hNot hApi hLive)
  | begin hook hBridge =>
    refine h.logged nofun nofun fun bridge hSame => ?_
    cases hSame
    obtain ⟨a, hApi, -, hLive⟩ := hConsistent.current hBridge
    exact ⟨_, by rw [Registry.owner?, hBridge.1]; rfl, hNot hApi hLive⟩

theorem Reachable.orderly (h : Reachable host s) : Orderly s := by
  -- A handler begins through a live bridge, and only a consistent registry tells that the instance
  -- of a live bridge is not released.
  have hBoth := h.induct (fun s => s.objects.Consistent ∧ Orderly s)
    (fun native => ⟨.empty, .start native⟩)
    fun hMove hBefore => ⟨hMove.consistent hBefore.1, hMove.orderly hBefore.1 hBefore.2⟩
  exact hBoth.2

/-! Callbacks through a retired bridge. -/

section Retired

variable {m : Marshaler} {bridge : Nat} {b : Bridge} {hook : String} {slot : OverrideSlot}

theorem dispatchWith_of_released
    {onAdmitted : Nat → Bridge → String → Admitted → SessionM σ (Except BridgeError NativeArg)}
    (hBridge : s.objects.bridges[bridge]? = some b) (hReleased : b.released = true)
    (hSlot : b.binding.slot? hook = some slot) (args : List NativeArg) :
    (dispatchWith (fun bridge b hook args =>
      tryDispatchWith m b hook args (onAdmitted bridge b hook)) bridge hook args).run s =
        (Marshaler.defaultNative slot.returnType, s) := by
  have hAdmission := admission_of_released (m := m) hReleased hSlot s.inside args
  rw [run_dispatchWith hBridge (run_tryDispatchWith_error hAdmission), settle_released hSlot]
  rfl

theorem Host.overlap_of_released {api : Nat} (hSink : host.library.sink? s.native api = some bridge)
    (hBridge : s.objects.bridges[bridge]? = some b) (hReleased : b.released = true)
    (hSlot : b.binding.slot? hook = some slot) (args : List NativeArg) (releases : Bool) :
    let held := (during .host none (do
      print "holding"
      host.letIn api releases)).run s
    (host.overlap api hook args releases).run s =
      (some (held.1, Marshaler.defaultNative slot.returnType), held.2) := by
  intro held
  rw [overlap, StateT.run_bind, StateT.run_get]
  simp only [pure_bind, hSink, hBridge, Option.bind_some, Option.map_some,
    admission_of_released hReleased hSlot, settle_released hSlot]
  rfl

end Retired

/-- Callbacks through any bridge that an instance was ever given, for any hook of its interface, get
the default of the hook's return type and change nothing: no handler runs and no fault is recorded.
A callback that arrives while the host is inside leaves what the host does as it is. -/
structure Silent (host : Host σ) (s : State σ) (api : Nat) : Prop where
  dispatch : ∀ {bridge b hook slot}, s.objects.bridges[bridge]? = some b → b.api = api →
    b.binding.slot? hook = some slot → ∀ args,
      (host.dispatch bridge hook args).run s = (Marshaler.defaultNative slot.returnType, s)
  inside : ∀ {bridge b hook slot}, s.objects.bridges[bridge]? = some b → b.api = api →
    b.binding.slot? hook = some slot → ∀ args,
      (dispatchInside host.loaded.marshaler bridge hook args).run s =
        (Marshaler.defaultNative slot.returnType, s)
  overlap : ∀ {caller bridge b hook slot}, host.library.sink? s.native caller = some bridge →
    s.objects.bridges[bridge]? = some b → b.api = api →
    b.binding.slot? hook = some slot → ∀ args releases,
      let held := (during .host none (do
        print "holding"
        host.letIn caller releases)).run s
      (host.overlap caller hook args releases).run s =
        (some (held.1, Marshaler.defaultNative slot.returnType), held.2)

theorem Registry.Consistent.retired (h : s.objects.Consistent) {api bridge : Nat} {b : Bridge}
    (hReleased : s.objects.Released api) (hBridge : s.objects.bridges[bridge]? = some b)
    (hApi : b.api = api) : b.released = true := by
  have hOwner : s.objects.owner? bridge = some api := by
    rw [owner?, hBridge]
    exact congrArg some hApi
  exact Bool.not_eq_false _ ▸ fun hLive => h.not_live hReleased hOwner b ⟨hBridge, hLive⟩

theorem silent_of_released (h : s.objects.Consistent) {api : Nat}
    (hReleased : s.objects.Released api) : Silent host s api where
  dispatch hBridge hApi hSlot args :=
    dispatchWith_of_released hBridge (h.retired hReleased hBridge hApi) hSlot args
  inside hBridge hApi hSlot args :=
    dispatchWith_of_released hBridge (h.retired hReleased hBridge hApi) hSlot args
  overlap hSink hBridge hApi hSlot args releases :=
    Host.overlap_of_released hSink hBridge (h.retired hReleased hBridge hApi) hSlot args releases

theorem Move.log_prefix (hMove : Move s s') : s.log <+: s'.log := by
  cases hMove with
  | aside hObjects hLog => exact hLog ▸ List.prefix_refl _
  | register | event | enter | release | begin => exact List.prefix_append _ _
  | addApi | addSpi | addHandler | letGo => exact List.prefix_refl _

theorem Moves.log_prefix (hMoves : Moves s s') : s.log <+: s'.log := by
  induction hMoves with
  | refl => exact List.prefix_refl _
  | tail _ hMove ih => exact ih.trans hMove.log_prefix

theorem Reachable.moves_right (h : Reachable host s) (hMoves : Moves s s') : Reachable host s' := by
  induction hMoves with
  | refl => exact h
  | tail _ hMove ih => exact ih.move hMove

/-- The release of an instance is its last entry. -/
structure Final (host : Host σ) (s : State σ) (api : Nat) : Prop where
  once : s.log.count (.entered (.release api)) ≤ 1
  /-- Once the release is entered, no entry of the instance is, and no handler begins through a
  bridge of it. -/
  last : ∀ before after, s.log = before ++ .entered (.release api) :: after → ∀ event ∈ after,
    event.enters? ≠ some api ∧
      ∀ bridge, event.begins? = some bridge → s.objects.owner? bridge ≠ some api
  silent : .entered (.release api) ∈ s.log → ∀ s', Moves s s' → Silent host s' api
  /-- Callbacks are silent while the library works, on the release itself or on anything later. -/
  working : .entered (.release api) ∈ s.log → ∀ dispatch,
    dispatch = host.dispatch ∨ dispatch = dispatchInside host.loaded.marshaler →
      ∀ other (work : NativeRun σ), ∀ s' ∈ work.moments dispatch other s, Silent host s' api

theorem Orderly.count_release_le (h : Orderly s) (api : Nat) :
    s.log.count (.entered (.release api)) ≤ 1 := by
  refine Nat.not_lt.mp fun hMore => ?_
  have hTwice : List.Sublist [.entered (.release api), .entered (.release api)] s.log :=
    List.replicate_sublist_iff.mpr hMore
  have hFollow : MayFollow s.objects (.entered (.release api)) (.entered (.release api)) :=
    List.rel_of_pairwise_cons (h.order.sublist hTwice) (List.mem_singleton_self _)
  exact (hFollow api rfl).1 rfl

theorem Orderly.follow_release (h : Orderly s) {api : Nat} {before after : List Event}
    (hLog : s.log = before ++ .entered (.release api) :: after) {event : Event}
    (hEvent : event ∈ after) : MayFollow s.objects (.entered (.release api)) event := by
  have hOrder := h.order
  rw [hLog, List.pairwise_append] at hOrder
  exact List.rel_of_pairwise_cons hOrder.2.1 hEvent

theorem Reachable.silent (h : Reachable host s) {api : Nat}
    (hRelease : .entered (.release api) ∈ s.log) : Silent host s api :=
  silent_of_released h.consistent ((h.orderly.released api).mp hRelease)

/-- In every reachable state the release of an instance is entered at most once, and everything
after it leaves the instance and its handlers alone. -/
theorem release_final (h : Reachable host s) (api : Nat) : Final host s api where
  once := h.orderly.count_release_le api
  last _ _ hLog _ hEvent := h.orderly.follow_release hLog hEvent api rfl
  silent hRelease _ hMoves :=
    (h.moves_right hMoves).silent (hMoves.log_prefix.subset hRelease)
  working hRelease dispatch hDispatch other work s' hMoment := by
    have hMoves : Moves s s' := by
      refine moves_moments ?_ other work s s' hMoment
      rcases hDispatch with rfl | rfl
      · exact Host.steady_dispatch
      · exact steady_dispatchInside
    exact (h.moves_right hMoves).silent (hMoves.log_prefix.subset hRelease)

def sampleReleased : State Rehearsal :=
  (((Operation.release 0).perform sampleHost).run sampleRegistered).2

theorem release_final_sample : sampleReleased.log.drop 2 =
      [.entered (.release 0), .calledBack 0 "OnEvent" [] (some (.scalar (.i32 0)))] ∧
    Final sampleHost sampleReleased 0 ∧
    (sampleHost.dispatch 0 "OnEvent" []).run sampleReleased =
      (.scalar (.i32 0), sampleReleased) := by
  have hReachable : Reachable sampleHost sampleReleased := sampleRegistered_reachable.operate _
  have hFinal : Final sampleHost sampleReleased 0 := release_final hReachable 0
  have hRelease : .entered (.release 0) ∈ sampleReleased.log := by decide
  have hSilent : Silent sampleHost sampleReleased 0 := hFinal.silent hRelease _ .refl
  obtain ⟨b, hBridge, hApi, hSlot⟩ : ∃ b, sampleReleased.objects.bridges[0]? = some b ∧ b.api = 0 ∧
      b.binding.slot? "OnEvent" = some ⟨"OnEvent", [], .scalar .i32, .direct .i32, false⟩ :=
    ⟨_, rfl, rfl, rfl⟩
  exact ⟨rfl, hFinal, hSilent.dispatch hBridge hApi hSlot []⟩

end NativeBinding.Session
