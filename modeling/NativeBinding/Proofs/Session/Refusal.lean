import NativeBinding.Proofs.Session.Registration

/-! # Registrations that fail

What was registered before a registration that fails is as it was. A check that fails changes
nothing at all, and a bridge that the library refuses is retired before anything names it.
-/

set_option autoImplicit false

namespace NativeBinding.Session

variable {σ : Type} {host : Host σ} {s s' : State σ} {api spi : Nat} {e : CallError}

/-- What a registration that failed has left as it was. -/
structure Refused (api : Nat) (e : CallError) (s s' : State σ) : Prop where
  kept : ∀ {bridge : Nat} {b : Bridge}, s.objects.bridges[bridge]? = some b →
    s'.objects.bridges[bridge]? = some b
  /-- Whatever bridge there is now and was not before is released. -/
  opened : ∀ {bridge : Nat} {b : Bridge}, s.objects.bridges[bridge]? = none →
    s'.objects.bridges[bridge]? = some b → b.released = true
  live : ∀ {bridge : Nat} {b : Bridge}, s'.objects.Live bridge b ↔ s.objects.Live bridge b
  apis : s'.objects.apis = s.objects.apis
  spis : s'.objects.spis = s.objects.spis
  active : ∀ spi, s'.objects.activeBridge? spi = s.objects.activeBridge? spi
  handlers : s'.objects.handlers = s.objects.handlers
  /-- Unless the library itself refused, it was not entered, and nothing has changed. -/
  unchanged : (∀ method code fault, e ≠ .nativeCall method code fault) → s' = s
  /-- The library was entered once, to refuse. -/
  entered : ∀ {method code fault}, e = .nativeCall method code fault →
    s'.log = s.log ++ [.entered (.register api)]

theorem Host.Refuses.not_fault (h : Host.Refuses s api spi e) (method : String)
    (code : Option Int32) (fault : String) : e ≠ .nativeCall method code fault := by
  rintro rfl
  cases h

theorem Refused.refl (h : Host.Refuses s api spi e) : Refused api e s s where
  kept := id
  opened hNone hSome := by
    rw [hNone] at hSome
    cases hSome
  live := .rfl
  apis := rfl
  spis := rfl
  active _ := rfl
  handlers := rfl
  unchanged _ := rfl
  entered hFault := absurd hFault (h.not_fault _ _ _)

theorem State.bridges_refused (s : State σ) (api spi : Nat) (p : Spi) (handler : Handler)
    (native : σ) : ∃ b : Bridge, b.released = true ∧
      (s.registered api spi p handler false native).objects.bridges = s.objects.bridges ++ [b] := by
  refine ⟨{ binding := p.binding, api, spi, handler := p.handler, released := true
            overridden := implementedHooks p.binding handler }, rfl, ?_⟩
  simp [registered, Registry.openBridge, Registry.retire, List.modify_eq_set_getElem?]

namespace Registry

variable {r r' : Registry} {retired : Bridge}

theorem live_concat_iff (hBridges : r'.bridges = r.bridges ++ [retired])
    (hRetired : retired.released = true) {bridge : Nat} {b : Bridge} :
    r'.Live bridge b ↔ r.Live bridge b := by
  unfold Live
  rw [hBridges, List.getElem?_append]
  split
  · exact .rfl
  · rename_i hNew
    rw [List.getElem?_eq_none (Nat.not_lt.mp hNew)]
    refine ⟨fun ⟨hGet, hLive⟩ => ?_, fun ⟨hGet, _⟩ => nomatch hGet⟩
    rw [List.mem_singleton.mp (List.mem_of_getElem? hGet), hRetired] at hLive
    cases hLive

theorem isLive_concat (hBridges : r'.bridges = r.bridges ++ [retired])
    (hRetired : retired.released = true) : r'.isLive = r.isLive := by
  funext bridge
  rw [Bool.eq_iff_iff, isLive_iff, isLive_iff]
  exact exists_congr fun _ => live_concat_iff hBridges hRetired

end Registry

theorem Refused.registered {p : Spi} {handler : Handler} {native : σ} {method : String}
    {code : Option Int32} {fault : String} : Refused api (.nativeCall method code fault) s
      (s.registered api spi p handler false native) := by
  -- The bridge that the library refused is the only new one, and nothing can be live through it.
  obtain ⟨retired, hRetired, hBridges⟩ := s.bridges_refused api spi p handler native
  refine
    { kept := fun hGet => ?_
      opened := fun hNone hSome => ?_
      live := Registry.live_concat_iff hBridges hRetired
      apis := rfl
      spis := rfl
      active := fun spi => ?_
      handlers := rfl
      unchanged := fun hOther => absurd rfl (hOther _ _ _)
      entered := fun _ => rfl }
  · exact hBridges ▸ getElem?_append_of_eq_some hGet
  · rw [hBridges, List.getElem?_append_right (List.getElem?_eq_none_iff.mp hNone)] at hSome
    rw [List.mem_singleton.mp (List.mem_of_getElem? hSome), hRetired]
  · exact congrArg ((s.objects.spis[spi]?).bind (·.active)).filter
      (Registry.isLive_concat hBridges hRetired)

/-- A registration that fails, for whatever reason and in whatever state, changes nothing. -/
theorem refused_of_register_error
    (h : (host.register api spi).run.run s = (.error e, s')) : Refused api e s s' := by
  have hRegisters := host.registers s api spi
  rw [h] at hRegisters
  generalize hResult : (Except.error e : Except CallError Nat) = result at hRegisters
  cases hRegisters with
  | refused hRefuses =>
    cases hResult
    exact .refl hRefuses
  | @entered _ _ _ _ _ _ _ _ _ native reply _ =>
    cases reply with
    | ok => cases hResult
    | error fault =>
      cases hResult
      exact .registered

def sampleRefusing : State Rehearsal :=
  let refusal : Reply := { answer := .fault ⟨some (-5), "spi rejected"⟩ }
  let operation : Operation Rehearsal := .changeNative fun native =>
    { native with register := [refusal] }
  ((operation.perform sampleHost).run sampleRegistered).2

def sampleRefused : State Rehearsal :=
  ((sampleHost.register 0 0).run.run sampleRefusing).2

theorem refused_of_register_error_sample : Reachable sampleHost sampleRefusing ∧
    Refused 0 (.nativeCall "RegisterSpi" (some (-5)) "spi rejected") sampleRefusing
      sampleRefused ∧
    sampleRefused.objects.isLive 0 = true ∧ sampleRefused.objects.isLive 1 = false := by
  have hRefuses : (sampleHost.register 0 0).run.run sampleRefusing =
      (.error (.nativeCall "RegisterSpi" (some (-5)) "spi rejected"), sampleRefused) := rfl
  exact ⟨sampleRegistered_reachable.operate _, refused_of_register_error hRefuses, rfl, rfl⟩

end NativeBinding.Session
