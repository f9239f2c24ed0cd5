import NativeBinding.Proofs.Session.Move
import NativeBinding.Session.Call

/-! # What a registration does

A registration is checked first, then a bridge is opened, and the library is entered with its
number. The library accepts or refuses the bridge.
-/

set_option autoImplicit false

namespace NativeBinding.Session

variable {σ α β ε : Type} {host : Host σ} {s : State σ} {api spi : Nat}

theorem run_callBind_ok {action : ExceptT ε (SessionM σ) α}
    {next : α → ExceptT ε (SessionM σ) β} {a : α} {s t : State σ}
    (h : action.run.run s = (.ok a, t)) :
    (action >>= next).run.run s = (next a).run.run t := by
  rw [ExceptT.run_bind, StateT.run_bind, h]
  rfl

theorem run_callBind_error {action : ExceptT ε (SessionM σ) α}
    {next : α → ExceptT ε (SessionM σ) β} {e : ε} {s t : State σ}
    (h : action.run.run s = (.error e, t)) :
    (action >>= next).run.run s = (.error e, t) := by
  rw [ExceptT.run_bind, StateT.run_bind, h]
  rfl

theorem run_callGet (next : State σ → ExceptT ε (SessionM σ) β) (s : State σ) :
    (get >>= next).run.run s = (next s).run.run s :=
  rfl

theorem run_requireInstance_none (h : s.objects.apis[api]? = none) :
    (requireInstance api : CallM σ Api).run.run s = (.error (unknownNumber api), s) := by
  rw [requireInstance, run_callGet, h]
  rfl

theorem run_requireInstance_some {a : Api} (h : s.objects.apis[api]? = some a) :
    (requireInstance api : CallM σ Api).run.run s = (.ok a, s) := by
  rw [requireInstance, run_callGet, h]
  rfl

theorem run_requireLive_released {a : Api} (h : a.released = true) :
    (requireLive a : CallM σ Unit).run.run s = (.error (.released a.binding.className), s) := by
  rw [requireLive, if_pos h]
  rfl

theorem run_requireLive_live {a : Api} (h : a.released = false) :
    (requireLive a : CallM σ Unit).run.run s = (.ok (), s) := by
  rw [requireLive, if_neg (by simp [h])]
  rfl

namespace Host

/-- The checks that a registration fails. -/
inductive Refuses (s : State σ) (api spi : Nat) : CallError → Prop where
  | noApi : s.objects.apis[api]? = none → Refuses s api spi (unknownNumber api)
  | released {a : Api} : s.objects.apis[api]? = some a → a.released = true →
      Refuses s api spi (.released a.binding.className)
  | noSpi {a : Api} : s.objects.apis[api]? = some a → a.released = false →
      s.objects.spis[spi]? = none → Refuses s api spi (unknownNumber spi)
  | noMethod {a : Api} {p : Spi} : s.objects.apis[api]? = some a → a.released = false →
      s.objects.spis[spi]? = some p → registration? a.binding = none →
      Refuses s api spi (.unknownMethod a.binding.className "RegisterSpi")
  | mismatch {a : Api} {p : Spi} {method expected : String} : s.objects.apis[api]? = some a →
      a.released = false → s.objects.spis[spi]? = some p →
      registration? a.binding = some (method, expected) → p.binding.className ≠ expected →
      Refuses s api spi (.interfaceMismatch method expected p.binding.className)
  | stale {a : Api} {p : Spi} {method : String} : s.objects.apis[api]? = some a →
      a.released = false → s.objects.spis[spi]? = some p →
      registration? a.binding = some (method, p.binding.className) →
      s.handler? p.handler = none →
      Refuses s api spi (.bridge (.staleHandler p.binding.className "RegisterSpi"))

/-- What a registration answers, and the state that it leaves. -/
inductive Registers (host : Host σ) (s : State σ) (api spi : Nat) :
    Except CallError Nat → State σ → Prop where
  | refused {e : CallError} : Refuses s api spi e → Registers host s api spi (.error e) s
  | entered {a : Api} {p : Spi} {method : String} {handler : Handler} :
      s.objects.apis[api]? = some a → a.released = false → s.objects.spis[spi]? = some p →
      registration? a.binding = some (method, p.binding.className) →
      s.handler? p.handler = some handler →
      ∀ {native : σ} {reply : Except NativeFault Unit},
        host.library.register s.native api s.objects.bridges.length = (native, reply) →
        Registers host s api spi
          (match reply with
            | .ok () => .ok s.objects.bridges.length
            | .error fault => .error (.nativeCall method fault.code fault.message))
          (s.registered api spi p handler reply.isOk native)

theorem run_settleRegistration (api spi : Nat) (p : Spi) (handler : Handler) (method : String)
    (answer : σ × Except NativeFault Unit) :
    let opened := s.objects.openBridge api spi p handler
    (settleRegistration api spi opened.1 method answer.2).run.run
      { s.logged (.entered (.register api)) with native := answer.1, objects := opened.2 } =
        (match answer.2 with
          | .ok () => .ok s.objects.bridges.length
          | .error fault => .error (.nativeCall method fault.code fault.message),
        s.registered api spi p handler answer.2.isOk answer.1) := by
  obtain ⟨native, reply⟩ := answer
  cases reply <;> rfl

theorem registers (host : Host σ) (s : State σ) (api spi : Nat) :
    host.Registers s api spi ((host.register api spi).run.run s).1
      ((host.register api spi).run.run s).2 := by
  -- The cases are the checks in their order; the library is entered only behind the last of them.
  cases hApi : s.objects.apis[api]? with
  | none =>
    rw [register, run_callBind_error (run_requireInstance_none hApi)]
    exact .refused (.noApi hApi)
  | some a =>
    rw [register, run_callBind_ok (run_requireInstance_some hApi)]
    cases hReleased : a.released with
    | true =>
      rw [run_callBind_error (run_requireLive_released hReleased)]
      exact .refused (.released hApi hReleased)
    | false =>
      rw [run_callBind_ok (run_requireLive_live hReleased), run_callGet]
      cases hSpi : s.objects.spis[spi]? with
      | none => exact .refused (.noSpi hApi hReleased hSpi)
      | some p =>
        cases hMethod : registration? a.binding with
        | none => exact .refused (.noMethod hApi hReleased hSpi hMethod)
        | some found =>
          obtain ⟨method, expected⟩ := found
          dsimp only
          split
          · rename_i hOther
            exact .refused (.mismatch hApi hReleased hSpi hMethod (by simpa using hOther))
          · rename_i hSame
            obtain rfl : p.binding.className = expected := by simpa using hSame
            cases hHandler : s.handler? p.handler with
            | none => exact .refused (.stale hApi hReleased hSpi hMethod hHandler)
            | some handler =>
              have hSettled := run_settleRegistration (s := s) api spi p handler method
                (host.library.register s.native api s.objects.bridges.length)
              refine hSettled ▸ ?_
              exact .entered hApi hReleased hSpi hMethod hHandler rfl

end Host

end NativeBinding.Session
