import NativeBinding.Proofs.Success
import NativeBinding.Session.Run

/-! # How a callback is tried

The checks that a callback passes before its handler runs, in their order, and what becomes of it at
each. The state changes only where the handler runs.
-/

set_option autoImplicit false

namespace NativeBinding.Session

variable {σ : Type} {m : Marshaler} {b : Bridge} {hook : String} {slot : OverrideSlot}
  {args : List NativeArg}

theorem admission_eq (hSlot : b.binding.slot? hook = some slot) (inside : Bool) :
    admission m b inside hook args =
      if b.released then .error (.released b.binding.className)
      else if inside then .error (.reentrantDispatch hook)
      else if b.overridden.contains hook then
        (hookArguments m b.binding.className slot args).map fun values => ⟨slot, some values⟩
      else .ok ⟨slot, none⟩ := by
  unfold admission Bridge.slotFor
  rw [hSlot]
  cases hReleased : b.released with
  | true => rfl
  | false =>
    cases inside with
    | true => rfl
    | false =>
      simp only [Bool.false_eq_true, if_false, bind, Except.bind]
      split
      · cases hookArguments m b.binding.className slot args <;> rfl
      · rfl

theorem admission_of_released (hReleased : b.released = true)
    (hSlot : b.binding.slot? hook = some slot) (inside : Bool) (args : List NativeArg) :
    admission m b inside hook args = .error (.released b.binding.className) := by
  rw [admission_eq hSlot, if_pos hReleased]

theorem admission_of_inside (hLive : b.released = false)
    (hSlot : b.binding.slot? hook = some slot) (args : List NativeArg) :
    admission m b true hook args = .error (.reentrantDispatch hook) := by
  rw [admission_eq hSlot, if_neg (by simp [hLive]), if_pos rfl]

theorem admission_of_unknown (hUnknown : b.binding.slot? hook = none) (inside : Bool)
    (args : List NativeArg) :
    admission m b inside hook args = .error (.unknownHook b.binding.className hook) := by
  unfold admission Bridge.slotFor
  rw [hUnknown]
  rfl

/-- Whatever the hook is, nothing is admitted inside scripting code. -/
theorem inside_of_admission {inside : Bool} {admitted : Admitted}
    (h : admission m b inside hook args = .ok admitted) : inside = false := by
  obtain ⟨slot, -, h⟩ := bind_eq_ok_iff.mp h
  cases inside with
  | false => rfl
  | true => cases h

theorem slot_of_admission (hSlot : b.binding.slot? hook = some slot) {inside : Bool}
    {admitted : Admitted} (h : admission m b inside hook args = .ok admitted) :
    admitted.slot = slot := by
  rw [admission_eq hSlot] at h
  split at h
  · cases h
  · split at h
    · cases h
    · split at h
      · obtain ⟨values, -, rfl⟩ := map_eq_ok_iff.mp h
        rfl
      · cases h
        rfl

theorem hookArguments_eq_ok_iff {interfaceName : String} {values : List Value} :
    hookArguments m interfaceName slot args = .ok values ↔
      args.length = slot.params.length ∧
        List.Forall₂ (fun p value => m.toScript p.1.type p.2
          s!"{interfaceName}::{slot.name}({p.1.name})" = .ok value)
            (slot.params.zip args) values := by
  unfold hookArguments
  rw [← mapM_eq_ok_iff]
  split
  · rename_i hLength
    exact ⟨nofun, fun h => absurd h.1 (by simpa using hLength)⟩
  · rename_i hLength
    rw [and_iff_right (by simpa using hLength)]
    generalize List.mapM (m := Except MarshalError) _ _ = values
    cases values <;> simp [Except.mapError]

/-- What a hook answers once its handler has run. -/
def hookResult (m : Marshaler) (interfaceName : String) (slot : OverrideSlot) :
    Outcome Value → Except BridgeError NativeArg
  | .value value => hookAnswer m interfaceName slot value
  | .raised error => .error (.handler slot.name error.message)
  | .panicked message => .error (.handlerPanic slot.name message)

section Run

variable {s t : State σ} {bridge : Nat} {result : Except BridgeError NativeArg}

theorem run_tryDispatchWith_error
    {onAdmitted : Admitted → SessionM σ (Except BridgeError NativeArg)} {e : BridgeError}
    (h : admission m b s.inside hook args = .error e) :
    (tryDispatchWith m b hook args onAdmitted).run s = (.error e, s) := by
  rw [tryDispatchWith, StateT.run_bind, StateT.run_get]
  simp only [pure_bind, h]
  rfl

theorem run_tryDispatchWith_ok
    {onAdmitted : Admitted → SessionM σ (Except BridgeError NativeArg)} {admitted : Admitted}
    (h : admission m b s.inside hook args = .ok admitted) :
    (tryDispatchWith m b hook args onAdmitted).run s = (onAdmitted admitted).run s := by
  rw [tryDispatchWith, StateT.run_bind, StateT.run_get]
  simp only [pure_bind, h]

theorem run_dispatchWith {tries : Nat → Bridge → String → List NativeArg →
      SessionM σ (Except BridgeError NativeArg)} (hBridge : s.objects.bridges[bridge]? = some b)
    (hTries : (tries bridge b hook args).run s = (result, t)) :
    (dispatchWith tries bridge hook args).run s = (settle bridge b hook result).run t := by
  rw [dispatchWith, StateT.run_bind, StateT.run_get]
  simp only [pure_bind, hBridge, StateT.run_bind]
  rw [hTries]
  rfl

theorem defaultAnswer_eq (hSlot : b.binding.slot? hook = some slot) :
    defaultAnswer b hook = Marshaler.defaultNative slot.returnType := by
  rw [defaultAnswer, hSlot]

theorem settle_released (hSlot : b.binding.slot? hook = some slot) (className : String) :
    (settle bridge b hook (.error (.released className)) : SessionM σ NativeArg) =
      pure (Marshaler.defaultNative slot.returnType) := by
  rw [← defaultAnswer_eq hSlot]
  rfl

theorem settle_error (hSlot : b.binding.slot? hook = some slot) {e : BridgeError}
    (hOther : ∀ className, e ≠ .released className) :
    (settle bridge b hook (.error e)).run s = (Marshaler.defaultNative slot.returnType,
      { s with log := s.log ++ [.faulted ⟨bridge, b.binding.className, hook, e⟩] }) := by
  rw [← defaultAnswer_eq hSlot]
  cases e with
  | released className => exact absurd rfl (hOther className)
  | _ => rfl

theorem run_runHook (run : Script Value → SessionM σ (Outcome Value)) (handler : Handler)
    (values : List Value) :
    let ran := (during (.handler bridge slot.name) (some b.handler)
      (run (handler.call slot.name values))).run s
    (runHook m run bridge b handler slot values).run s =
      (hookResult m b.binding.className slot ran.1, ran.2) := by
  intro ran
  rw [runHook, StateT.run_bind]
  change StateT.run (match ran.1 with
    | .value value => pure (hookAnswer m b.binding.className slot value)
    | .raised error => pure (.error (.handler slot.name error.message))
    | .panicked message => pure (.error (.handlerPanic slot.name message))) ran.2 = _
  generalize ran = result
  obtain ⟨outcome, t⟩ := result
  cases outcome <;> rfl

theorem run_deliver {run : Script Value → SessionM σ (Outcome Value)} {admitted : Admitted}
    (hLive : s.objects.isLive bridge = true) :
    (deliver m run bridge b admitted).run s =
      (match s.handler? b.handler, admitted.values with
        | none, _ => pure (.error (.staleHandler b.binding.className admitted.slot.name))
        | some _, none => pure (.ok (Marshaler.defaultNative admitted.slot.returnType))
        | some handler, some values => runHook m run bridge b handler admitted.slot values :
          SessionM σ (Except BridgeError NativeArg)).run s := by
  have hNot : (!s.objects.isLive bridge) = false := by rw [hLive]; rfl
  rw [deliver, StateT.run_bind, StateT.run_get, pure_bind, hNot]
  rfl

end Run

namespace Host

variable {host : Host σ} {s : State σ} {bridge : Nat}

/-- What trying a callback answers, and the state that it leaves, by the check that decides. -/
inductive Tries (host : Host σ) (s : State σ) (bridge : Nat) (b : Bridge) (slot : OverrideSlot)
    (args : List NativeArg) : Except BridgeError NativeArg → State σ → Prop where
  | released : b.released = true →
      Tries host s bridge b slot args (.error (.released b.binding.className)) s
  | reentrant : b.released = false → s.inside = true →
      Tries host s bridge b slot args (.error (.reentrantDispatch slot.name)) s
  | unread {e : BridgeError} : b.released = false → s.inside = false →
      b.overridden.contains slot.name = true →
      hookArguments host.loaded.marshaler b.binding.className slot args = .error e →
      Tries host s bridge b slot args (.error e) s
  | stale : b.released = false → s.inside = false → s.handler? b.handler = none →
      Tries host s bridge b slot args (.error (.staleHandler b.binding.className slot.name)) s
  | unimplemented {handler : Handler} : b.released = false → s.inside = false →
      s.handler? b.handler = some handler → b.overridden.contains slot.name = false →
      Tries host s bridge b slot args (.ok (Marshaler.defaultNative slot.returnType)) s
  | ran {handler : Handler} {values : List Value} {outcome : Outcome Value} {t : State σ} :
      b.released = false → s.inside = false → s.handler? b.handler = some handler →
      b.overridden.contains slot.name = true →
      hookArguments host.loaded.marshaler b.binding.className slot args = .ok values →
      (during (.handler bridge slot.name) (some b.handler)
        (host.run (handler.call slot.name values))).run s = (outcome, t) →
      Tries host s bridge b slot args
        (hookResult host.loaded.marshaler b.binding.className slot outcome) t

theorem tries (host : Host σ) (hBridge : s.objects.bridges[bridge]? = some b)
    (hSlot : b.binding.slot? hook = some slot) (args : List NativeArg) :
    host.Tries s bridge b slot args ((host.tryDispatch bridge b hook args).run s).1
      ((host.tryDispatch bridge b hook args).run s).2 := by
  obtain rfl : slot.name = hook := by simpa using List.find?_some hSlot
  rw [tryDispatch]
  -- The cases are the checks in their order: each one decides where those before it have passed.
  cases hReleased : b.released with
  | true =>
    rw [run_tryDispatchWith_error (admission_of_released hReleased hSlot _ _)]
    exact .released hReleased
  | false =>
    cases hInside : s.inside with
    | true =>
      rw [run_tryDispatchWith_error (hInside ▸ admission_of_inside hReleased hSlot args)]
      exact .reentrant hReleased hInside
    | false =>
      have hLive : s.objects.isLive bridge = true := by
        rw [Registry.isLive, hBridge]
        simp [hReleased]
      have hAdmission : admission host.loaded.marshaler b s.inside slot.name args = _ :=
        admission_eq hSlot s.inside
      rw [hReleased, hInside, if_neg nofun, if_neg nofun] at hAdmission
      cases hOverridden : b.overridden.contains slot.name with
      | false =>
        rw [hOverridden, if_neg nofun] at hAdmission
        rw [run_tryDispatchWith_ok (hInside ▸ hAdmission), run_deliver hLive]
        cases hHandler : s.handler? b.handler with
        | none => exact .stale hReleased hInside hHandler
        | some handler => exact .unimplemented hReleased hInside hHandler hOverridden
      | true =>
        rw [hOverridden, if_pos rfl] at hAdmission
        cases hArguments : hookArguments host.loaded.marshaler b.binding.className slot args with
        | error e =>
          rw [hArguments] at hAdmission
          rw [run_tryDispatchWith_error (hInside ▸ hAdmission)]
          exact .unread hReleased hInside hOverridden hArguments
        | ok values =>
          rw [hArguments] at hAdmission
          rw [run_tryDispatchWith_ok (hInside ▸ hAdmission), run_deliver hLive]
          cases hHandler : s.handler? b.handler with
          | none => exact .stale hReleased hInside hHandler
          | some handler =>
            dsimp only
            rw [run_runHook]
            exact .ran hReleased hInside hHandler hOverridden hArguments rfl

end Host

end NativeBinding.Session
