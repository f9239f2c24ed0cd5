import NativeBinding.Proofs.Marshal.Conforming
import NativeBinding.Proofs.Session.Faithful
import NativeBinding.Proofs.Session.Generated

/-! # Callbacks are answered

A callback for a hook of the bridge's class is answered by a value of the hook's return type,
whatever its handler does. The handler runs once if every check passes, and not at all otherwise.
What fails is recorded once, unless the bridge was released.
-/

set_option autoImplicit false

namespace NativeBinding.Session

variable {σ : Type} {host : Host σ} {s : State σ} {bridge : Nat} {b : Bridge} {hook : String}
  {slot : OverrideSlot} {args : List NativeArg}

/-- A callback that reaches the handler, with the values that the handler is called with. -/
structure Host.Delivers (host : Host σ) (s : State σ) (b : Bridge) (slot : OverrideSlot)
    (args : List NativeArg) (handler : Handler) (values : List Value) : Prop where
  live : b.released = false
  outside : s.inside = false
  alive : s.handler? b.handler = some handler
  implemented : handler.implements slot.name = true
  arity : args.length = slot.params.length
  marshaled : List.Forall₂ (fun p value => host.loaded.marshaler.toScript p.1.type p.2
    s!"{b.binding.className}::{slot.name}({p.1.name})" = .ok value) (slot.params.zip args) values

/-- What a callback through a bridge does, for a hook that has a slot. -/
structure Handled (host : Host σ) (s : State σ) (bridge : Nat) (b : Bridge) (hook : String)
    (slot : OverrideSlot) (args : List NativeArg) : Prop where
  answers : host.loaded.marshaler.Answers slot.returnType
    ((host.dispatch bridge hook args).run s).1
  /-- The answer to a callback that waits until the host has let go. -/
  overlapped : ∀ {api}, host.library.sink? s.native api = some bridge → ∀ releases,
    ∃ released answer, ((host.overlap api hook args releases).run s).1 = some (released, answer) ∧
      host.loaded.marshaler.Answers slot.returnType answer
  /-- Inside scripting code the answer is the same as from outside. -/
  inside : s.inside = true → (dispatchInside host.loaded.marshaler bridge hook args).run s =
    (host.dispatch bridge hook args).run s
  runs : ∀ {handler values}, host.Delivers s b slot args handler values →
    let ran := (during (.handler bridge hook) (some b.handler)
      (host.run (handler.call hook values))).run s
    ((host.tryDispatch bridge b hook args).run s).2 = ran.2 ∧ ∃ inner,
      ran.2.log = s.log ++ .began (.handler bridge hook) :: inner ++
        [.ended (.handler bridge hook)] ∧ ∀ event ∈ inner, event.isTurn = false
  rests : (∀ handler values, ¬ host.Delivers s b slot args handler values) →
    ((host.tryDispatch bridge b hook args).run s).2 = s
  succeeded : ∀ {answer t}, (host.tryDispatch bridge b hook args).run s = (.ok answer, t) →
    (host.dispatch bridge hook args).run s = (answer, t)
  released : ∀ {className t},
    (host.tryDispatch bridge b hook args).run s = (.error (.released className), t) →
      (host.dispatch bridge hook args).run s = (Marshaler.defaultNative slot.returnType, t)
  faulted : ∀ {e t}, (host.tryDispatch bridge b hook args).run s = (.error e, t) →
    (∀ className, e ≠ .released className) →
      (host.dispatch bridge hook args).run s = (Marshaler.defaultNative slot.returnType,
        t.logged (.faulted ⟨bridge, b.binding.className, hook, e⟩))

section Answers

variable {m : Marshaler} {rank : String → Nat}

theorem answers_hookAnswer (hRanked : m.layouts.Ranked rank) {interfaceName : String}
    {value : Value} {answer : NativeArg} (h : hookAnswer m interfaceName slot value = .ok answer) :
    m.Answers slot.returnType answer := by
  unfold hookAnswer at h
  split at h
  · rename_i hVoid
    cases h
    exact hVoid ▸ Marshaler.answers_void
  · generalize hTaken : m.toNative slot.returnType value _ = taken at h
    cases taken with
    | ok taken =>
      cases h
      exact Marshaler.answers_toNative hRanked hTaken
    | error cause => cases h

theorem answers_hookResult (hRanked : m.layouts.Ranked rank) {interfaceName : String}
    {outcome : Outcome Value} {answer : NativeArg}
    (h : hookResult m interfaceName slot outcome = .ok answer) :
    m.Answers slot.returnType answer := by
  cases outcome with
  | value value => exact answers_hookAnswer hRanked h
  | raised error => cases h
  | panicked message => cases h

theorem answers_settle (hSlot : b.binding.slot? hook = some slot)
    (hCarried : m.Carries slot.returnType) {result : Except BridgeError NativeArg}
    (h : ∀ answer, result = .ok answer → m.Answers slot.returnType answer) (t : State σ) :
    m.Answers slot.returnType ((settle bridge b hook result).run t).1 := by
  cases result with
  | ok answer => exact h answer rfl
  | error e =>
    have hDefault : ((settle bridge b hook (.error e)).run t).1 = defaultAnswer b hook := by
      cases e <;> rfl
    rw [hDefault, defaultAnswer_eq hSlot]
    exact Marshaler.answers_defaultNative hCarried

theorem answers_deliver (hRanked : m.layouts.Ranked rank)
    {run : Script Value → SessionM σ (Outcome Value)} {admitted : Admitted}
    (hCarried : m.Carries admitted.slot.returnType) {t : State σ} {answer : NativeArg}
    (h : ((deliver m run bridge b admitted).run t).1 = .ok answer) :
    m.Answers admitted.slot.returnType answer := by
  cases hLive : t.objects.isLive bridge with
  | false =>
    rw [deliver, StateT.run_bind, StateT.run_get] at h
    simp only [pure_bind, hLive] at h
    cases h
  | true =>
    rw [run_deliver hLive] at h
    split at h
    · cases h
    · cases h
      exact Marshaler.answers_defaultNative hCarried
    · rw [run_runHook] at h
      exact answers_hookResult hRanked h

end Answers

theorem Host.Tries.answers (hLoaded : host.loaded.Carries)
    (hCarried : host.loaded.marshaler.Carries slot.returnType) {answer : NativeArg} {t : State σ}
    (h : host.Tries s bridge b slot args (.ok answer) t) :
    host.loaded.marshaler.Answers slot.returnType answer := by
  obtain ⟨rank, hRanked⟩ := hLoaded.ranked
  generalize hResult : (Except.ok answer : Except BridgeError NativeArg) = result at h
  cases h with
  | released | reentrant | unread | stale => cases hResult
  | unimplemented =>
    cases hResult
    exact Marshaler.answers_defaultNative hCarried
  | ran => exact answers_hookResult hRanked hResult.symm

section Delivery

variable {classes : List ClassBinding} {result : Except BridgeError NativeArg} {t : State σ}

theorem Host.Delivers.arguments {handler : Handler} {values : List Value}
    (h : host.Delivers s b slot args handler values) :
    hookArguments host.loaded.marshaler b.binding.className slot args = .ok values :=
  hookArguments_eq_ok_iff.mpr ⟨h.arity, h.marshaled⟩

theorem Host.Tries.runs (hTries : host.Tries s bridge b slot args result t)
    (hFaithful : s.objects.Faithful classes) (hBridge : s.objects.bridges[bridge]? = some b)
    (hSlot : b.binding.slot? slot.name = some slot) {handler : Handler} {values : List Value}
    (h : host.Delivers s b slot args handler values) :
    t = ((during (.handler bridge slot.name) (some b.handler)
      (host.run (handler.call slot.name values))).run s).2 := by
  -- The bridge goes by what it took for overridden when it was opened, not by the handler.
  have hOverridden : b.overridden.contains slot.name = true :=
    (hFaithful.overrides_iff (List.mem_of_getElem? hBridge) h.alive hSlot).mpr h.implemented
  cases hTries with
  | released hReleased => cases hReleased.symm.trans h.live
  | reentrant _ hInside => cases hInside.symm.trans h.outside
  | unread _ _ _ hArguments => cases hArguments.symm.trans h.arguments
  | stale _ _ hHandler => cases hHandler.symm.trans h.alive
  | unimplemented _ _ _ hNot => cases hNot.symm.trans hOverridden
  | ran _ _ hHandler _ hArguments hRan =>
    cases hHandler.symm.trans h.alive
    cases hArguments.symm.trans h.arguments
    exact (congrArg Prod.snd hRan).symm

theorem Host.Tries.rests (hTries : host.Tries s bridge b slot args result t)
    (hFaithful : s.objects.Faithful classes) (hBridge : s.objects.bridges[bridge]? = some b)
    (hSlot : b.binding.slot? slot.name = some slot)
    (h : ∀ handler values, ¬ host.Delivers s b slot args handler values) : t = s := by
  cases hTries with
  | @ran handler values _ _ hLive hOutside hHandler hOverridden hArguments _ =>
    obtain ⟨hArity, hMarshaled⟩ := hookArguments_eq_ok_iff.mp hArguments
    have hImplemented :=
      (hFaithful.overrides_iff (List.mem_of_getElem? hBridge) hHandler hSlot).mp hOverridden
    exact absurd ⟨hLive, hOutside, hHandler, hImplemented, hArity, hMarshaled⟩ (h handler values)
  | _ => rfl

theorem log_during_run {α : Type} (activity : Activity) (handler : Option Nat)
    (script : Script α) (s : State σ) : ∃ inner,
      ((during activity handler (host.run script)).run s).2.log =
        s.log ++ .began activity :: inner ++ [.ended activity] ∧
      ∀ event ∈ inner, event.isTurn = false := by
  have hEvolves : Evolves host (fun _ => False) (s.begun activity handler) _ :=
    Host.evolving_run script (s.begun activity handler)
  obtain ⟨inner, hInner, hQuiet⟩ := hEvolves.log_quiet
  refine ⟨inner, ?_, hQuiet⟩
  change ((host.run script).run (s.begun activity handler)).2.log ++ [.ended activity] = _
  rw [hInner, State.begun, State.logged, List.append_assoc s.log]
  rfl

theorem dispatchInside_eq_dispatch (hBridge : s.objects.bridges[bridge]? = some b)
    (hInside : s.inside = true) :
    (dispatchInside host.loaded.marshaler bridge hook args).run s =
      (host.dispatch bridge hook args).run s := by
  cases hAdmission : admission host.loaded.marshaler b s.inside hook args with
  | ok admitted => cases hInside.symm.trans (inside_of_admission hAdmission)
  | error e =>
    have hTries (onAdmitted : Admitted → SessionM σ (Except BridgeError NativeArg)) :
        (tryDispatchWith host.loaded.marshaler b hook args onAdmitted).run s = (.error e, s) :=
      run_tryDispatchWith_error hAdmission
    exact (run_dispatchWith hBridge (hTries _)).trans (run_dispatchWith hBridge (hTries _)).symm

theorem answers_overlap (hLoaded : host.loaded.Carries)
    (hCarried : host.loaded.marshaler.Carries slot.returnType) {api : Nat}
    (hSink : host.library.sink? s.native api = some bridge)
    (hBridge : s.objects.bridges[bridge]? = some b) (hSlot : b.binding.slot? hook = some slot)
    (releases : Bool) : ∃ released answer,
      ((host.overlap api hook args releases).run s).1 = some (released, answer) ∧
      host.loaded.marshaler.Answers slot.returnType answer := by
  obtain ⟨rank, hRanked⟩ := hLoaded.ranked
  rw [Host.overlap, StateT.run_bind, StateT.run_get]
  simp only [pure_bind, hSink, hBridge, Option.bind_some, Option.map_some]
  cases hAdmission : admission host.loaded.marshaler b false hook args with
  | error e =>
    refine ⟨_, _, rfl, ?_⟩
    exact answers_settle hSlot hCarried (fun _ h => by cases h) _
  | ok admitted =>
    have hSame : admitted.slot = slot := slot_of_admission hSlot hAdmission
    refine ⟨_, _, rfl, ?_⟩
    refine answers_settle hSlot hCarried (fun answer h => ?_) _
    rw [← hSame] at hCarried ⊢
    exact answers_deliver hRanked hCarried h

end Delivery

/-- In a state of a session over carried types, a callback through any bridge that there is. -/
theorem Arises.handled (h : Arises host s) (hLoaded : host.loaded.Carries)
    (hBridge : s.objects.bridges[bridge]? = some b) (hSlot : b.binding.slot? hook = some slot)
    (args : List NativeArg) : Handled host s bridge b hook slot args := by
  have hFaithful := h.faithful
  obtain ⟨hMem, rfl⟩ := ClassBinding.slot?_eq_some hSlot
  have hCarried : host.loaded.marshaler.Carries slot.returnType :=
    (hLoaded.slots _ (hFaithful.binding (List.mem_of_getElem? hBridge)) slot hMem).2
  have hTries := host.tries hBridge hSlot args
  have hDispatch {result t}
      (hRun : (host.tryDispatch bridge b slot.name args).run s = (result, t)) :
      (host.dispatch bridge slot.name args).run s = (settle bridge b slot.name result).run t :=
    run_dispatchWith hBridge hRun
  refine
    { answers := ?_
      overlapped := fun hSink => answers_overlap hLoaded hCarried hSink hBridge hSlot
      inside := dispatchInside_eq_dispatch hBridge
      runs := fun hDelivers => ?_
      rests := hTries.rests hFaithful hBridge hSlot
      succeeded := hDispatch
      released := fun hRun => ?_
      faulted := fun hRun hOther => ?_ }
  · generalize hRun : (host.tryDispatch bridge b slot.name args).run s = run at hTries
    obtain ⟨result, t⟩ := run
    rw [hDispatch hRun]
    refine answers_settle hSlot hCarried (fun answer hAnswer => ?_) t
    subst hAnswer
    exact hTries.answers hLoaded hCarried
  · rw [hTries.runs hFaithful hBridge hSlot hDelivers]
    exact ⟨rfl, log_during_run _ _ _ s⟩
  · rw [hDispatch hRun, settle_released hSlot]
    rfl
  · rw [hDispatch hRun, settle_error hSlot hOther]
    rfl

def sampleListener : Handler :=
  ⟨"Listener", [("OnQuote", fun _ => .done .null)]⟩

end NativeBinding.Session
