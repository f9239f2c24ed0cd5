import NativeBinding.Proofs.Session.Genuine
import NativeBinding.Proofs.Session.Reachable

/-! # No type is blamed

Callbacks, scripts and whole operations of a session over carried types. A module that was generated
from a model and loaded with it carries its types, so in every state of such a session neither a
call nor a callback fails because of a type.
-/

set_option autoImplicit false

namespace NativeBinding.Session

variable {σ α : Type} {host : Host σ} {dispatch : Dispatcher σ}

section Callback

theorem tame_settle (bridge : Nat) (b : Bridge) (hook : String)
    {result : Except BridgeError NativeArg} (h : Blameless BridgeError.blamesType result) :
    Tame host (settle bridge b hook result) := by
  unfold settle
  split
  · exact keeps_pure trivial
  · exact keeps_pure trivial
  · exact keeps_bind (tame_record h) fun _ _ => keeps_pure trivial

variable (hLoaded : host.loaded.Carries)

include hLoaded

/-- The answer of a delivered callback blames no type if the hook's return type is carried. -/
theorem keeps_deliver {run : Script Value → SessionM σ (Outcome Value)}
    (h : ∀ script, Tame host (run script)) (bridge : Nat) (b : Bridge) (admitted : Admitted) :
    Keeps (Genuine host) (deliver host.loaded.marshaler run bridge b admitted) fun result =>
      host.loaded.marshaler.Carries admitted.slot.returnType →
        Blameless BridgeError.blamesType result := by
  obtain ⟨rank, hRanked⟩ := hLoaded.ranked
  refine keeps_get fun s _ => ?_
  split
  · exact keeps_pure fun _ => rfl
  · split
    · exact keeps_pure fun _ => rfl
    · exact keeps_pure fun _ => trivial
    · refine keeps_bind (tame_during (h _)) fun outcome _ => ?_
      split
      · exact keeps_pure fun hReturn => blameless_hookAnswer hRanked hReturn _ _
      · exact keeps_pure fun _ => rfl
      · exact keeps_pure fun _ => rfl

theorem yields_admission {b : Bridge} (hBound : b.binding ∈ host.loaded.bindings.classes)
    (inside : Bool) (hook : String) (args : List NativeArg) :
    Yields (fun admitted => host.loaded.marshaler.Carries admitted.slot.returnType)
      (fun e => e.blamesType = false) (admission host.loaded.marshaler b inside hook args) := by
  obtain ⟨rank, hRanked⟩ := hLoaded.ranked
  have hSlot : Yields (fun slot => slot ∈ b.binding.overrides) (fun e => e.blamesType = false)
      (b.slotFor hook) := by
    unfold Bridge.slotFor
    split
    · exact rfl
    · rename_i slot hFind
      split
      · exact rfl
      · exact List.mem_of_find?_eq_some hFind
  unfold admission
  refine yields_bind hSlot fun slot hMem => ?_
  obtain ⟨hParams, hReturn⟩ := hLoaded.slots _ hBound slot hMem
  dsimp only
  split
  · exact rfl
  · split
    · exact yields_bind (blameless_hookArguments hRanked hParams _ args) fun _ _ => hReturn
    · exact hReturn

theorem keeps_tryDispatchWith {b : Bridge} {hook : String} {args : List NativeArg}
    {onAdmitted : Admitted → SessionM σ (Except BridgeError NativeArg)}
    (h : ∀ admitted, Keeps (Genuine host) (onAdmitted admitted) fun result =>
      host.loaded.marshaler.Carries admitted.slot.returnType →
        Blameless BridgeError.blamesType result) :
    Keeps (Genuine host) (tryDispatchWith host.loaded.marshaler b hook args onAdmitted)
      fun result => b.binding ∈ host.loaded.bindings.classes →
        Blameless BridgeError.blamesType result := by
  refine keeps_get fun s _ => ?_
  have hAdmission := fun hBound => yields_admission hLoaded (b := b) hBound s.inside hook args
  split
  · rename_i admitted hAdmitted
    rw [hAdmitted] at hAdmission
    exact keeps_mono (h admitted) fun result hResult hBound => hResult (hAdmission hBound)
  · rename_i error hError
    rw [hError] at hAdmission
    exact keeps_pure hAdmission

theorem keeps_tryDispatchInside (b : Bridge) (hook : String) (args : List NativeArg) :
    Keeps (Genuine host) (tryDispatchInside host.loaded.marshaler b hook args) fun result =>
      b.binding ∈ host.loaded.bindings.classes → Blameless BridgeError.blamesType result :=
  keeps_tryDispatchWith hLoaded fun _ => keeps_pure fun _ => rfl

omit hLoaded in
theorem tame_dispatchWith
    {tries : Nat → Bridge → String → List NativeArg → SessionM σ (Except BridgeError NativeArg)}
    (h : ∀ bridge b hook args, Keeps (Genuine host) (tries bridge b hook args) fun result =>
      b.binding ∈ host.loaded.bindings.classes → Blameless BridgeError.blamesType result) :
    TameDispatcher host (dispatchWith tries) := by
  intro bridge hook args
  refine keeps_get fun s hs => ?_
  split
  · rename_i b hBridge
    refine keeps_bind (h bridge b hook args) fun result hResult => ?_
    exact tame_settle bridge b hook (hResult (hs.bridge hBridge))
  · exact keeps_pure trivial

theorem tame_dispatchInside : TameDispatcher host (dispatchInside host.loaded.marshaler) :=
  tame_dispatchWith fun _ => keeps_tryDispatchInside hLoaded

end Callback

namespace Host

theorem tame_dropInstance (h : TameDispatcher host dispatch) (api : Nat) :
    Tame host (host.dropInstance dispatch api) :=
  keeps_bind (tame_release h api) fun _ _ => keeps_pure trivial

theorem tame_named (table : Names → List (String × Nat)) (name : String) :
    TameCall host (named table name) := by
  refine keeps_callGet fun s _ => ?_
  split
  · exact keeps_callPure trivial
  · exact keeps_callThrow rfl

theorem tame_nameApi (h : TameDispatcher host dispatch) (name : String) {make : CallM σ Nat}
    (hMake : TameCall host make) : TameCall host (host.nameApi dispatch name make) := by
  refine keeps_callBind hMake fun api _ => keeps_callGet fun s _ => ?_
  refine keeps_callBind (keeps_callLift (tame_changeNames _)) fun _ _ => ?_
  dsimp only
  split
  · exact keeps_callBind (keeps_callLift (tame_dropInstance h _)) fun _ _ => keeps_callPure trivial
  · exact keeps_callPure trivial

theorem tame_dropApi (h : TameDispatcher host dispatch) (name : String) :
    Tame host (host.dropApi dispatch name) := by
  refine keeps_get fun s _ => ?_
  split
  · exact keeps_pure trivial
  · exact keeps_bind (tame_changeNames _) fun _ _ =>
      keeps_bind (tame_dropInstance h _) fun _ _ => keeps_pure trivial

theorem tame_letGo (handler : Nat) : Tame host (changeObjects fun r => r.letGo handler) :=
  tame_changeObjects fun _ => rfl

theorem tame_nameHandler (name : String) (handler : Handler) :
    Tame host (nameHandler name handler) := by
  have hAdded : Tame host (addObject fun r => r.addHandler handler) :=
    fun s hs => ⟨hs.rearranged (fun _ hc => hc) rfl, trivial⟩
  refine keeps_get fun s _ => keeps_bind hAdded fun number _ =>
    keeps_bind (tame_changeNames _) fun _ _ => ?_
  split
  · exact tame_letGo _
  · exact keeps_pure trivial

theorem tame_dropHandler (name : String) : Tame host (dropHandler name) := by
  refine keeps_get fun s _ => ?_
  split
  · exact keeps_pure trivial
  · exact keeps_bind (tame_changeNames _) fun _ _ =>
      keeps_bind (tame_letGo _) fun _ _ => keeps_pure trivial

theorem tame_dropSpi (name : String) : Tame host (dropSpi name) :=
  keeps_get fun _ _ => keeps_bind (tame_changeNames _) fun _ _ => keeps_pure trivial

theorem tame_nameSpi (name className handler : String) :
    Tame host (host.nameSpi name className handler) := by
  refine keeps_get fun s _ => ?_
  split
  · exact keeps_pure trivial
  · refine keeps_bind (tame_newSpi className _) fun result _ => ?_
    split
    · exact keeps_pure trivial
    · exact keeps_bind (tame_changeNames _) fun _ _ => keeps_pure trivial

theorem tame_setGlobal (name : String) (value : Value) : Tame host (setGlobal name value) :=
  tame_aside (fun _ => rfl) fun _ => rfl

theorem tame_getGlobal (name : String) : Tame host (getGlobal name) :=
  keeps_get fun _ _ => keeps_pure trivial

theorem tame_removeGlobal (name : String) : Tame host (removeGlobal name) :=
  keeps_bind (tame_getGlobal name) fun _ _ =>
    keeps_bind (tame_aside (fun _ => rfl) fun _ => rfl) fun _ _ => keeps_pure trivial

theorem tame_bumpGlobal (name : String) (amount : Int64) : Tame host (bumpGlobal name amount) :=
  keeps_bind (tame_getGlobal name) fun _ _ =>
    keeps_bind (tame_setGlobal name _) fun _ _ => keeps_pure trivial

theorem tame_calling {call : CallM σ Value} (h : TameCall host call) : Tame host (calling call) :=
  keeps_bind h fun _ _ => keeps_pure trivial

variable (hLoaded : host.loaded.Carries)

include hLoaded

theorem tame_answerDispatch (bridge hook : String) (args : List NativeArg) :
    Tame host (host.answerDispatch bridge hook args) := by
  refine keeps_get fun s _ => ?_
  split
  · exact keeps_pure trivial
  · refine keeps_bind (keeps_tryDispatchInside hLoaded _ hook args) fun result _ => ?_
    split <;> exact keeps_pure trivial

theorem tame_answer (request : Request) : Tame host (host.answer request) := by
  have hInside := tame_dispatchInside hLoaded
  cases request with
  | print line => exact keeps_bind (tame_print line) fun _ _ => keeps_pure trivial
  | get name => exact keeps_bind (tame_getGlobal name) fun _ _ => keeps_pure trivial
  | set name value => exact keeps_bind (tame_setGlobal name value) fun _ _ => keeps_pure trivial
  | remove name => exact keeps_bind (tame_removeGlobal name) fun _ _ => keeps_pure trivial
  | bump name amount =>
    exact keeps_bind (tame_bumpGlobal name amount) fun _ _ => keeps_pure trivial
  | newRecord name => exact keeps_pure trivial
  | construct name className constructor args =>
    exact tame_calling (keeps_callBind
      (tame_nameApi hInside name (tame_construct hLoaded className constructor args))
      fun _ _ => keeps_callPure trivial)
  | callStatic className method args => exact tame_calling (tame_callStatic hLoaded _ _ _)
  | invoke api method args =>
    exact tame_calling (keeps_callBind (tame_named _ api)
      fun _ _ => tame_invoke hLoaded hInside _ _ _)
  | init api =>
    exact tame_calling (keeps_callBind (tame_named _ api) fun _ _ =>
      keeps_callBind (tame_init hInside _) fun _ _ => keeps_callPure trivial)
  | release api =>
    exact tame_calling (keeps_callBind (tame_named _ api) fun _ _ =>
      keeps_callBind (tame_release hInside _) fun _ _ => keeps_callPure trivial)
  | register api spi =>
    exact tame_calling (keeps_callBind (tame_named _ api) fun _ _ =>
      keeps_callBind (tame_named _ spi) fun _ _ =>
        keeps_callBind (tame_register _ _) fun _ _ => keeps_callPure trivial)
  | dropApi api => exact keeps_bind (tame_dropApi hInside api) fun _ _ => keeps_pure trivial
  | newSpi spi className handler =>
    exact keeps_bind (tame_nameSpi spi className handler) fun _ _ => keeps_pure trivial
  | dropHandler handler =>
    exact keeps_bind (tame_dropHandler handler) fun _ _ => keeps_pure trivial
  | enter => exact keeps_get fun _ _ => keeps_pure trivial
  | dispatch bridge hook args => exact tame_answerDispatch hLoaded bridge hook args

theorem tame_run (script : Script α) : Tame host (host.run script) := by
  induction script with
  | done value => exact keeps_pure trivial
  | raise error => exact keeps_pure trivial
  | panic message => exact keeps_pure trivial
  | perform request next ih => exact keeps_bind (tame_answer hLoaded request) fun _ _ => ih _

theorem keeps_tryDispatch (bridge : Nat) (b : Bridge) (hook : String) (args : List NativeArg) :
    Keeps (Genuine host) (host.tryDispatch bridge b hook args) fun result =>
      b.binding ∈ host.loaded.bindings.classes → Blameless BridgeError.blamesType result :=
  keeps_tryDispatchWith hLoaded fun admitted =>
    keeps_deliver hLoaded (tame_run hLoaded) bridge b admitted

theorem tame_dispatch : TameDispatcher host host.dispatch :=
  tame_dispatchWith (keeps_tryDispatch hLoaded)

theorem tame_enter (script : Script α) : Tame host (host.enter script) := by
  refine keeps_get fun s _ => ?_
  split
  · exact keeps_pure trivial
  · exact keeps_bind (tame_during (tame_run hLoaded script)) fun _ _ => keeps_pure trivial

theorem tame_callHandler (handler : Nat) (h : Handler) (method : String) (args : List Value) :
    Tame host (host.callHandler handler h method args) := by
  refine keeps_get fun s _ => ?_
  split
  · exact keeps_pure trivial
  · exact keeps_bind (tame_during (tame_run hLoaded _)) fun _ _ => keeps_pure trivial

theorem tame_attend (pieces : Nat) : Tame host (host.attend pieces) := by
  induction pieces with
  | zero => exact keeps_pure trivial
  | succ pieces ih =>
    refine keeps_get fun s _ => ?_
    split
    · exact keeps_pure trivial
    · exact keeps_bind (tame_follow (tame_dispatch hLoaded) _ _) fun _ _ => ih

theorem tame_letIn (api : Nat) (releases : Bool) : Tame host (host.letIn api releases) := by
  have hPrint : ∀ released : Option (Except CallError Unit), True → Tame host (do
      print (if releases then "joined" else "letting go")
      pure released) :=
    fun _ _ => keeps_bind (tame_print _) fun _ _ => keeps_pure trivial
  cases releases with
  | true =>
    have hRelease := tame_release (tame_dispatchInside hLoaded) api
    exact keeps_bind (keeps_map (keeps_mono hRelease fun _ _ => trivial)) hPrint
  | false => exact keeps_bind (keeps_pure trivial) hPrint

/-- A callback that waits, if it was admitted, is answered with a carried type. -/
abbrev AnswersCarried (host : Host σ) (early : Except NativeArg Admitted) : Prop :=
  Yields (fun admitted => host.loaded.marshaler.Carries admitted.slot.returnType) (fun _ => True)
    early

theorem tame_overlap (api : Nat) (hook : String) (args : List NativeArg) (releases : Bool) :
    Tame host (host.overlap api hook args releases) := by
  refine keeps_get fun s hs => ?_
  dsimp only
  split
  · exact keeps_pure trivial
  · rename_i bridge b hSink
    obtain ⟨number, -, hFound⟩ := Option.bind_eq_some_iff.mp hSink
    obtain ⟨b', hBridge, hSame⟩ := Option.map_eq_some_iff.mp hFound
    cases hSame
    have hAdmission := yields_admission hLoaded (hs.bridge hBridge) false hook args
    have hLetIn (early : Except NativeArg Admitted) (hEarly : AnswersCarried host early) :
        Keeps (Genuine host) (do pure (early, ← host.letIn api releases)) fun held =>
          AnswersCarried host held.1 :=
      keeps_bind (tame_letIn hLoaded api releases) fun _ _ => keeps_pure hEarly
    refine keeps_bind (tame_during (keeps_bind (tame_print _) fun _ _ => ?early))
      fun held (hHeld : AnswersCarried host held.1) => ?late
    case early =>
      split
      · rename_i admitted hAdmitted
        rw [hAdmitted] at hAdmission
        exact hLetIn _ hAdmission
      · rename_i error hError
        rw [hError] at hAdmission
        have hFailed : Blameless BridgeError.blamesType (.error error : Except _ NativeArg) :=
          hAdmission
        exact keeps_bind (tame_settle bridge b hook hFailed)
          fun answer _ => hLetIn (.error answer) trivial
    -- What is delivered after the wait goes by the slot that was found before it.
    case late =>
      have hAnswer (answer : NativeArg) (_ : True) : Tame host (pure (some (held.2, answer))) :=
        keeps_pure trivial
      split
      · rename_i admitted hEarly
        rw [hEarly] at hHeld
        have hDelivered := keeps_deliver hLoaded (tame_run hLoaded) bridge b admitted
        exact keeps_bind hDelivered fun result hResult =>
          keeps_bind (tame_settle bridge b hook (hResult hHeld)) hAnswer
      · exact keeps_bind (keeps_pure trivial) hAnswer

end Host

theorem Operation.tame_perform (hLoaded : host.loaded.Carries) (operation : Operation σ) :
    Tame host (operation.perform host) := by
  have hDispatch := Host.tame_dispatch hLoaded
  have hDiscard : ∀ {β : Type} {action : SessionM σ β} {post : β → Prop},
      Keeps (Genuine host) action post → Tame host (discard action) :=
    fun h => keeps_map (keeps_mono h fun _ _ => trivial)
  cases operation with
  | construct name className constructor args =>
    exact hDiscard (Host.tame_nameApi hDispatch _ (Host.tame_construct hLoaded _ _ _))
  | createApi name className args =>
    exact hDiscard (Host.tame_nameApi hDispatch _ (Host.tame_createApi hLoaded _ _))
  | callStatic className method args => exact hDiscard (Host.tame_callStatic hLoaded _ _ _)
  | invoke api method args => exact hDiscard (Host.tame_invoke hLoaded hDispatch _ _ _)
  | init api => exact hDiscard (Host.tame_init hDispatch _)
  | release api => exact hDiscard (Host.tame_release hDispatch _)
  | register api spi => exact hDiscard (Host.tame_register _ _)
  | dropApi name => exact hDiscard (Host.tame_dropApi hDispatch _)
  | nameHandler name handler => exact Host.tame_nameHandler _ _
  | dropHandler name => exact hDiscard (Host.tame_dropHandler _)
  | nameSpi name className handler => exact hDiscard (Host.tame_nameSpi _ _ _)
  | dropSpi name => exact hDiscard (Host.tame_dropSpi _)
  | dispatch bridge hook args => exact hDiscard (hDispatch _ _ _)
  | tryDispatch bridge b hook args => exact hDiscard (Host.keeps_tryDispatch hLoaded _ _ _ _)
  | enter script => exact hDiscard (Host.tame_enter hLoaded _)
  | callHandler handler h method args => exact hDiscard (Host.tame_callHandler hLoaded _ _ _ _)
  | overlap api hook args releases => exact hDiscard (Host.tame_overlap hLoaded _ _ _ _)
  | attend pieces => exact Host.tame_attend hLoaded _
  | changeNames change => exact tame_changeNames _
  | changeNative change => exact tame_aside (fun _ => rfl) fun _ => rfl

theorem genuine_moments (h : TameDispatcher host dispatch) (api : Nat) (work : NativeRun σ) :
    ∀ s, Genuine host s → ∀ s' ∈ work.moments dispatch api s, Genuine host s' := by
  induction work with
  | answer native reply => exact fun _ _ _ hMem => nomatch hMem
  | invoke native sink hook args next ih =>
    intro s hs s' hMem
    rcases List.mem_cons.mp hMem with rfl | hLater
    · exact hs.rearranged (fun _ hc => hc) rfl
    · exact ih _ _ _ (tame_callBack h api native sink hook args s hs).1 s' hLater

/-- The states of a session, at rest and in the middle of things. -/
inductive Visited (host : Host σ) : State σ → Prop where
  | start (native : σ) : Visited host { native }
  | operate {s : State σ} (operation : Operation σ) : Visited host s →
      Visited host ((operation.perform host).run s).2
  | ask {s : State σ} (request : Request) : Visited host s →
      Visited host ((host.answer request).run s).2
  /-- The library invokes a hook while it works for an instance. -/
  | invoke {s s' : State σ} {dispatch : Dispatcher σ} (api : Nat) (work : NativeRun σ) :
      Visited host s →
      dispatch = host.dispatch ∨ dispatch = dispatchInside host.loaded.marshaler →
      s' ∈ work.moments dispatch api s → Visited host s'
  /-- Anything but the log changes, and no object comes of a class that none was made of before. -/
  | rearrange {s s' : State σ} : Visited host s →
      (∀ c ∈ s'.objects.bindings, c ∈ s.objects.bindings) → s'.log = s.log → Visited host s'
  | event {s : State σ} {event : Event} : Visited host s → (∀ f, event ≠ .faulted f) →
      Visited host (s.logged event)

theorem Visited.genuine (hLoaded : host.loaded.Carries) {s : State σ} (h : Visited host s) :
    Genuine host s := by
  induction h with
  | start native => exact .start native
  | operate operation _ ih => exact (operation.tame_perform hLoaded _ ih).1
  | ask request _ ih => exact (Host.tame_answer hLoaded request _ ih).1
  | invoke api work _ hDispatch hMem ih =>
    refine genuine_moments ?_ api work _ ih _ hMem
    rcases hDispatch with rfl | rfl
    · exact Host.tame_dispatch hLoaded
    · exact tame_dispatchInside hLoaded
  | rearrange _ hObjects hLog ih => exact ih.rearranged hObjects hLog
  | @event _ event _ hEvent ih =>
    refine ih.logged ?_
    cases event with
    | faulted f => exact absurd rfl (hEvent f)
    | _ => rfl

end NativeBinding.Session
