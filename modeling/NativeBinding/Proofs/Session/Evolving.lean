import NativeBinding.Proofs.Module.Lookup
import NativeBinding.Proofs.Session.Admission
import NativeBinding.Proofs.Session.Evolution
import NativeBinding.Proofs.Session.Register

/-! # Everything a session does lets it evolve

Calls, callbacks and scripts let a session evolve, whatever the library and the handlers do. With a
dispatcher that lets the session evolve every call does; the two dispatchers of a session do. What a
script asks for begins no scripting code at all, so nothing need allow it.
-/

set_option autoImplicit false

namespace NativeBinding.Session

variable {σ α : Type} {host : Host σ} {allowed : State σ → Prop} {s : State σ}

section State

theorem evolving_record {event : Event} (hEnters : event.enters? = none)
    (hTurn : event.isTurn = false) : Evolving host allowed (record event) :=
  evolving_modify fun _ => .event hEnters hTurn

theorem evolving_print (line : String) : Evolving host allowed (print line) :=
  evolving_record rfl rfl

theorem evolving_changeNames (change : Names → Names) :
    Evolving host allowed (changeNames change) :=
  evolving_modify fun _ => .aside rfl rfl rfl rfl

theorem evolving_addHandler (handler : Handler) :
    Evolving host allowed (addObject fun r => r.addHandler handler) :=
  fun _ => .single (.addHandler handler)

theorem evolving_letGo (handler : Nat) :
    Evolving host allowed (changeObjects fun r => r.letGo handler) :=
  fun _ => .single (.letGo handler)

theorem leads_during {activity : Activity} {handler : Option Nat} {action : SessionM σ α}
    (hAllowed : allowed s) (hPermits : s.Permits activity) (h : Evolving host allowed action) :
    Leads host allowed s (during activity handler action) fun _ t => t.inside = s.inside :=
  ⟨.turn .refl hAllowed hPermits (h _), rfl⟩

end State

section Native

variable {dispatch : Dispatcher σ}

def EvolvingDispatcher (host : Host σ) (allowed : State σ → Prop) (dispatch : Dispatcher σ) :
    Prop :=
  ∀ bridge hook args, Evolving host allowed (dispatch bridge hook args)

theorem evolving_callBack (h : EvolvingDispatcher host allowed dispatch) (api : Nat) (native : σ)
    (sink : Option Nat) (hook : String) (args : List NativeArg) :
    Evolving host allowed (callBack dispatch api native sink hook args) := by
  have hRest : ∀ answer, Evolving host allowed (do
      record (.calledBack api hook args answer)
      pure answer : SessionM σ (Option NativeArg)) :=
    fun _ => evolving_bind (evolving_record rfl rfl) fun _ => evolving_pure _
  refine evolving_bind (evolving_modify fun _ => .aside rfl rfl rfl rfl) fun _ => ?_
  cases sink with
  | none => exact evolving_bind (evolving_pure _) hRest
  | some bridge => exact evolving_bind (evolving_map (h bridge hook args) _) hRest

theorem evolving_follow (h : EvolvingDispatcher host allowed dispatch) (api : Nat)
    (run : NativeRun σ) : Evolving host allowed (run.follow dispatch api) := by
  induction run with
  | answer native reply =>
    exact evolving_bind (evolving_modify fun _ => .aside rfl rfl rfl rfl) fun _ =>
      evolving_pure _
  | invoke native sink hook args next ih =>
    exact evolving_bind (evolving_callBack h api native sink hook args) fun _ =>
      evolving_get fun _ => ih _ _

theorem evolving_enterOnce {entry : Entry} (hEntry : entry.instance? = none)
    (run : σ → σ × Except NativeFault α) : Evolving host allowed (enterOnce entry run) :=
  evolving_bind (evolving_record hEntry rfl) fun _ => fun _ => .single (.aside rfl rfl rfl rfl)

theorem leads_enterInstance (h : EvolvingDispatcher host allowed dispatch) {api : Nat} {a : Api}
    {entry : Entry} (hEntry : entry.instance? = some api) (hOther : entry ≠ .release api)
    (hApi : s.objects.apis[api]? = some a) (hLive : a.released = false) (run : σ → NativeRun σ) :
    Leads host allowed s (enterInstance dispatch api entry run) fun _ _ => True :=
  leads_bind ⟨.single (.enter hEntry hOther hApi hLive),
    leads_of_evolving (evolving_get fun _ => evolving_follow h api _)⟩

theorem evolving_orFault (method : String) (reply : Except NativeFault α) :
    Evolving host allowed (orFault method reply : CallM σ α).run := by
  cases reply with
  | ok value => exact evolving_callPure value
  | error fault => exact evolving_callThrow _

theorem leads_requireInstance {api : Nat} {post : Except CallError Api → State σ → Prop}
    (hSome : ∀ a, s.objects.apis[api]? = some a → post (.ok a) s)
    (hNone : ∀ e, post (.error e) s) : Leads host allowed s (requireInstance api).run post := by
  unfold requireInstance
  refine leads_callGet ?_
  split
  · exact leads_pure (hSome _ ‹_›)
  · exact leads_pure (hNone _)

theorem leads_requireLive {a : Api} {post : Except CallError Unit → State σ → Prop}
    (hLive : a.released = false → post (.ok ()) s) (hReleased : ∀ e, post (.error e) s) :
    Leads host allowed s (requireLive a).run post := by
  unfold requireLive
  split
  · exact leads_pure (hReleased _)
  · exact leads_pure (hLive (Bool.eq_false_iff.mpr ‹_›))

end Native

namespace Host

variable {dispatch : Dispatcher σ}

theorem evolving_readReply (c : ClassBinding) (t : Trampoline) (reply : NativeArg) :
    Evolving host allowed (host.readReply c t reply).run := by
  unfold readReply
  dsimp only
  split
  · exact evolving_callPure _
  · exact evolving_callThrow _

theorem evolving_construct (className constructor : String) (args : List Value) :
    Evolving host allowed (host.construct className constructor args).run := by
  unfold construct
  refine evolving_callResult fun c hClass => ?_
  have hBinding : c ∈ host.loaded.bindings.classes :=
    LoadedModule.class?_mem (LoadedModule.apiClass_eq_ok_iff.mp hClass).1
  have hAdded : Evolving host allowed (addObject fun r => r.addApi c) :=
    fun _ => .single (.addApi hBinding)
  split
  · refine evolving_callResult fun native _ => ?_
    refine evolving_callBind (evolving_callLift (evolving_enterOnce rfl _)) fun reply => ?_
    exact evolving_callBind (evolving_orFault _ reply) fun _ => evolving_callLift hAdded
  · exact evolving_callThrow _

theorem evolving_release (h : EvolvingDispatcher host allowed dispatch) (api : Nat) :
    Evolving host allowed (host.release dispatch api).run := by
  refine evolving_of_leads fun s => leads_callBind
    (leads_requireInstance (fun a hApi => ?_) fun _ => trivial)
  dsimp only
  split
  · exact leads_of_evolving (evolving_callPure _)
  · rename_i hLive
    have hRest : Evolving host allowed (do
        let reply ← (liftM ((host.library.release s.native api).follow dispatch api) : CallM σ _)
        let _ ← orFault "Release" reply
        pure ()).run :=
      evolving_callBind (evolving_callLift (evolving_follow h api _)) fun reply =>
        evolving_callBind (evolving_orFault _ reply) fun _ => evolving_callPure _
    have hBegins : Step host s _ := .release hApi (Bool.eq_false_iff.mpr hLive)
    exact ⟨(Evolves.single hBegins).trans (hRest _), trivial⟩

theorem evolving_createApi (className : String) (args : List Value) :
    Evolving host allowed (host.createApi className args).run := by
  unfold createApi
  refine evolving_callResult fun c _ => ?_
  split
  · exact evolving_construct _ _ _
  · exact evolving_callThrow _

theorem evolving_runStatic (c : ClassBinding) (t : Trampoline) (args : List Value) :
    Evolving host allowed (host.runStatic c t args).run := by
  unfold runStatic
  refine evolving_callResult fun native _ => ?_
  refine evolving_callBind (evolving_callLift (evolving_enterOnce rfl _)) fun reply => ?_
  exact evolving_callBind (evolving_orFault _ reply) fun _ => evolving_readReply _ _ _

theorem evolving_callStatic (className method : String) (args : List Value) :
    Evolving host allowed (host.callStatic className method args).run := by
  unfold callStatic
  refine evolving_callResult fun c _ => ?_
  split
  · exact evolving_runStatic _ _ _
  · exact evolving_callThrow _

theorem evolving_init (h : EvolvingDispatcher host allowed dispatch) (api : Nat) :
    Evolving host allowed (host.init dispatch api).run := by
  refine evolving_of_leads fun s => leads_callBind
    (leads_requireInstance (fun a hApi => ?_) fun _ => trivial)
  refine leads_callBind (leads_requireLive (fun hLive => ?_) fun _ => trivial)
  refine leads_callBind (leads_callLift ⟨(leads_enterInstance h rfl (by simp) hApi hLive _).1, ?_⟩)
  exact leads_of_evolving (evolving_callBind (evolving_orFault _ _) fun _ => evolving_callPure _)

theorem evolving_invoke (h : EvolvingDispatcher host allowed dispatch) (api : Nat) (method : String)
    (args : List Value) : Evolving host allowed (host.invoke dispatch api method args).run := by
  refine evolving_of_leads fun s => leads_callBind
    (leads_requireInstance (fun a hApi => ?_) fun _ => trivial)
  dsimp only
  split
  · split
    · exact leads_of_evolving
        (evolving_callBind (evolving_init h api) fun _ => evolving_callPure _)
    · exact leads_of_evolving
        (evolving_callBind (evolving_release h api) fun _ => evolving_callPure _)
    · exact leads_of_evolving (evolving_callThrow _)
    · exact leads_of_evolving (evolving_runStatic _ _ _)
    · exact leads_of_evolving (evolving_runStatic _ _ _)
    · refine leads_callBind (leads_requireLive (fun hLive => ?_) fun _ => trivial)
      refine leads_callResult (fun native _ => leads_callBind
        (leads_callLift ⟨(leads_enterInstance h rfl (by simp) hApi hLive _).1, ?_⟩))
        fun _ => trivial
      exact leads_of_evolving
        (evolving_callBind (evolving_orFault _ _) fun _ => evolving_readReply _ _ _)
  · exact leads_of_evolving (evolving_callThrow _)

theorem evolving_register (api spi : Nat) : Evolving host allowed (host.register api spi).run := by
  intro s
  have hRegisters := host.registers s api spi
  revert hRegisters
  generalize ((host.register api spi).run.run s).1 = result
  generalize ((host.register api spi).run.run s).2 = t
  rintro (_ | ⟨hApi, hLive, hSpi, -, hHandler, -⟩)
  · exact .refl
  · exact .single (.register _ _ hApi hLive hSpi hHandler)

theorem evolving_newSpi (className : String) (handler : Nat) :
    Evolving host allowed (host.newSpi className handler).run := by
  unfold newSpi
  refine evolving_callResult fun c hClass => evolving_callLift fun _ => .single (.addSpi handler ?_)
  exact LoadedModule.class?_mem (LoadedModule.interfaceClass_eq_ok_iff.mp hClass).1

end Host

section Callback

variable {m : Marshaler}

theorem evolving_settle (bridge : Nat) (b : Bridge) (hook : String)
    (result : Except BridgeError NativeArg) :
    Evolving host allowed (settle bridge b hook result : SessionM σ NativeArg) := by
  unfold settle
  split
  · exact evolving_pure _
  · exact evolving_pure _
  · exact evolving_bind (evolving_record rfl rfl) fun _ => evolving_pure _

theorem leads_deliver {run : Script Value → SessionM σ (Outcome Value)}
    (h : ∀ script, Evolving host allowed (run script)) (hAllowed : allowed s) (bridge : Nat)
    (b : Bridge) (admitted : Admitted) :
    Leads host allowed s (deliver m run bridge b admitted) fun _ _ => True := by
  refine leads_get ?_
  split
  · exact leads_of_evolving (evolving_pure _)
  · rename_i hLive
    split
    · exact leads_of_evolving (evolving_pure _)
    · exact leads_of_evolving (evolving_pure _)
    · have hPermits : ∀ hook, s.Permits (.handler bridge hook) := fun _ =>
        Registry.isLive_iff.mp (by simpa using hLive)
      refine leads_then (leads_during hAllowed (hPermits _) (h _)) fun _ _ _ =>
        leads_of_evolving ?_
      split <;> exact evolving_pure _

theorem evolving_tryDispatchWith {b : Bridge} {hook : String} {args : List NativeArg}
    {onAdmitted : Admitted → SessionM σ (Except BridgeError NativeArg)}
    (h : ∀ s admitted, s.inside = false →
      Leads host allowed s (onAdmitted admitted) fun _ _ => True) :
    Evolving host allowed (tryDispatchWith m b hook args onAdmitted) := by
  refine evolving_of_leads fun s => leads_get ?_
  split
  · exact h s _ (inside_of_admission ‹_›)
  · exact leads_of_evolving (evolving_pure _)

theorem evolving_tryDispatchInside (b : Bridge) (hook : String) (args : List NativeArg) :
    Evolving host allowed (tryDispatchInside m b hook args) :=
  evolving_tryDispatchWith fun _ _ _ => leads_of_evolving (evolving_pure _)

theorem evolving_dispatchWith
    {tries : Nat → Bridge → String → List NativeArg → SessionM σ (Except BridgeError NativeArg)}
    (h : ∀ bridge b hook args, Evolving host allowed (tries bridge b hook args)) :
    EvolvingDispatcher host allowed (dispatchWith tries) := by
  intro bridge hook args
  refine evolving_get fun s => ?_
  split
  · exact evolving_bind (h _ _ _ _) fun result => evolving_settle _ _ _ result
  · exact evolving_pure _

theorem evolving_dispatchInside : EvolvingDispatcher host allowed (dispatchInside m) :=
  evolving_dispatchWith fun _ => evolving_tryDispatchInside

end Callback

namespace Host

variable {dispatch : Dispatcher σ}

theorem evolving_dropInstance (h : EvolvingDispatcher host allowed dispatch) (api : Nat) :
    Evolving host allowed (host.dropInstance dispatch api) :=
  evolving_bind (evolving_release h api) fun _ => evolving_pure _

theorem evolving_named (table : Names → List (String × Nat)) (name : String) :
    Evolving host allowed (named table name : CallM σ Nat).run := by
  refine evolving_callGet fun s => ?_
  split
  · exact evolving_callPure _
  · exact evolving_callThrow _

theorem evolving_nameApi (h : EvolvingDispatcher host allowed dispatch) (name : String)
    {make : CallM σ Nat} (hMake : Evolving host allowed make.run) :
    Evolving host allowed (host.nameApi dispatch name make).run := by
  refine evolving_callBind hMake fun api => evolving_callGet fun s => ?_
  refine evolving_callBind (evolving_callLift (evolving_changeNames _)) fun _ => ?_
  dsimp only
  split
  · exact evolving_callBind (evolving_callLift (evolving_dropInstance h _)) fun _ =>
      evolving_callPure _
  · exact evolving_callPure _

theorem evolving_dropApi (h : EvolvingDispatcher host allowed dispatch) (name : String) :
    Evolving host allowed (host.dropApi dispatch name) := by
  refine evolving_get fun s => ?_
  split
  · exact evolving_pure _
  · exact evolving_bind (evolving_changeNames _) fun _ =>
      evolving_bind (evolving_dropInstance h _) fun _ => evolving_pure _

theorem evolving_nameHandler (name : String) (handler : Handler) :
    Evolving host allowed (nameHandler name handler : SessionM σ Unit) := by
  refine evolving_get fun s => evolving_bind (evolving_addHandler handler) fun number =>
    evolving_bind (evolving_changeNames _) fun _ => ?_
  split
  · exact evolving_letGo _
  · exact evolving_pure _

theorem evolving_dropHandler (name : String) :
    Evolving host allowed (dropHandler name : SessionM σ Bool) := by
  refine evolving_get fun s => ?_
  split
  · exact evolving_pure _
  · exact evolving_bind (evolving_changeNames _) fun _ =>
      evolving_bind (evolving_letGo _) fun _ => evolving_pure _

theorem evolving_dropSpi (name : String) : Evolving host allowed (dropSpi name : SessionM σ Bool) :=
  evolving_get fun _ => evolving_bind (evolving_changeNames _) fun _ => evolving_pure _

theorem evolving_nameSpi (name className handler : String) :
    Evolving host allowed (host.nameSpi name className handler) := by
  refine evolving_get fun s => ?_
  split
  · exact evolving_pure _
  · refine evolving_bind (evolving_newSpi className _) fun result => ?_
    split
    · exact evolving_pure _
    · exact evolving_bind (evolving_changeNames _) fun _ => evolving_pure _

theorem evolving_setGlobal (name : String) (value : Value) :
    Evolving host allowed (setGlobal name value : SessionM σ Unit) :=
  evolving_modify fun _ => .aside rfl rfl rfl rfl

theorem evolving_getGlobal (name : String) :
    Evolving host allowed (getGlobal name : SessionM σ Value) :=
  evolving_get fun _ => evolving_pure _

theorem evolving_removeGlobal (name : String) :
    Evolving host allowed (removeGlobal name : SessionM σ Value) :=
  evolving_bind (evolving_getGlobal name) fun _ =>
    evolving_bind (evolving_modify fun _ => .aside rfl rfl rfl rfl) fun _ => evolving_pure _

theorem evolving_bumpGlobal (name : String) (amount : Int64) :
    Evolving host allowed (bumpGlobal name amount : SessionM σ Value) :=
  evolving_bind (evolving_getGlobal name) fun _ =>
    evolving_bind (evolving_setGlobal name _) fun _ => evolving_pure _

theorem evolving_answerDispatch (bridge hook : String) (args : List NativeArg) :
    Evolving host allowed (host.answerDispatch bridge hook args) := by
  refine evolving_get fun s => ?_
  split
  · exact evolving_pure _
  · refine evolving_bind (evolving_tryDispatchInside _ hook args) fun result => ?_
    split <;> exact evolving_pure _

theorem evolving_calling {call : CallM σ Value} (h : Evolving host allowed call.run) :
    Evolving host allowed (calling call) :=
  evolving_bind h fun _ => evolving_pure _

theorem evolving_answer (request : Request) : Evolving host allowed (host.answer request) := by
  have hInside : EvolvingDispatcher host allowed
      (dispatchInside host.loaded.marshaler : Dispatcher σ) := evolving_dispatchInside
  cases request with
  | print line => exact evolving_bind (evolving_print line) fun _ => evolving_pure _
  | get name => exact evolving_bind (evolving_getGlobal name) fun _ => evolving_pure _
  | set name value => exact evolving_bind (evolving_setGlobal name value) fun _ => evolving_pure _
  | remove name => exact evolving_bind (evolving_removeGlobal name) fun _ => evolving_pure _
  | bump name amount =>
    exact evolving_bind (evolving_bumpGlobal name amount) fun _ => evolving_pure _
  | newRecord name => exact evolving_pure _
  | construct name className constructor args =>
    exact evolving_calling (evolving_callBind
      (evolving_nameApi hInside name (evolving_construct className constructor args))
      fun _ => evolving_callPure _)
  | callStatic className method args => exact evolving_calling (evolving_callStatic _ _ _)
  | invoke api method args =>
    exact evolving_calling (evolving_callBind (evolving_named _ api) fun _ =>
      evolving_invoke hInside _ _ _)
  | init api =>
    exact evolving_calling (evolving_callBind (evolving_named _ api) fun _ =>
      evolving_callBind (evolving_init hInside _) fun _ => evolving_callPure _)
  | release api =>
    exact evolving_calling (evolving_callBind (evolving_named _ api) fun _ =>
      evolving_callBind (evolving_release hInside _) fun _ => evolving_callPure _)
  | register api spi =>
    exact evolving_calling (evolving_callBind (evolving_named _ api) fun _ =>
      evolving_callBind (evolving_named _ spi) fun _ =>
        evolving_callBind (evolving_register _ _) fun _ => evolving_callPure _)
  | dropApi api => exact evolving_bind (evolving_dropApi hInside api) fun _ => evolving_pure _
  | newSpi spi className handler =>
    exact evolving_bind (evolving_nameSpi spi className handler) fun _ => evolving_pure _
  | dropHandler handler =>
    exact evolving_bind (evolving_dropHandler handler) fun _ => evolving_pure _
  | enter => exact evolving_get fun _ => evolving_pure _
  | dispatch bridge hook args => exact evolving_answerDispatch bridge hook args

theorem evolving_run (script : Script α) : Evolving host allowed (host.run script) := by
  induction script with
  | done value => exact evolving_pure _
  | raise error => exact evolving_pure _
  | panic message => exact evolving_pure _
  | perform request next ih => exact evolving_bind (evolving_answer request) ih

theorem evolving_letIn (api : Nat) (releases : Bool) :
    Evolving host allowed (host.letIn api releases) := by
  have hPrint : ∀ released, Evolving host allowed (do
      print (if releases then "joined" else "letting go")
      pure released : SessionM σ (Option (Except CallError Unit))) :=
    fun _ => evolving_bind (evolving_print _) fun _ => evolving_pure _
  cases releases with
  | true =>
    exact evolving_bind (evolving_map (evolving_release evolving_dispatchInside api) _) hPrint
  | false => exact evolving_bind (evolving_pure _) hPrint

section Turns

variable (hAllowed : ∀ s : State σ, s.inside = false → allowed s)

include hAllowed

theorem evolving_tryDispatch (bridge : Nat) (b : Bridge) (hook : String) (args : List NativeArg) :
    Evolving host allowed (host.tryDispatch bridge b hook args) :=
  evolving_tryDispatchWith fun _ admitted hOutside =>
    leads_deliver evolving_run (hAllowed _ hOutside) bridge b admitted

theorem evolving_dispatch : EvolvingDispatcher host allowed host.dispatch :=
  evolving_dispatchWith (evolving_tryDispatch hAllowed)

theorem evolving_enterWith {handler : Option Nat} {action : SessionM σ α}
    (h : Evolving host allowed action) :
    Evolving host allowed (do
      if (← get).inside then pure (.error .reentrantEnter)
      else pure (.ok (← during .host handler action)) :
        SessionM σ (Except BridgeError α)) := by
  refine evolving_of_leads fun s => leads_get ?_
  split
  · exact leads_of_evolving (evolving_pure _)
  · rename_i hOutside
    have hInside : s.inside = false := by simpa using hOutside
    exact leads_then (leads_during (hAllowed s hInside) s.permits_host h) fun _ _ _ =>
      leads_of_evolving (evolving_pure _)

theorem evolving_enter (script : Script α) : Evolving host allowed (host.enter script) :=
  evolving_enterWith hAllowed (evolving_run script)

theorem evolving_callHandler (handler : Nat) (h : Handler) (method : String) (args : List Value) :
    Evolving host allowed (host.callHandler handler h method args) :=
  evolving_enterWith hAllowed (evolving_run _)

theorem evolving_attend (pieces : Nat) : Evolving host allowed (host.attend pieces) := by
  induction pieces with
  | zero => exact evolving_pure _
  | succ pieces ih =>
    refine evolving_get fun s => ?_
    split
    · exact evolving_pure _
    · exact evolving_bind (evolving_follow (evolving_dispatch hAllowed) _ _) fun _ => ih

end Turns

theorem leads_overlap (hAllowed : ∀ t : State σ, t.inside = s.inside → allowed t) (api : Nat)
    (hook : String) (args : List NativeArg) (releases : Bool) :
    Leads host allowed s (host.overlap api hook args releases) fun _ _ => True := by
  refine leads_get ?_
  dsimp only
  split
  · exact leads_of_evolving (evolving_pure _)
  · refine leads_then (leads_during (hAllowed s rfl) s.permits_host
      (evolving_bind (evolving_print _) fun _ => ?_)) fun held t hBack => ?_
    · split
      · exact evolving_bind (evolving_pure _) fun _ =>
          evolving_bind (evolving_letIn api releases) fun _ => evolving_pure _
      · exact evolving_bind (evolving_settle _ _ _ _) fun _ => evolving_bind (evolving_pure _)
          fun _ => evolving_bind (evolving_letIn api releases) fun _ => evolving_pure _
    · split
      · exact leads_then (leads_deliver evolving_run (hAllowed t hBack) _ _ _) fun _ _ _ =>
          leads_of_evolving (evolving_bind (evolving_settle _ _ _ _) fun _ => evolving_pure _)
      · exact leads_of_evolving (evolving_bind (evolving_pure _) fun _ => evolving_pure _)

end Host

end NativeBinding.Session
