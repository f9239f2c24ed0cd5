import NativeBinding.Proofs.Marshal.Blame
import NativeBinding.Proofs.Module.Lookup
import NativeBinding.Proofs.Session.Keeps
import NativeBinding.Session.Run

/-! # Sessions over carried types

The instances, Spi objects and bridges of a session are bound by classes of its module. When these
carry their types, no error on the way to the native library or back blames a type, and none that is
recorded does. Every operation, every request of a script and every work of the library keeps this,
whatever the library answers and the scripts do.
-/

set_option autoImplicit false

namespace NativeBinding

def BridgeError.blamesType : BridgeError → Bool
  | marshal _ cause => cause.blamesType
  | layout cause => cause.blamesType
  | _ => false

def CallError.blamesType : CallError → Bool
  | marshal cause => cause.blamesType
  | bridge cause => cause.blamesType
  | _ => false

namespace Session

def Event.blamesType : Event → Bool
  | .faulted f => f.error.blamesType
  | _ => false

/-- The types of a module's classes are carried, but for the handles that factories return and
registrations take. -/
structure LoadedModule.Carries (l : LoadedModule) : Prop where
  ranked : ∃ rank, l.marshaler.layouts.Ranked rank
  constructors : ∀ c ∈ l.bindings.classes, ∀ t ∈ c.constructors, ∀ p ∈ t.params,
    l.marshaler.Carries p.type
  methods : ∀ c ∈ l.bindings.classes, ∀ t ∈ c.methods, (∀ name, t.kind ≠ .register name) →
    (∀ p ∈ t.params, l.marshaler.Carries p.type) ∧ l.marshaler.Carries t.returnType
  slots : ∀ c ∈ l.bindings.classes, ∀ s ∈ c.overrides,
    (∀ p ∈ s.params, l.marshaler.Carries p.type) ∧ l.marshaler.Carries s.returnType

namespace Registry

/-- The classes that the objects of a session were made of. -/
def bindings (r : Registry) : List ClassBinding :=
  r.apis.map (·.binding) ++ r.spis.map (·.binding) ++ r.bridges.map (·.binding)

theorem map_modify_of_same {α β : Type} {f : α → α} {g : α → β} (h : ∀ x, g (f x) = g x)
    (xs : List α) (i : Nat) : (xs.modify i f).map g = xs.map g := by
  refine List.ext_getElem? fun j => ?_
  rw [List.getElem?_map, List.getElem?_map, List.getElem?_modify]
  cases xs[j]? with
  | none => rfl
  | some x => by_cases hSame : i = j <;> simp [hSame, h]

variable (r : Registry)

@[simp] theorem bindings_retire (bridge : Nat) : (r.retire bridge).bindings = r.bindings := by
  simp only [bindings, retire]
  rw [map_modify_of_same]
  exact fun _ => rfl

@[simp] theorem bindings_retireAny (bridge : Option Nat) :
    (r.retireAny bridge).bindings = r.bindings := by
  cases bridge with
  | none => rfl
  | some bridge => exact r.bindings_retire bridge

theorem bindings_modifyApis {f : Api → Api} (h : ∀ a, (f a).binding = a.binding) (i : Nat) :
    bindings { r with apis := r.apis.modify i f } = r.bindings := by
  simp only [bindings]
  rw [map_modify_of_same h]

theorem bindings_modifySpis {f : Spi → Spi} (h : ∀ s, (f s).binding = s.binding) (i : Nat) :
    bindings { r with spis := r.spis.modify i f } = r.bindings := by
  simp only [bindings]
  rw [map_modify_of_same h]

@[simp] theorem bindings_accept (api spi bridge : Nat) :
    (r.accept api spi bridge).bindings = r.bindings := by
  simp only [accept]
  rw [bindings_retireAny, bindings_modifyApis, bindings_retireAny, bindings_modifySpis]
  · exact fun _ => rfl
  · exact fun _ => rfl

@[simp] theorem bindings_close (api : Nat) : (r.close api).bindings = r.bindings := by
  simp only [close]
  rw [bindings_retireAny, bindings_modifyApis]
  exact fun _ => rfl

theorem mem_bindings_addApi {binding c : ClassBinding} :
    c ∈ (r.addApi binding).2.bindings ↔ c ∈ r.bindings ∨ c = binding := by
  simp only [bindings, addApi, List.map_append, List.mem_append, List.map_singleton,
    List.mem_singleton]
  tauto

theorem mem_bindings_addSpi {binding c : ClassBinding} {handler : Nat} :
    c ∈ (r.addSpi binding handler).2.bindings ↔ c ∈ r.bindings ∨ c = binding := by
  simp only [bindings, addSpi, List.map_append, List.mem_append, List.map_singleton,
    List.mem_singleton]
  tauto

theorem mem_bindings_openBridge {api spi : Nat} {s : Spi} {handler : Handler} {c : ClassBinding} :
    c ∈ (r.openBridge api spi s handler).2.bindings ↔ c ∈ r.bindings ∨ c = s.binding := by
  simp only [bindings, openBridge, List.map_append, List.mem_append, List.map_singleton,
    List.mem_singleton]
  tauto

end Registry

variable {σ α : Type}

/-- The state of a session whose objects are bound by classes of the module. -/
structure Genuine (host : Host σ) (s : State σ) : Prop where
  bound : ∀ c ∈ s.objects.bindings, c ∈ host.loaded.bindings.classes
  log : ∀ event ∈ s.log, event.blamesType = false

/-- An action that keeps the state of a session genuine. -/
abbrev Tame (host : Host σ) (action : SessionM σ α) : Prop :=
  Keeps (Genuine host) action fun _ => True

abbrev Blameless {ε : Type} (blames : ε → Bool) (result : Except ε α) : Prop :=
  Yields (fun _ => True) (fun e => blames e = false) result

/-- A call that keeps the state genuine and does not fail because of a type. -/
abbrev TameCall (host : Host σ) (call : CallM σ α) : Prop :=
  Keeps (Genuine host) call.run (Blameless CallError.blamesType)

section Results

variable {l : LoadedModule}

theorem blameless_marshalArguments {m : Marshaler} {rank : String → Nat}
    (hRanked : m.layouts.Ranked rank) {callee : String} {tooFew : CallError}
    (hTooFew : tooFew.blamesType = false) {params : List ParamBinding}
    (hParams : ∀ p ∈ params, m.Carries p.type) (values : List Value) :
    Blameless CallError.blamesType (marshalArguments m callee tooFew params values) := by
  induction params generalizing values with
  | nil => trivial
  | cons p params ih =>
    have hRest := ih (fun q hq => hParams q (List.mem_cons_of_mem _ hq)) values.tail
    rw [marshalArguments]
    split
    · rename_i value _
      have hArg : Blameless CallError.blamesType
          ((m.toNative p.type value s!"{callee}({p.name})").mapError .marshal) :=
        yields_mapError (Marshaler.accepts_toNative hRanked (hParams p List.mem_cons_self) value)
      exact yields_bind hArg fun _ _ => yields_bind hRest fun _ _ => trivial
    · exact hTooFew

theorem blameless_nativeArguments {m : Marshaler} {rank : String → Nat}
    (hRanked : m.layouts.Ranked rank) {params : List ParamBinding}
    (hParams : ∀ p ∈ params, m.Carries p.type) (className method : String) (values : List Value) :
    Blameless CallError.blamesType (nativeArguments m className method params values) := by
  unfold nativeArguments
  dsimp only
  split
  · exact rfl
  · exact blameless_marshalArguments hRanked rfl hParams values

theorem blameless_hookArguments {m : Marshaler} {rank : String → Nat}
    (hRanked : m.layouts.Ranked rank) {slot : OverrideSlot}
    (hParams : ∀ p ∈ slot.params, m.Carries p.type) (interfaceName : String)
    (args : List NativeArg) :
    Blameless BridgeError.blamesType (hookArguments m interfaceName slot args) := by
  unfold hookArguments
  split
  · exact rfl
  · refine yields_mapError (yields_mapM fun p hp => ?_)
    exact Marshaler.accepts_toScript hRanked (hParams _ (List.of_mem_zip hp).1) _

theorem blameless_hookAnswer {m : Marshaler} {rank : String → Nat}
    (hRanked : m.layouts.Ranked rank) {slot : OverrideSlot} (hReturn : m.Carries slot.returnType)
    (interfaceName : String) (value : Value) :
    Blameless BridgeError.blamesType (hookAnswer m interfaceName slot value) := by
  unfold hookAnswer
  split
  · trivial
  · exact yields_mapError (Marshaler.accepts_toNative hRanked hReturn value)

theorem yields_apiClass (name : String) :
    Yields (fun c => c ∈ l.bindings.classes) (fun e => e.blamesType = false) (l.apiClass name) := by
  cases hClass : l.apiClass name with
  | ok c => exact LoadedModule.class?_mem (LoadedModule.apiClass_eq_ok_iff.mp hClass).1
  | error e =>
    unfold LoadedModule.apiClass at hClass
    split at hClass
    · split at hClass <;> cases hClass
      rfl
    · cases hClass
      rfl

theorem yields_interfaceClass (name : String) :
    Yields (fun c => c ∈ l.bindings.classes) (fun _ => True) (l.interfaceClass name) := by
  cases hClass : l.interfaceClass name with
  | ok c => exact LoadedModule.class?_mem (LoadedModule.interfaceClass_eq_ok_iff.mp hClass).1
  | error e => trivial

end Results

section State

variable {host : Host σ} {s : State σ}

theorem Genuine.start (native : σ) : Genuine host { native } where
  bound _ hc := nomatch hc
  log _ hEvent := nomatch hEvent

theorem Genuine.api (h : Genuine host s) {api : Nat} {a : Api}
    (hApi : s.objects.apis[api]? = some a) : a.binding ∈ host.loaded.bindings.classes := by
  refine h.bound _ ?_
  rw [Registry.bindings, List.append_assoc]
  exact List.mem_append_left _ (List.mem_map_of_mem (List.mem_of_getElem? hApi))

theorem Genuine.spi (h : Genuine host s) {spi : Nat} {p : Spi}
    (hSpi : s.objects.spis[spi]? = some p) : p.binding ∈ host.loaded.bindings.classes := by
  refine h.bound _ ?_
  rw [Registry.bindings, List.append_assoc]
  exact List.mem_append_right _
    (List.mem_append_left _ (List.mem_map_of_mem (List.mem_of_getElem? hSpi)))

theorem Genuine.bridge (h : Genuine host s) {bridge : Nat} {b : Bridge}
    (hBridge : s.objects.bridges[bridge]? = some b) :
    b.binding ∈ host.loaded.bindings.classes := by
  refine h.bound _ ?_
  rw [Registry.bindings]
  exact List.mem_append_right _ (List.mem_map_of_mem (List.mem_of_getElem? hBridge))

theorem Genuine.rearranged (h : Genuine host s) {s' : State σ}
    (hObjects : ∀ c ∈ s'.objects.bindings, c ∈ s.objects.bindings) (hLog : s'.log = s.log) :
    Genuine host s' where
  bound c hc := h.bound c (hObjects c hc)
  log event hEvent := h.log event (hLog ▸ hEvent)

theorem Genuine.logged (h : Genuine host s) {event : Event}
    (hEvent : event.blamesType = false) : Genuine host { s with log := s.log ++ [event] } where
  bound := h.bound
  log other hOther := by
    rcases List.mem_append.mp hOther with hOther | hOther
    · exact h.log other hOther
    · exact List.mem_singleton.mp hOther ▸ hEvent

theorem tame_record {event : Event} (hEvent : event.blamesType = false) :
    Tame host (record event) :=
  keeps_modify fun _ hs => hs.logged hEvent

theorem tame_print (line : String) : Tame host (print line) :=
  tame_record rfl

theorem tame_aside {change : State σ → State σ} (hObjects : ∀ s, (change s).objects = s.objects)
    (hLog : ∀ s, (change s).log = s.log) : Tame host (modify change) :=
  keeps_modify fun s hs => hs.rearranged (fun _ hc => hObjects s ▸ hc) (hLog s)

theorem tame_changeNames (change : Names → Names) : Tame host (changeNames change) :=
  tame_aside (fun _ => rfl) fun _ => rfl

theorem tame_changeObjects {change : Registry → Registry}
    (h : ∀ r, (change r).bindings = r.bindings) : Tame host (changeObjects change) :=
  keeps_modify fun s hs => hs.rearranged (fun _ hc => h s.objects ▸ hc) rfl

theorem tame_addObject {add : Registry → Nat × Registry} {binding : ClassBinding}
    (hBinding : binding ∈ host.loaded.bindings.classes)
    (h : ∀ r, ∀ c ∈ (add r).2.bindings, c ∈ r.bindings ∨ c = binding) :
    Tame host (addObject add) := by
  intro s hs
  refine ⟨⟨fun c hc => ?_, hs.log⟩, trivial⟩
  rcases h s.objects c hc with hc | rfl
  · exact hs.bound c hc
  · exact hBinding

theorem tame_during {activity : Activity} {handler : Option Nat} {action : SessionM σ α}
    {post : α → Prop} (h : Keeps (Genuine host) action post) :
    Keeps (Genuine host) (during activity handler action) post := by
  have hInside : ∀ inside running,
      Tame host (modify fun s => { s with inside, running }) :=
    fun _ _ => tame_aside (fun _ => rfl) fun _ => rfl
  refine keeps_get fun s _ => keeps_bind (tame_record rfl) fun _ _ => ?_
  refine keeps_bind (hInside _ _) fun _ _ => keeps_bind h fun a ha => ?_
  exact keeps_bind (hInside _ _) fun _ _ => keeps_bind (tame_record rfl) fun _ _ => keeps_pure ha

end State

section Native

variable {host : Host σ} {dispatch : Dispatcher σ}

def TameDispatcher (host : Host σ) (dispatch : Dispatcher σ) : Prop :=
  ∀ bridge hook args, Tame host (dispatch bridge hook args)

theorem tame_callBack (h : TameDispatcher host dispatch) (api : Nat) (native : σ)
    (sink : Option Nat) (hook : String) (args : List NativeArg) :
    Tame host (callBack dispatch api native sink hook args) := by
  have hRest : ∀ answer : Option NativeArg, True → Tame host (do
      record (.calledBack api hook args answer)
      pure answer) :=
    fun _ _ => keeps_bind (tame_record rfl) fun _ _ => keeps_pure trivial
  refine keeps_bind (tame_aside (fun _ => rfl) fun _ => rfl) fun _ _ => ?_
  cases sink with
  | none => exact keeps_bind (keeps_pure trivial) hRest
  | some bridge => exact keeps_bind (keeps_map (h bridge hook args)) hRest

theorem tame_follow (h : TameDispatcher host dispatch) (api : Nat) (run : NativeRun σ) :
    Tame host (run.follow dispatch api) := by
  induction run with
  | answer native reply =>
    exact keeps_bind (tame_aside (fun _ => rfl) fun _ => rfl) fun _ _ => keeps_pure trivial
  | invoke native sink hook args next ih =>
    exact keeps_bind (tame_callBack h api native sink hook args) fun _ _ =>
      keeps_get fun _ _ => ih _ _

theorem tame_enterOnce (entry : Entry) (run : σ → σ × Except NativeFault α) :
    Tame host (enterOnce entry run) := by
  refine keeps_bind (tame_record rfl) fun _ _ => ?_
  exact fun s hs => ⟨hs.rearranged (fun _ hc => hc) rfl, trivial⟩

theorem tame_enterInstance (h : TameDispatcher host dispatch) (api : Nat) (entry : Entry)
    (run : σ → NativeRun σ) : Tame host (enterInstance dispatch api entry run) :=
  keeps_bind (tame_record rfl) fun _ _ => keeps_get fun _ _ => tame_follow h api _

theorem tame_orFault (method : String) (reply : Except NativeFault α) :
    TameCall host (orFault method reply) := by
  cases reply with
  | ok value => exact keeps_callPure trivial
  | error fault => exact keeps_callThrow rfl

theorem keeps_requireInstance (api : Nat) :
    Keeps (Genuine host) (requireInstance api).run
      (Yields (fun a => a.binding ∈ host.loaded.bindings.classes)
        fun e => e.blamesType = false) := by
  refine keeps_callGet fun s hs => ?_
  split
  · exact keeps_callPure (hs.api ‹_›)
  · exact keeps_callThrow rfl

theorem tame_requireLive (a : Api) : TameCall host (requireLive a) := by
  unfold requireLive
  split
  · exact keeps_callThrow rfl
  · exact keeps_callPure trivial

end Native

namespace Host

variable {host : Host σ} {dispatch : Dispatcher σ}

section Calls

variable (hLoaded : host.loaded.Carries)

include hLoaded

theorem tame_nativeArguments {params : List ParamBinding}
    (hParams : ∀ p ∈ params, host.loaded.marshaler.Carries p.type) (className method : String)
    (args : List Value) :
    TameCall host
      (liftM (nativeArguments host.loaded.marshaler className method params args)) := by
  obtain ⟨rank, hRanked⟩ := hLoaded.ranked
  exact keeps_callResult (blameless_nativeArguments hRanked hParams className method args)

theorem tame_readReply (c : ClassBinding) {t : Trampoline}
    (hReturn : host.loaded.marshaler.Carries t.returnType) (reply : NativeArg) :
    TameCall host (host.readReply c t reply) := by
  obtain ⟨rank, hRanked⟩ := hLoaded.ranked
  have hRead : Marshaler.Accepts (host.loaded.marshaler.toScript t.returnType reply
      s!"{c.className}::{t.name} -> return") := Marshaler.accepts_toScript hRanked hReturn reply
  unfold readReply
  dsimp only
  split
  · exact keeps_callPure trivial
  · rename_i cause hCause
    rw [hCause] at hRead
    exact keeps_callThrow hRead

theorem tame_construct (className constructor : String) (args : List Value) :
    TameCall host (host.construct className constructor args) := by
  unfold construct
  refine keeps_callBind (keeps_callResult (yields_apiClass className)) fun c hc => ?_
  split
  · rename_i t hFactory
    have hParams := hLoaded.constructors c hc t (List.mem_of_find?_eq_some hFactory)
    refine keeps_callBind (tame_nativeArguments hLoaded hParams _ _ args) fun native _ => ?_
    refine keeps_callBind (keeps_callLift (tame_enterOnce _ _)) fun reply _ => ?_
    refine keeps_callBind (tame_orFault _ reply) fun _ _ => ?_
    exact keeps_callLift (tame_addObject hc fun r _ => (r.mem_bindings_addApi).mp)
  · exact keeps_callThrow rfl

theorem tame_createApi (className : String) (args : List Value) :
    TameCall host (host.createApi className args) := by
  unfold createApi
  refine keeps_callBind (keeps_callResult (yields_apiClass className)) fun c _ => ?_
  split
  · exact tame_construct hLoaded _ _ _
  · exact keeps_callThrow rfl

theorem tame_runStatic (c : ClassBinding) {t : Trampoline}
    (hParams : ∀ p ∈ t.params, host.loaded.marshaler.Carries p.type)
    (hReturn : host.loaded.marshaler.Carries t.returnType) (args : List Value) :
    TameCall host (host.runStatic c t args) := by
  unfold runStatic
  refine keeps_callBind (tame_nativeArguments hLoaded hParams _ _ args) fun native _ => ?_
  refine keeps_callBind (keeps_callLift (tame_enterOnce _ _)) fun reply _ => ?_
  exact keeps_callBind (tame_orFault _ reply) fun _ _ => tame_readReply hLoaded c hReturn _

theorem tame_callStatic (className method : String) (args : List Value) :
    TameCall host (host.callStatic className method args) := by
  unfold callStatic
  refine keeps_callBind (keeps_callResult (yields_apiClass className)) fun c hc => ?_
  split
  · rename_i t hMethod
    obtain ⟨hFind, hStatic⟩ := Option.filter_eq_some_iff.mp hMethod
    have hKind : t.kind = .static := by simpa using hStatic
    obtain ⟨hParams, hReturn⟩ := hLoaded.methods c hc t (List.mem_of_find?_eq_some hFind)
      (by simp [hKind])
    exact tame_runStatic hLoaded c hParams hReturn args
  · exact keeps_callThrow rfl

end Calls

theorem tame_init (h : TameDispatcher host dispatch) (api : Nat) :
    TameCall host (host.init dispatch api) := by
  refine keeps_callBind (keeps_requireInstance api) fun a _ => ?_
  refine keeps_callBind (tame_requireLive a) fun _ _ => ?_
  refine keeps_callBind (keeps_callLift (tame_enterInstance h _ _ _)) fun reply _ => ?_
  exact keeps_callBind (tame_orFault _ reply) fun _ _ => keeps_callPure trivial

theorem tame_release (h : TameDispatcher host dispatch) (api : Nat) :
    TameCall host (host.release dispatch api) := by
  refine keeps_callBind (keeps_requireInstance api) fun a _ => ?_
  split
  · exact keeps_callPure trivial
  · refine keeps_callBind
      (keeps_callLift (tame_changeObjects fun r => r.bindings_close api)) fun _ _ => ?_
    refine keeps_callBind (keeps_callLift (tame_enterInstance h _ _ _)) fun reply _ => ?_
    exact keeps_callBind (tame_orFault _ reply) fun _ _ => keeps_callPure trivial

theorem tame_invoke (hLoaded : host.loaded.Carries) (h : TameDispatcher host dispatch) (api : Nat)
    (method : String) (args : List Value) :
    TameCall host (host.invoke dispatch api method args) := by
  refine keeps_callBind (keeps_requireInstance api) fun a ha => ?_
  dsimp only
  split
  · rename_i t hMethod
    have hCarried := hLoaded.methods _ ha t (List.mem_of_find?_eq_some hMethod)
    split
    · exact keeps_callBind (tame_init h api) fun _ _ => keeps_callPure trivial
    · exact keeps_callBind (tame_release h api) fun _ _ => keeps_callPure trivial
    -- A registration is refused before its handle is read.
    · exact keeps_callThrow rfl
    · rename_i hKind
      obtain ⟨hParams, hReturn⟩ := hCarried (by simp [hKind])
      exact tame_runStatic hLoaded _ hParams hReturn args
    · rename_i hKind
      obtain ⟨hParams, hReturn⟩ := hCarried (by simp [hKind])
      exact tame_runStatic hLoaded _ hParams hReturn args
    · rename_i hKind
      obtain ⟨hParams, hReturn⟩ := hCarried (by simp [hKind])
      refine keeps_callBind (tame_requireLive a) fun _ _ => ?_
      refine keeps_callBind (tame_nativeArguments hLoaded hParams _ _ args) fun native _ => ?_
      refine keeps_callBind (keeps_callLift (tame_enterInstance h _ _ _)) fun reply _ => ?_
      exact keeps_callBind (tame_orFault _ reply) fun _ _ => tame_readReply hLoaded _ hReturn _
  · exact keeps_callThrow rfl

theorem tame_settleRegistration (api spi bridge : Nat) (method : String)
    (reply : Except NativeFault Unit) :
    TameCall host (settleRegistration api spi bridge method reply) := by
  cases reply with
  | ok =>
    exact keeps_callBind
      (keeps_callLift (tame_changeObjects fun r => r.bindings_accept api spi bridge))
      fun _ _ => keeps_callPure trivial
  | error fault =>
    exact keeps_callBind (keeps_callLift (tame_changeObjects fun r => r.bindings_retire bridge))
      fun _ _ => keeps_callThrow rfl

theorem tame_register (api spi : Nat) : TameCall host (host.register api spi) := by
  refine keeps_callBind (keeps_requireInstance api) fun a _ => ?_
  refine keeps_callBind (tame_requireLive a) fun _ _ => ?_
  refine keeps_callGet fun s hs => ?_
  split
  · rename_i p hSpi
    split
    · dsimp only
      split
      · exact keeps_callThrow rfl
      · split
        · refine keeps_callBind (keeps_callLift (tame_addObject (hs.spi hSpi) fun r _ =>
            (r.mem_bindings_openBridge).mp)) fun bridge _ => ?_
          refine keeps_callBind (keeps_callLift (tame_enterOnce _ _)) fun reply _ => ?_
          exact tame_settleRegistration _ _ _ _ reply
        · exact keeps_callThrow rfl
    · exact keeps_callThrow rfl
  · exact keeps_callThrow rfl

theorem tame_newSpi (className : String) (handler : Nat) :
    Tame host (host.newSpi className handler).run := by
  have hAdded : Keeps (Genuine host) (host.newSpi className handler).run
      (Yields (fun _ => True) fun _ => True) := by
    refine keeps_callBind (keeps_callResult (yields_interfaceClass className)) fun c hc => ?_
    exact keeps_callLift (tame_addObject hc fun r _ => (r.mem_bindings_addSpi).mp)
  exact keeps_mono hAdded fun _ _ => trivial

end Host

end Session

end NativeBinding
