import NativeBinding.Proofs.Session.Evolving

/-! # Reachable states

What a host can do with a session, and the states that come of it: after whole operations, between
the requests of a handler that is running, and where the library invokes a hook in the middle of an
entry. All of them are reached from a fresh session by moves.
-/

set_option autoImplicit false

namespace NativeBinding.Session

variable {σ : Type}

inductive Operation (σ : Type) where
  | construct (name className constructor : String) (args : List Value)
  | createApi (name className : String) (args : List Value)
  | callStatic (className method : String) (args : List Value)
  | invoke (api : Nat) (method : String) (args : List Value)
  | init (api : Nat)
  | release (api : Nat)
  | register (api spi : Nat)
  | dropApi (name : String)
  | nameHandler (name : String) (handler : Handler)
  | dropHandler (name : String)
  | nameSpi (name className handler : String)
  | dropSpi (name : String)
  | dispatch (bridge : Nat) (hook : String) (args : List NativeArg)
  | tryDispatch (bridge : Nat) (b : Bridge) (hook : String) (args : List NativeArg)
  | enter (script : Script Value)
  | callHandler (handler : Nat) (h : Handler) (method : String) (args : List Value)
  | overlap (api : Nat) (hook : String) (args : List NativeArg) (releases : Bool)
  | attend (pieces : Nat)
  | changeNames (change : Names → Names)
  | changeNative (change : σ → σ)

def Operation.perform (host : Host σ) : Operation σ → SessionM σ Unit
  | .construct name className constructor args => discard
      (host.nameApi host.dispatch name (host.construct className constructor args)).run
  | .createApi name className args => discard
      (host.nameApi host.dispatch name (host.createApi className args)).run
  | .callStatic className method args => discard (host.callStatic className method args).run
  | .invoke api method args => discard (host.invoke host.dispatch api method args).run
  | .init api => discard (host.init host.dispatch api).run
  | .release api => discard (host.release host.dispatch api).run
  | .register api spi => discard (host.register api spi).run
  | .dropApi name => discard (host.dropApi host.dispatch name)
  | .nameHandler name handler => Host.nameHandler name handler
  | .dropHandler name => discard (Host.dropHandler name)
  | .nameSpi name className handler => discard (host.nameSpi name className handler)
  | .dropSpi name => discard (Host.dropSpi name)
  | .dispatch bridge hook args => discard (host.dispatch bridge hook args)
  | .tryDispatch bridge b hook args => discard (host.tryDispatch bridge b hook args)
  | .enter script => discard (host.enter script)
  | .callHandler handler h method args => discard (host.callHandler handler h method args)
  | .overlap api hook args releases => discard (host.overlap api hook args releases)
  | .attend pieces => host.attend pieces
  | .changeNames change => Session.changeNames change
  | .changeNative change => modify fun s => { s with native := change s.native }

/-- Whether the host is inside while the operation's callback waits. -/
def Operation.waits : Operation σ → Bool
  | .overlap .. => true
  | _ => false

/-- The states in which a library's work, followed from a state, invokes hooks. -/
def NativeRun.moments (dispatch : Dispatcher σ) (api : Nat) : NativeRun σ → State σ → List (State σ)
  | .answer _ _, _ => []
  | .invoke native sink hook args next, s =>
    let result := (callBack dispatch api native sink hook args).run s
    { s with native } :: (next result.2.native (result.1.getD .void)).moments dispatch api result.2

/-- The states that code of a session can see. -/
inductive Reachable (host : Host σ) : State σ → Prop where
  | start (native : σ) : Reachable host { native }
  | operate {s : State σ} (operation : Operation σ) : Reachable host s →
      Reachable host ((operation.perform host).run s).2
  /-- A running script makes a request. -/
  | ask {s : State σ} (request : Request) : Reachable host s →
      Reachable host ((host.answer request).run s).2
  /-- The library invokes a hook while it works for an instance. -/
  | invoke {s s' : State σ} {dispatch : Dispatcher σ} (api : Nat) (work : NativeRun σ) :
      Reachable host s →
      dispatch = host.dispatch ∨ dispatch = dispatchInside host.loaded.marshaler →
      s' ∈ work.moments dispatch api s → Reachable host s'
  | move {s s' : State σ} : Reachable host s → Move s s' → Reachable host s'

variable {host : Host σ} {allowed : State σ → Prop} {s : State σ}

theorem Operation.evolves_perform (operation : Operation σ)
    (hAllowed : ∀ t : State σ, t.inside = false → allowed t)
    (hWaits : operation.waits = true → ∀ t : State σ, t.inside = s.inside → allowed t) :
    Evolves host allowed s ((operation.perform host).run s).2 := by
  have hDispatch : EvolvingDispatcher host allowed host.dispatch := Host.evolving_dispatch hAllowed
  cases operation with
  | construct name className constructor args =>
    exact Host.evolving_nameApi hDispatch _ (Host.evolving_construct _ _ _) s
  | createApi name className args =>
    exact Host.evolving_nameApi hDispatch _ (Host.evolving_createApi _ _) s
  | callStatic className method args => exact Host.evolving_callStatic _ _ _ s
  | invoke api method args => exact Host.evolving_invoke hDispatch _ _ _ s
  | init api => exact Host.evolving_init hDispatch _ s
  | release api => exact Host.evolving_release hDispatch _ s
  | register api spi => exact Host.evolving_register _ _ s
  | dropApi name => exact Host.evolving_dropApi hDispatch _ s
  | nameHandler name handler => exact Host.evolving_nameHandler _ _ s
  | dropHandler name => exact Host.evolving_dropHandler _ s
  | nameSpi name className handler => exact Host.evolving_nameSpi _ _ _ s
  | dropSpi name => exact Host.evolving_dropSpi _ s
  | dispatch bridge hook args => exact hDispatch _ _ _ s
  | tryDispatch bridge b hook args => exact Host.evolving_tryDispatch hAllowed _ _ _ _ s
  | enter script => exact Host.evolving_enter hAllowed _ s
  | callHandler handler h method args => exact Host.evolving_callHandler hAllowed _ _ _ _ s
  | overlap api hook args releases => exact (Host.leads_overlap (hWaits rfl) _ _ _ _).1
  | attend pieces => exact Host.evolving_attend hAllowed _ s
  | changeNames change => exact evolving_changeNames _ s
  | changeNative change => exact .single (.aside rfl rfl rfl rfl)

theorem evolves_moments {dispatch : Dispatcher σ} (h : EvolvingDispatcher host allowed dispatch)
    (api : Nat) (work : NativeRun σ) :
    ∀ s, ∀ s' ∈ work.moments dispatch api s, Evolves host allowed s s' := by
  induction work with
  | answer native reply => exact fun _ _ hMem => nomatch hMem
  | invoke native sink hook args next ih =>
    intro s s' hMem
    rcases List.mem_cons.mp hMem with rfl | hLater
    · exact .single (.aside rfl rfl rfl rfl)
    · exact (evolving_callBack h api native sink hook args s).trans (ih _ _ _ _ hLater)

/-- A dispatcher with which the session of some host evolves. -/
def SteadyDispatcher (dispatch : Dispatcher σ) : Prop :=
  ∃ host : Host σ, EvolvingDispatcher host (fun _ => True) dispatch

theorem Host.steady_dispatch : SteadyDispatcher host.dispatch :=
  ⟨host, Host.evolving_dispatch fun _ _ => trivial⟩

theorem steady_dispatchInside :
    SteadyDispatcher (dispatchInside host.loaded.marshaler : Dispatcher σ) :=
  ⟨host, evolving_dispatchInside⟩

theorem moves_moments {dispatch : Dispatcher σ} (h : SteadyDispatcher dispatch) (api : Nat)
    (work : NativeRun σ) (s s' : State σ) (hMem : s' ∈ work.moments dispatch api s) :
    Moves s s' := by
  obtain ⟨host, hDispatch⟩ := h
  exact (evolves_moments hDispatch api work s s' hMem).moves

theorem Reachable.moves (h : Reachable host s) : ∃ native, Moves { native } s := by
  induction h with
  | start native => exact ⟨native, .refl⟩
  | operate operation _ ih =>
    have hEvolves : Evolving host (fun _ => True) (operation.perform host) := fun _ =>
      operation.evolves_perform (fun _ _ => trivial) fun _ _ _ => trivial
    exact ih.imp fun _ hMoves => hMoves.trans (hEvolves _).moves
  | ask request _ ih =>
    have hEvolves : Evolving host (fun _ => True) (host.answer request) := Host.evolving_answer _
    exact ih.imp fun _ hMoves => hMoves.trans (hEvolves _).moves
  | invoke api work _ hDispatch hMem ih =>
    refine ih.imp fun _ hMoves => hMoves.trans (moves_moments ?_ api work _ _ hMem)
    rcases hDispatch with rfl | rfl
    · exact Host.steady_dispatch
    · exact steady_dispatchInside
  | move _ hMove ih => exact ih.imp fun _ hMoves => hMoves.tail hMove

/-- What holds of a fresh session and is kept by every move holds of every reachable state. -/
theorem Reachable.induct (holds : State σ → Prop) (h : Reachable host s)
    (hStart : ∀ native, holds { native }) (hMove : ∀ {s s'}, Move s s' → holds s → holds s') :
    holds s := by
  obtain ⟨native, hMoves⟩ := h.moves
  clear h
  induction hMoves with
  | refl => exact hStart native
  | tail _ hStep ih => exact hMove hStep ih

end NativeBinding.Session
