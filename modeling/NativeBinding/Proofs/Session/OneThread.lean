import NativeBinding.Proofs.Session.Registration

/-! # Sessions on one thread

The states of a session that one thread sees: between operations, inside scripting code between its
requests, where the library invokes a hook, and between the steps of all these. On one thread
scripting code begins only where none is running. A callback that waits while the host is inside
comes from another thread; it arises where the host is not inside yet.
-/

set_option autoImplicit false

namespace NativeBinding.Session

variable {σ : Type}

def State.Outside (s : State σ) : Prop :=
  s.inside = false

inductive Arises (host : Host σ) : State σ → Prop where
  | start (native : σ) : Arises host { native }
  | operate {s : State σ} (operation : Operation σ) : Arises host s →
      (operation.waits = true → s.Outside) → Arises host ((operation.perform host).run s).2
  /-- A running script makes a request. -/
  | ask {s : State σ} (request : Request) : Arises host s →
      Arises host ((host.answer request).run s).2
  /-- The host or a callback lets scripting code run. -/
  | begin {s : State σ} {activity : Activity} (handler : Option Nat) : Arises host s →
      s.Outside → s.Permits activity → Arises host (s.begun activity handler)
  /-- The library invokes a hook while it works for an instance. -/
  | invoke {s s' : State σ} {dispatch : Dispatcher σ} (api : Nat) (work : NativeRun σ) :
      Arises host s →
      dispatch = host.dispatch ∨ dispatch = dispatchInside host.loaded.marshaler →
      s' ∈ work.moments dispatch api s → Arises host s'
  | step {s s' : State σ} : Arises host s → Step host s s' → Arises host s'

variable {host : Host σ} {allowed : State σ → Prop} {s : State σ}

theorem evolving_dispatcher (hAllowed : ∀ t : State σ, t.Outside → allowed t)
    {dispatch : Dispatcher σ}
    (h : dispatch = host.dispatch ∨ dispatch = dispatchInside host.loaded.marshaler) :
    EvolvingDispatcher host allowed dispatch := by
  rcases h with rfl | rfl
  · exact Host.evolving_dispatch hAllowed
  · exact evolving_dispatchInside

theorem Operation.evolves_outside (operation : Operation σ)
    (hWaits : operation.waits = true → s.Outside) :
    Evolves host State.Outside s ((operation.perform host).run s).2 :=
  operation.evolves_perform (fun _ => id) fun hWaiting _ hSame => hSame.trans (hWaits hWaiting)

/-- What holds of a fresh session, is kept where a session evolves with scripting code that begins
outside, and is kept where such code begins, holds of every state that arises. -/
theorem Arises.induct (holds : State σ → Prop) (h : Arises host s)
    (hStart : ∀ native, holds { native })
    (hEvolves : ∀ {s t : State σ}, Evolves host State.Outside s t → holds s → holds t)
    (hBegin : ∀ {s : State σ} {activity : Activity} (handler : Option Nat), s.Outside →
      holds s → holds (s.begun activity handler)) : holds s := by
  induction h with
  | start native => exact hStart native
  | operate operation _ hWaits ih => exact hEvolves (operation.evolves_outside hWaits) ih
  | ask request _ ih => exact hEvolves (Host.evolving_answer request _) ih
  | begin handler _ hOutside _ ih => exact hBegin handler hOutside ih
  | @invoke _ _ dispatch api work _ hDispatch hMem ih =>
    have hDispatcher : EvolvingDispatcher host State.Outside dispatch :=
      evolving_dispatcher (fun _ => id) hDispatch
    exact hEvolves (evolves_moments hDispatcher api work _ _ hMem) ih
  | step _ hStep ih => exact hEvolves (.single hStep) ih

theorem Arises.objects_induct (holds : Registry → Prop) (h : Arises host s) (hStart : holds {})
    (hStep : ∀ {s s' : State σ}, Step host s s' → holds s.objects → holds s'.objects) :
    holds s.objects :=
  h.induct (fun s => holds s.objects) (fun _ => hStart)
    (fun hEvolves => hEvolves.objects_induct holds hStep) fun _ _ => id

def sampleSession (host : Host Rehearsal) (handler : Handler) : State Rehearsal :=
  let operations : List (Operation Rehearsal) :=
    [.construct "api" "Api" "Create" [], .nameHandler "handler" handler,
      .nameSpi "spi" "Spi" "handler", .register 0 0]
  operations.foldl (fun s operation => ((operation.perform host).run s).2) { native := {} }

theorem sampleSession_arises (host : Host Rehearsal) (handler : Handler) :
    Arises host (sampleSession host handler) :=
  ((((Arises.start _).operate _ (by nofun)).operate _ (by nofun)).operate _ (by nofun)).operate _
    (by nofun)

end NativeBinding.Session
