import Mathlib.Logic.Relation
import NativeBinding.Proofs.Session.Registry
import NativeBinding.Session.State

/-! # Moves of a session

The smallest changes of a session that other code can see: an object is made, a registration is
accepted or refused, an instance is entered or released, a handler begins. The native library, the
names and the globals may change at any time.
-/

set_option autoImplicit false

namespace NativeBinding.Session

def Entry.instance? : Entry → Option Nat
  | .create .. | .static .. => none
  | .register api | .init api | .release api | .call api .. => some api

def Event.enters? : Event → Option Nat
  | .entered entry => entry.instance?
  | _ => none

def Event.begins? : Event → Option Nat
  | .began (.handler bridge _) => some bridge
  | _ => none

variable {σ : Type}

def State.logged (s : State σ) (event : Event) : State σ :=
  { s with log := s.log ++ [event] }

def State.withObjects (s : State σ) (objects : Registry) : State σ :=
  { s with objects }

/-- A registration up to the library's answer, which comes with the state it leaves the library
in. -/
def State.registered (s : State σ) (api spi : Nat) (p : Spi) (handler : Handler) (accepted : Bool)
    (native : σ) : State σ :=
  let opened := s.objects.openBridge api spi p handler
  { s.logged (.entered (.register api)) with
    native
    objects := if accepted then opened.2.accept api spi opened.1 else opened.2.retire opened.1 }

inductive Move : State σ → State σ → Prop where
  | aside {s s' : State σ} : s'.objects = s.objects → s'.log = s.log → Move s s'
  /-- An event that enters no instance and begins no handler. -/
  | event {s : State σ} {event : Event} : event.enters? = none → event.begins? = none →
      Move s (s.logged event)
  | addApi {s : State σ} (binding : ClassBinding) :
      Move s (s.withObjects (s.objects.addApi binding).2)
  | addSpi {s : State σ} (binding : ClassBinding) (handler : Nat) :
      Move s (s.withObjects (s.objects.addSpi binding handler).2)
  | addHandler {s : State σ} (handler : Handler) :
      Move s (s.withObjects (s.objects.addHandler handler).2)
  | letGo {s : State σ} (handler : Nat) : Move s (s.withObjects (s.objects.letGo handler))
  | register {s : State σ} {api spi : Nat} {a : Api} {p : Spi} (handler : Handler)
      (accepted : Bool) (native : σ) : s.objects.apis[api]? = some a → a.released = false →
      s.objects.spis[spi]? = some p → Move s (s.registered api spi p handler accepted native)
  | enter {s : State σ} {api : Nat} {a : Api} {entry : Entry} : entry.instance? = some api →
      entry ≠ .release api → s.objects.apis[api]? = some a → a.released = false →
      Move s (s.logged (.entered entry))
  | release {s : State σ} {api : Nat} {a : Api} : s.objects.apis[api]? = some a →
      a.released = false →
      Move s ((s.withObjects (s.objects.close api)).logged (.entered (.release api)))
  | begin {s : State σ} {bridge : Nat} {b : Bridge} (hook : String) : s.objects.Live bridge b →
      Move s (s.logged (.began (.handler bridge hook)))

abbrev Moves : State σ → State σ → Prop :=
  Relation.ReflTransGen Move

end NativeBinding.Session
