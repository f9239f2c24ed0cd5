import NativeBinding.Binding.Basic
import NativeBinding.Session.Script

/-! # Objects of a session

The instances, handlers and Spi objects of a session, and the bridges between them. Objects are
numbered in the order in which they were made, and none is ever removed: what goes away is a name or
a right to be called. A bridge is made for each registration and is live until it is retired.
-/

set_option autoImplicit false

namespace NativeBinding.Session

structure Api where
  binding : ClassBinding
  /-- The bridge of the current registration. -/
  bridge : Option Nat := none
  released : Bool := false

/-- A handler as an implementation of an interface. -/
structure Spi where
  binding : ClassBinding
  handler : Nat
  /-- The bridge of the last registration that was accepted. -/
  active : Option Nat := none

/-- One registration of a Spi object with an instance. -/
structure Bridge where
  binding : ClassBinding
  api : Nat
  spi : Nat
  handler : Nat
  /-- The hooks that the handler implements, in name order. -/
  overridden : List String
  released : Bool := false

structure HeldHandler where
  handler : Handler
  /-- Whether a name still stands for the handler. -/
  held : Bool := true

structure Registry where
  apis : List Api := []
  spis : List Spi := []
  bridges : List Bridge := []
  handlers : List HeldHandler := []

def implementedHooks (binding : ClassBinding) (handler : Handler) : List String :=
  let names := (binding.overrides.map (·.name)).filter handler.implements
  (names.mergeSort fun a b => !decide (b < a)).eraseDups

namespace Registry

def addApi (r : Registry) (binding : ClassBinding) : Nat × Registry :=
  (r.apis.length, { r with apis := r.apis ++ [{ binding }] })

def addSpi (r : Registry) (binding : ClassBinding) (handler : Nat) : Nat × Registry :=
  (r.spis.length, { r with spis := r.spis ++ [{ binding, handler }] })

def addHandler (r : Registry) (handler : Handler) : Nat × Registry :=
  (r.handlers.length, { r with handlers := r.handlers ++ [{ handler }] })

def openBridge (r : Registry) (api spi : Nat) (s : Spi) (handler : Handler) : Nat × Registry :=
  let bridge : Bridge :=
    { binding := s.binding, api, spi, handler := s.handler
      overridden := implementedHooks s.binding handler }
  (r.bridges.length, { r with bridges := r.bridges ++ [bridge] })

def retire (r : Registry) (bridge : Nat) : Registry :=
  { r with bridges := r.bridges.modify bridge fun b => { b with released := true } }

def retireAny (r : Registry) (bridge : Option Nat) : Registry :=
  bridge.elim r r.retire

/-- Makes a bridge the active one of its Spi object and then the current one of its instance. What
was there before is retired. -/
def accept (r : Registry) (api spi bridge : Nat) : Registry :=
  let previous := (r.spis[spi]?).bind (·.active)
  let r := { r with spis := r.spis.modify spi fun s => { s with active := some bridge } }
  let r := r.retireAny previous
  let previous := (r.apis[api]?).bind (·.bridge)
  let r := { r with apis := r.apis.modify api fun a => { a with bridge := some bridge } }
  r.retireAny previous

def close (r : Registry) (api : Nat) : Registry :=
  let previous := (r.apis[api]?).bind (·.bridge)
  let r := { r with apis := r.apis.modify api fun a => { a with released := true, bridge := none } }
  r.retireAny previous

def letGo (r : Registry) (handler : Nat) : Registry :=
  { r with handlers := r.handlers.modify handler fun h => { h with held := false } }

/-- Whether callbacks through a bridge may still reach its handler. -/
def isLive (r : Registry) (bridge : Nat) : Bool :=
  match r.bridges[bridge]? with
  | some b => !b.released
  | none => false

/-- The bridge through which a Spi object is called, if it is registered. -/
def activeBridge? (r : Registry) (spi : Nat) : Option Nat :=
  ((r.spis[spi]?).bind (·.active)).filter r.isLive

end Registry

end NativeBinding.Session
