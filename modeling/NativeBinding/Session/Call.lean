import NativeBinding.Session.Arguments
import NativeBinding.Session.Module
import NativeBinding.Session.State

/-! # Calls into the native library

The operations on instances. Each checks and marshals first, enters the library at most once, and
then reads the reply. The dispatcher answers the callbacks that the library makes while it is
entered.
-/

set_option autoImplicit false

namespace NativeBinding.Session

/-- A loaded module and the library behind it. -/
structure Host (σ : Type) where
  loaded : LoadedModule
  library : NativeLibrary σ

variable {σ : Type}

def orFault {α : Type} (method : String) : Except NativeFault α → CallM σ α
  | .ok value => pure value
  | .error fault => throw (.nativeCall method fault.code fault.message)

/-- An entry that invokes nothing. -/
def enterOnce {α : Type} (entry : Entry) (run : σ → σ × Except NativeFault α) :
    SessionM σ (Except NativeFault α) := do
  record (.entered entry)
  modifyGet fun s => ((run s.native).2, { s with native := (run s.native).1 })

/-- An entry of an instance that may invoke callbacks. -/
def enterInstance (dispatch : Dispatcher σ) (api : Nat) (entry : Entry) (run : σ → NativeRun σ) :
    SessionM σ (Except NativeFault NativeArg) := do
  record (.entered entry)
  (run (← get).native).follow dispatch api

def unknownNumber (number : Nat) : CallError :=
  .unknownObject (Text.natural number)

def requireInstance (api : Nat) : CallM σ Api := do
  match (← get).objects.apis[api]? with
  | some a => pure a
  | none => throw (unknownNumber api)

def requireLive (a : Api) : CallM σ Unit :=
  if a.released then throw (.released a.binding.className) else pure ()

namespace Host

variable (host : Host σ)

def readReply (c : ClassBinding) (t : Trampoline) (reply : NativeArg) : CallM σ Value :=
  let path := s!"{c.className}::{t.name} -> return"
  match host.loaded.marshaler.toScript t.returnType reply path with
  | .ok value => pure value
  | .error cause => throw (.marshal cause)

def construct (className constructor : String) (args : List Value) : CallM σ Nat := do
  let c ← host.loaded.apiClass className
  let some t := c.constructor? constructor | throw (.unknownMethod c.className constructor)
  let native ← nativeArguments host.loaded.marshaler c.className constructor t.params args
  let reply ← enterOnce (.create c.className constructor native) fun s =>
    host.library.create s c.className constructor native
  orFault constructor reply
  (addObject fun r => r.addApi c : SessionM σ Nat)

def createApi (className : String) (args : List Value) : CallM σ Nat := do
  let c ← host.loaded.apiClass className
  match c.constructors.head? with
  | some t => host.construct c.className t.name args
  | none => throw (.noConstructor c.className)

def runStatic (c : ClassBinding) (t : Trampoline) (args : List Value) : CallM σ Value := do
  let native ← nativeArguments host.loaded.marshaler c.className t.name t.params args
  let reply ← enterOnce (.static c.className t.name native) fun s =>
    host.library.callStatic s c.className t.name native
  host.readReply c t (← orFault t.name reply)

def callStatic (className method : String) (args : List Value) : CallM σ Value := do
  let c ← host.loaded.apiClass className
  match (c.method? method).filter fun t => t.kind = .static with
  | some t => host.runStatic c t args
  | none => throw (.unknownMethod c.className method)

/-- Starts an instance; callbacks may arrive from now on. -/
def init (dispatch : Dispatcher σ) (api : Nat) : CallM σ Unit := do
  requireLive (← requireInstance api)
  let reply ← enterInstance dispatch api (.init api) fun s => host.library.init s api
  let _ ← orFault "Init" reply

/-- Releases an instance. Its bridge is retired before the library is entered. A second release does
nothing. -/
def release (dispatch : Dispatcher σ) (api : Nat) : CallM σ Unit := do
  let a ← requireInstance api
  if a.released then return
  (changeObjects fun r => r.close api : SessionM σ Unit)
  let reply ← enterInstance dispatch api (.release api) fun s => host.library.release s api
  let _ ← orFault "Release" reply

def invoke (dispatch : Dispatcher σ) (api : Nat) (method : String) (args : List Value) :
    CallM σ Value := do
  let a ← requireInstance api
  let c := a.binding
  let some t := c.method? method | throw (.unknownMethod c.className method)
  match t.kind with
  | .init => host.init dispatch api; pure .null
  | .release => host.release dispatch api; pure .null
  | .register _ => throw (.wrongKind method)
  | .static => host.runStatic c t args
  | .constructor => host.runStatic c t args
  | .call =>
    requireLive a
    let native ← nativeArguments host.loaded.marshaler c.className t.name t.params args
    let reply ← enterInstance dispatch api (.call api t.name native) fun s =>
      host.library.call s api t.name native
    host.readReply c t (← orFault t.name reply)

/-- The method of a class that takes a Spi object, with the interface that it takes. -/
def registration? (c : ClassBinding) : Option (String × String) :=
  c.methods.findSome? fun t =>
    match t.kind with
    | .register interfaceName => some (t.name, interfaceName)
    | _ => none

def settleRegistration (api spi bridge : Nat) (method : String) :
    Except NativeFault Unit → CallM σ Nat
  | .ok () => do
    (changeObjects fun r => r.accept api spi bridge : SessionM σ Unit)
    pure bridge
  | .error fault => do
    (changeObjects fun r => r.retire bridge : SessionM σ Unit)
    throw (.nativeCall method fault.code fault.message)

/-- Registers a Spi object with an instance and answers the new bridge. When the library refuses it,
earlier registrations stay as they are. -/
def register (api spi : Nat) : CallM σ Nat := do
  let a ← requireInstance api
  requireLive a
  let s ← get
  let some p := s.objects.spis[spi]? | throw (unknownNumber spi)
  let some (method, expected) := registration? a.binding
    | throw (.unknownMethod a.binding.className "RegisterSpi")
  if p.binding.className != expected then
    throw (.interfaceMismatch method expected p.binding.className)
  let some handler := s.handler? p.handler
    | throw (.bridge (.staleHandler p.binding.className "RegisterSpi"))
  let bridge ← (addObject fun r => r.openBridge api spi p handler : SessionM σ Nat)
  let reply ← enterOnce (.register api) fun s => host.library.register s api bridge
  settleRegistration api spi bridge method reply

def newSpi (className : String) (handler : Nat) : ExceptT BridgeError (SessionM σ) Nat := do
  let c ← host.loaded.interfaceClass className
  (addObject fun r => r.addSpi c handler : SessionM σ Nat)

end Host

end NativeBinding.Session
