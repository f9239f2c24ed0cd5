import NativeBinding.Marshal.Error

/-! # What can go wrong in a session

Three layers of causes: `BridgeError` on the way from native code to a handler, `CallError` on the
way from scripting code to native code, and `ScriptError` for whatever ends a script. Each has a
text for people and a dotted name that scripts can tell causes apart by.
-/

set_option autoImplicit false

namespace NativeBinding

private def arityText (method : String) (expected actual : Nat) : String :=
  method ++ " expects " ++ Text.natural expected ++ " arguments, got " ++ Text.natural actual

/-- Why a callback does not reach its handler, or a module cannot be used. -/
inductive BridgeError where
  | unknownHook (className hook : String)
  | released (className : String)
  | staleHandler (className method : String)
  /-- The hook was invoked by code that a script is waiting for. -/
  | reentrantDispatch (hook : String)
  | arity (hook : String) (expected actual : Nat)
  | marshal (hook : String) (cause : MarshalError)
  | handler (hook message : String)
  | handlerPanic (hook message : String)
  | reentrantEnter
  | unknownClass (name : String)
  | unknownRecord (name : String)
  | notAnInterface (name : String)
  /-- A module was made from other declarations; the fingerprints of both. -/
  | modelMismatch (stated actual : String)
  | layout (cause : MarshalError)
  deriving DecidableEq

namespace BridgeError

def message : BridgeError → String
  | unknownHook className hook => s!"{className} has no overridable hook '{hook}'"
  | released className => s!"bridge for {className} has been released"
  | staleHandler className method => s!"handler for {className}::{method} has been destroyed"
  | reentrantDispatch hook =>
    s!"re-entrant dispatch of {hook} on a thread already inside the runtime"
  | arity hook expected actual => arityText hook expected actual
  | marshal hook cause => s!"marshaling for {hook} failed: {cause.message}"
  | handler hook message => s!"handler {hook} failed: {message}"
  | handlerPanic hook message => s!"handler {hook} panicked: {message}"
  | reentrantEnter => "runtime already entered on this thread"
  | unknownClass name => s!"unknown class '{name}'"
  | unknownRecord name => s!"unknown record '{name}'"
  | notAnInterface name => s!"class '{name}' is not an overridable interface"
  | modelMismatch stated actual =>
    s!"module fingerprint {stated} does not match declarations {actual}"
  | layout cause => s!"layout error: {cause.message}"

def kind : BridgeError → String
  | unknownHook .. => "UnknownHook"
  | released _ => "Released"
  | staleHandler .. => "StaleHandler"
  | reentrantDispatch _ => "ReentrantDispatch"
  | arity .. => "Arity"
  | marshal _ cause => "Marshal." ++ cause.kind
  | handler .. => "Handler"
  | handlerPanic .. => "HandlerPanic"
  | reentrantEnter => "ReentrantEnter"
  | unknownClass _ => "UnknownClass"
  | unknownRecord _ => "UnknownRecord"
  | notAnInterface _ => "NotAnInterface"
  | modelMismatch .. => "ModelMismatch"
  | layout cause => "Layout." ++ cause.kind

end BridgeError

/-- Why a call into the native library gives no value. -/
inductive CallError where
  | unknownMethod (className method : String)
  | unknownClass (name : String)
  | noConstructor (className : String)
  | arity (method : String) (expected actual : Nat)
  | marshal (cause : MarshalError)
  | nativeCall (method : String) (code : Option Int32) (fault : String)
  | released (className : String)
  /-- The method takes an object and has an operation of its own. -/
  | wrongKind (method : String)
  | interfaceMismatch (method expected found : String)
  | bridge (cause : BridgeError)
  | unknownObject (name : String)
  deriving DecidableEq

namespace CallError

private def codeText : Option Int32 → String
  | some code => " with code " ++ Text.integer code.toInt
  | none => ""

def message : CallError → String
  | unknownMethod className method => s!"{className} has no method '{method}'"
  | unknownClass name => s!"unknown class '{name}'"
  | noConstructor className => s!"{className} has no constructor"
  | arity method expected actual => arityText method expected actual
  | marshal cause => cause.message
  | nativeCall method code fault =>
    "native call " ++ method ++ " failed" ++ codeText code ++ ": " ++ fault
  | released className => s!"{className} instance has been released"
  | wrongKind method =>
    s!"{method} cannot be invoked this way: register an Spi object with register_spi"
  | interfaceMismatch method expected found => s!"{method} expects {expected}, got {found}"
  | bridge cause => cause.message
  | unknownObject name => s!"no object is named '{name}'"

def kind : CallError → String
  | unknownMethod .. => "UnknownMethod"
  | unknownClass _ => "UnknownClass"
  | noConstructor _ => "NoConstructor"
  | arity .. => "Arity"
  | marshal cause => "Marshal." ++ cause.kind
  | nativeCall .. => "NativeCall"
  | released _ => "Released"
  | wrongKind _ => "WrongKind"
  | interfaceMismatch .. => "InterfaceMismatch"
  | bridge cause => "Bridge." ++ cause.kind
  | unknownObject _ => "UnknownObject"

end CallError

inductive ScriptError where
  | raised (message : String)
  | call (cause : CallError)
  | marshal (cause : MarshalError)
  | bridge (cause : BridgeError)
  deriving DecidableEq

namespace ScriptError

def message : ScriptError → String
  | raised message => message
  | call cause => cause.message
  | marshal cause => cause.message
  | bridge cause => cause.message

def kind : ScriptError → String
  | raised _ => "Raised"
  | call cause => "Call." ++ cause.kind
  | marshal cause => "Marshal." ++ cause.kind
  | bridge cause => "Bridge." ++ cause.kind

end ScriptError

end NativeBinding
