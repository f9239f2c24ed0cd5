import NativeBinding.Marshal.Basic
import NativeBinding.Module.Basic
import NativeBinding.Session.Error

/-! # Loaded modules

A module together with the declarations that it was made from. `load` refuses any other
declarations, which it tells by their fingerprint.
-/

set_option autoImplicit false

namespace NativeBinding.Session

structure LoadedModule where
  bindings : Module
  marshaler : Marshaler

namespace LoadedModule

def load (m : Module) (model : Model) : Except BridgeError LoadedModule := do
  if m.modelFingerprint != model.fingerprint then
    throw (.modelMismatch m.modelFingerprint model.fingerprint)
  let marshaler ← (Marshaler.new model).mapError .layout
  pure ⟨m, marshaler⟩

def class? (l : LoadedModule) (name : String) : Option ClassBinding :=
  (l.bindings.findClass? name).bind fun found =>
    l.bindings.classes.reverse.find? fun c => c.className == found.className

def apiClass (l : LoadedModule) (name : String) : Except CallError ClassBinding :=
  match l.class? name with
  | some c => if c.isInterface then .error (.unknownClass name) else .ok c
  | none => .error (.unknownClass name)

def interfaceClass (l : LoadedModule) (name : String) : Except BridgeError ClassBinding :=
  match l.class? name with
  | some c => if c.isInterface then .ok c else .error (.notAnInterface c.className)
  | none => .error (.unknownClass name)

/-- A record of a struct by its native or its exposed name, with every field zero. -/
def newRecord (l : LoadedModule) (name : String) : Except BridgeError Record :=
  match l.bindings.findRecord? name with
  | some r => (l.marshaler.newRecord r.structName).mapError .layout
  | none => .error (.unknownRecord name)

def constant? (l : LoadedModule) (name : String) : Option Value :=
  (l.bindings.findConstant? name).map fun c => Value.ofConstant c.value

end LoadedModule

end NativeBinding.Session
