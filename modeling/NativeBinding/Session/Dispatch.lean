import NativeBinding.Session.Call

/-! # Callbacks

How a hook that native code invokes reaches the method of a handler. A callback is admitted by what
is known at once: the hook, the bridge, and that no script is running. An admitted callback is
delivered when scripting code may run. Whatever goes wrong, the native caller gets an answer of the
hook's return type.
-/

set_option autoImplicit false

namespace NativeBinding.Session

/-- The slot of a hook that may be called through a bridge. -/
def Bridge.slotFor (b : Bridge) (hook : String) : Except BridgeError OverrideSlot :=
  match b.binding.slot? hook with
  | none => .error (.unknownHook b.binding.className hook)
  | some slot => if b.released then .error (.released b.binding.className) else .ok slot

def hookArguments (m : Marshaler) (interfaceName : String) (slot : OverrideSlot)
    (args : List NativeArg) : Except BridgeError (List Value) :=
  if args.length != slot.params.length then
    .error (.arity slot.name slot.params.length args.length)
  else
    ((slot.params.zip args).mapM fun p =>
      m.toScript p.1.type p.2 s!"{interfaceName}::{slot.name}({p.1.name})").mapError
        (.marshal slot.name)

/-- A callback that may be delivered. The arguments of a hook without a method are not read. -/
structure Admitted where
  slot : OverrideSlot
  values : Option (List Value)

/-- Admits a callback, on a thread that may be `inside` scripting code. -/
def admission (m : Marshaler) (b : Bridge) (inside : Bool) (hook : String) (args : List NativeArg) :
    Except BridgeError Admitted := do
  let slot ← b.slotFor hook
  if inside then throw (.reentrantDispatch hook)
  if b.overridden.contains hook then
    let values ← hookArguments m b.binding.className slot args
    pure ⟨slot, some values⟩
  else pure ⟨slot, none⟩

def hookAnswer (m : Marshaler) (interfaceName : String) (slot : OverrideSlot) (value : Value) :
    Except BridgeError NativeArg :=
  if slot.returnType = .void then .ok .void
  else
    (m.toNative slot.returnType value s!"{interfaceName}::{slot.name} -> return").mapError
      (.marshal slot.name)

/-- The default of a hook's return type, which a native caller gets when nothing else answers. -/
def defaultAnswer (b : Bridge) (hook : String) : NativeArg :=
  match b.binding.slot? hook with
  | some slot => Marshaler.defaultNative slot.returnType
  | none => .void

inductive Outcome (α : Type) where
  | value (value : α)
  | raised (error : ScriptError)
  | panicked (message : String)

variable {σ : Type}

/-- Gives the native caller its answer. A failure is recorded, except that of a released bridge. -/
def settle (bridge : Nat) (b : Bridge) (hook : String) :
    Except BridgeError NativeArg → SessionM σ NativeArg
  | .ok answer => pure answer
  | .error (.released _) => pure (defaultAnswer b hook)
  | .error error => do
    record (.faulted ⟨bridge, b.binding.className, hook, error⟩)
    pure (defaultAnswer b hook)

def runHook (m : Marshaler) (run : Script Value → SessionM σ (Outcome Value)) (bridge : Nat)
    (b : Bridge) (handler : Handler) (slot : OverrideSlot) (values : List Value) :
    SessionM σ (Except BridgeError NativeArg) := do
  let outcome ← during (.handler bridge slot.name) (some b.handler)
    (run (handler.call slot.name values))
  match outcome with
  | .value value => pure (hookAnswer m b.binding.className slot value)
  | .raised error => pure (.error (.handler slot.name error.message))
  | .panicked message => pure (.error (.handlerPanic slot.name message))

/-- Delivers an admitted callback. The bridge may have been retired since. -/
def deliver (m : Marshaler) (run : Script Value → SessionM σ (Outcome Value)) (bridge : Nat)
    (b : Bridge) (admitted : Admitted) : SessionM σ (Except BridgeError NativeArg) := do
  let s ← get
  if !s.objects.isLive bridge then
    return .error (.released b.binding.className)
  match s.handler? b.handler, admitted.values with
  | none, _ => pure (.error (.staleHandler b.binding.className admitted.slot.name))
  | some _, none => pure (.ok (Marshaler.defaultNative admitted.slot.returnType))
  | some handler, some values => runHook m run bridge b handler admitted.slot values

/-- Admits a callback and hands it on; a failure is answered to the caller. -/
def tryDispatchWith (m : Marshaler) (b : Bridge) (hook : String) (args : List NativeArg)
    (onAdmitted : Admitted → SessionM σ (Except BridgeError NativeArg)) :
    SessionM σ (Except BridgeError NativeArg) := do
  match admission m b (← get).inside hook args with
  | .ok admitted => onAdmitted admitted
  | .error error => pure (.error error)

/-- Tries a callback from inside scripting code, where none is delivered. -/
def tryDispatchInside (m : Marshaler) (b : Bridge) (hook : String) (args : List NativeArg) :
    SessionM σ (Except BridgeError NativeArg) :=
  tryDispatchWith m b hook args fun _ => pure (.error (.reentrantDispatch hook))

/-- The answer to a callback through a bridge number; a number without a bridge answers nothing. -/
def dispatchWith (tries : Nat → Bridge → String → List NativeArg →
    SessionM σ (Except BridgeError NativeArg)) : Dispatcher σ := fun bridge hook args => do
  match (← get).objects.bridges[bridge]? with
  | some b => settle bridge b hook (← tries bridge b hook args)
  | none => pure .void

/-- Answers the callbacks that scripting code leads to while it runs. -/
def dispatchInside (m : Marshaler) : Dispatcher σ :=
  dispatchWith fun _ => tryDispatchInside m

end NativeBinding.Session
