import NativeBinding.Session.Dispatch

/-! # Running scripts

Requests are answered one after another against the state of the session. Callbacks that the native
library makes while it serves a request find a script running and are turned away, so no script ever
runs inside another. `Host.dispatch` is the way in from native code, `Host.enter` the one from the
host.
-/

set_option autoImplicit false

namespace NativeBinding.Session

variable {σ : Type}

def named (table : Names → List (String × Nat)) (name : String) : CallM σ Nat := do
  match lookup name (table (← get).names) with
  | some object => pure object
  | none => throw (.unknownObject name)

def changeNames (change : Names → Names) : SessionM σ Unit :=
  modify fun s => { s with names := change s.names }

namespace Host

variable (host : Host σ)

/-- Releases the instance that a name stood for until now. A fault of the library is not
answered. -/
def dropInstance (dispatch : Dispatcher σ) (api : Nat) : SessionM σ Unit := do
  let _ ← (host.release dispatch api).run

/-- Puts a new instance under a name. The one that had the name goes after the new one is made. -/
def nameApi (dispatch : Dispatcher σ) (name : String) (make : CallM σ Nat) : CallM σ Nat := do
  let api ← make
  let previous := lookup name (← get).names.apis
  (changeNames fun n => { n with apis := store name api n.apis } : SessionM σ Unit)
  if let some old := previous then (host.dropInstance dispatch old : SessionM σ Unit)
  pure api

/-- Takes the name of an instance away; answers whether it stood for one. -/
def dropApi (dispatch : Dispatcher σ) (name : String) : SessionM σ Bool := do
  match lookup name (← get).names.apis with
  | none => pure false
  | some api =>
    changeNames fun n => { n with apis := forget name n.apis }
    host.dropInstance dispatch api
    pure true

def nameHandler (name : String) (handler : Handler) : SessionM σ Unit := do
  let previous := lookup name (← get).names.handlers
  let number ← addObject fun r => r.addHandler handler
  changeNames fun n => { n with handlers := store name number n.handlers }
  if let some old := previous then changeObjects fun r => r.letGo old

def dropHandler (name : String) : SessionM σ Bool := do
  match lookup name (← get).names.handlers with
  | none => pure false
  | some handler =>
    changeNames fun n => { n with handlers := forget name n.handlers }
    changeObjects fun r => r.letGo handler
    pure true

def dropSpi (name : String) : SessionM σ Bool := do
  let known := (lookup name (← get).names.spis).isSome
  changeNames fun n => { n with spis := forget name n.spis }
  pure known

def nameSpi (name className handler : String) : SessionM σ (Except ScriptError Nat) := do
  match lookup handler (← get).names.handlers with
  | none => pure (.error (.call (.unknownObject handler)))
  | some handler =>
    match ← (host.newSpi className handler).run with
    | .error error => pure (.error (.bridge error))
    | .ok spi =>
      changeNames fun n => { n with spis := store name spi n.spis }
      pure (.ok spi)

def setGlobal (name : String) (value : Value) : SessionM σ Unit :=
  modify fun s => { s with globals := store name value s.globals }

def getGlobal (name : String) : SessionM σ Value := do
  pure ((lookup name (← get).globals).getD .null)

def removeGlobal (name : String) : SessionM σ Value := do
  let old ← getGlobal name
  modify fun s => { s with globals := forget name s.globals }
  pure old

def bumpGlobal (name : String) (amount : Int64) : SessionM σ Value := do
  let next : Value := .int (((← getGlobal name).asInt?).getD 0 + amount)
  setGlobal name next
  pure next

/-- Tries the callback of a named bridge from inside the script. -/
def answerDispatch (bridge hook : String) (args : List NativeArg) :
    SessionM σ (Except ScriptError Value) := do
  let s ← get
  match (lookup bridge s.names.bridges).bind (s.objects.bridges[·]?) with
  | none => pure (.error (.call (.unknownObject bridge)))
  | some b =>
    match ← tryDispatchInside host.loaded.marshaler b hook args with
    | .ok _ => pure (.ok .null)
    | .error error => pure (.error (.bridge error))

def calling (call : CallM σ Value) : SessionM σ (Except ScriptError Value) := do
  pure ((← call.run).mapError .call)

def answer (request : Request) : SessionM σ (Except ScriptError Value) :=
  let inside : Dispatcher σ := dispatchInside host.loaded.marshaler
  match request with
  | .print line => do
    print line
    pure (.ok .null)
  | .get name => do pure (.ok (← getGlobal name))
  | .set name value => do
    setGlobal name value
    pure (.ok .null)
  | .remove name => do pure (.ok (← removeGlobal name))
  | .bump name amount => do pure (.ok (← bumpGlobal name amount))
  | .newRecord name =>
    pure (((host.loaded.newRecord name).map Record.toValue).mapError .bridge)
  | .construct name className constructor args => calling do
    let _ ← host.nameApi inside name (host.construct className constructor args)
    pure .null
  | .callStatic className method args => calling (host.callStatic className method args)
  | .invoke api method args => calling do
    host.invoke inside (← named (·.apis) api) method args
  | .init api => calling do
    host.init inside (← named (·.apis) api)
    pure .null
  | .release api => calling do
    host.release inside (← named (·.apis) api)
    pure .null
  | .register api spi => calling do
    let _ ← host.register (← named (·.apis) api) (← named (·.spis) spi)
    pure .null
  | .dropApi api => do pure (.ok (.bool (← host.dropApi inside api)))
  | .newSpi spi className handler => do
    pure ((← host.nameSpi spi className handler).map fun _ => .null)
  | .dropHandler handler => do pure (.ok (.bool (← dropHandler handler)))
  | .enter => do
    pure (if (← get).inside then .error (.bridge .reentrantEnter) else .ok .null)
  | .dispatch bridge hook args => host.answerDispatch bridge hook args

def run {α : Type} : Script α → SessionM σ (Outcome α)
  | .done value => pure (.value value)
  | .raise error => pure (.raised error)
  | .panic message => pure (.panicked message)
  | .perform request next => do run (next (← host.answer request))

/-- Tries a callback from native code and answers a failure to the caller. -/
def tryDispatch (bridge : Nat) (b : Bridge) (hook : String) (args : List NativeArg) :
    SessionM σ (Except BridgeError NativeArg) :=
  tryDispatchWith host.loaded.marshaler b hook args
    (deliver host.loaded.marshaler host.run bridge b)

def dispatch : Dispatcher σ :=
  dispatchWith host.tryDispatch

def enter {α : Type} (script : Script α) : SessionM σ (Except BridgeError (Outcome α)) := do
  if (← get).inside then pure (.error .reentrantEnter)
  else pure (.ok (← during .host none (host.run script)))

def callHandler (handler : Nat) (h : Handler) (method : String) (args : List Value) :
    SessionM σ (Except BridgeError (Outcome Value)) := do
  if (← get).inside then pure (.error .reentrantEnter)
  else pure (.ok (← during .host (some handler) (host.run (h.call method args))))

/-- Serves work that instances do on their own, at most the given number of pieces. -/
def attend : Nat → SessionM σ Unit
  | 0 => pure ()
  | pieces + 1 => do
    match host.library.work? (← get).native with
    | none => pure ()
    | some (api, work) =>
      let _ ← work.follow host.dispatch api
      attend pieces

/-- Ends the time that the host is inside while a callback waits; it may release the instance
first. -/
def letIn (api : Nat) (releases : Bool) : SessionM σ (Option (Except CallError Unit)) := do
  let released ← if releases then
      some <$> (host.release (dispatchInside host.loaded.marshaler) api).run
    else pure none
  print (if releases then "joined" else "letting go")
  pure released

/-- A callback that arrives on a thread of its own while the host is inside. It waits until the host
lets go; with `releases`, the host first releases the instance, and nothing is delivered after that.
The answers are those of the release and of the callback, without one when no sink is registered. -/
def overlap (api : Nat) (hook : String) (args : List NativeArg) (releases : Bool) :
    SessionM σ (Option (Option (Except CallError Unit) × NativeArg)) := do
  let s ← get
  let sink := (host.library.sink? s.native api).bind fun bridge =>
    (s.objects.bridges[bridge]?).map fun b => (bridge, b)
  match sink with
  | none => pure none
  | some (bridge, b) =>
    let m := host.loaded.marshaler
    let (early, released) ← during .host none do
      print "holding"
      let early : Except NativeArg Admitted ← match admission m b false hook args with
        | .ok admitted => pure (.ok admitted)
        | .error error => do pure (.error (← settle bridge b hook (.error error)))
      pure (early, ← host.letIn api releases)
    let answer ← match early with
      | .ok admitted => do settle bridge b hook (← deliver m host.run bridge b admitted)
      | .error answer => pure answer
    pure (some (released, answer))

end Host

end NativeBinding.Session
