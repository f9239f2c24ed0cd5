import NativeBinding.Native.Value
import NativeBinding.Session.Error

/-! # Scripts

Scripting code as a tree of requests: what it asks of the session, and how it goes on with each
reply. It ends with a value, with an error that a caller can catch, or with a panic that none can. A
handler is an object whose methods are scripts.
-/

set_option autoImplicit false

namespace NativeBinding.Session

/-- What a script can ask for. Objects go by the names that the session knows them under. -/
inductive Request where
  | print (line : String)
  | get (name : String)
  | set (name : String) (value : Value)
  | remove (name : String)
  /-- Adds to an integer global, which starts from zero. -/
  | bump (name : String) (amount : Int64)
  | newRecord (name : String)
  | construct (api className constructor : String) (args : List Value)
  | callStatic (className method : String) (args : List Value)
  | invoke (api method : String) (args : List Value)
  | init (api : String)
  | release (api : String)
  | register (api spi : String)
  | dropApi (api : String)
  | newSpi (spi className handler : String)
  | dropHandler (handler : String)
  | enter
  | dispatch (bridge hook : String) (args : List NativeArg)

inductive Script (α : Type) where
  | done (value : α)
  | raise (error : ScriptError)
  | panic (message : String)
  | perform (request : Request) (next : Except ScriptError Value → Script α)

namespace Script

variable {α β : Type}

def bind : Script α → (α → Script β) → Script β
  | done value, f => f value
  | raise error, _ => raise error
  | panic message, _ => panic message
  | perform request next, f => perform request fun reply => (next reply).bind f

instance : Monad Script where
  pure := done
  bind := bind

/-- Goes on with the handler where the script raises an error. -/
def catchError : Script α → (ScriptError → Script α) → Script α
  | done value, _ => done value
  | raise error, f => f error
  | panic message, _ => panic message
  | perform request next, f => perform request fun reply => (next reply).catchError f

def ofResult : Except ScriptError α → Script α
  | .ok value => done value
  | .error error => raise error

def ask (request : Request) : Script Value :=
  perform request ofResult

end Script

/-- An object whose methods may implement hooks; the methods are in name order. -/
structure Handler where
  className : String
  methods : List (String × (List Value → Script Value))

namespace Handler

/-- Keeps the last method of each name. -/
def ofMethods (className : String) (methods : List (String × (List Value → Script Value))) :
    Handler :=
  let latest := methods.foldl (fun kept m => m :: kept.filter fun k => k.1 != m.1) []
  ⟨className, latest.mergeSort fun a b => !decide (b.1 < a.1)⟩

def method? (h : Handler) (name : String) : Option (List Value → Script Value) :=
  (h.methods.find? fun m => m.1 == name).map (·.2)

def implements (h : Handler) (name : String) : Bool :=
  (h.method? name).isSome

def methodNames (h : Handler) : List String :=
  h.methods.map (·.1)

def call (h : Handler) (name : String) (args : List Value) : Script Value :=
  match h.method? name with
  | some method => method args
  | none => .raise (.raised s!"{h.className} has no method '{name}'")

end Handler

end NativeBinding.Session
