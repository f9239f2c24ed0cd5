import NativeBinding.Session.Library
import NativeBinding.Session.Registry

/-! # The state of a session

Objects and the names scripts know them by, global values, whether scripting code is running, and a
log of everything that happened, oldest first. The state of the native library is kept beside them.
-/

set_option autoImplicit false

namespace NativeBinding.Session

/-- What stands under names; the latest object of each name. -/
structure Names where
  apis : List (String × Nat) := []
  spis : List (String × Nat) := []
  handlers : List (String × Nat) := []
  bridges : List (String × Nat) := []
  sinks : List (String × Nat) := []

def lookup {α : Type} (name : String) (entries : List (String × α)) : Option α :=
  (entries.find? fun e => e.1 == name).map (·.2)

def forget {α : Type} (name : String) (entries : List (String × α)) : List (String × α) :=
  entries.filter fun e => e.1 != name

def store {α : Type} (name : String) (value : α) (entries : List (String × α)) :
    List (String × α) :=
  (name, value) :: forget name entries

inductive Entry where
  | create (className constructor : String) (args : List NativeArg)
  | static (className method : String) (args : List NativeArg)
  | register (api : Nat)
  | init (api : Nat)
  | release (api : Nat)
  | call (api : Nat) (method : String) (args : List NativeArg)
  deriving DecidableEq

/-- A callback that failed; the native caller got a default. -/
structure Fault where
  bridge : Nat
  interfaceName : String
  hook : String
  error : BridgeError
  deriving DecidableEq

/-- The report of a fault, with a label for its bridge. -/
def Fault.report (f : Fault) (label : String) : String :=
  s!"{f.interfaceName}::{f.hook} [{label}]: {f.error.message}"

inductive Activity where
  | host
  | handler (bridge : Nat) (hook : String)
  deriving DecidableEq

inductive Event where
  | entered (entry : Entry)
  /-- A callback of an instance, with its answer when there was a sink. -/
  | calledBack (api : Nat) (hook : String) (args : List NativeArg) (answer : Option NativeArg)
  | began (activity : Activity)
  | ended (activity : Activity)
  | printed (line : String)
  | faulted (fault : Fault)
  deriving DecidableEq

structure State (σ : Type) where
  native : σ
  objects : Registry := {}
  names : Names := {}
  globals : List (String × Value) := []
  inside : Bool := false
  running : Option Nat := none
  log : List Event := []

abbrev SessionM (σ : Type) := StateM (State σ)

abbrev CallM (σ : Type) := ExceptT CallError (SessionM σ)

/-- Answers a callback through the sink of a bridge. -/
abbrev Dispatcher (σ : Type) := Nat → String → List NativeArg → SessionM σ NativeArg

namespace State

variable {σ : Type}

/-- A handler exists while a name stands for it or a call of it is running. -/
def isAlive (s : State σ) (handler : Nat) : Bool :=
  s.running == some handler || ((s.objects.handlers[handler]?).map (·.held)).getD false

def handler? (s : State σ) (handler : Nat) : Option Handler :=
  if s.isAlive handler then (s.objects.handlers[handler]?).map (·.handler) else none

end State

variable {σ : Type}

def record (event : Event) : SessionM σ Unit :=
  modify fun s => { s with log := s.log ++ [event] }

def print (line : String) : SessionM σ Unit :=
  record (.printed line)

def changeObjects (change : Registry → Registry) : SessionM σ Unit :=
  modify fun s => { s with objects := change s.objects }

def addObject (add : Registry → Nat × Registry) : SessionM σ Nat :=
  modifyGet fun s => ((add s.objects).1, { s with objects := (add s.objects).2 })

def during {α : Type} (activity : Activity) (handler : Option Nat) (action : SessionM σ α) :
    SessionM σ α := do
  let before ← get
  record (.began activity)
  modify fun s => { s with inside := true, running := handler }
  let result ← action
  modify fun s => { s with inside := before.inside, running := before.running }
  record (.ended activity)
  pure result

/-- Answers one callback of a library, whose state is handed over. -/
def callBack (dispatch : Dispatcher σ) (api : Nat) (native : σ) (sink : Option Nat) (hook : String)
    (args : List NativeArg) : SessionM σ (Option NativeArg) := do
  modify fun s => { s with native }
  let answer ← match sink with
    | some bridge => some <$> dispatch bridge hook args
    | none => pure none
  record (.calledBack api hook args answer)
  pure answer

/-- Follows what a library does, with callbacks answered by the dispatcher. -/
def NativeRun.follow (dispatch : Dispatcher σ) (api : Nat) :
    NativeRun σ → SessionM σ (Except NativeFault NativeArg)
  | .answer native reply => do
    modify fun s => { s with native }
    pure reply
  | .invoke native sink hook args next => do
    let answer ← callBack dispatch api native sink hook args
    (next (← get).native (answer.getD .void)).follow dispatch api

end NativeBinding.Session
