import NativeBinding.Session.Library
import NativeBinding.Marshal.Basic

/-! # A simulated trader library

Instances that accept requests, answer each with a status at once, and queue what the front would
say. The queue of an instance is worked off in order, one event after another.
-/

set_option autoImplicit false

namespace NativeBinding.Trader

open Session

inductive FrontEvent where
  | connected
  | heartbeat (lapse : Int32)
  | disconnected (reason : Int32)
  | login (broker user : String) (request : Int32)
  | order (order : Record) (request : Int32)
  | account (broker investor : String) (request : Int32)

structure Instance where
  flowPath : String
  fronts : List String := []
  requests : List String := []
  events : List FrontEvent := []
  started : Bool := false
  released : Bool := false
  sink : Option Nat := none

/-- The instances of the library, oldest first. -/
structure Desk where
  instances : List Instance := []

namespace Instance

def isRunning (i : Instance) : Bool :=
  i.started && !i.released

def push? (i : Instance) (event : FrontEvent) : Option Instance :=
  if i.isRunning then some { i with events := i.events ++ [event] } else none

end Instance

namespace Desk

def instance? (d : Desk) (api : Nat) : Option Instance :=
  d.instances[api]?

def change (d : Desk) (api : Nat) (f : Instance → Instance) : Desk :=
  ⟨d.instances.modify api f⟩

/-- Queues an event of an instance; answers whether the instance runs. -/
def push (d : Desk) (api : Nat) (event : FrontEvent) : Bool × Desk :=
  match (d.instance? api).bind (·.push? event) with
  | some i => (true, d.change api fun _ => i)
  | none => (false, d)

/-- Queues the event of a request: the status is 0, or -1 when the instance does not run. -/
def submit (d : Desk) (api : Nat) (request : String) (event : FrontEvent) : NativeArg × Desk :=
  match d.push api event with
  | (true, d) =>
    (.scalar (.i32 0), d.change api fun i => { i with requests := i.requests ++ [request] })
  | (false, d) => (.scalar (.i32 (-1)), d)

end Desk

end NativeBinding.Trader
