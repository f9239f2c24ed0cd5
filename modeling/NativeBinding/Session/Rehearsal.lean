import NativeBinding.Session.State

/-! # Rehearsed libraries

A native library that answers from a list of replies for each entry. A reply may invoke callbacks
before it answers. The replies of an entry are used one after another, and the last one stays.
-/

set_option autoImplicit false

namespace NativeBinding.Session

structure Firing where
  hook : String
  args : List NativeArg
  deriving DecidableEq

inductive ReplyValue where
  | value (arg : NativeArg)
  | echo (index : Nat)
  | fault (fault : NativeFault)
  deriving DecidableEq

structure Reply where
  answer : ReplyValue := .value .void
  fires : List Firing := []
  deriving DecidableEq

/-- The replies that are left, and the sink that each instance has. -/
structure Rehearsal where
  create : List Reply := []
  register : List Reply := []
  init : List Reply := []
  release : List Reply := []
  statics : List (String × List Reply) := []
  calls : List (String × List Reply) := []
  sinks : List (Option Nat) := []

def Reply.result (r : Reply) (args : List NativeArg) : Except NativeFault NativeArg :=
  match r.answer with
  | .value arg => .ok arg
  | .echo index => .ok (args.getD index .void)
  | .fault fault => .error fault

def nextReply : List Reply → Option Reply × List Reply
  | [] => (none, [])
  | [r] => (some r, [r])
  | r :: rest => (some r, rest)

def nextNamed (name : String) :
    List (String × List Reply) → Option Reply × List (String × List Reply)
  | [] => (none, [])
  | entry :: rest =>
    if entry.1 == name then ((nextReply entry.2).1, (entry.1, (nextReply entry.2).2) :: rest)
    else ((nextNamed name rest).1, entry :: (nextNamed name rest).2)

namespace Rehearsal

def sink? (s : Rehearsal) (api : Nat) : Option Nat :=
  (s.sinks[api]?).join

def setSink (s : Rehearsal) (api : Nat) (sink : Option Nat) : Rehearsal :=
  { s with sinks := s.sinks.set api sink }

/-- Makes callbacks through the sink that is current at each, and then goes on. -/
def fire (api : Nat) (finish : Rehearsal → NativeRun Rehearsal) :
    List Firing → Rehearsal → NativeRun Rehearsal
  | [], s => finish s
  | f :: rest, s => .invoke s (s.sink? api) f.hook f.args fun s _ => fire api finish rest s

private def missing (what name : String) : Except NativeFault NativeArg :=
  .error { message := s!"no {what} {name}" }

private def accepted : Except NativeFault NativeArg → Except NativeFault Unit
  | .ok _ => .ok ()
  | .error fault => .error fault

private def optional (reply : Option Reply) : Reply :=
  reply.getD {}

def library : NativeLibrary Rehearsal where
  create s _ _ args :=
    let (reply, create) := nextReply s.create
    match accepted ((optional reply).result args) with
    | .ok () => ({ s with create, sinks := s.sinks ++ [none] }, .ok ())
    | .error fault => ({ s with create }, .error fault)
  callStatic s _ method args :=
    let (reply, statics) := nextNamed method s.statics
    ({ s with statics }, match reply with
      | some r => r.result args
      | none => missing "static" method)
  register s api bridge :=
    let (reply, register) := nextReply s.register
    match accepted ((optional reply).result []) with
    | .ok () => ({ s with register }.setSink api (some bridge), .ok ())
    | .error fault => ({ s with register }, .error fault)
  init s api :=
    let (reply, init) := nextReply s.init
    let r := optional reply
    fire api (fun s => .answer s (r.result [])) r.fires { s with init }
  release s api :=
    let (reply, release) := nextReply s.release
    let r := optional reply
    let finish (s : Rehearsal) : NativeRun Rehearsal :=
      match r.result [] with
      | .ok arg => .answer (s.setSink api none) (.ok arg)
      | .error fault => .answer s (.error fault)
    fire api finish r.fires { s with release }
  call s api method args :=
    let (reply, calls) := nextNamed method s.calls
    match reply with
    | some r => fire api (fun s => .answer s (r.result args)) r.fires { s with calls }
    | none => .answer s (missing "method" method)
  sink? := sink?
  work? _ := none

end Rehearsal

end NativeBinding.Session
