import NativeBinding.Trader.Callback

/-! # The trader library's entries

The entry points of the simulated library. Requests only queue; the queue is the work that instances
do on their own. After a release nothing of an instance is delivered any more.
-/

set_option autoImplicit false

namespace NativeBinding.Trader

open Session

def apiClass : String := "CThostFtdcTraderApi"

def fault (message : String) : NativeFault :=
  { message }

def lossyText (octets : List UInt8) : String :=
  String.ofList (Text.Utf8.decodeLossy octets)

def flowPath : List NativeArg → Except NativeFault String
  | [.text octets] => .ok (lossyText octets)
  | [.null] => .ok ""
  | [] => .ok ""
  | other => .error (fault s!"bad factory arguments: {other.length} given")

def readRequest (m : Marshaler) (method : String) : List NativeArg →
    Except NativeFault (Record × Int32)
  | [.struct body, .scalar (.i32 number)] =>
    match m.decodeStruct body with
    | .ok r => .ok (r, number)
    | .error e => .error (fault s!"{method}: {e.message}")
  | _ => .error { code := some (-2), message := s!"{method}: malformed request" }

def textField (r : Record) (name : String) : String :=
  ((r.get? name).bind Value.asText?).getD ""

namespace Desk

def queued (d : Desk) (api : Nat) (method : String) (event : FrontEvent) :
    NativeRun Desk :=
  let (status, d) := d.submit api method event
  .answer d (.ok status)

def request (m : Marshaler) (d : Desk) (api : Nat) (method : String)
    (args : List NativeArg) (event : Record → Int32 → FrontEvent) : NativeRun Desk :=
  match readRequest m method args with
  | .ok (r, number) => d.queued api method (event r number)
  | .error e => .answer d (.error e)

def registerFront (d : Desk) (api : Nat) (args : List NativeArg) : NativeRun Desk :=
  match args with
  | [.text (b :: octets)] =>
    .answer (d.change api fun i => { i with fronts := i.fronts ++ [lossyText (b :: octets)] })
      (.ok .void)
  | _ => .answer d (.error { code := some (-1), message := "front address required" })

def call (m : Marshaler) (d : Desk) (api : Nat) (method : String) (args : List NativeArg) :
    NativeRun Desk :=
  match method with
  | "GetTradingDay" => .answer d (.ok (.text (Text.Utf8.ofString tradingDay)))
  | "RegisterFront" => d.registerFront api args
  | "ReqUserLogin" => request m d api method args fun r number =>
      .login (textField r "BrokerID") (textField r "UserID") number
  | "ReqOrderInsert" => request m d api method args fun r number => .order r number
  | "ReqQryTradingAccount" => request m d api method args fun r number =>
      .account (textField r "BrokerID") (textField r "InvestorID") number
  | other => .answer d (.error (fault s!"unsupported request {other}"))

/-- Starts an instance, whose front answers at once. A second start does nothing. -/
def start (d : Desk) (api : Nat) : NativeRun Desk :=
  match d.instance? api with
  | none => .answer d (.ok .void)
  | some i =>
    if i.released then .answer d (.error (fault "instance released"))
    else if i.started then .answer d (.ok .void)
    else
      .answer (d.change api fun i => { i with started := true, events := [.connected] })
        (.ok .void)

def stop (d : Desk) (api : Nat) : Desk :=
  d.change api fun i => { i with released := true, events := [], sink := none }

/-- Delivers callbacks through the sink that is current at each, while the instance is there. -/
def deliver (api : Nat) : List Callback → Desk → NativeRun Desk
  | [], d => .answer d (.ok .void)
  | c :: rest, d =>
    match d.instance? api with
    | some i =>
      if i.released then .answer d (.ok .void)
      else .invoke d i.sink c.hook c.args fun d _ => deliver api rest d
    | none => .answer d (.ok .void)

/-- Takes the next event of the first instance that has one. -/
def work? (m : Marshaler) (d : Desk) : Option (Nat × NativeRun Desk) := do
  let api ← d.instances.findIdx? fun i => !i.events.isEmpty
  let i ← d.instance? api
  match i.events with
  | [] => none
  | event :: rest =>
    let d := d.change api fun i => { i with events := rest }
    some (api, deliver api ((event.callbacks? m).getD []) d)

end Desk

def library (m : Marshaler) : NativeLibrary Desk where
  create d className constructor args :=
    if className = apiClass ∧ constructor = "CreateFtdcTraderApi" then
      match flowPath args with
      | .ok path => (⟨d.instances ++ [{ flowPath := path }]⟩, .ok ())
      | .error e => (d, .error e)
    else (d, .error (fault s!"no factory {className}::{constructor}"))
  callStatic d className method _ :=
    if className = apiClass ∧ method = "GetApiVersion" then
      (d, .ok (.text (Text.Utf8.ofString "v6.3.15_mock")))
    else (d, .error (fault s!"no static {className}::{method}"))
  register d api bridge := (d.change api fun i => { i with sink := some bridge }, .ok ())
  init d api := d.start api
  release d api := .answer (d.stop api) (.ok .void)
  call d api method args := Desk.call m d api method args
  sink? d api := (d.instance? api).bind (·.sink)
  work? := Desk.work? m

end NativeBinding.Trader
