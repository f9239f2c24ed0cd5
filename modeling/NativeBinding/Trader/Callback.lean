import NativeBinding.Trader.Basic

/-! # Callbacks of the trader library

The callbacks that each event leads to. Building them fails when the declarations lack a struct, a
field or a constant, or a value does not fit.
-/

set_option autoImplicit false

namespace NativeBinding.Trader

open Session

structure Callback where
  hook : String
  args : List NativeArg
  deriving DecidableEq

def tradingDay : String := "20261019"

def sessionNumber : Int64 := 42

def number (value : Int32) : NativeArg :=
  .scalar (.i32 value)

def last : NativeArg :=
  .scalar (.bool true)

def encoded (m : Marshaler) (r : Record) : Option NativeArg :=
  ((m.encodeStruct r).map NativeArg.struct).toOption

/-- The memory of a struct that is zero but for the given fields. -/
def filled? (m : Marshaler) (name : String) (fields : List (String × Value)) :
    Option NativeArg := do
  encoded m (← ((← (m.newRecord name).toOption).setAll fields).toOption)

/-- The result that goes with a response; an error number of 0 is success. -/
def responseInfo? (m : Marshaler) (errorNumber : Int64) (text : String) : Option NativeArg :=
  filled? m "CThostFtdcRspInfoField" [("ErrorID", .int errorNumber), ("ErrorMsg", .text text)]

def constantText? (m : Marshaler) (name : String) : Option String :=
  (m.model.findConstant? name).bind fun c => c.value.asText

/-- The fields of an order that every return repeats. -/
def repeatedFields : List String :=
  ["BrokerID", "InvestorID", "InstrumentID", "OrderRef", "Direction", "LimitPrice"]

def orderReturn? (m : Marshaler) (order : Record) (volume traded : Int64) (status number : String) :
    Option Callback := do
  let repeated := repeatedFields.filterMap fun name => (order.get? name).map (name, ·)
  let fields : List (String × Value) := repeated ++
    [("VolumeTotalOriginal", .int volume), ("VolumeTraded", .int traded),
      ("OrderStatus", .text status), ("OrderSysID", .text number), ("FrontID", .int 1),
      ("SessionID", .int sessionNumber)]
  some ⟨"OnRtnOrder", [← filled? m "CThostFtdcOrderField" fields]⟩

/-- A login without a user is refused. -/
def loginCallback? (m : Marshaler) (broker user : String) (request : Int32) : Option Callback :=
  if user = "" then do
    let info ← responseInfo? m 3 "CTP:invalid login"
    some ⟨"OnRspUserLogin", [.null, info, number request, last]⟩
  else do
    let response ← filled? m "CThostFtdcRspUserLoginField"
      [("TradingDay", .text tradingDay), ("LoginTime", .text "09:00:01"),
        ("BrokerID", .text broker), ("UserID", .text user), ("FrontID", .int 1),
        ("SessionID", .int sessionNumber), ("MaxOrderRef", .text "1")]
    let info ← responseInfo? m 0 "CTP:no error"
    some ⟨"OnRspUserLogin", [response, info, number request, last]⟩

/-- An order of a positive volume is accepted and then filled; any other is refused. -/
def orderCallbacks? (m : Marshaler) (order : Record) (request : Int32) : Option (List Callback) :=
  let volume := ((order.get? "VolumeTotalOriginal").bind Value.asInt?).getD 0
  if volume ≤ 0 then do
    let info ← responseInfo? m 15 "CTP:invalid volume"
    some [⟨"OnRspOrderInsert", [← encoded m order, info, number request, last]⟩]
  else do
    let accepted ← constantText? m "THOST_FTDC_OST_NoTradeQueueing"
    let filled ← constantText? m "THOST_FTDC_OST_AllTraded"
    some [← orderReturn? m order volume 0 accepted "",
      ← orderReturn? m order volume volume filled "100001"]

def accountCallback? (m : Marshaler) (broker investor : String) (request : Int32) :
    Option Callback := do
  let amount (n : Int) : Value := .float (Ieee.Binary64.ofInt n)
  let account ← filled? m "CThostFtdcTradingAccountField"
    [("BrokerID", .text broker), ("AccountID", .text investor), ("Balance", amount 1000000),
      ("Available", amount 850000), ("CurrMargin", amount 150000), ("CurrencyID", .text "CNY")]
  some ⟨"OnRspQryTradingAccount", [account, .null, number request, last]⟩

def FrontEvent.callbacks? (m : Marshaler) : FrontEvent → Option (List Callback)
  | .connected => some [⟨"OnFrontConnected", []⟩]
  | .heartbeat lapse => some [⟨"OnHeartBeatWarning", [number lapse]⟩]
  | .disconnected reason => some [⟨"OnFrontDisconnected", [number reason]⟩]
  | .login broker user request => (loginCallback? m broker user request).map ([·])
  | .order body request => orderCallbacks? m body request
  | .account broker investor request => (accountCallback? m broker investor request).map ([·])

end NativeBinding.Trader
