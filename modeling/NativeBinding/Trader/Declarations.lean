import NativeBinding.Model.File

/-! # The trader library's declarations

The types, constants and structs that the simulated library is built with. Typedefs and constants
are in name order, as a declaration file gives them.
-/

set_option autoImplicit false

namespace NativeBinding.Trader

def typedefs : List (String × String) :=
  [("TThostFtdcAccountIDType", "char[13]"), ("TThostFtdcBrokerIDType", "char[11]"),
    ("TThostFtdcCurrencyIDType", "char[4]"), ("TThostFtdcDateType", "char[9]"),
    ("TThostFtdcDirectionType", "char"), ("TThostFtdcErrorIDType", "int"),
    ("TThostFtdcErrorMsgType", "char[81]"), ("TThostFtdcFrontIDType", "int"),
    ("TThostFtdcInstrumentIDType", "char[31]"), ("TThostFtdcInvestorIDType", "char[13]"),
    ("TThostFtdcMoneyType", "double"), ("TThostFtdcOrderRefType", "char[13]"),
    ("TThostFtdcOrderStatusType", "char"), ("TThostFtdcOrderSysIDType", "char[21]"),
    ("TThostFtdcPasswordType", "char[41]"), ("TThostFtdcPriceType", "double"),
    ("TThostFtdcRequestIDType", "int"), ("TThostFtdcSessionIDType", "int"),
    ("TThostFtdcTimeType", "char[9]"), ("TThostFtdcUserIDType", "char[16]"),
    ("TThostFtdcVolumeType", "int")]

def constants : List (String × ConstValue) :=
  [("THOST_FTDC_D_Buy", .text "0"), ("THOST_FTDC_D_Sell", .text "1"),
    ("THOST_FTDC_OST_AllTraded", .text "0"), ("THOST_FTDC_OST_Canceled", .text "5"),
    ("THOST_FTDC_OST_NoTradeNotQueueing", .text "4"),
    ("THOST_FTDC_OST_NoTradeQueueing", .text "3"),
    ("THOST_FTDC_OST_PartTradedNotQueueing", .text "2"),
    ("THOST_FTDC_OST_PartTradedQueueing", .text "1"), ("THOST_TERT_NONE", .int 3),
    ("THOST_TERT_QUICK", .int 2), ("THOST_TERT_RESTART", .int 0), ("THOST_TERT_RESUME", .int 1)]

/-- The structs, each with the type and name of its fields. -/
def members : List (String × List (String × String)) :=
  [("CThostFtdcRspInfoField",
      [("TThostFtdcErrorIDType", "ErrorID"), ("TThostFtdcErrorMsgType", "ErrorMsg")]),
    ("CThostFtdcReqUserLoginField",
      [("TThostFtdcDateType", "TradingDay"), ("TThostFtdcBrokerIDType", "BrokerID"),
        ("TThostFtdcUserIDType", "UserID"), ("TThostFtdcPasswordType", "Password")]),
    ("CThostFtdcRspUserLoginField",
      [("TThostFtdcDateType", "TradingDay"), ("TThostFtdcTimeType", "LoginTime"),
        ("TThostFtdcBrokerIDType", "BrokerID"), ("TThostFtdcUserIDType", "UserID"),
        ("TThostFtdcFrontIDType", "FrontID"), ("TThostFtdcSessionIDType", "SessionID"),
        ("TThostFtdcOrderRefType", "MaxOrderRef")]),
    ("CThostFtdcInputOrderField",
      [("TThostFtdcBrokerIDType", "BrokerID"), ("TThostFtdcInvestorIDType", "InvestorID"),
        ("TThostFtdcInstrumentIDType", "InstrumentID"), ("TThostFtdcOrderRefType", "OrderRef"),
        ("TThostFtdcDirectionType", "Direction"), ("TThostFtdcPriceType", "LimitPrice"),
        ("TThostFtdcVolumeType", "VolumeTotalOriginal"),
        ("TThostFtdcRequestIDType", "RequestID")]),
    ("CThostFtdcOrderField",
      [("TThostFtdcBrokerIDType", "BrokerID"), ("TThostFtdcInvestorIDType", "InvestorID"),
        ("TThostFtdcInstrumentIDType", "InstrumentID"), ("TThostFtdcOrderRefType", "OrderRef"),
        ("TThostFtdcDirectionType", "Direction"), ("TThostFtdcPriceType", "LimitPrice"),
        ("TThostFtdcVolumeType", "VolumeTotalOriginal"), ("TThostFtdcVolumeType", "VolumeTraded"),
        ("TThostFtdcOrderStatusType", "OrderStatus"), ("TThostFtdcOrderSysIDType", "OrderSysID"),
        ("TThostFtdcFrontIDType", "FrontID"), ("TThostFtdcSessionIDType", "SessionID")]),
    ("CThostFtdcQryTradingAccountField",
      [("TThostFtdcBrokerIDType", "BrokerID"), ("TThostFtdcInvestorIDType", "InvestorID"),
        ("TThostFtdcCurrencyIDType", "CurrencyID")]),
    ("CThostFtdcTradingAccountField",
      [("TThostFtdcBrokerIDType", "BrokerID"), ("TThostFtdcAccountIDType", "AccountID"),
        ("TThostFtdcMoneyType", "Balance"), ("TThostFtdcMoneyType", "Available"),
        ("TThostFtdcMoneyType", "CurrMargin"), ("TThostFtdcCurrencyIDType", "CurrencyID")])]

def structs : List StructEntry :=
  members.map fun s => ⟨s.1, s.2.map fun f => f.1 ++ " " ++ f.2⟩

/-- A declaration file with the types, constants and structs of the library, and any classes. -/
structure Declares (file : DeclarationFile) : Prop where
  typedefs : file.typedefs = typedefs
  constants : file.constants = constants
  structs : file.structs = structs

end NativeBinding.Trader
