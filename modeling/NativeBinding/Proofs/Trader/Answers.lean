import NativeBinding.Proofs.Trader.Declared
import NativeBinding.Trader.Library

/-! # What the trader answers

The callbacks of each event that a request or the front queues. Building them never fails: a value
of the request fits every struct that a callback gives it back in.
-/

set_option autoImplicit false

namespace NativeBinding.Trader

open Marshal

/-- A callback's argument, as the side that is called back reads it. -/
def Shows (m : Marshaler) (arg : NativeArg) (r : Record) : Prop :=
  ∃ n, arg = .struct n ∧ m.decodeStruct n = .ok r

/-- The event that a request queues. -/
def requestEvent? (m : Marshaler) (method : String) (args : List NativeArg) :
    Option FrontEvent := do
  let (r, number) ← (readRequest m method args).toOption
  match method with
  | "ReqUserLogin" => some (.login (textField r "BrokerID") (textField r "UserID") number)
  | "ReqOrderInsert" => some (.order r number)
  | "ReqQryTradingAccount" =>
    some (.account (textField r "BrokerID") (textField r "InvestorID") number)
  | _ => none

/-- The events that requests and the front queue. -/
inductive Queueable (m : Marshaler) : FrontEvent → Prop where
  | connected : Queueable m .connected
  | heartbeat (lapse : Int32) : Queueable m (.heartbeat lapse)
  | disconnected (reason : Int32) : Queueable m (.disconnected reason)
  | requested {method : String} {args : List NativeArg} {event : FrontEvent}
      (hEvent : requestEvent? m method args = some event) : Queueable m event

def orderVolume (order : Record) : Int64 :=
  ((order.get? "VolumeTotalOriginal").bind Value.asInt?).getD 0

/-- The return of an order that has been traded as far as said. -/
structure Returns (order returned : Record) (traded : Int64) : Prop where
  typeName : returned.typeName = "CThostFtdcOrderField"
  repeated : ∀ name ∈ repeatedFields,
    ∃ v, order.get? name = some v ∧ returned.get? name = some v
  volume : returned.get? "VolumeTotalOriginal" = some (.int (orderVolume order))
  traded : returned.get? "VolumeTraded" = some (.int traded)

/-- The callbacks that an event has. -/
inductive Answers (m : Marshaler) : FrontEvent → List Callback → Prop where
  | connected : Answers m .connected [⟨"OnFrontConnected", []⟩]
  | heartbeat (lapse : Int32) :
      Answers m (.heartbeat lapse) [⟨"OnHeartBeatWarning", [.scalar (.i32 lapse)]⟩]
  | disconnected (reason : Int32) :
      Answers m (.disconnected reason) [⟨"OnFrontDisconnected", [.scalar (.i32 reason)]⟩]
  | loginRefused {broker : String} {request : Int32} {info : NativeArg} {r : Record}
      (hInfo : Shows m info r) (hError : r.get? "ErrorID" = some (.int 3)) :
      Answers m (.login broker "" request)
        [⟨"OnRspUserLogin", [.null, info, .scalar (.i32 request), .scalar (.bool true)]⟩]
  | login {broker user : String} {request : Int32} {response info : NativeArg} {r r' : Record}
      (hUser : user ≠ "") (hResponse : Shows m response r)
      (hBroker : r.get? "BrokerID" = some (.text broker))
      (hName : r.get? "UserID" = some (.text user)) (hInfo : Shows m info r')
      (hError : r'.get? "ErrorID" = some (.int 0)) :
      Answers m (.login broker user request)
        [⟨"OnRspUserLogin", [response, info, .scalar (.i32 request), .scalar (.bool true)]⟩]
  | orderRefused {order r : Record} {request : Int32} {repeated info : NativeArg}
      (hVolume : orderVolume order ≤ 0) (hRepeated : Shows m repeated order)
      (hInfo : Shows m info r) (hError : r.get? "ErrorID" = some (.int 15)) :
      Answers m (.order order request)
        [⟨"OnRspOrderInsert", [repeated, info, .scalar (.i32 request), .scalar (.bool true)]⟩]
  | orderFilled {order r r' : Record} {request : Int32} {first second : NativeArg}
      (hVolume : 0 < orderVolume order) (hFirst : Shows m first r) (hReturn : Returns order r 0)
      (hSecond : Shows m second r') (hReturn' : Returns order r' (orderVolume order)) :
      Answers m (.order order request) [⟨"OnRtnOrder", [first]⟩, ⟨"OnRtnOrder", [second]⟩]
  | account {broker investor : String} {request : Int32} {account : NativeArg} {r : Record}
      (hAccount : Shows m account r) (hBroker : r.get? "BrokerID" = some (.text broker))
      (hInvestor : r.get? "AccountID" = some (.text investor)) :
      Answers m (.account broker investor request)
        [⟨"OnRspQryTradingAccount",
          [account, .null, .scalar (.i32 request), .scalar (.bool true)]⟩]

theorem Answers.ne_nil {m : Marshaler} {event : FrontEvent} {callbacks : List Callback}
    (h : Answers m event callbacks) : callbacks ≠ [] := by
  cases h <;> exact List.cons_ne_nil _ _

section Carried

theorem carried_number {value : Int64} {n : Int32} (h : value = n.toInt64) :
    Carried (.scalar .i32) (.int value) := by
  rw [h]
  exact carried_int n

theorem carried_octet {text : String} (code : UInt8) (h : charValue code = .text text) :
    Carried (.scalar .char) (.text text) := by
  rw [← h]
  exact carried_char code

/-- Fields that several structs have. -/
def shared : List FieldDecl :=
  [⟨"BrokerID", .fixedText 11⟩, ⟨"UserID", .fixedText 16⟩, ⟨"InvestorID", .fixedText 13⟩,
    ⟨"InstrumentID", .fixedText 31⟩, ⟨"OrderRef", .fixedText 13⟩, ⟨"Direction", .scalar .char⟩,
    ⟨"LimitPrice", .scalar .f64⟩, ⟨"VolumeTotalOriginal", .scalar .i32⟩]

theorem type_of_shared :
    ∀ s ∈ resolved, ∀ f ∈ s.fields, ∀ g ∈ shared, f.name = g.name → f.type = g.type := by
  simp only [resolved, List.forall_mem_cons, shared]
  simp

variable {order : Record} {s : StructDecl} {v : Value}

theorem carried_shared (hs : s ∈ resolved) (h : order.FillsStruct s) {g : FieldDecl}
    (hg : g ∈ shared) (hGet : order.get? g.name = some v) : Carried g.type v := by
  obtain ⟨f, hf, hName, hCarried⟩ := h.exists_field hGet
  rw [← type_of_shared s hs f hf g hg hName]
  exact hCarried

theorem carried_textField (hs : s ∈ resolved) (h : order.FillsStruct s) {name : String}
    {width : Nat} (hg : ⟨name, .fixedText width⟩ ∈ shared) :
    Carried (.fixedText width) (.text (textField order name)) := by
  have hEmpty : Carried (.fixedText width) (.text "") :=
    carried_text (Nat.zero_le width) List.not_mem_nil
  rw [textField]
  cases hGet : order.get? name with
  | none => exact hEmpty
  | some v =>
    have hCarried : Carried (.fixedText width) v := carried_shared hs h hg hGet
    cases v with
    | text value => exact hCarried
    | _ => exact hEmpty

theorem exists_orderVolume (hs : s ∈ resolved) (h : order.FillsStruct s) :
    ∃ n : Int32, orderVolume order = n.toInt64 := by
  rw [orderVolume]
  cases hGet : order.get? "VolumeTotalOriginal" with
  | none => exact ⟨0, rfl⟩
  | some v =>
    have hCarried : Carried (.scalar .i32) v :=
      carried_shared hs h (g := ⟨"VolumeTotalOriginal", .scalar .i32⟩) (by simp [shared]) hGet
    generalize hType : TypeRef.scalar .i32 = type at hCarried
    cases hCarried with
    | @scalar scalar v hRead =>
      cases scalar with
      | i32 n =>
        cases hRead ""
        exact ⟨n, rfl⟩
      | _ => cases hType
    | text => cases hType

end Carried

section Filled

variable {m : Marshaler} {s : StructDecl}

theorem Bundled.laid (hm : Bundled m) (hs : s ∈ resolved) : ∃ l rank, m.LaidFlat s l rank :=
  hm.flat.exists_layout (hm.structs ▸ hs)

theorem exists_filled (hm : Bundled m) (hs : s ∈ resolved) {fields : List (String × Value)}
    (hNames : (fields.map (·.1)).Nodup)
    (hFields : ∀ g ∈ fields, ∃ f ∈ s.fields, f.name = g.1 ∧ Carried f.type g.2) :
    ∃ arg r, filled? m s.name fields = some arg ∧ Shows m arg r ∧ r.typeName = s.name ∧
      ∀ g ∈ fields, r.get? g.1 = some g.2 := by
  obtain ⟨l, rank, hLaid⟩ := hm.laid hs
  obtain ⟨zero, hNew, hZero⟩ := hLaid.exists_newRecord
  obtain ⟨r, hSet, hFills, hGet, -⟩ := hZero.exists_setAll hLaid.names hNames hFields
  obtain ⟨octets, hEncode, hDecode⟩ := hLaid.exists_encodeStruct hFills
  refine ⟨.struct ⟨s.name, octets⟩, r, ?_, ⟨_, rfl, hDecode⟩, hFills.typeName, hGet⟩
  simp [filled?, hNew, hSet, encoded, hEncode, Except.toOption, Except.map]

theorem exists_encoded (hm : Bundled m) (hs : s ∈ resolved) {r : Record}
    (hr : r.FillsStruct s) : ∃ arg, encoded m r = some arg ∧ Shows m arg r := by
  obtain ⟨l, rank, hLaid⟩ := hm.laid hs
  obtain ⟨octets, hEncode, hDecode⟩ := hLaid.exists_encodeStruct hr
  refine ⟨.struct ⟨s.name, octets⟩, ?_, _, rfl, hDecode⟩
  simp [encoded, hEncode, Except.toOption, Except.map]

theorem exists_responseInfo (hm : Bundled m) {number : Int64} {n : Int32} {text : String}
    (hNumber : number = n.toInt64) (hWidth : (Text.Utf8.ofString text).length ≤ 81)
    (hFree : 0 ∉ Text.Utf8.ofString text) :
    ∃ arg r, responseInfo? m number text = some arg ∧ Shows m arg r ∧
      r.get? "ErrorID" = some (.int number) := by
  have hs : (⟨"CThostFtdcRspInfoField", [⟨"ErrorID", .scalar .i32⟩, ⟨"ErrorMsg", .fixedText 81⟩]⟩ :
      StructDecl) ∈ resolved := by simp [resolved]
  have hFields : ∀ g ∈ [("ErrorID", Value.int number), ("ErrorMsg", .text text)],
      ∃ f ∈ [(⟨"ErrorID", .scalar .i32⟩ : FieldDecl), ⟨"ErrorMsg", .fixedText 81⟩],
        f.name = g.1 ∧ Carried f.type g.2 := by
    simp [carried_number hNumber, carried_text hWidth hFree]
  obtain ⟨arg, r, hFilled, hShows, -, hGet⟩ := exists_filled hm hs (by simp) hFields
  exact ⟨arg, r, hFilled, hShows, hGet _ List.mem_cons_self⟩

end Filled

section Order

variable {m : Marshaler} {s : StructDecl} {order : Record}

/-- The fields that an order's return repeats, with the values that the order has. -/
def repeatedValues (order : Record) : List (String × Value) :=
  repeatedFields.filterMap fun name => (order.get? name).map (name, ·)

theorem mem_repeatedValues {g : String × Value} :
    g ∈ repeatedValues order ↔ g.1 ∈ repeatedFields ∧ order.get? g.1 = some g.2 := by
  simp only [repeatedValues, List.mem_filterMap, Option.map_eq_some_iff]
  constructor
  · rintro ⟨name, hName, v, hGet, rfl⟩
    exact ⟨hName, hGet⟩
  · rintro ⟨hName, hGet⟩
    exact ⟨g.1, hName, g.2, hGet, rfl⟩

theorem names_repeatedValues_sublist (order : Record) :
    ((repeatedValues order).map (·.1)).Sublist repeatedFields := by
  rw [repeatedValues]
  induction repeatedFields with
  | nil => exact .slnil
  | cons name names ih =>
    rw [List.filterMap_cons]
    cases order.get? name with
    | none => exact ih.cons name
    | some v => exact ih.cons_cons name

def orderStruct : StructDecl :=
  ⟨"CThostFtdcOrderField",
    [⟨"BrokerID", .fixedText 11⟩, ⟨"InvestorID", .fixedText 13⟩, ⟨"InstrumentID", .fixedText 31⟩,
      ⟨"OrderRef", .fixedText 13⟩, ⟨"Direction", .scalar .char⟩, ⟨"LimitPrice", .scalar .f64⟩,
      ⟨"VolumeTotalOriginal", .scalar .i32⟩, ⟨"VolumeTraded", .scalar .i32⟩,
      ⟨"OrderStatus", .scalar .char⟩, ⟨"OrderSysID", .fixedText 21⟩, ⟨"FrontID", .scalar .i32⟩,
      ⟨"SessionID", .scalar .i32⟩]⟩

theorem exists_repeated {name : String} (hName : name ∈ repeatedFields) :
    ∃ f ∈ orderStruct.fields, f.name = name ∧ f ∈ shared := by
  simp only [repeatedFields, List.mem_cons, List.not_mem_nil, or_false] at hName
  rcases hName with rfl | rfl | rfl | rfl | rfl | rfl
  all_goals simp [orderStruct, shared]

def ownValues (volume traded : Int64) (status number : String) : List (String × Value) :=
  [("VolumeTotalOriginal", .int volume), ("VolumeTraded", .int traded),
    ("OrderStatus", .text status), ("OrderSysID", .text number), ("FrontID", .int 1),
    ("SessionID", .int sessionNumber)]

theorem orderReturn?_eq (m : Marshaler) (order : Record) (volume traded : Int64)
    (status number : String) :
    orderReturn? m order volume traded status number =
      (filled? m orderStruct.name
        (repeatedValues order ++ ownValues volume traded status number)).map
          fun arg => ⟨"OnRtnOrder", [arg]⟩ := by
  rw [Option.map_eq_bind]
  rfl

variable {volume traded : Int64} {status number : String}

theorem nodup_returned (order : Record) :
    ((repeatedValues order ++ ownValues volume traded status number).map (·.1)).Nodup := by
  have hAll : (repeatedFields ++ (ownValues volume traded status number).map (·.1)).Nodup := by
    simp [ownValues, repeatedFields]
  rw [List.map_append]
  exact ((names_repeatedValues_sublist order).append_right _).nodup hAll

theorem carried_ownValues {n k : Int32} {code : UInt8} (hVolume : volume = n.toInt64)
    (hTraded : traded = k.toInt64) (hStatus : charValue code = .text status)
    (hWidth : (Text.Utf8.ofString number).length ≤ 21)
    (hFree : 0 ∉ Text.Utf8.ofString number) :
    ∀ g ∈ ownValues volume traded status number,
      ∃ f ∈ orderStruct.fields, f.name = g.1 ∧ Carried f.type g.2 := by
  have hFront : Carried (.scalar .i32) (.int 1) := carried_number (n := 1) (by decide)
  have hSession : Carried (.scalar .i32) (.int sessionNumber) :=
    carried_number (n := 42) (by decide)
  simp only [ownValues, List.forall_mem_cons]
  simp [orderStruct, carried_number hVolume, carried_number hTraded, carried_octet code hStatus,
    carried_text hWidth hFree, hFront, hSession]

theorem exists_orderReturn (hm : Bundled m) (hs : s ∈ resolved) (h : order.FillsStruct s)
    (hRepeated : ∀ name ∈ repeatedFields, ∃ v, order.get? name = some v)
    {n : Int32} (hTraded : traded = n.toInt64) {code : UInt8}
    (hStatus : charValue code = .text status)
    (hWidth : (Text.Utf8.ofString number).length ≤ 21)
    (hFree : 0 ∉ Text.Utf8.ofString number) :
    ∃ arg r, orderReturn? m order (orderVolume order) traded status number =
        some ⟨"OnRtnOrder", [arg]⟩ ∧ Shows m arg r ∧ Returns order r traded := by
  obtain ⟨volume, hVolume⟩ := exists_orderVolume hs h
  have hOrder : orderStruct ∈ resolved := by simp [resolved, orderStruct]
  have hFields : ∀ g ∈ repeatedValues order ++ ownValues (orderVolume order) traded status number,
      ∃ f ∈ orderStruct.fields, f.name = g.1 ∧ Carried f.type g.2 := by
    refine List.forall_mem_append.mpr ⟨fun g hg => ?_, ?_⟩
    · obtain ⟨hName, hGet⟩ := mem_repeatedValues.mp hg
      obtain ⟨f, hf, hSame, hShared⟩ := exists_repeated hName
      exact ⟨f, hf, hSame, carried_shared hs h hShared (hSame ▸ hGet)⟩
    · exact carried_ownValues hVolume hTraded hStatus hWidth hFree
  obtain ⟨arg, r, hFilled, hShows, hName, hGet⟩ :=
    exists_filled hm hOrder (nodup_returned order) hFields
  rw [List.forall_mem_append] at hGet
  obtain ⟨hGet, hOwn⟩ := hGet
  refine ⟨arg, r, ?_, hShows, hName, fun name hMem => ?_, ?_, ?_⟩
  · rw [orderReturn?_eq, hFilled]
    rfl
  · obtain ⟨v, hv⟩ := hRepeated name hMem
    exact ⟨v, hv, hGet (name, v) (mem_repeatedValues.mpr ⟨hMem, hv⟩)⟩
  · exact hOwn _ List.mem_cons_self
  · exact hOwn _ (List.mem_cons_of_mem _ List.mem_cons_self)

theorem exists_repeated_value (hm : Bundled m) (hs : s ∈ resolved) (h : order.FillsStruct s)
    (hVolume : 0 < orderVolume order) :
    ∀ name ∈ repeatedFields, ∃ v, order.get? name = some v := by
  have hAll : ∀ s ∈ resolved, (∃ f ∈ s.fields, f.name = "VolumeTotalOriginal") →
      ∀ name ∈ repeatedFields, ∃ f ∈ s.fields, f.name = name := by
    simp only [resolved, List.forall_mem_cons, repeatedFields]
    simp
  obtain ⟨l, rank, hLaid⟩ := hm.laid hs
  have hHas : ∃ f ∈ s.fields, f.name = "VolumeTotalOriginal" := by
    cases hGet : order.get? "VolumeTotalOriginal" with
    | none =>
      rw [orderVolume, hGet] at hVolume
      exact absurd hVolume (by decide)
    | some v =>
      obtain ⟨f, hf, hName, -⟩ := h.exists_field hGet
      exact ⟨f, hf, hName⟩
  intro name hName
  obtain ⟨f, hf, rfl⟩ := hAll s hs hHas name hName
  obtain ⟨v, hGet, -⟩ := h.exists_get? hLaid.names hf
  exact ⟨v, hGet⟩

theorem exists_orderCallbacks (hm : Bundled m) (hs : s ∈ resolved) (h : order.FillsStruct s)
    (request : Int32) : ∃ callbacks, orderCallbacks? m order request = some callbacks ∧
      Answers m (.order order request) callbacks := by
  by_cases hVolume : orderVolume order ≤ 0
  · obtain ⟨info, r, hInfo, hShows, hError⟩ := @exists_responseInfo m hm 15 15
      "CTP:invalid volume" (by decide) (by decide) (by decide)
    obtain ⟨repeated, hRepeated, hOrder⟩ := exists_encoded hm hs h
    refine ⟨_, (if_pos hVolume).trans ?_, .orderRefused hVolume hOrder hShows hError⟩
    rw [hInfo, hRepeated]
    rfl
  · have hPositive : 0 < orderVolume order := Int64.not_le.mp hVolume
    have hAll := exists_repeated_value hm hs h hPositive
    obtain ⟨n, hn⟩ := exists_orderVolume hs h
    obtain ⟨first, r, hFirst, hShows, hReturns⟩ := @exists_orderReturn m s order 0 "3" "" hm hs h
      hAll 0 rfl 51 rfl (by decide) (by decide)
    obtain ⟨second, r', hSecond, hShows', hReturns'⟩ := @exists_orderReturn m s order _ "0" "100001"
      hm hs h hAll n hn 48 rfl (by decide) (by decide)
    refine ⟨_, (if_neg hVolume).trans ?_,
      .orderFilled hPositive hShows hReturns hShows' hReturns'⟩
    rw [hm.queueing, hm.traded]
    have hBoth : (orderReturn? m order (orderVolume order) 0 "3" "").bind (fun a =>
        (orderReturn? m order (orderVolume order) (orderVolume order) "0" "100001").bind
          fun b => some [a, b]) = some [⟨"OnRtnOrder", [first]⟩, ⟨"OnRtnOrder", [second]⟩] := by
      rw [hFirst, hSecond]
      rfl
    exact hBoth

end Order

section Response

variable {m : Marshaler} {s : StructDecl} {r : Record}

theorem exists_loginCallback (hm : Bundled m) {broker user : String}
    (hBroker : Carried (.fixedText 11) (.text broker))
    (hUser : Carried (.fixedText 16) (.text user)) (request : Int32) :
    ∃ callback, loginCallback? m broker user request = some callback ∧
      Answers m (.login broker user request) [callback] := by
  by_cases hEmpty : user = ""
  · subst hEmpty
    obtain ⟨info, r, hInfo, hShows, hError⟩ := @exists_responseInfo m hm 3 3 "CTP:invalid login"
      (by decide) (by decide) (by decide)
    refine ⟨_, (if_pos rfl).trans ?_, .loginRefused hShows hError⟩
    rw [hInfo]
    rfl
  · have hLogin : (⟨"CThostFtdcRspUserLoginField",
        [⟨"TradingDay", .fixedText 9⟩, ⟨"LoginTime", .fixedText 9⟩, ⟨"BrokerID", .fixedText 11⟩,
          ⟨"UserID", .fixedText 16⟩, ⟨"FrontID", .scalar .i32⟩, ⟨"SessionID", .scalar .i32⟩,
          ⟨"MaxOrderRef", .fixedText 13⟩]⟩ : StructDecl) ∈ resolved := by simp [resolved]
    have hDay : Carried (.fixedText 9) (.text tradingDay) := carried_text (by decide) (by decide)
    have hTime : Carried (.fixedText 9) (.text "09:00:01") := carried_text (by decide) (by decide)
    have hRef : Carried (.fixedText 13) (.text "1") := carried_text (by decide) (by decide)
    have hFront : Carried (.scalar .i32) (.int 1) := carried_number (n := 1) (by decide)
    have hSession : Carried (.scalar .i32) (.int sessionNumber) :=
      carried_number (n := 42) (by decide)
    obtain ⟨response, r, hFilled, hShows, -, hGet⟩ := @exists_filled m _ hm hLogin
      [("TradingDay", .text tradingDay), ("LoginTime", .text "09:00:01"),
        ("BrokerID", .text broker), ("UserID", .text user), ("FrontID", .int 1),
        ("SessionID", .int sessionNumber), ("MaxOrderRef", .text "1")] (by simp) (by
          simp only [List.forall_mem_cons]
          simp [hDay, hTime, hBroker, hUser, hFront, hSession, hRef])
    obtain ⟨info, r', hInfo, hShows', hError⟩ := @exists_responseInfo m hm 0 0 "CTP:no error"
      (by decide) (by decide) (by decide)
    simp only [List.forall_mem_cons] at hGet
    obtain ⟨-, -, hGetBroker, hGetUser, -⟩ := hGet
    refine ⟨_, (if_neg hEmpty).trans ?_, .login hEmpty hShows hGetBroker hGetUser hShows' hError⟩
    rw [hInfo, hFilled]
    rfl

theorem exists_accountCallback (hm : Bundled m) {broker investor : String}
    (hBroker : Carried (.fixedText 11) (.text broker))
    (hInvestor : Carried (.fixedText 13) (.text investor)) (request : Int32) :
    ∃ callback, accountCallback? m broker investor request = some callback ∧
      Answers m (.account broker investor request) [callback] := by
  have hAccount : (⟨"CThostFtdcTradingAccountField",
      [⟨"BrokerID", .fixedText 11⟩, ⟨"AccountID", .fixedText 13⟩, ⟨"Balance", .scalar .f64⟩,
        ⟨"Available", .scalar .f64⟩, ⟨"CurrMargin", .scalar .f64⟩,
        ⟨"CurrencyID", .fixedText 4⟩]⟩ : StructDecl) ∈ resolved := by simp [resolved]
  have hCurrency : Carried (.fixedText 4) (.text "CNY") := carried_text (by decide) (by decide)
  obtain ⟨account, r, hFilled, hShows, -, hGet⟩ := @exists_filled m _ hm hAccount
    [("BrokerID", .text broker), ("AccountID", .text investor),
      ("Balance", .float (Ieee.Binary64.ofInt 1000000)),
      ("Available", .float (Ieee.Binary64.ofInt 850000)),
      ("CurrMargin", .float (Ieee.Binary64.ofInt 150000)), ("CurrencyID", .text "CNY")]
    (by simp) (by
      simp only [List.forall_mem_cons]
      simp [hBroker, hInvestor, carried_float, hCurrency])
  simp only [List.forall_mem_cons] at hGet
  obtain ⟨hGetBroker, hGetInvestor, -⟩ := hGet
  refine ⟨_, ?_, .account hShows hGetBroker hGetInvestor⟩
  rw [accountCallback?, hFilled]
  rfl

theorem fillsStruct_of_readRequest (hm : Bundled m) {method : String} {args : List NativeArg}
    {number : Int32} (h : readRequest m method args = .ok (r, number)) :
    ∃ s ∈ resolved, r.FillsStruct s := by
  unfold readRequest at h
  split at h
  · split at h
    · rename_i hDecode
      cases h
      rw [← hm.structs]
      exact hm.flat.fillsStruct_of_decodeStruct hDecode
    · cases h
  · cases h

/-- Every event that can be queued has its callbacks. -/
theorem exists_callbacks (hm : Bundled m) {event : FrontEvent} (h : Queueable m event) :
    ∃ callbacks, event.callbacks? m = some callbacks ∧ Answers m event callbacks := by
  cases h with
  | connected => exact ⟨_, rfl, .connected⟩
  | heartbeat lapse => exact ⟨_, rfl, .heartbeat lapse⟩
  | disconnected reason => exact ⟨_, rfl, .disconnected reason⟩
  | @requested method args event hEvent =>
    obtain ⟨⟨r, number⟩, hRead, hEvent⟩ := Option.bind_eq_some_iff.mp hEvent
    have hRequest : readRequest m method args = .ok (r, number) := by
      cases hResult : readRequest m method args with
      | ok result =>
        rw [hResult] at hRead
        exact congrArg Except.ok (Option.some.inj hRead)
      | error error =>
        rw [hResult] at hRead
        cases hRead
    obtain ⟨s, hs, hFills⟩ := fillsStruct_of_readRequest hm hRequest
    have hBroker : Carried (.fixedText 11) (.text (textField r "BrokerID")) :=
      carried_textField hs hFills (by simp [shared])
    dsimp only at hEvent
    split at hEvent
    · cases hEvent
      have hUser : Carried (.fixedText 16) (.text (textField r "UserID")) :=
        carried_textField hs hFills (by simp [shared])
      obtain ⟨callback, hCallback, hAnswers⟩ := exists_loginCallback hm hBroker hUser number
      exact ⟨[callback], by rw [FrontEvent.callbacks?, hCallback]; rfl, hAnswers⟩
    · cases hEvent
      exact exists_orderCallbacks hm hs hFills number
    · cases hEvent
      have hInvestor : Carried (.fixedText 13) (.text (textField r "InvestorID")) :=
        carried_textField hs hFills (by simp [shared])
      obtain ⟨callback, hCallback, hAnswers⟩ := exists_accountCallback hm hBroker hInvestor number
      exact ⟨[callback], by rw [FrontEvent.callbacks?, hCallback]; rfl, hAnswers⟩
    · cases hEvent

end Response

end NativeBinding.Trader
