import NativeBinding.Proofs.Trader.Delivery

/-! # Identities in answers

A login and an account query are answered with the identities of the request, which the library
keeps as strings. Text that is no UTF-8 makes no string: its octets are lost on the way, and a login
without a user is refused.
-/

set_option autoImplicit false

namespace NativeBinding

namespace Text.Utf8

variable {octets : List UInt8}

def IsText (octets : List UInt8) : Prop :=
  ∃ text, octets = ofString text

/-- What a string keeps of octets: all of them, or nothing when they are no text. -/
def kept (octets : List UInt8) : List UInt8 :=
  ofString ((toString? octets).getD "")

theorem kept_of_isText (h : IsText octets) : kept octets = octets := by
  obtain ⟨text, rfl⟩ := h
  rw [kept, toString?_eq_some_iff.mpr rfl, Option.getD_some]

theorem toString?_eq_none (h : ¬ IsText octets) : toString? octets = none := by
  cases hText : toString? octets with
  | none => rfl
  | some text => exact absurd ⟨text, (toString?_eq_some_iff.mp hText).symm⟩ h

theorem kept_eq_self_iff : kept octets = octets ↔ IsText octets :=
  ⟨fun h => ⟨_, h.symm⟩, kept_of_isText⟩

end Text.Utf8

namespace Marshaler

open Marshal

variable {m : Marshaler} {n : NativeStruct} {r : Record} {name : String} {octets : List UInt8}

/-- The text in a field of native memory: the octets of the field before the first NUL. -/
def textAt? (m : Marshaler) (n : NativeStruct) (name : String) : Option (List UInt8) := do
  let l ← m.layouts.get? n.name
  let f ← l.field? name
  match f.type with
  | .fixedText _ => some (untilNul (slot f n.bytes))
  | _ => none

theorem textAt?_eq_some_iff : m.textAt? n name = some octets ↔
    ∃ l f width, m.layouts.get? n.name = some l ∧ l.field? name = some f ∧
      f.type = .fixedText width ∧ octets = untilNul (slot f n.bytes) := by
  simp only [textAt?, Option.bind_eq_bind, Option.bind_eq_some_iff]
  constructor
  · rintro ⟨l, hGet, f, hField, hText⟩
    split at hText
    · rename_i width hType
      cases hText
      exact ⟨l, f, width, hGet, hField, hType, rfl⟩
    · cases hText
  · rintro ⟨l, f, width, hGet, hField, hType, rfl⟩
    refine ⟨l, hGet, f, hField, ?_⟩
    rw [hType]

theorem Flat.get?_of_textAt (h : m.Flat) (hRead : m.decodeStruct n = .ok r)
    (hText : m.textAt? n name = some octets) : r.get? name = some (Value.ofTextBytes octets) := by
  obtain ⟨rank, hRanked⟩ := h.ranked
  obtain ⟨l, f, width, hGet, hField, hType, rfl⟩ := textAt?_eq_some_iff.mp hText
  obtain ⟨l', hGet', -, hFields⟩ := exists_layout_of_decodeStruct hRead
  cases hGet.symm.trans hGet'
  have hNames := (hRanked.sound hGet).names
  obtain ⟨hMem, rfl⟩ := (find?_key_eq_some_iff hNames).mp hField
  have hAll := (decodeFields_eq_ok_iff.mp hFields).2
  obtain ⟨v, hv, hRead⟩ := Record.get?_of_forall₂ r.typeName
    (fun f v => m.decodeField (m.decodeFields m.layouts.size) l.name f (slot f n.bytes) = .ok v)
    hNames hAll f hMem
  rw [decodeField_text hType] at hRead
  cases hRead
  exact hv

theorem Flat.exists_textAt (h : m.Flat) (hRead : m.decodeStruct n = .ok r) {v : Value}
    (hv : r.get? name = some v) (hTyped : ∀ s ∈ m.model.structs, ∀ f ∈ s.fields, f.name = name →
      ∃ width, f.type = .fixedText width) :
    ∃ octets, m.textAt? n name = some octets ∧ v = Value.ofTextBytes octets := by
  obtain ⟨rank, hRanked⟩ := h.ranked
  obtain ⟨l, hGet, -, hFields⟩ := exists_layout_of_decodeStruct hRead
  obtain ⟨s, hs, hName⟩ := h.covers.owned hGet
  obtain ⟨g, hFind, rfl⟩ := Option.map_eq_some_iff.mp hv
  have hAll := (decodeFields_eq_ok_iff.mp hFields).2
  obtain ⟨f, hf, hSame, -⟩ := exists_of_mem_forall₂ hAll (List.mem_of_find?_eq_some hFind)
  have hKey : g.1 = name := by simpa using List.find?_some hFind
  have hPair : (f.name, f.type) ∈ s.fields.map fun f => (f.name, f.type) := by
    rw [← h.covers.declared hs (hName ▸ hGet)]
    exact List.mem_map.mpr ⟨f, hf, rfl⟩
  obtain ⟨d, hd, hEq⟩ := List.mem_map.mp hPair
  obtain ⟨hNamed, hType⟩ := Prod.mk.inj hEq
  obtain ⟨width, hWidth⟩ := hTyped s hs d hd (hNamed.trans (hSame.symm.trans hKey))
  have hField : l.field? name = some f :=
    (find?_key_eq_some_iff (hRanked.sound hGet).names).mpr ⟨hf, hSame.symm.trans hKey⟩
  have hText : m.textAt? n name = some (untilNul (slot f n.bytes)) :=
    textAt?_eq_some_iff.mpr ⟨l, f, width, hGet, hField, hType.symm.trans hWidth, rfl⟩
  refine ⟨_, hText, ?_⟩
  exact Option.some.inj (hv.symm.trans (h.get?_of_textAt hRead hText))

end Marshaler

namespace Trader

open Marshal Session Text.Utf8

variable {m : Marshaler} {method : String} {args : List NativeArg} {reply : Reply}
  {body : NativeStruct} {number : Int32} {r : Record} {c : Callback}

/-- Fields with an identity, which have the same type in every struct. -/
def identities : List String :=
  ["BrokerID", "UserID", "InvestorID", "AccountID"]

theorem Bundled.typed (hm : Bundled m) {name : String} (hName : name ∈ identities) :
    ∀ s ∈ m.model.structs, ∀ f ∈ s.fields, f.name = name → ∃ width, f.type = .fixedText width := by
  have hAll : ∀ name ∈ identities, ∀ s ∈ resolved, ∀ f ∈ s.fields, f.name = name →
      ∃ width, f.type = .fixedText width := by
    simp only [identities, resolved, List.forall_mem_cons]
    simp
  rw [hm.structs]
  exact hAll name hName

theorem Bundled.textAt_of_shows (hm : Bundled m) {arg : NativeArg} (hShows : Shows m arg r)
    (given : List (String × String)) (hNames : ∀ g ∈ given, g.1 ∈ identities)
    (hGiven : ∀ g ∈ given, r.get? g.1 = some (.text g.2)) :
    ∃ n, arg = .struct n ∧ ∀ g ∈ given, m.textAt? n g.1 = some (ofString g.2) := by
  obtain ⟨n, rfl, hRead⟩ := hShows
  refine ⟨n, rfl, ?_⟩
  intro g hg
  obtain ⟨octets, hText, hSame⟩ :=
    hm.flat.exists_textAt hRead (hGiven g hg) (hm.typed (hNames g hg))
  rw [hText, Option.some.injEq]
  unfold Value.ofTextBytes at hSame
  split at hSame
  · rename_i value hValue
    cases hSame
    exact (toString?_eq_some_iff.mp hValue).symm
  · cases hSame

theorem Bundled.textField_eq (hm : Bundled m) (hRead : m.decodeStruct body = .ok r)
    {name : String} {octets : List UInt8} (hText : m.textAt? body name = some octets) :
    textField r name = (toString? octets).getD "" := by
  rw [textField, hm.flat.get?_of_textAt hRead hText, Option.bind_some, Value.ofTextBytes]
  cases toString? octets <;> rfl

/-- A callback that answers a login with a response and an error number. -/
def AnswersLogin (m : Marshaler) (number : Int32) (error : Int64) (response : NativeArg)
    (c : Callback) : Prop :=
  ∃ info r, c = ⟨"OnRspUserLogin", [response, info, .scalar (.i32 number), .scalar (.bool true)]⟩ ∧
    Shows m info r ∧ r.get? "ErrorID" = some (.int error)

/-- A login is answered with the identities of its request. -/
def EchoesLogin (m : Marshaler) (body : NativeStruct) (number : Int32) (c : Callback) : Prop :=
  ∃ response, AnswersLogin m number 0 (.struct response) c ∧
    m.textAt? response "BrokerID" = m.textAt? body "BrokerID" ∧
    m.textAt? response "UserID" = m.textAt? body "UserID"

/-- An answer to an account query shows these identities. -/
def AnswersAccount (m : Marshaler) (number : Int32) (broker account : Option (List UInt8))
    (c : Callback) : Prop :=
  ∃ response, c = ⟨"OnRspQryTradingAccount",
      [.struct response, .null, .scalar (.i32 number), .scalar (.bool true)]⟩ ∧
    m.textAt? response "BrokerID" = broker ∧ m.textAt? response "AccountID" = account

/-- What becomes of the identities of a login. -/
structure LoginLaw (m : Marshaler) (body : NativeStruct) (number : Int32)
    (broker user : List UInt8) (c : Callback) : Prop where
  success : user ≠ [] → IsText user → ∃ response, AnswersLogin m number 0 (.struct response) c ∧
    m.textAt? response "BrokerID" = some (kept broker) ∧ m.textAt? response "UserID" = some user
  refused : user = [] ∨ ¬ IsText user → AnswersLogin m number 3 .null c
  echoes_iff : user ≠ [] → (EchoesLogin m body number c ↔ IsText broker ∧ IsText user)

/-- What becomes of the identities of an account query. -/
structure AccountLaw (m : Marshaler) (body : NativeStruct) (number : Int32)
    (broker investor : List UInt8) (c : Callback) : Prop where
  shows : AnswersAccount m number (some (kept broker)) (some (kept investor)) c
  echoes_iff : AnswersAccount m number (m.textAt? body "BrokerID") (m.textAt? body "InvestorID") c ↔
    IsText broker ∧ IsText investor

/-- The answer to a request; one with the struct that it is declared with has its identities. -/
inductive Repeats (m : Marshaler) : String → List NativeArg → Callback → Prop where
  | login {body : NativeStruct} {number : Int32} {c : Callback}
      (hTexts : body.name = "CThostFtdcReqUserLoginField" → ∃ broker user,
        m.textAt? body "BrokerID" = some broker ∧ m.textAt? body "UserID" = some user)
      (hLaw : ∀ broker user, m.textAt? body "BrokerID" = some broker →
        m.textAt? body "UserID" = some user → LoginLaw m body number broker user c) :
      Repeats m "ReqUserLogin" [.struct body, .scalar (.i32 number)] c
  | account {body : NativeStruct} {number : Int32} {c : Callback}
      (hTexts : body.name = "CThostFtdcQryTradingAccountField" → ∃ broker investor,
        m.textAt? body "BrokerID" = some broker ∧ m.textAt? body "InvestorID" = some investor)
      (hLaw : ∀ broker investor, m.textAt? body "BrokerID" = some broker →
        m.textAt? body "InvestorID" = some investor →
          AccountLaw m body number broker investor c) :
      Repeats m "ReqQryTradingAccount" [.struct body, .scalar (.i32 number)] c

section Answered

theorem Repeats.login_law
    (h : Repeats m "ReqUserLogin" [.struct body, .scalar (.i32 number)] c)
    {broker user : List UInt8}
    (hBroker : m.textAt? body "BrokerID" = some broker)
    (hUser : m.textAt? body "UserID" = some user) : LoginLaw m body number broker user c := by
  generalize hMethod : "ReqUserLogin" = method, hArgs : [NativeArg.struct body, _] = args at h
  cases h with
  | login _ hLaw =>
    cases hArgs
    exact hLaw broker user hBroker hUser
  | account => simp at hMethod

theorem AnswersLogin.response_eq {first second : NativeArg} {error error' : Int64}
    (h : AnswersLogin m number error first c) (h' : AnswersLogin m number error' second c) :
    first = second := by
  obtain ⟨_, _, rfl, -⟩ := h
  obtain ⟨_, _, hSame, -⟩ := h'
  cases hSame
  rfl

theorem Bundled.exists_texts (hm : Bundled m) (hRead : m.decodeStruct body = .ok r)
    {names : List String} (hNames : ∀ name ∈ names, name ∈ identities)
    (hFields : ∀ s ∈ resolved, s.name = body.name →
      ∀ name ∈ names, ∃ f ∈ s.fields, f.name = name) :
    ∀ name ∈ names, ∃ octets, m.textAt? body name = some octets := by
  obtain ⟨s, hs, hFills⟩ := hm.flat.fillsStruct_of_decodeStruct hRead
  obtain ⟨l, hGet, -, hAll⟩ := Marshaler.exists_layout_of_decodeStruct hRead
  have hName : s.name = body.name := by
    rw [← hFills.typeName, (Marshaler.decodeFields_eq_ok_iff.mp hAll).1]
    exact (LayoutTable.get?_eq_some hGet).2
  rw [hm.structs] at hs
  obtain ⟨l', rank, hLaid⟩ := hm.laid hs
  intro name hMem
  obtain ⟨f, hf, rfl⟩ := hFields s hs hName name hMem
  obtain ⟨v, hv, -⟩ := hFills.exists_get? hLaid.names hf
  obtain ⟨octets, hText, -⟩ := hm.flat.exists_textAt hRead hv (hm.typed (hNames _ hMem))
  exact ⟨octets, hText⟩

theorem exists_success_of_answers (hm : Bundled m) (hRead : m.decodeStruct body = .ok r)
    (h : Answers m (.login (textField r "BrokerID") (textField r "UserID") number) [c])
    {broker user : List UInt8} (hBroker : m.textAt? body "BrokerID" = some broker)
    (hUser : m.textAt? body "UserID" = some user) (hText : IsText user) (hSome : user ≠ []) :
    ∃ response, AnswersLogin m number 0 (.struct response) c ∧
      m.textAt? response "BrokerID" = some (kept broker) ∧
      m.textAt? response "UserID" = some user := by
  have hKeptBroker : ofString (textField r "BrokerID") = kept broker :=
    congrArg ofString (hm.textField_eq hRead hBroker)
  have hKeptUser : ofString (textField r "UserID") = user :=
    (congrArg ofString (hm.textField_eq hRead hUser)).trans (kept_of_isText hText)
  generalize hName : textField r "UserID" = name at h hKeptUser
  cases h with
  | loginRefused => exact absurd hKeptUser.symm hSome
  | login _ hResponse hBrokerText hUserText hInfo hError =>
    obtain ⟨n, rfl, hTexts⟩ := hm.textAt_of_shows hResponse
      [("BrokerID", textField r "BrokerID"), ("UserID", name)] (by simp [identities])
      (by simp [hBrokerText, hUserText])
    simp only [List.forall_mem_cons, hKeptBroker, hKeptUser] at hTexts
    exact ⟨n, ⟨_, _, rfl, hInfo, hError⟩, hTexts.1, hTexts.2.1⟩

theorem Bundled.textField_eq_empty (hm : Bundled m) (hRead : m.decodeStruct body = .ok r)
    {user : List UInt8} (hUser : m.textAt? body "UserID" = some user)
    (hNone : user = [] ∨ ¬ IsText user) : textField r "UserID" = "" := by
  rw [hm.textField_eq hRead hUser]
  rcases hNone with rfl | hOther
  · have hEmpty : toString? [] = some "" := toString?_eq_some_iff.mpr rfl
    rw [hEmpty, Option.getD_some]
  · rw [toString?_eq_none hOther]
    rfl

theorem refused_of_answers {broker : String} (h : Answers m (.login broker "" number) [c]) :
    AnswersLogin m number 3 .null c := by
  cases h with
  | loginRefused hInfo hError => exact ⟨_, _, rfl, hInfo, hError⟩
  | login hOther => exact absurd rfl hOther

theorem loginLaw_of_answers (hm : Bundled m) (hRead : m.decodeStruct body = .ok r)
    (h : Answers m (.login (textField r "BrokerID") (textField r "UserID") number) [c])
    {broker user : List UInt8} (hBroker : m.textAt? body "BrokerID" = some broker)
    (hUser : m.textAt? body "UserID" = some user) : LoginLaw m body number broker user c := by
  have hSuccess := exists_success_of_answers hm hRead h hBroker hUser
  have hRefused (hNone : user = [] ∨ ¬ IsText user) : AnswersLogin m number 3 .null c := by
    rw [hm.textField_eq_empty hRead hUser hNone] at h
    exact refused_of_answers h
  refine ⟨fun hSome hText => hSuccess hText hSome, hRefused, fun hSome => ?_⟩
  rw [EchoesLogin, hBroker, hUser]
  by_cases hText : IsText user
  · obtain ⟨response, hAnswers, hShownBroker, hShownUser⟩ := hSuccess hText hSome
    rw [and_iff_left hText, ← kept_eq_self_iff]
    constructor
    · rintro ⟨other, hOther, hSame, -⟩
      cases hOther.response_eq hAnswers
      exact Option.some.inj (hShownBroker.symm.trans hSame)
    · intro hSame
      exact ⟨response, hAnswers, hSame ▸ hShownBroker, hShownUser⟩
  · constructor
    · rintro ⟨response, hAnswers, -⟩
      cases hAnswers.response_eq (hRefused (.inr hText))
    · exact fun ⟨_, hIs⟩ => absurd hIs hText

theorem accountLaw_of_answers (hm : Bundled m) (hRead : m.decodeStruct body = .ok r)
    (h : Answers m (.account (textField r "BrokerID") (textField r "InvestorID") number) [c])
    {broker investor : List UInt8} (hBroker : m.textAt? body "BrokerID" = some broker)
    (hInvestor : m.textAt? body "InvestorID" = some investor) :
    AccountLaw m body number broker investor c := by
  have hShows : AnswersAccount m number (some (kept broker)) (some (kept investor)) c := by
    have hKeptBroker : ofString (textField r "BrokerID") = kept broker :=
      congrArg ofString (hm.textField_eq hRead hBroker)
    have hKeptInvestor : ofString (textField r "InvestorID") = kept investor :=
      congrArg ofString (hm.textField_eq hRead hInvestor)
    cases h with
    | account hAccount hBrokerText hInvestorText =>
      obtain ⟨n, rfl, hTexts⟩ := hm.textAt_of_shows hAccount
        [("BrokerID", textField r "BrokerID"), ("AccountID", textField r "InvestorID")]
        (by simp [identities])
        (by simp [hBrokerText, hInvestorText])
      simp only [List.forall_mem_cons, hKeptBroker, hKeptInvestor] at hTexts
      exact ⟨n, rfl, hTexts.1, hTexts.2.1⟩
  refine ⟨hShows, ?_⟩
  rw [hBroker, hInvestor, ← kept_eq_self_iff, ← kept_eq_self_iff]
  constructor
  · obtain ⟨response, rfl, hShownBroker, hShownInvestor⟩ := hShows
    rintro ⟨other, hSame, hBrokerSame, hInvestorSame⟩
    cases hSame
    exact ⟨Option.some.inj (hShownBroker.symm.trans hBrokerSame),
      Option.some.inj (hShownInvestor.symm.trans hInvestorSame)⟩
  · rintro ⟨hBrokerSame, hInvestorSame⟩
    rwa [hBrokerSame, hInvestorSame] at hShows

end Answered

section Entered

variable {d d' : Desk} {api : Nat} {first last : Stage} {log : List Happening} {entry : Entry}

theorem readRequest_eq_ok (h : readRequest m method args = .ok (r, number)) :
    ∃ body, args = [.struct body, .scalar (.i32 number)] ∧ m.decodeStruct body = .ok r := by
  unfold readRequest at h
  split at h
  · split at h
    · rename_i hDecode
      cases h
      exact ⟨_, rfl, hDecode⟩
    · cases h
  · cases h

theorem exists_run_of_mem (hPath : Path m first log last) (hMem : .entered entry reply ∈ log) :
    ∃ d d', entry.run m d = .answer d' reply := by
  induction hPath with
  | refl => cases hMem
  | tail _ hStep ih =>
    rcases List.mem_append.mp hMem with hBefore | hHere
    · exact ih hBefore
    · cases hStep with
      | enter hRun =>
        cases List.mem_singleton.mp hHere
        exact ⟨_, _, hRun⟩
      | enterInside hRun =>
        cases List.mem_singleton.mp hHere
        exact ⟨_, _, hRun⟩
      | invoke => cases List.mem_singleton.mp hHere
      | _ => cases hHere

theorem exists_readRequest_of_accepts {event : Record → Int32 → FrontEvent}
    (hRun : Desk.request m d api method args event = .answer d' reply)
    (hAccepts : accepts reply = true) :
    ∃ r number, readRequest m method args = .ok (r, number) := by
  rw [Desk.request] at hRun
  cases hRead : readRequest m method args with
  | ok result => exact ⟨result.1, result.2, rfl⟩
  | error error =>
    rw [hRead] at hRun
    cases hRun
    cases hAccepts

/-- The requests that are answered with identities. -/
def answered : List String :=
  ["ReqUserLogin", "ReqQryTradingAccount"]

theorem Bundled.exists_both (hm : Bundled m) (hRead : m.decodeStruct body = .ok r)
    {first second : String} (hFirst : first ∈ identities) (hSecond : second ∈ identities)
    (hFields : ∀ s ∈ resolved, s.name = body.name →
      ∀ name ∈ [first, second], ∃ f ∈ s.fields, f.name = name) :
    ∃ octets more, m.textAt? body first = some octets ∧ m.textAt? body second = some more := by
  have hNames : ∀ name ∈ [first, second], name ∈ identities := by simp [hFirst, hSecond]
  have hTexts := hm.exists_texts hRead hNames hFields
  obtain ⟨octets, hOctets⟩ := hTexts first (by simp)
  obtain ⟨more, hMore⟩ := hTexts second (by simp)
  exact ⟨octets, more, hOctets, hMore⟩

theorem exists_callback (hm : Bundled m) {event : FrontEvent}
    (hEvent : requestEvent? m method args = some event)
    (hSingle : ∀ callbacks, event.callbacks? m = some callbacks → ∃ c, callbacks = [c]) :
    ∃ c, event.callbacks? m = some [c] ∧ Answers m event [c] := by
  obtain ⟨callbacks, hCallbacks, hAnswers⟩ := exists_callbacks hm (.requested hEvent)
  obtain ⟨c, rfl⟩ := hSingle callbacks hCallbacks
  exact ⟨c, hCallbacks, hAnswers⟩

theorem exists_of_map_singleton {α : Type} {f : α → Callback} {x : Option α}
    {callbacks : List Callback} (h : x.map (fun a => [f a]) = some callbacks) :
    ∃ c, callbacks = [c] := by
  obtain ⟨a, -, rfl⟩ := Option.map_eq_some_iff.mp h
  exact ⟨f a, rfl⟩

/-- An accepted request of these queues an event with one callback, which repeats the request's
identities as far as they are text. -/
theorem exists_repeats (hm : Bundled m) (hMethod : method ∈ answered)
    (hRun : (Entry.call api method args).run m d = .answer d' reply)
    (hAccepts : accepts reply = true) :
    ∃ event c, requestEvent? m method args = some event ∧ event.callbacks? m = some [c] ∧
      Repeats m method args c := by
  simp only [answered, List.mem_cons, List.not_mem_nil, or_false] at hMethod
  rcases hMethod with rfl | rfl
  · obtain ⟨r, number, hRequest⟩ := exists_readRequest_of_accepts hRun hAccepts
    have hEvent : requestEvent? m "ReqUserLogin" args =
        some (.login (textField r "BrokerID") (textField r "UserID") number) := by
      rw [requestEvent?, hRequest]
      rfl
    obtain ⟨body, rfl, hRead⟩ := readRequest_eq_ok hRequest
    obtain ⟨c, hCallback, hAnswers⟩ := exists_callback hm hEvent fun _ => exists_of_map_singleton
    refine ⟨_, c, hEvent, hCallback, .login (fun hName => ?_) fun broker user =>
      loginLaw_of_answers hm hRead hAnswers⟩
    exact hm.exists_both hRead (by simp [identities]) (by simp [identities])
      (by rw [hName]; simp [resolved])
  · obtain ⟨r, number, hRequest⟩ := exists_readRequest_of_accepts hRun hAccepts
    have hEvent : requestEvent? m "ReqQryTradingAccount" args =
        some (.account (textField r "BrokerID") (textField r "InvestorID") number) := by
      rw [requestEvent?, hRequest]
      rfl
    obtain ⟨body, rfl, hRead⟩ := readRequest_eq_ok hRequest
    obtain ⟨c, hCallback, hAnswers⟩ := exists_callback hm hEvent fun _ => exists_of_map_singleton
    refine ⟨_, c, hEvent, hCallback, .account (fun hName => ?_) fun broker investor =>
      accountLaw_of_answers hm hRead hAnswers⟩
    exact hm.exists_both hRead (by simp [identities]) (by simp [identities])
      (by rw [hName]; simp [resolved])

theorem mem_accepted {event : FrontEvent} (hMem : .entered (.call api method args) reply ∈ log)
    (hAccepts : accepts reply = true) (hEvent : requestEvent? m method args = some event) :
    event ∈ accepted m api log := by
  refine List.mem_filterMap.mpr ⟨_, hMem, ?_⟩
  rw [Happening.accepted?, if_pos hAccepts, Entry.event?, if_pos rfl, hEvent]

/-- With the library's declarations, an accepted login or account query is answered by one callback,
and through the sink when the queue has been worked off. The identities in it are those of the
request as far as they are text. -/
theorem identities_repeated {file : DeclarationFile} {model : Model} (hDeclares : Declares file)
    (hModel : file.toModel = .ok model) (hMarshaler : Marshaler.new model = .ok m) :
    (∀ {api : Nat} {d d' : Desk} {method : String} {args : List NativeArg} {reply : Reply},
      method ∈ answered → (Entry.call api method args).run m d = .answer d' reply →
      accepts reply = true → ∃ event c, requestEvent? m method args = some event ∧
        event.callbacks? m = some [c] ∧ Repeats m method args c) ∧
    ∀ {api sink : Nat} {before started after : Stage} {earlier log : List Happening}
      {reply : Reply}, Path m (.idle {}) earlier before → before.desk.Ready api sink →
      Step m before [.entered (.init api) reply] started → Path m started log after →
      Undisturbed api sink log → after.Finished api →
      ∀ {method : String} {args : List NativeArg} {reply : Reply}, method ∈ answered →
        .entered (.call api method args) reply ∈ log → accepts reply = true →
        ∃ c, (some sink, c) ∈ invocations api log ∧ Repeats m method args c := by
  have hm := bundled_of_toModel hDeclares hModel hMarshaler
  refine ⟨fun hMethod => exists_repeats hm hMethod, ?_⟩
  intro api sink before started after earlier log _ hBefore hReady hInit hPath hLog hFinished method
    args reply hMethod hMem hAccepts
  obtain ⟨d, d', hRun⟩ := exists_run_of_mem hPath hMem
  obtain ⟨event, c, hEvent, hCallbacks, hRepeats⟩ := exists_repeats hm hMethod hRun hAccepts
  refine ⟨c, ?_, hRepeats⟩
  obtain ⟨e, pending, hHolds, hOrderly⟩ := orderly_of_path hBefore
  rw [hHolds.desk_eq] at hReady
  rw [invocations_of_finished hHolds hOrderly hReady hInit hPath hLog hFinished]
  apply List.mem_map_of_mem
  have hHere := mem_accepted hMem hAccepts hEvent
  refine List.mem_cons_of_mem _ (List.mem_flatMap.mpr ⟨event, hHere, ?_⟩)
  rw [callbacksOf, hCallbacks]
  exact List.mem_cons_self

/-- A login that runs on an instance that is connected. -/
def loginEntry (body : NativeStruct) : Entry :=
  .call 0 "ReqUserLogin" [.struct body, .scalar (.i32 5)]

theorem run_loginEntry (hBody : m.decodeStruct body = .ok r) :
    (loginEntry body).run m (runningDesk [] [.connected]) =
      .answer (runningDesk ["ReqUserLogin"]
        [.connected, .login (textField r "BrokerID") (textField r "UserID") 5])
        (.ok (.scalar (.i32 0))) := by
  simp only [loginEntry, Entry.run, library, Desk.call, Desk.request, readRequest, hBody]
  rfl

/-- Any user that fits can log in. -/
theorem exists_login (hm : Bundled m) {user : List UInt8} (hWidth : user.length ≤ 16)
    (hFree : 0 ∉ user) : ∃ body r, m.decodeStruct body = .ok r ∧
      m.textAt? body "BrokerID" = some (ofString "9999") ∧
      m.textAt? body "UserID" = some user := by
  have hs : (⟨"CThostFtdcReqUserLoginField",
      [⟨"TradingDay", .fixedText 9⟩, ⟨"BrokerID", .fixedText 11⟩, ⟨"UserID", .fixedText 16⟩,
        ⟨"Password", .fixedText 41⟩]⟩ : StructDecl) ∈ resolved := by simp [resolved]
  have hBroker : Carried (.fixedText 11) (.text "9999") :=
    carried_text (by decide) (by decide)
  have hUser : Carried (.fixedText 16) (Value.ofTextBytes user) := .text hWidth hFree
  obtain ⟨arg, r, -, ⟨body, -, hRead⟩, -, hGet⟩ := @exists_filled m _ hm hs
    [("BrokerID", .text "9999"), ("UserID", Value.ofTextBytes user)] (by simp)
    (by simp [hBroker, hUser])
  simp only [List.forall_mem_cons] at hGet
  obtain ⟨octets, hText, hSame⟩ := hm.flat.exists_textAt hRead hGet.2.1
    (hm.typed (by simp [identities]))
  have hOctets := congrArg Value.textBytes? hSame
  rw [Value.textBytes?_ofTextBytes, Value.textBytes?_ofTextBytes, Option.some.injEq] at hOctets
  obtain ⟨n, hBody, hTexts⟩ := hm.textAt_of_shows ⟨body, rfl, hRead⟩ [("BrokerID", "9999")]
    (by simp [identities]) (by simp [hGet.1])
  cases hBody
  exact ⟨body, r, hRead, hTexts _ List.mem_cons_self, hOctets ▸ hText⟩

theorem identities_repeated_sample :
    ∃ model m body last log c, plainFile.toModel = .ok model ∧ Marshaler.new model = .ok m ∧
      Path m (.idle (runningDesk [] [.connected]))
        ([.entered (loginEntry body) (.ok (.scalar (.i32 0)))] ++ log) last ∧
      m.textAt? body "UserID" = some (ofString "u1") ∧
      (some 7, c) ∈ invocations 0 ([.entered (loginEntry body) (.ok (.scalar (.i32 0)))] ++ log) ∧
      EchoesLogin m body 5 c := by
  have hDeclares : Declares plainFile := ⟨rfl, rfl, rfl⟩
  obtain ⟨model, m, hModel, hMarshaler⟩ := exists_marshaler hDeclares rfl
  have hm := bundled_of_toModel hDeclares hModel hMarshaler
  obtain ⟨body, r, hRead, hBroker, hUser⟩ :=
    @exists_login m hm (ofString "u1") (by decide) (by decide)
  obtain ⟨earlier, hBefore⟩ := exists_path_readyDesk m
  have hReady : (Stage.idle readyDesk).desk.Ready 0 7 := ⟨_, rfl, rfl, rfl, rfl⟩
  have hInit : Step m (.idle readyDesk) [.entered (.init 0) (.ok .void)]
      (.idle (runningDesk [] [.connected])) := .enter rfl
  have hPath := Path.single (.enter (run_loginEntry hRead))
  obtain ⟨last, log, hRest, hAlone, hFinished⟩ := exists_path_finished (.idle _) 0
  have hWhole := hPath.trans hRest
  have hLog : Undisturbed 0 7 ([.entered (loginEntry body) (.ok (.scalar (.i32 0)))] ++ log) := by
    refine undisturbed_append.mpr ⟨?_, hAlone.undisturbed 0 7⟩
    simp [Undisturbed, loginEntry, Happening.Disturbs]
  have hMethod : "ReqUserLogin" ∈ answered := by simp [answered]
  obtain ⟨c, hMem, hRepeats⟩ := (identities_repeated hDeclares hModel hMarshaler).2 hBefore hReady
    hInit hWhole hLog hFinished hMethod List.mem_cons_self rfl
  refine ⟨model, m, body, last, log, c, hModel, hMarshaler, hWhole, hUser, hMem, ?_⟩
  exact ((hRepeats.login_law hBroker hUser).echoes_iff (by decide)).mpr ⟨⟨_, rfl⟩, ⟨_, rfl⟩⟩

/-- A user of one octet that is no UTF-8 is refused, although the request is accepted. -/
theorem identities_lost :
    ∃ model m body event c d, plainFile.toModel = .ok model ∧ Marshaler.new model = .ok m ∧
      m.textAt? body "UserID" = some [255] ∧
      (loginEntry body).run m (runningDesk [] [.connected]) =
        .answer d (.ok (.scalar (.i32 0))) ∧
      requestEvent? m "ReqUserLogin" [.struct body, .scalar (.i32 5)] = some event ∧
      event.callbacks? m = some [c] ∧ AnswersLogin m 5 3 .null c ∧
      ¬ ∃ response, AnswersLogin m 5 0 (.struct response) c := by
  have hDeclares : Declares plainFile := ⟨rfl, rfl, rfl⟩
  obtain ⟨model, m, hModel, hMarshaler⟩ := exists_marshaler hDeclares rfl
  have hm := bundled_of_toModel hDeclares hModel hMarshaler
  obtain ⟨body, r, hRead, hBroker, hUser⟩ := @exists_login m hm [255] (by decide) (by decide)
  have hRun := run_loginEntry hRead
  have hMethod : "ReqUserLogin" ∈ answered := by simp [answered]
  obtain ⟨event, c, hEvent, hCallbacks, hRepeats⟩ := exists_repeats hm hMethod hRun rfl
  have hOther : ¬ IsText [255] := by
    rw [← kept_eq_self_iff]
    decide +kernel
  have hRefused := (hRepeats.login_law hBroker hUser).refused (.inr hOther)
  refine ⟨model, m, body, event, c, _, hModel, hMarshaler, hUser, hRun, hEvent, hCallbacks,
    hRefused, ?_⟩
  rintro ⟨response, hSuccess⟩
  cases hSuccess.response_eq hRefused

end Entered

end Trader

end NativeBinding
