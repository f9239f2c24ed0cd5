import NativeBinding.Proofs.Trader.Accounts

/-! # Delivery

No event that the trader library has accepted is lost or reordered.
-/

set_option autoImplicit false

namespace NativeBinding.Trader

open Session

section Progress

variable {m : Marshaler} {d : Desk} {api : Nat}

def Desk.backlog (d : Desk) : Nat :=
  (d.instances.map (·.events.length)).sum

theorem sum_modify_tail {instances : List Instance} {i : Instance} {event : FrontEvent}
    {rest : List FrontEvent} (h : instances[api]? = some i) (hEvents : i.events = event :: rest) :
    ((instances.modify api fun i => { i with events := rest }).map (·.events.length)).sum <
      (instances.map (·.events.length)).sum := by
  induction instances generalizing api with
  | nil => cases h
  | cons j instances ih =>
    cases api with
    | zero =>
      cases h
      simp [hEvents]
    | succ api =>
      have hRest := ih h
      simp only [List.modify_succ_cons, List.map_cons, List.sum_cons]
      omega

theorem exists_path_deliver (m : Marshaler) (d : Desk) (api : Nat) (rest : List Callback) :
    ∃ log, Path m (.serving api (Desk.deliver api rest d)) log (.idle d) ∧ Unentered log := by
  induction rest with
  | nil => exact ⟨_, .single .finish, List.forall_mem_nil _⟩
  | cons callback rest ih =>
    rw [Desk.deliver]
    split
    · rename_i i hInstance
      split
      · exact ⟨_, .single .finish, List.forall_mem_nil _⟩
      · obtain ⟨log, hPath, hLog⟩ := ih
        have hOut : Step m (.serving api (.invoke d i.sink callback.hook callback.args
            fun d _ => Desk.deliver api rest d)) [.invoked api i.sink callback]
              (.inside api d fun d _ => Desk.deliver api rest d) := .invoke
        have hLogged : Unentered [.invoked api i.sink callback] :=
          List.forall_mem_singleton.mpr ⟨_, _, _, rfl⟩
        exact ⟨_, ((Path.single hOut).trans (.single (.back .void))).trans hPath,
          hLogged.append hLog⟩
    · exact ⟨_, .single .finish, List.forall_mem_nil _⟩

/-- The worker gets through all queues when nobody enters the library. -/
theorem exists_path_idle (m : Marshaler) (d : Desk) :
    ∃ d' log, Path m (.idle d) log (.idle d') ∧ Unentered log ∧
      ∀ api i, d'.instance? api = some i → i.events = [] := by
  induction hBacklog : d.backlog using Nat.strong_induction_on generalizing d with
  | _ backlog ih =>
    cases hWork : d.work? m with
    | none => exact ⟨d, [], .refl _, List.forall_mem_nil _, fun _ => work?_eq_none hWork⟩
    | some work =>
      obtain ⟨api, run⟩ := work
      obtain ⟨i, event, rest, hInstance, hEvents, rfl⟩ := work?_eq_some hWork
      obtain ⟨log, hPath, hLog⟩ := exists_path_deliver m
        (d.change api fun i => { i with events := rest }) api (callbacksOf m event)
      have hLess : (d.change api fun i => { i with events := rest }).backlog < backlog :=
        hBacklog ▸ sum_modify_tail hInstance hEvents
      obtain ⟨d', more, hRest, hMore, hEmpty⟩ := ih _ hLess _ rfl
      exact ⟨d', _, ((Path.single (.take hWork)).trans hPath).trans hRest, hLog.append hMore,
        hEmpty⟩

def Stage.Finished (api : Nat) (stage : Stage) : Prop :=
  ∃ d, stage = .idle d ∧ ∀ i, d.instance? api = some i → i.events = []

theorem exists_path_finished {stage : Stage} {pending : Option (Nat × List Callback)}
    (h : stage.Holds d pending) (api : Nat) :
    ∃ last log, Path m stage log last ∧ Unentered log ∧ last.Finished api := by
  obtain ⟨d', more, hRest, hMore, hEmpty⟩ := exists_path_idle m d
  have hFinished : (Stage.idle d').Finished api := ⟨d', rfl, hEmpty api⟩
  cases h with
  | idle => exact ⟨_, _, hRest, hMore, hFinished⟩
  | @serving other rest _ _ hRun =>
    obtain ⟨log, hPath, hLog⟩ := exists_path_deliver m d other rest
    exact ⟨_, _, (hRun ▸ hPath).trans hRest, hLog.append hMore, hFinished⟩
  | @inside other rest _ next hNext =>
    obtain ⟨log, hPath, hLog⟩ := exists_path_deliver m d other rest
    have hBack : Path m (.inside other d next) [] (.serving other (next d .void)) :=
      .single (.back .void)
    exact ⟨_, _, (hBack.trans (hNext d .void ▸ hPath)).trans hRest, hLog.append hMore, hFinished⟩

theorem owed_of_finished {stage : Stage} {pending : Option (Nat × List Callback)} {sink : Nat}
    {events : List FrontEvent} (hFinished : stage.Finished api) (hHolds : stage.Holds d pending)
    (h : d.Runs api sink events) : owed m api pending events = [] := by
  obtain ⟨_, rfl, hEmpty⟩ := hFinished
  cases hHolds
  obtain ⟨i, hInstance, -, -, rfl⟩ := h
  rw [owed, hEmpty i hInstance]
  rfl

end Progress

section Delivered

variable {m : Marshaler} {api sink : Nat}

def Stage.desk : Stage → Desk
  | .idle d => d
  | .serving _ (.answer d _) => d
  | .serving _ (.invoke d _ _ _ _) => d
  | .inside _ d _ => d

theorem Stage.Holds.desk_eq {stage : Stage} {d : Desk} {pending : Option (Nat × List Callback)}
    (h : stage.Holds d pending) : stage.desk = d := by
  cases h with
  | idle => rfl
  | inside => rfl
  | @serving api rest d run hRun =>
    cases run with
    | answer d' reply => exact (deliver_eq_answer hRun.symm).1
    | invoke d' sink hook args next => exact (deliver_eq_invoke hRun.symm).1

/-- An instance that has its sink and has been neither started nor released. -/
def Desk.Ready (d : Desk) (api sink : Nat) : Prop :=
  ∃ i, d.instance? api = some i ∧ i.started = false ∧ i.released = false ∧ i.sink = some sink

theorem Desk.Ready.runs {d d' : Desk} {reply : Reply} (h : d.Ready api sink)
    (hRun : (Entry.init api).run m d = .answer d' reply) : d'.Runs api sink [.connected] := by
  obtain ⟨i, hInstance, hNew, hHere, hSink⟩ := h
  have hStart : (Entry.init api).run m d =
      .answer (d.change api fun i => { i with started := true, events := [.connected] })
        (.ok .void) := by
    simp [Entry.run, library, Desk.start, hInstance, hNew, hHere]
  cases hStart.symm.trans hRun
  exact ⟨_, (Desk.instance?_change_of_some hInstance _ api).trans (if_pos rfl),
    by simp [Instance.isRunning, hHere], hSink, rfl⟩

theorem owed_of_init {before started : Stage} {d : Desk} {reply : Reply}
    {pending : Option (Nat × List Callback)} (hHolds : before.Holds d pending)
    (hOrderly : Orderly d pending) (h : d.Ready api sink)
    (hInit : Step m before [.entered (.init api) reply] started) :
    ∃ d' pending', started.Holds d' pending' ∧ d'.Runs api sink [.connected] ∧
      owed m api pending' [.connected] = [⟨"OnFrontConnected", []⟩] := by
  have hOwed : owed m api pending [.connected] = [⟨"OnFrontConnected", []⟩] := by
    cases hPending : pending with
    | none => rfl
    | some work =>
      obtain ⟨other, rest⟩ := work
      obtain ⟨i, hInstance, hStarted⟩ := hOrderly.pending other rest hPending
      have hOther : other ≠ api := by
        rintro rfl
        obtain ⟨j, hSame, hNew, -⟩ := h
        cases hSame.symm.trans hInstance
        exact absurd hStarted (hNew ▸ Bool.false_ne_true)
      rw [owed, begun, if_neg hOther]
      rfl
  cases hInit with
  | enter hRun =>
    cases hHolds
    exact ⟨_, _, .idle _, h.runs hRun, hOwed⟩
  | enterInside hRun =>
    cases hHolds with
    | inside hNext => exact ⟨_, _, .inside hNext, h.runs hRun, hOwed⟩

theorem invocations_of_finished {before started after : Stage} {d : Desk} {reply : Reply}
    {pending : Option (Nat × List Callback)} {log : List Happening}
    (hHolds : before.Holds d pending) (hOrderly : Orderly d pending) (hReady : d.Ready api sink)
    (hInit : Step m before [.entered (.init api) reply] started) (hPath : Path m started log after)
    (hLog : Undisturbed api sink log) (hFinished : after.Finished api) :
    invocations api log = (⟨"OnFrontConnected", []⟩ ::
      (accepted m api log).flatMap (callbacksOf m)).map (some sink, ·) := by
  obtain ⟨d', pending', hStarted, hRuns, hOwed⟩ := owed_of_init hHolds hOrderly hReady hInit
  obtain ⟨e, work, events, hEnd, hStill, hAll⟩ := accounts_of_path hPath hStarted hRuns hLog
  rw [owed_of_finished hFinished hEnd hStill, List.map_nil, List.append_nil, owed_append,
    hOwed] at hAll
  exact hAll.symm

theorem exists_answers (hm : Bundled m) {events : List FrontEvent}
    (h : ∀ event ∈ events, Queueable m event) :
    ∃ answers, List.Forall₂ (fun event callbacks => event.callbacks? m = some callbacks ∧
      callbacks ≠ [] ∧ Answers m event callbacks) events answers ∧
        events.flatMap (callbacksOf m) = answers.flatten := by
  induction events with
  | nil => exact ⟨[], .nil, rfl⟩
  | cons event events ih =>
    obtain ⟨hEvent, hEvents⟩ := List.forall_mem_cons.mp h
    obtain ⟨callbacks, hCallbacks, hAnswers⟩ := exists_callbacks hm hEvent
    obtain ⟨answers, hAll, hFlat⟩ := ih hEvents
    refine ⟨callbacks :: answers, .cons ⟨hCallbacks, hAnswers.ne_nil, hAnswers⟩ hAll, ?_⟩
    rw [List.flatMap_cons, List.flatten_cons, hFlat, callbacksOf, hCallbacks, Option.getD_some]

/-- With the library's declarations, every event that can be queued has its callbacks. An instance
that was given its sink before it was started, and keeps it, invokes through it that the front is
connected and then the callbacks of the events it has accepted, in the order of their acceptance,
whenever its queue has been worked off; and the worker gets there by itself. -/
theorem accepted_delivered {file : DeclarationFile} {model : Model} (hDeclares : Declares file)
    (hModel : file.toModel = .ok model) (hMarshaler : Marshaler.new model = .ok m) :
    (∀ event, Queueable m event → ∃ callbacks, event.callbacks? m = some callbacks ∧
      callbacks ≠ [] ∧ Answers m event callbacks) ∧
    ∀ {api sink : Nat} {before started after : Stage} {earlier log : List Happening}
      {reply : Reply}, Path m (.idle {}) earlier before → before.desk.Ready api sink →
      Step m before [.entered (.init api) reply] started → Path m started log after →
      Undisturbed api sink log →
      ∃ answers, List.Forall₂ (fun event callbacks => event.callbacks? m = some callbacks ∧
          callbacks ≠ [] ∧ Answers m event callbacks) (accepted m api log) answers ∧
        (after.Finished api → invocations api log =
          (⟨"OnFrontConnected", []⟩ :: answers.flatten).map (some sink, ·)) ∧
        ∃ last rest, Path m after rest last ∧ Unentered rest ∧ last.Finished api ∧
          invocations api (log ++ rest) =
            (⟨"OnFrontConnected", []⟩ :: answers.flatten).map (some sink, ·) := by
  have hm := bundled_of_toModel hDeclares hModel hMarshaler
  refine ⟨fun event hEvent => ?_, ?_⟩
  · obtain ⟨callbacks, hCallbacks, hAnswers⟩ := exists_callbacks hm hEvent
    exact ⟨callbacks, hCallbacks, hAnswers.ne_nil, hAnswers⟩
  · intro api sink before started after earlier log reply hBefore hReady hInit hPath hLog
    obtain ⟨d, pending, hHolds, hOrderly⟩ := orderly_of_path hBefore
    rw [hHolds.desk_eq] at hReady
    obtain ⟨d', pending', hStarted, hRuns, -⟩ := owed_of_init hHolds hOrderly hReady hInit
    have hQueueable : ∀ event ∈ accepted m api log, Queueable m event :=
      fun _ hMem => queueable_of_mem_accepted hMem
    obtain ⟨answers, hAnswers, hFlat⟩ := exists_answers hm hQueueable
    have hPaid {stage : Stage} {whole : List Happening} (hWhole : Path m started whole stage)
        (hFree : Undisturbed api sink whole) (hSame : accepted m api whole = accepted m api log)
        (hFinished : stage.Finished api) : invocations api whole =
          (⟨"OnFrontConnected", []⟩ :: answers.flatten).map (some sink, ·) := by
      rw [invocations_of_finished hHolds hOrderly hReady hInit hWhole hFree hFinished, hSame, hFlat]
    obtain ⟨e, work, events, hEnd, -, -⟩ := accounts_of_path hPath hStarted hRuns hLog
    obtain ⟨last, rest, hRest, hAlone, hFinished⟩ := exists_path_finished hEnd api
    refine ⟨answers, hAnswers, hPaid hPath hLog rfl, last, rest, hRest, hAlone, hFinished,
      hPaid (hPath.trans hRest) (undisturbed_append.mpr ⟨hLog, hAlone.undisturbed api sink⟩) ?_
        hFinished⟩
    rw [accepted_append, hAlone.accepted_eq_nil, List.append_nil]

def plainFile : DeclarationFile where
  library := { name := "trader" }
  typedefs := typedefs
  constants := constants
  structs := structs

def readyDesk : Desk :=
  ⟨[{ flowPath := "", sink := some 7 }]⟩

def runningDesk (requests : List String) (events : List FrontEvent) : Desk :=
  ⟨[{ flowPath := "", sink := some 7, started := true, requests, events }]⟩

theorem exists_path_readyDesk (m : Marshaler) :
    ∃ log, Path m (.idle {}) log (.idle readyDesk) := by
  have hCreate : (Entry.create apiClass "CreateFtdcTraderApi" []).run m {} =
      .answer ⟨[{ flowPath := "" }]⟩ (.ok .void) := by
    simp [Entry.run, library, flowPath, Except.map]
  have hRegister : (Entry.register 0 7).run m ⟨[{ flowPath := "" }]⟩ =
      .answer readyDesk (.ok .void) := rfl
  exact ⟨_, (Path.single (.enter hCreate)).trans (.single (.enter hRegister))⟩

def sampleLog (body : NativeStruct) : List Happening :=
  [.entered (.call 0 "ReqOrderInsert" [.struct body, .scalar (.i32 5)]) (.ok (.scalar (.i32 0))),
    .entered (.heartbeat 0 30) (.ok (.scalar (.bool true)))]

theorem path_sampleLog {m : Marshaler} {body : NativeStruct} {r : Record}
    (hBody : m.decodeStruct body = .ok r) :
    Path m (.idle (runningDesk [] [.connected])) (sampleLog body)
        (.idle (runningDesk ["ReqOrderInsert"] [.connected, .order r 5, .heartbeat 30])) ∧
      accepted m 0 (sampleLog body) = [.order r 5, .heartbeat 30] := by
  have hOrder : (Entry.call 0 "ReqOrderInsert" [.struct body, .scalar (.i32 5)]).run m
      (runningDesk [] [.connected]) =
        .answer (runningDesk ["ReqOrderInsert"] [.connected, .order r 5])
          (.ok (.scalar (.i32 0))) := by
    simp only [Entry.run, library, Desk.call, Desk.request, readRequest, hBody]
    rfl
  have hHeartbeat : (Entry.heartbeat 0 30).run m
      (runningDesk ["ReqOrderInsert"] [.connected, .order r 5]) =
        .answer (runningDesk ["ReqOrderInsert"] [.connected, .order r 5, .heartbeat 30])
          (.ok (.scalar (.bool true))) := rfl
  refine ⟨(Path.single (.enter hOrder)).trans (.single (.enter hHeartbeat)), ?_⟩
  simp [accepted, sampleLog, Happening.accepted?, accepts, Entry.event?, requestEvent?,
    readRequest, hBody, Except.toOption]

theorem exists_sampleOrder {m : Marshaler} (hm : Bundled m) :
    ∃ body r, m.decodeStruct body = .ok r ∧ orderVolume r = 3 := by
  have hs : (⟨"CThostFtdcInputOrderField",
      [⟨"BrokerID", .fixedText 11⟩, ⟨"InvestorID", .fixedText 13⟩, ⟨"InstrumentID", .fixedText 31⟩,
        ⟨"OrderRef", .fixedText 13⟩, ⟨"Direction", .scalar .char⟩, ⟨"LimitPrice", .scalar .f64⟩,
        ⟨"VolumeTotalOriginal", .scalar .i32⟩, ⟨"RequestID", .scalar .i32⟩]⟩ : StructDecl) ∈
        resolved := by simp [resolved]
  have hVolume : Marshal.Carried (.scalar .i32) (.int 3) := carried_number (n := 3) (by decide)
  obtain ⟨arg, r, -, ⟨body, -, hDecode⟩, -, hGet⟩ := @exists_filled m _ hm hs
    [("VolumeTotalOriginal", .int 3)] (by simp) (by simp [hVolume])
  have hGetVolume := hGet _ List.mem_cons_self
  refine ⟨body, r, hDecode, ?_⟩
  rw [orderVolume, hGetVolume]
  rfl

theorem accepted_delivered_order :
    ∃ model m body after last rest first second, plainFile.toModel = .ok model ∧
      Marshaler.new model = .ok m ∧
      Path m (.idle (runningDesk [] [.connected])) (sampleLog body) after ∧
      Path m after rest last ∧ last.Finished 0 ∧ invocations 0 (sampleLog body ++ rest) =
        [(some 7, ⟨"OnFrontConnected", []⟩), (some 7, ⟨"OnRtnOrder", [first]⟩),
          (some 7, ⟨"OnRtnOrder", [second]⟩),
          (some 7, ⟨"OnHeartBeatWarning", [.scalar (.i32 30)]⟩)] := by
  have hDeclares : Declares plainFile := ⟨rfl, rfl, rfl⟩
  obtain ⟨model, m, hModel, hMarshaler⟩ := exists_marshaler hDeclares rfl
  obtain ⟨body, r, hBody, hVolume⟩ :=
    exists_sampleOrder (bundled_of_toModel hDeclares hModel hMarshaler)
  obtain ⟨earlier, hBefore⟩ := exists_path_readyDesk m
  obtain ⟨hPath, hAccepted⟩ := path_sampleLog hBody
  have hReady : (Stage.idle readyDesk).desk.Ready 0 7 := ⟨_, rfl, rfl, rfl, rfl⟩
  have hInit : Step m (.idle readyDesk) [.entered (.init 0) (.ok .void)]
      (.idle (runningDesk [] [.connected])) := .enter rfl
  have hLog : Undisturbed 0 7 (sampleLog body) := by
    simp [Undisturbed, sampleLog, Happening.Disturbs]
  obtain ⟨answers, hAnswers, -, last, rest, hRest, -, hFinished, hAll⟩ :=
    (accepted_delivered hDeclares hModel hMarshaler).2 hBefore hReady hInit hPath hLog
  rw [hAccepted] at hAnswers
  cases hAnswers with
  | cons hOrder hTail =>
    cases hTail with
    | cons hFront hNil =>
      cases hNil
      obtain ⟨-, -, hOrder⟩ := hOrder
      obtain ⟨-, -, hFront⟩ := hFront
      cases hFront
      cases hOrder with
      | orderRefused hRefused => exact absurd (hVolume ▸ hRefused) (by decide)
      | @orderFilled _ _ _ _ first second =>
        exact ⟨model, m, body, _, last, rest, first, second, hModel, hMarshaler, hPath, hRest,
          hFinished, hAll⟩

end Delivered

end NativeBinding.Trader
