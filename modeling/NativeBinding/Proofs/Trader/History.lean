import NativeBinding.Proofs.Trader.Answers

/-! # Histories of the trader library

Threads enter the library at any time, also while it waits for a callback to come back. Its one
worker takes an event from a queue, delivers the callbacks of the event, and goes on. A history is
what is seen from outside: entries with their replies, and callbacks.
-/

set_option autoImplicit false

namespace NativeBinding.Trader

open Session

abbrev Reply := Except NativeFault NativeArg

/-- An entry of the library, or a report that its front is made to give. -/
inductive Entry where
  | create (className constructor : String) (args : List NativeArg)
  | callStatic (className method : String) (args : List NativeArg)
  | register (api bridge : Nat)
  | init (api : Nat)
  | release (api : Nat)
  | call (api : Nat) (method : String) (args : List NativeArg)
  | heartbeat (api : Nat) (lapse : Int32)
  | disconnect (api : Nat) (reason : Int32)

def Desk.report (d : Desk) (api : Nat) (event : FrontEvent) : NativeRun Desk :=
  let (running, d) := d.push api event
  .answer d (.ok (.scalar (.bool running)))

namespace Entry

def run (m : Marshaler) (d : Desk) : Entry → NativeRun Desk
  | .create className constructor args =>
    let (d, reply) := (library m).create d className constructor args
    .answer d (reply.map fun _ => .void)
  | .callStatic className method args =>
    let (d, reply) := (library m).callStatic d className method args
    .answer d reply
  | .register api bridge =>
    let (d, reply) := (library m).register d api bridge
    .answer d (reply.map fun _ => .void)
  | .init api => (library m).init d api
  | .release api => (library m).release d api
  | .call api method args => (library m).call d api method args
  | .heartbeat api lapse => d.report api (.heartbeat lapse)
  | .disconnect api reason => d.report api (.disconnected reason)

/-- The event that an entry asks an instance to queue. -/
def event? (m : Marshaler) (api : Nat) : Entry → Option FrontEvent
  | .call other method args => if other = api then requestEvent? m method args else none
  | .heartbeat other lapse => if other = api then some (.heartbeat lapse) else none
  | .disconnect other reason => if other = api then some (.disconnected reason) else none
  | _ => none

end Entry

/-- A status of 0, and true, accept an event. -/
def accepts : Reply → Bool
  | .ok (.scalar (.i32 status)) => status == 0
  | .ok (.scalar (.bool running)) => running
  | _ => false

inductive Happening where
  | entered (entry : Entry) (reply : Reply)
  | invoked (api : Nat) (sink : Option Nat) (callback : Callback)

namespace Happening

def accepted? (m : Marshaler) (api : Nat) : Happening → Option FrontEvent
  | .entered entry reply => if accepts reply then entry.event? m api else none
  | .invoked .. => none

def invocation? (api : Nat) : Happening → Option (Option Nat × Callback)
  | .invoked other sink callback => if other = api then some (sink, callback) else none
  | .entered .. => none

/-- Releases an instance or gives it another sink. -/
def Disturbs (api sink : Nat) : Happening → Prop
  | .entered (.release other) _ => other = api
  | .entered (.register other bridge) _ => other = api ∧ bridge ≠ sink
  | _ => False

end Happening

/-- The events that an instance has accepted, in the order of their acceptance. -/
def accepted (m : Marshaler) (api : Nat) (log : List Happening) : List FrontEvent :=
  log.filterMap (Happening.accepted? m api)

/-- The callbacks of an instance, each with the sink that it goes through. -/
def invocations (api : Nat) (log : List Happening) : List (Option Nat × Callback) :=
  log.filterMap (Happening.invocation? api)

def Undisturbed (api sink : Nat) (log : List Happening) : Prop :=
  ∀ h ∈ log, ¬ h.Disturbs api sink

/-- Nobody enters the library. -/
def Unentered (log : List Happening) : Prop :=
  ∀ h ∈ log, ∃ api sink callback, h = .invoked api sink callback

/-- What the worker is at: it waits for events, works on one, or has called out and waits for the
callback to come back. -/
inductive Stage where
  | idle (d : Desk)
  | serving (api : Nat) (run : NativeRun Desk)
  | inside (api : Nat) (d : Desk) (next : Desk → NativeArg → NativeRun Desk)

inductive Step (m : Marshaler) : Stage → List Happening → Stage → Prop where
  | enter {d d' : Desk} {entry : Entry} {reply : Reply} (hRun : entry.run m d = .answer d' reply) :
      Step m (.idle d) [.entered entry reply] (.idle d')
  /-- An entry from the callback itself, or from another thread while it runs. -/
  | enterInside {api : Nat} {d d' : Desk} {next : Desk → NativeArg → NativeRun Desk}
      {entry : Entry} {reply : Reply} (hRun : entry.run m d = .answer d' reply) :
      Step m (.inside api d next) [.entered entry reply] (.inside api d' next)
  | take {api : Nat} {d : Desk} {run : NativeRun Desk}
      (hWork : (library m).work? d = some (api, run)) : Step m (.idle d) [] (.serving api run)
  | invoke {api : Nat} {d : Desk} {sink : Option Nat} {callback : Callback}
      {next : Desk → NativeArg → NativeRun Desk} :
      Step m (.serving api (.invoke d sink callback.hook callback.args next))
        [.invoked api sink callback] (.inside api d next)
  | back {api : Nat} {d : Desk} {next : Desk → NativeArg → NativeRun Desk} (reply : NativeArg) :
      Step m (.inside api d next) [] (.serving api (next d reply))
  | finish {api : Nat} {d : Desk} {reply : Reply} :
      Step m (.serving api (.answer d reply)) [] (.idle d)

inductive Path (m : Marshaler) : Stage → List Happening → Stage → Prop where
  | refl (stage : Stage) : Path m stage [] stage
  | tail {first middle last : Stage} {log more : List Happening} (hPath : Path m first log middle)
      (hStep : Step m middle more last) : Path m first (log ++ more) last

section Path

variable {m : Marshaler} {first middle last : Stage} {log more : List Happening}

theorem Path.single (hStep : Step m first log last) : Path m first log last :=
  .tail (.refl first) hStep

theorem Path.trans (hPath : Path m first log middle) (hMore : Path m middle more last) :
    Path m first (log ++ more) last := by
  induction hMore with
  | refl => rwa [List.append_nil]
  | tail _ hStep ih =>
    rw [← List.append_assoc]
    exact .tail ih hStep

theorem accepted_append (m : Marshaler) (api : Nat) (log more : List Happening) :
    accepted m api (log ++ more) = accepted m api log ++ accepted m api more :=
  List.filterMap_append

theorem invocations_append (api : Nat) (log more : List Happening) :
    invocations api (log ++ more) = invocations api log ++ invocations api more :=
  List.filterMap_append

theorem undisturbed_append {api sink : Nat} :
    Undisturbed api sink (log ++ more) ↔ Undisturbed api sink log ∧ Undisturbed api sink more :=
  List.forall_mem_append

theorem Unentered.append (h : Unentered log) (hMore : Unentered more) :
    Unentered (log ++ more) :=
  List.forall_mem_append.mpr ⟨h, hMore⟩

theorem Unentered.undisturbed (h : Unentered log) (api sink : Nat) :
    Undisturbed api sink log := by
  intro happening hMem hDisturbs
  obtain ⟨_, _, _, rfl⟩ := h happening hMem
  exact hDisturbs

theorem Unentered.accepted_eq_nil (h : Unentered log) (m : Marshaler) (api : Nat) :
    accepted m api log = [] := by
  refine List.filterMap_eq_nil_iff.mpr fun happening hMem => ?_
  obtain ⟨_, _, _, rfl⟩ := h happening hMem
  rfl

theorem queueable_of_mem_accepted {api : Nat} {event : FrontEvent}
    (h : event ∈ accepted m api log) : Queueable m event := by
  obtain ⟨happening, -, hAccepted⟩ := List.mem_filterMap.mp h
  cases happening with
  | invoked => cases hAccepted
  | entered entry reply =>
    rw [Happening.accepted?, Option.ite_none_right_eq_some] at hAccepted
    have hEvent := hAccepted.2
    cases entry with
    | call other method args =>
      rw [Entry.event?, Option.ite_none_right_eq_some] at hEvent
      exact .requested hEvent.2
    | heartbeat other lapse =>
      rw [Entry.event?, Option.ite_none_right_eq_some] at hEvent
      cases hEvent.2
      exact .heartbeat lapse
    | disconnect other reason =>
      rw [Entry.event?, Option.ite_none_right_eq_some] at hEvent
      cases hEvent.2
      exact .disconnected reason
    | _ => cases hEvent

end Path

namespace Desk

variable {d : Desk} {api : Nat} {i : Instance}

theorem instance?_change (d : Desk) (api other : Nat) (f : Instance → Instance) :
    (d.change api f).instance? other =
      if other = api then (d.instance? other).map f else d.instance? other := by
  rw [instance?, change, List.getElem?_modify]
  by_cases hSame : other = api
  · subst hSame
    rw [if_pos rfl]
    simp [instance?]
  · rw [if_neg hSame]
    simp [instance?, Ne.symm hSame]

theorem instance?_change_of_some (h : d.instance? api = some i) (f : Instance → Instance)
    (other : Nat) :
    (d.change api f).instance? other = if other = api then some (f i) else d.instance? other := by
  rw [instance?_change]
  split
  · rename_i hSame
    rw [hSame, h]
    rfl
  · rfl

theorem change_of_none (h : d.instance? api = none) (f : Instance → Instance) :
    d.change api f = d := by
  rw [change, List.modify_eq_self (List.getElem?_eq_none_iff.mp h)]

theorem push_cases (d : Desk) (api : Nat) (event : FrontEvent) :
    d.push api event = (false, d) ∨ ∃ i, d.instance? api = some i ∧ i.isRunning = true ∧
      d.push api event =
        (true, d.change api fun _ => { i with events := i.events ++ [event] }) := by
  rw [push]
  cases hInstance : d.instance? api with
  | none => exact .inl rfl
  | some i =>
    cases hRunning : i.isRunning with
    | false => exact .inl (by simp [Instance.push?, hRunning])
    | true => exact .inr ⟨i, rfl, hRunning, by simp [Instance.push?, hRunning]⟩

end Desk

/-- What an entry that finds its instance does to it. -/
inductive Change (m : Marshaler) (api : Nat) (i : Instance) : Entry → Reply → Instance → Prop where
  | registered (bridge : Nat) :
      Change m api i (.register api bridge) (.ok .void) { i with sink := some bridge }
  | started (hNew : i.started = false) (hHere : i.released = false) :
      Change m api i (.init api) (.ok .void) { i with started := true, events := [.connected] }
  | stopped :
      Change m api i (.release api) (.ok .void)
        { i with released := true, events := [], sink := none }
  | fronted (args : List NativeArg) (fronts : List String) :
      Change m api i (.call api "RegisterFront" args) (.ok .void) { i with fronts }
  | queued {entry : Entry} {reply : Reply} {event : FrontEvent} (requests : List String)
      (hRunning : i.isRunning = true) (hAccepts : accepts reply = true)
      (hEvent : ∀ other, entry.event? m other = if api = other then some event else none) :
      Change m api i entry reply { i with requests, events := i.events ++ [event] }

/-- What an entry does to the library. -/
inductive Effect (m : Marshaler) (d : Desk) (entry : Entry) (reply : Reply) : Desk → Prop where
  | kept (hNone : ∀ api, (Happening.entered entry reply).accepted? m api = none) :
      Effect m d entry reply d
  | created {flowPath : String}
      (hNone : ∀ api, (Happening.entered entry reply).accepted? m api = none) :
      Effect m d entry reply ⟨d.instances ++ [{ flowPath := flowPath }]⟩
  | changed {api : Nat} {i i' : Instance} {d' : Desk} (hInstance : d.instance? api = some i)
      (hBecomes : ∀ other, d'.instance? other = if other = api then some i' else d.instance? other)
      (hChange : Change m api i entry reply i') : Effect m d entry reply d'

section Effect

variable {m : Marshaler} {d d' : Desk} {entry : Entry} {reply : Reply} {api : Nat}

theorem Change.accepted_other {i i' : Instance} (h : Change m api i entry reply i') {other : Nat}
    (hOther : other ≠ api) : (Happening.entered entry reply).accepted? m other = none := by
  cases h with
  | queued requests hRunning hAccepts hEvent =>
    rw [Happening.accepted?, hEvent, if_neg hOther.symm, ite_self]
  | fronted => rfl
  | _ => rfl

/-- An entry that leaves a running instance and its sink queues the event that it accepts, and
changes nothing else that the callbacks hang on. -/
theorem Change.events {i i' : Instance} {sink : Nat} (h : Change m api i entry reply i')
    (hRunning : i.isRunning = true) (hSink : i.sink = some sink)
    (hFree : ¬ (Happening.entered entry reply).Disturbs api sink) :
    i'.isRunning = true ∧ i'.sink = some sink ∧
      i'.events = i.events ++ ((Happening.entered entry reply).accepted? m api).toList := by
  cases h with
  | registered bridge =>
    have hSame : bridge = sink := by_contra fun hOther => hFree ⟨rfl, hOther⟩
    exact ⟨hRunning, congrArg some hSame, (List.append_nil _).symm⟩
  | stopped => exact absurd rfl hFree
  | started hNew =>
    rw [Instance.isRunning, hNew] at hRunning
    cases hRunning
  | fronted => exact ⟨hRunning, hSink, (List.append_nil _).symm⟩
  | queued requests _ hAccepts hEvent =>
    refine ⟨hRunning, hSink, ?_⟩
    rw [Happening.accepted?, hAccepts, if_pos rfl, hEvent, if_pos rfl]
    rfl

theorem Change.started_of {i i' : Instance} (h : Change m api i entry reply i')
    (hStarted : i.started = true) : i'.started = true := by
  cases h <;> first | exact hStarted | rfl

theorem Change.started_of_events {i i' : Instance} (h : Change m api i entry reply i')
    (hEvents : i.events ≠ [] → i.started = true) (hEvents' : i'.events ≠ []) :
    i'.started = true := by
  cases h with
  | registered => exact hEvents hEvents'
  | started => rfl
  | stopped => exact absurd rfl hEvents'
  | fronted => exact hEvents hEvents'
  | queued requests hRunning =>
    rw [Instance.isRunning, Bool.and_eq_true] at hRunning
    exact hRunning.1

theorem effect_change {f : Instance → Instance}
    (hNone : ∀ api, (Happening.entered entry reply).accepted? m api = none)
    (hChange : ∀ i, Change m api i entry reply (f i)) :
    Effect m d entry reply (d.change api f) := by
  cases hInstance : d.instance? api with
  | none =>
    rw [Desk.change_of_none hInstance]
    exact .kept hNone
  | some i => exact .changed hInstance (Desk.instance?_change_of_some hInstance f) (hChange i)

theorem effect_report {event : FrontEvent} (hRun : d.report api event = .answer d' reply)
    (hEvent : ∀ other, entry.event? m other = if api = other then some event else none) :
    Effect m d entry reply d' := by
  rw [Desk.report] at hRun
  rcases d.push_cases api event with hPush | ⟨i, hInstance, hRunning, hPush⟩
  · rw [hPush] at hRun
    cases hRun
    exact .kept fun _ => rfl
  · rw [hPush] at hRun
    cases hRun
    exact .changed hInstance (Desk.instance?_change_of_some hInstance _)
      (.queued i.requests hRunning rfl hEvent)

theorem effect_queued {event : FrontEvent} {method : String}
    (hRun : d.queued api method event = .answer d' reply)
    (hEvent : ∀ other, entry.event? m other = if api = other then some event else none) :
    Effect m d entry reply d' := by
  rw [Desk.queued, Desk.submit] at hRun
  rcases d.push_cases api event with hPush | ⟨i, hInstance, hRunning, hPush⟩
  · rw [hPush] at hRun
    cases hRun
    exact .kept fun _ => rfl
  · rw [hPush] at hRun
    cases hRun
    have hQueued := Desk.instance?_change_of_some hInstance fun _ =>
      { i with events := i.events ++ [event] }
    refine .changed hInstance (fun other => ?_)
      (.queued (i.requests ++ [method]) hRunning rfl hEvent)
    rw [Desk.instance?_change_of_some ((hQueued api).trans (if_pos rfl)), hQueued]
    split <;> rfl

theorem effect_request {method : String} {args : List NativeArg}
    {event : Record → Int32 → FrontEvent}
    (hEvent : ∀ r number, readRequest m method args = .ok (r, number) →
      requestEvent? m method args = some (event r number))
    (hRun : Desk.request m d api method args event = .answer d' reply) :
    Effect m d (.call api method args) reply d' := by
  rw [Desk.request] at hRun
  cases hRead : readRequest m method args with
  | ok result =>
    obtain ⟨r, number⟩ := result
    rw [hRead] at hRun
    refine effect_queued hRun fun other => ?_
    rw [Entry.event?, hEvent r number hRead]
  | error error =>
    rw [hRead] at hRun
    cases hRun
    exact .kept fun _ => rfl

theorem effect_call {method : String} {args : List NativeArg}
    (hRun : Desk.call m d api method args = .answer d' reply) :
    Effect m d (.call api method args) reply d' := by
  unfold Desk.call at hRun
  split at hRun
  · cases hRun
    exact .kept fun _ => rfl
  · unfold Desk.registerFront at hRun
    split at hRun
    · cases hRun
      exact effect_change (fun _ => rfl) fun i => .fronted _ _
    · cases hRun
      exact .kept fun _ => rfl
  · exact effect_request (fun r number hRead => by rw [requestEvent?, hRead]; rfl) hRun
  · exact effect_request (fun r number hRead => by rw [requestEvent?, hRead]; rfl) hRun
  · exact effect_request (fun r number hRead => by rw [requestEvent?, hRead]; rfl) hRun
  · cases hRun
    exact .kept fun _ => rfl

theorem effect_create {className constructor : String} {args : List NativeArg}
    (hRun : (Entry.create className constructor args).run m d = .answer d' reply) :
    Effect m d (.create className constructor args) reply d' := by
  simp only [Entry.run, library] at hRun
  split at hRun
  · split at hRun
    · cases hRun
      exact .created fun _ => rfl
    · cases hRun
      exact .kept fun _ => rfl
  · cases hRun
    exact .kept fun _ => rfl

theorem effect_start (hRun : Desk.start d api = .answer d' reply) :
    Effect m d (.init api) reply d' := by
  unfold Desk.start at hRun
  split at hRun
  · cases hRun
    exact .kept fun _ => rfl
  · rename_i i hInstance
    split at hRun
    · cases hRun
      exact .kept fun _ => rfl
    · split at hRun
      · cases hRun
        exact .kept fun _ => rfl
      · rename_i hHere hNew
        cases hRun
        exact .changed hInstance (Desk.instance?_change_of_some hInstance _)
          (.started (Bool.eq_false_of_not_eq_true hNew) (Bool.eq_false_of_not_eq_true hHere))

theorem effect_of_run (hRun : entry.run m d = .answer d' reply) : Effect m d entry reply d' := by
  cases entry with
  | create className constructor args => exact effect_create hRun
  | callStatic className method args =>
    simp only [Entry.run, library] at hRun
    split at hRun
    · cases hRun
      exact .kept fun _ => rfl
    · cases hRun
      exact .kept fun _ => rfl
  | register api bridge =>
    cases hRun
    exact effect_change (fun _ => rfl) fun i => .registered bridge
  | init api => exact effect_start hRun
  | release api =>
    cases hRun
    exact effect_change (fun _ => rfl) fun i => .stopped
  | call api method args => exact effect_call hRun
  | heartbeat api lapse => exact effect_report hRun fun _ => rfl
  | disconnect api reason => exact effect_report hRun fun _ => rfl

end Effect

end NativeBinding.Trader
