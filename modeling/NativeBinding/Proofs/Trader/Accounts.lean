import NativeBinding.Proofs.Trader.History

/-! # Accounts of the trader library

What each step of the library's worker does, and what an instance still has to deliver: a step pays
from the front of what is owed, or adds at its end.
-/

set_option autoImplicit false

namespace NativeBinding.Trader

open Session

/-- The callbacks that the worker delivers for an event. -/
def callbacksOf (m : Marshaler) (event : FrontEvent) : List Callback :=
  (event.callbacks? m).getD []

/-- The desk at a stage, and the rest of the callbacks of the event that the worker is at. -/
inductive Stage.Holds : Stage → Desk → Option (Nat × List Callback) → Prop where
  | idle (d : Desk) : Holds (.idle d) d none
  | serving {api : Nat} {rest : List Callback} {d : Desk} {run : NativeRun Desk}
      (hRun : run = Desk.deliver api rest d) : Holds (.serving api run) d (some (api, rest))
  | inside {api : Nat} {rest : List Callback} {d : Desk} {next : Desk → NativeArg → NativeRun Desk}
      (hNext : ∀ d reply, next d reply = Desk.deliver api rest d) :
      Holds (.inside api d next) d (some (api, rest))

/-- What a step does to the desk and to the callbacks that the worker is at. -/
inductive Move (m : Marshaler) : Desk → Option (Nat × List Callback) → List Happening →
    Desk → Option (Nat × List Callback) → Prop where
  | enter {d d' : Desk} {pending : Option (Nat × List Callback)} {entry : Entry} {reply : Reply}
      (hEffect : Effect m d entry reply d') : Move m d pending [.entered entry reply] d' pending
  | take {api : Nat} {d : Desk} {i : Instance} {event : FrontEvent} {rest : List FrontEvent}
      (hInstance : d.instance? api = some i) (hEvents : i.events = event :: rest) :
      Move m d none [] (d.change api fun i => { i with events := rest })
        (some (api, callbacksOf m event))
  | invoke {api : Nat} {d : Desk} {i : Instance} {callback : Callback} {rest : List Callback}
      (hInstance : d.instance? api = some i) :
      Move m d (some (api, callback :: rest)) [.invoked api i.sink callback] d (some (api, rest))
  | back {d : Desk} {pending : Option (Nat × List Callback)} : Move m d pending [] d pending
  /-- The worker is through with an event, or its instance is gone. -/
  | finish {api : Nat} {d : Desk} {rest : List Callback}
      (hRest : rest = [] ∨ ∀ i, d.instance? api = some i → i.released = true) :
      Move m d (some (api, rest)) [] d none

section Work

variable {m : Marshaler} {d d' : Desk} {api : Nat} {rest : List Callback}

theorem deliver_eq_answer {reply : Reply} (h : Desk.deliver api rest d = .answer d' reply) :
    d' = d ∧ (rest = [] ∨ ∀ i, d.instance? api = some i → i.released = true) := by
  cases rest with
  | nil =>
    cases h
    exact ⟨rfl, .inl rfl⟩
  | cons callback rest =>
    rw [Desk.deliver] at h
    cases hInstance : d.instance? api with
    | none =>
      rw [hInstance] at h
      cases h
      exact ⟨rfl, .inr nofun⟩
    | some i =>
      rw [hInstance] at h
      cases hReleased : i.released with
      | false =>
        simp only [hReleased] at h
        cases h
      | true =>
        simp only [hReleased] at h
        cases h
        exact ⟨rfl, .inr fun _ hSame => Option.some.inj hSame ▸ hReleased⟩

theorem deliver_eq_invoke {sink : Option Nat} {hook : String} {args : List NativeArg}
    {next : Desk → NativeArg → NativeRun Desk}
    (h : Desk.deliver api rest d = .invoke d' sink hook args next) :
    d' = d ∧ ∃ i more, d.instance? api = some i ∧ rest = ⟨hook, args⟩ :: more ∧ sink = i.sink ∧
      ∀ d reply, next d reply = Desk.deliver api more d := by
  cases rest with
  | nil => cases h
  | cons callback rest =>
    rw [Desk.deliver] at h
    cases hInstance : d.instance? api with
    | none =>
      rw [hInstance] at h
      cases h
    | some i =>
      rw [hInstance] at h
      cases hReleased : i.released with
      | false =>
        simp only [hReleased] at h
        cases h
        exact ⟨rfl, i, rest, rfl, rfl, rfl, fun _ _ => rfl⟩
      | true =>
        simp only [hReleased] at h
        cases h

theorem work?_eq_some {run : NativeRun Desk} (h : d.work? m = some (api, run)) :
    ∃ i event rest, d.instance? api = some i ∧ i.events = event :: rest ∧
      run = Desk.deliver api (callbacksOf m event)
        (d.change api fun i => { i with events := rest }) := by
  obtain ⟨found, hFound, i, hInstance, hEvents⟩ := by
    simpa only [Desk.work?, Option.bind_eq_bind, Option.bind_eq_some_iff] using h
  split at hEvents
  · cases hEvents
  · rename_i event rest hQueue
    cases hEvents
    exact ⟨i, event, rest, hInstance, hQueue, rfl⟩

theorem work?_eq_none (h : d.work? m = none) (i : Instance) (hInstance : d.instance? api = some i) :
    i.events = [] := by
  cases hFound : d.instances.findIdx? fun i => !i.events.isEmpty with
  | none =>
    have hMem : i ∈ d.instances := List.mem_of_getElem? hInstance
    have hEmpty := List.findIdx?_eq_none_iff.mp hFound i hMem
    simpa using hEmpty
  | some found =>
    obtain ⟨hBound, hSome, -⟩ := List.findIdx?_eq_some_iff_getElem.mp hFound
    have hHere : d.instance? found = some d.instances[found] := List.getElem?_eq_getElem hBound
    rw [Desk.work?, hFound] at h
    simp only [Option.bind_eq_bind, Option.bind_some, hHere] at h
    split at h
    · rename_i hNil
      rw [hNil] at hSome
      cases hSome
    · cases h

variable {stage stage' : Stage} {log : List Happening} {pending : Option (Nat × List Callback)}

theorem Step.move (hStep : Step m stage log stage') (h : stage.Holds d pending) :
    ∃ d' pending', stage'.Holds d' pending' ∧ Move m d pending log d' pending' := by
  cases hStep with
  | enter hRun =>
    cases h
    exact ⟨_, _, .idle _, .enter (effect_of_run hRun)⟩
  | enterInside hRun =>
    cases h with
    | inside hNext => exact ⟨_, _, .inside hNext, .enter (effect_of_run hRun)⟩
  | take hWork =>
    cases h
    obtain ⟨i, event, rest, hInstance, hEvents, rfl⟩ := work?_eq_some hWork
    exact ⟨_, _, .serving rfl, .take hInstance hEvents⟩
  | invoke =>
    cases h with
    | serving hRun =>
      obtain ⟨rfl, i, more, hInstance, rfl, rfl, hNext⟩ := deliver_eq_invoke hRun.symm
      exact ⟨_, _, .inside hNext, .invoke hInstance⟩
  | back reply =>
    cases h with
    | inside hNext => exact ⟨_, _, .serving (hNext _ reply), .back⟩
  | finish =>
    cases h with
    | serving hRun =>
      obtain ⟨rfl, hRest⟩ := deliver_eq_answer hRun.symm
      exact ⟨_, _, .idle _, .finish hRest⟩

end Work

section Started

/-- Only a started instance has events, or is worked for. -/
structure Orderly (d : Desk) (pending : Option (Nat × List Callback)) : Prop where
  events : ∀ api i, d.instance? api = some i → i.events ≠ [] → i.started = true
  pending : ∀ api rest, pending = some (api, rest) →
    ∃ i, d.instance? api = some i ∧ i.started = true

variable {m : Marshaler} {d d' : Desk} {entry : Entry} {reply : Reply} {log : List Happening}
variable {pending pending' : Option (Nat × List Callback)}

theorem Orderly.effect (h : Orderly d pending) (hEffect : Effect m d entry reply d') :
    Orderly d' pending := by
  cases hEffect with
  | kept => exact h
  | created =>
    refine ⟨fun api i hInstance hEvents => ?_, fun api rest hPending => ?_⟩
    · rw [Desk.instance?, List.getElem?_append] at hInstance
      split at hInstance
      · exact h.events api i hInstance hEvents
      · rw [List.getElem?_singleton, Option.ite_none_right_eq_some] at hInstance
        cases hInstance.2
        exact absurd rfl hEvents
    · obtain ⟨i, hInstance, hStarted⟩ := h.pending api rest hPending
      have hBound := (List.getElem?_eq_some_iff.mp hInstance).1
      exact ⟨i, (List.getElem?_append_left hBound).trans hInstance, hStarted⟩
  | @changed api i i' d' hInstance hBecomes hChange =>
    refine ⟨fun other j hOther hEvents => ?_, fun other rest hPending => ?_⟩
    · rw [hBecomes] at hOther
      split at hOther
      · cases hOther
        exact hChange.started_of_events (h.events api i hInstance) hEvents
      · exact h.events other j hOther hEvents
    · obtain ⟨j, hOther, hStarted⟩ := h.pending other rest hPending
      rw [hBecomes]
      split
      · rename_i hSame
        cases hInstance.symm.trans (hSame ▸ hOther)
        exact ⟨i', rfl, hChange.started_of hStarted⟩
      · exact ⟨j, hOther, hStarted⟩

theorem Orderly.move (h : Orderly d pending) (hMove : Move m d pending log d' pending') :
    Orderly d' pending' := by
  cases hMove with
  | enter hEffect => exact h.effect hEffect
  | @take api _ i event rest hInstance hEvents =>
    have hStarted : i.started = true := h.events api i hInstance (hEvents ▸ List.cons_ne_nil _ _)
    have hBecomes := Desk.instance?_change_of_some hInstance fun i => { i with events := rest }
    refine ⟨fun other j hOther hQueue => ?_, ?_⟩
    · rw [hBecomes] at hOther
      split at hOther
      · cases hOther
        exact hStarted
      · exact h.events other j hOther hQueue
    · rintro _ _ ⟨⟩
      exact ⟨_, (hBecomes api).trans (if_pos rfl), hStarted⟩
  | invoke hInstance =>
    refine ⟨h.events, ?_⟩
    rintro _ _ ⟨⟩
    exact h.pending _ _ rfl
  | back => exact h
  | finish => exact ⟨h.events, nofun⟩

theorem orderly_of_path {stage : Stage} (hPath : Path m (.idle {}) log stage) :
    ∃ d pending, stage.Holds d pending ∧ Orderly d pending := by
  induction hPath with
  | refl => exact ⟨_, _, .idle _, ⟨nofun, nofun⟩⟩
  | tail _ hStep ih =>
    obtain ⟨d, pending, hHolds, hOrderly⟩ := ih
    obtain ⟨d', pending', hHolds', hMove⟩ := hStep.move hHolds
    exact ⟨d', pending', hHolds', hOrderly.move hMove⟩

end Started

section Owed

variable {m : Marshaler} {d d' : Desk} {api sink : Nat} {log : List Happening}
variable {pending pending' : Option (Nat × List Callback)} {events : List FrontEvent}

/-- An instance that runs with a sink, and its queue. -/
def Desk.Runs (d : Desk) (api sink : Nat) (events : List FrontEvent) : Prop :=
  ∃ i, d.instance? api = some i ∧ i.isRunning = true ∧ i.sink = some sink ∧ i.events = events

/-- The callbacks of an instance that the worker is at. -/
def begun (api : Nat) : Option (Nat × List Callback) → List Callback
  | some (other, rest) => if other = api then rest else []
  | none => []

/-- The callbacks that an instance with these events still has to make. -/
def owed (m : Marshaler) (api : Nat) (pending : Option (Nat × List Callback))
    (events : List FrontEvent) : List Callback :=
  begun api pending ++ events.flatMap (callbacksOf m)

theorem owed_append (events more : List FrontEvent) :
    owed m api pending (events ++ more) =
      owed m api pending events ++ more.flatMap (callbacksOf m) := by
  rw [owed, owed, List.flatMap_append, List.append_assoc]

/-- Each entry adds the event that it queues, and nothing else. -/
theorem Effect.runs {entry : Entry} {reply : Reply} (hEffect : Effect m d entry reply d')
    (h : d.Runs api sink events)
    (hFree : ¬ (Happening.entered entry reply).Disturbs api sink) :
    d'.Runs api sink (events ++ accepted m api [.entered entry reply]) := by
  have hAccepted : accepted m api [.entered entry reply] =
      ((Happening.entered entry reply).accepted? m api).toList := by
    rw [accepted, List.filterMap_cons]
    cases (Happening.entered entry reply).accepted? m api <;> rfl
  obtain ⟨i, hInstance, hRunning, hSink, hEvents⟩ := h
  rw [hAccepted]
  cases hEffect with
  | kept hNone =>
    rw [hNone, Option.toList_none, List.append_nil]
    exact ⟨i, hInstance, hRunning, hSink, hEvents⟩
  | created hNone =>
    rw [hNone, Option.toList_none, List.append_nil]
    have hBound := (List.getElem?_eq_some_iff.mp hInstance).1
    exact ⟨i, (List.getElem?_append_left hBound).trans hInstance, hRunning, hSink, hEvents⟩
  | @changed other j j' _ hOther hBecomes hChange =>
    by_cases hSame : api = other
    · subst hSame
      cases hInstance.symm.trans hOther
      obtain ⟨hRunning', hSink', hEvents'⟩ := hChange.events hRunning hSink hFree
      exact ⟨j', (hBecomes api).trans (if_pos rfl), hRunning', hSink', hEvents ▸ hEvents'⟩
    · rw [hChange.accepted_other hSame, Option.toList_none, List.append_nil]
      exact ⟨i, ((hBecomes api).trans (if_neg hSame)).trans hInstance, hRunning, hSink, hEvents⟩

/-- What was owed and what is accepted in a step is delivered in it or owed after it, in order. -/
theorem Move.accounts (hMove : Move m d pending log d' pending') (h : d.Runs api sink events)
    (hLog : Undisturbed api sink log) :
    ∃ events', d'.Runs api sink events' ∧
      (owed m api pending (events ++ accepted m api log)).map (some sink, ·) =
        invocations api log ++ (owed m api pending' events').map (some sink, ·) := by
  cases hMove with
  | enter hEffect =>
    exact ⟨_, hEffect.runs h (hLog _ List.mem_cons_self), (List.nil_append _).symm⟩
  | @take other _ j event rest hOther hQueue =>
    obtain ⟨i, hInstance, hRunning, hSink, hEvents⟩ := h
    have hBecomes := Desk.instance?_change_of_some hOther fun i => { i with events := rest }
    by_cases hSame : api = other
    · subst hSame
      cases hInstance.symm.trans hOther
      refine ⟨rest, ⟨_, (hBecomes api).trans (if_pos rfl), hRunning, hSink, rfl⟩, ?_⟩
      simp [owed, begun, accepted, invocations, ← hEvents, hQueue]
    · refine ⟨events, ⟨i, ((hBecomes api).trans (if_neg hSame)).trans hInstance, hRunning, hSink,
        hEvents⟩, ?_⟩
      simp [owed, begun, accepted, invocations, Ne.symm hSame]
  | @invoke other _ j callback rest hOther =>
    refine ⟨events, h, ?_⟩
    obtain ⟨i, hInstance, -, hSink, -⟩ := h
    by_cases hSame : other = api
    · subst hSame
      cases hInstance.symm.trans hOther
      simp [owed, begun, accepted, invocations, Happening.accepted?, Happening.invocation?, hSink]
    · simp [owed, begun, accepted, invocations, Happening.accepted?, Happening.invocation?, hSame]
  | back => exact ⟨events, h, by simp [accepted, invocations]⟩
  | @finish other _ rest hRest =>
    refine ⟨events, h, ?_⟩
    obtain ⟨i, hInstance, hRunning, -, -⟩ := h
    by_cases hSame : other = api
    · subst hSame
      have hEmpty : rest = [] := by
        rcases hRest with hEmpty | hReleased
        · exact hEmpty
        · rw [Instance.isRunning, hReleased i hInstance, Bool.not_true, Bool.and_false] at hRunning
          cases hRunning
      simp [owed, begun, accepted, invocations, hEmpty]
    · simp [owed, begun, accepted, invocations, hSame]

/-- The same over a whole path, by induction on it. -/
theorem accounts_of_path {stage stage' : Stage} (hPath : Path m stage log stage')
    (hHolds : stage.Holds d pending) (h : d.Runs api sink events)
    (hLog : Undisturbed api sink log) :
    ∃ d' pending' events', stage'.Holds d' pending' ∧ d'.Runs api sink events' ∧
      (owed m api pending (events ++ accepted m api log)).map (some sink, ·) =
        invocations api log ++ (owed m api pending' events').map (some sink, ·) := by
  induction hPath with
  | refl => exact ⟨d, pending, events, hHolds, h, by simp [accepted, invocations]⟩
  | @tail _ _ log more _ hStep ih =>
    obtain ⟨hBefore, hMore⟩ := undisturbed_append.mp hLog
    obtain ⟨d₁, pending₁, events₁, hHolds₁, hRuns₁, hFirst⟩ := ih hBefore
    obtain ⟨d₂, pending₂, hHolds₂, hMove⟩ := hStep.move hHolds₁
    obtain ⟨events₂, hRuns₂, hSecond⟩ := hMove.accounts hRuns₁ hMore
    refine ⟨d₂, pending₂, events₂, hHolds₂, hRuns₂, ?_⟩
    rw [accepted_append, invocations_append, ← List.append_assoc, owed_append, List.map_append,
      hFirst, List.append_assoc, ← List.map_append, ← owed_append, hSecond, List.append_assoc]

end Owed

end NativeBinding.Trader
