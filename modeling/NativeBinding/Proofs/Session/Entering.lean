import NativeBinding.Proofs.Binding.Declared
import NativeBinding.Proofs.Session.Generated
import NativeBinding.Proofs.Session.Passing
import NativeBinding.Proofs.Session.Register

/-! # How a call enters the library

A call that takes arguments finds its method, marshals one native argument for each parameter, and
only then enters the library, once. Whatever is wrong before leaves the session as it was.
-/

set_option autoImplicit false

namespace NativeBinding.Session

variable {σ α β : Type} {host : Host σ} {dispatch : Dispatcher σ} {s : State σ}

def Event.entry? : Event → Option Entry
  | .entered entry => some entry
  | _ => none

/-- How the library was entered so far. -/
def State.entries (s : State σ) : List Entry :=
  s.log.filterMap Event.entry?

/-- A dispatcher that never enters the library. -/
def Dispatcher.EntersNothing (dispatch : Dispatcher σ) : Prop :=
  ∀ entries bridge hook args,
    Keeps (fun s => s.entries = entries) (dispatch bridge hook args) fun _ => True

section Entries

variable {entries : List Entry}

theorem entries_logged (s : State σ) (event : Event) :
    (s.logged event).entries = s.entries ++ event.entry?.toList := by
  simp only [State.entries, State.logged, List.filterMap_append]
  cases h : event.entry? <;> simp [h]

theorem keeps_record {event : Event} (h : event.entry? = none) :
    Keeps (fun s : State σ => s.entries = entries) (record event) fun _ => True :=
  keeps_modify fun s hs => by
    have hLogged := entries_logged s event
    rw [h] at hLogged
    exact (hLogged.trans (List.append_nil _)).trans hs

theorem keeps_follow (h : dispatch.EntersNothing) (api : Nat) (run : NativeRun σ) :
    Keeps (fun s => s.entries = entries) (run.follow dispatch api) fun _ => True := by
  induction run with
  | answer native reply =>
    exact keeps_bind (keeps_modify fun _ hs => hs) fun _ (_ : True) => keeps_pure trivial
  | invoke native sink hook args next ih =>
    have hRest (answer : Option NativeArg) (_ : True) :
        Keeps (fun s : State σ => s.entries = entries) (do
          record (.calledBack api hook args answer)
          pure answer) fun _ => True :=
      keeps_bind (keeps_record rfl) fun _ _ => keeps_pure trivial
    have hAnswered : Keeps (fun s => s.entries = entries)
        (callBack dispatch api native sink hook args) fun _ => True := by
      refine keeps_bind (keeps_modify fun _ hs => hs) fun _ (_ : True) => ?_
      cases sink with
      | none => exact keeps_bind (keeps_pure trivial) hRest
      | some bridge => exact keeps_bind (keeps_map (h entries bridge hook args)) hRest
    exact keeps_bind hAnswered fun _ _ => keeps_get fun _ _ => ih _ _

end Entries

/-- A call that takes arguments. -/
inductive ArgumentCall where
  | construct (className constructor : String)
  | createApi (className : String)
  | callStatic (className method : String)
  | invoke (api : Nat) (method : String)

namespace ArgumentCall

/-- The class and the method that a call finds. An instance that is released has no plain calls. -/
def Reaches (host : Host σ) (s : State σ) : ArgumentCall → ClassBinding → Trampoline → Prop
  | construct className constructor, c, t =>
    host.loaded.apiClass className = .ok c ∧ c.constructor? constructor = some t
  | createApi className, c, t =>
    ∃ d first, host.loaded.apiClass className = .ok d ∧ d.constructors.head? = some first ∧
      host.loaded.apiClass d.className = .ok c ∧ c.constructor? first.name = some t
  | callStatic className method, c, t =>
    host.loaded.apiClass className = .ok c ∧ c.method? method = some t ∧ t.kind = .static
  | invoke api method, c, t =>
    ∃ a, s.objects.apis[api]? = some a ∧ a.binding = c ∧ c.method? method = some t ∧
      (t.kind = .static ∨ t.kind = .constructor ∨ t.kind = .call ∧ a.released = false)

theorem Reaches.unique {call : ArgumentCall} {c d : ClassBinding} {t u : Trampoline}
    (h : call.Reaches host s c t) (h' : call.Reaches host s d u) : c = d ∧ t = u := by
  cases call with
  | construct className constructor =>
    cases h.1.symm.trans h'.1
    cases h.2.symm.trans h'.2
    exact ⟨rfl, rfl⟩
  | createApi className =>
    obtain ⟨b, first, hClass, hFirst, hFound, hMethod⟩ := h
    obtain ⟨b', first', hClass', hFirst', hFound', hMethod'⟩ := h'
    cases hClass.symm.trans hClass'
    cases hFirst.symm.trans hFirst'
    cases hFound.symm.trans hFound'
    cases hMethod.symm.trans hMethod'
    exact ⟨rfl, rfl⟩
  | callStatic className method =>
    cases h.1.symm.trans h'.1
    cases h.2.1.symm.trans h'.2.1
    exact ⟨rfl, rfl⟩
  | invoke api method =>
    obtain ⟨a, hApi, rfl, hMethod, -⟩ := h
    obtain ⟨a', hApi', rfl, hMethod', -⟩ := h'
    cases hApi.symm.trans hApi'
    cases hMethod.symm.trans hMethod'
    exact ⟨rfl, rfl⟩

/-- The entry that a method is reached by. -/
def entry (c : ClassBinding) (t : Trampoline) (native : List NativeArg) : ArgumentCall → Entry
  | construct .. => .create c.className t.name native
  | createApi _ => .create c.className t.name native
  | callStatic .. => .static c.className t.name native
  | invoke api _ =>
    if t.kind = .call then .call api t.name native else .static c.className t.name native

end ArgumentCall

/-- The state after an entry that the session made in the state `s`. -/
inductive Entered (host : Host σ) (dispatch : Dispatcher σ) (s : State σ) :
    Entry → State σ → Prop where
  /-- A factory or a static method invokes nothing. -/
  | alone {entry : Entry} {s' : State σ} : entry.instance? = none →
      s'.log = s.log ++ [.entered entry] → Entered host dispatch s entry s'
  /-- What the method of an instance invokes is answered by the dispatcher, and nothing else happens
  until the library has answered. -/
  | followed {api : Nat} {method : String} {native : List NativeArg} :
      Entered host dispatch s (.call api method native)
        (((host.library.call s.native api method native).follow dispatch api).run
          (s.logged (.entered (.call api method native)))).2

theorem Entered.entries {entry : Entry} {s' : State σ} (h : Entered host dispatch s entry s')
    (hDispatch : dispatch.EntersNothing) : s'.entries = s.entries ++ [entry] := by
  cases h with
  | alone _ hLog => simp [State.entries, hLog, Event.entry?]
  | followed => exact (keeps_follow hDispatch _ _ _ (entries_logged s _)).1

/-- A call enters the library with conforming arguments for all parameters. -/
structure Enters (host : Host σ) (dispatch : Dispatcher σ) (s : State σ) (call : ArgumentCall)
    (args : List Value) (c : ClassBinding) (t : Trampoline) (native : List NativeArg)
    (s' : State σ) : Prop where
  passes : Passes host.loaded.marshaler s!"{c.className}::{t.name}" t.params args native
  conforms : List.Forall₂ (fun p arg => host.loaded.marshaler.Conforms p.type arg) t.params native
  entered : Entered host dispatch s (call.entry c t native) s'
  /-- Apart from what is done in callbacks there is no other entry. -/
  once : dispatch.EntersNothing → s'.entries = s.entries ++ [call.entry c t native]

/-- What a call with arguments does. -/
inductive Proceeds (host : Host σ) (dispatch : Dispatcher σ) (s : State σ) (call : ArgumentCall)
    (args : List Value) : Except CallError α × State σ → Prop where
  | unreached {e : CallError} : (∀ c t, ¬ call.Reaches host s c t) →
      Proceeds host dispatch s call args (.error e, s)
  | unpassable {c : ClassBinding} {t : Trampoline} {e : CallError} : call.Reaches host s c t →
      Unpassable host.loaded.marshaler s!"{c.className}::{t.name}" t.params args →
      Proceeds host dispatch s call args (.error e, s)
  | entered {c : ClassBinding} {t : Trampoline} {native : List NativeArg}
      {result : Except CallError α} {s' : State σ} : call.Reaches host s c t →
      Enters host dispatch s call args c t native s' →
      Proceeds host dispatch s call args (result, s')

section Calls

variable {rank : String → Nat} {call : ArgumentCall} {c : ClassBinding} {t : Trampoline}
  {args : List Value}

theorem run_callLift {ε : Type} (action : SessionM σ α) (s : State σ) :
    (liftM action : ExceptT ε (SessionM σ) α).run.run s =
      (.ok (action.run s).1, (action.run s).2) :=
  rfl

theorem Proceeds.congr {other : ArgumentCall} {r : Except CallError α × State σ}
    (h : Proceeds host dispatch s call args r)
    (hReaches : ∀ c t, call.Reaches host s c t ↔ other.Reaches host s c t)
    (hEntry : ∀ c t native, call.entry c t native = other.entry c t native) :
    Proceeds host dispatch s other args r := by
  cases h with
  | unreached hNone => exact .unreached fun c t hReached => hNone c t ((hReaches c t).mpr hReached)
  | unpassable hReached hWrong => exact .unpassable ((hReaches _ _).mp hReached) hWrong
  | entered hReached h =>
    refine .entered ((hReaches _ _).mp hReached) ⟨h.passes, h.conforms, ?_, ?_⟩
    · exact hEntry _ _ _ ▸ h.entered
    · exact hEntry _ _ _ ▸ h.once

namespace Host

end Host

end Calls

end NativeBinding.Session
