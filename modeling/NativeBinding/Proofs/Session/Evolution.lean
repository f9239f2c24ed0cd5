import NativeBinding.Proofs.Session.Move
import NativeBinding.Session.Call

/-! # How a session evolves

`Step` is the smallest change of a session that begins and ends no scripting code, with everything
that is known where it is made. A session evolves by steps and by turns: where scripting code may
begin, it begins, the session evolves, and it ends. What every step and every turn keeps is kept by
everything that a session does.
-/

set_option autoImplicit false

namespace NativeBinding.Session

def Event.isTurn : Event → Bool
  | .began _ | .ended _ => true
  | _ => false

variable {σ : Type}

def State.begun (s : State σ) (activity : Activity) (handler : Option Nat) : State σ :=
  { s.logged (.began activity) with inside := true, running := handler }

/-- Scripting code ends that began in the state `before`. -/
def State.ended (s before : State σ) (activity : Activity) : State σ :=
  { s with inside := before.inside, running := before.running }.logged (.ended activity)

/-- A handler is called through a live bridge only. -/
def State.Permits (s : State σ) : Activity → Prop
  | .host => True
  | .handler bridge _ => ∃ b, s.objects.Live bridge b

theorem State.permits_host (s : State σ) : s.Permits .host :=
  trivial

inductive Step (host : Host σ) : State σ → State σ → Prop where
  | aside {s s' : State σ} : s'.objects = s.objects → s'.log = s.log → s'.inside = s.inside →
      s'.running = s.running → Step host s s'
  | event {s : State σ} {event : Event} : event.enters? = none → event.isTurn = false →
      Step host s (s.logged event)
  | addApi {s : State σ} {binding : ClassBinding} : binding ∈ host.loaded.bindings.classes →
      Step host s (s.withObjects (s.objects.addApi binding).2)
  | addSpi {s : State σ} {binding : ClassBinding} (handler : Nat) :
      binding ∈ host.loaded.bindings.classes →
      Step host s (s.withObjects (s.objects.addSpi binding handler).2)
  | addHandler {s : State σ} (handler : Handler) :
      Step host s (s.withObjects (s.objects.addHandler handler).2)
  | letGo {s : State σ} (handler : Nat) : Step host s (s.withObjects (s.objects.letGo handler))
  /-- The handler that a bridge is made for is the one of its Spi object. -/
  | register {s : State σ} {api spi : Nat} {a : Api} {p : Spi} {handler : Handler}
      (accepted : Bool) (native : σ) : s.objects.apis[api]? = some a → a.released = false →
      s.objects.spis[spi]? = some p → s.handler? p.handler = some handler →
      Step host s (s.registered api spi p handler accepted native)
  | enter {s : State σ} {api : Nat} {a : Api} {entry : Entry} : entry.instance? = some api →
      entry ≠ .release api → s.objects.apis[api]? = some a → a.released = false →
      Step host s (s.logged (.entered entry))
  | release {s : State σ} {api : Nat} {a : Api} : s.objects.apis[api]? = some a →
      a.released = false →
      Step host s ((s.withObjects (s.objects.close api)).logged (.entered (.release api)))

/-- A session evolves; scripting code begins only in states that allow it. -/
inductive Evolves (host : Host σ) (allowed : State σ → Prop) : State σ → State σ → Prop where
  | refl {s : State σ} : Evolves host allowed s s
  | step {s t u : State σ} : Evolves host allowed s t → Step host t u → Evolves host allowed s u
  | turn {s t u : State σ} {activity : Activity} {handler : Option Nat} :
      Evolves host allowed s t → allowed t → t.Permits activity →
      Evolves host allowed (t.begun activity handler) u →
      Evolves host allowed s (u.ended t activity)

variable {host : Host σ} {allowed : State σ → Prop} {s t u : State σ}

theorem Evolves.trans (h : Evolves host allowed s t) (hNext : Evolves host allowed t u) :
    Evolves host allowed s u := by
  induction hNext with
  | refl => exact h
  | step _ hStep ih => exact (ih h).step hStep
  | turn _ hAllowed hPermits hTurn ih _ => exact (ih h).turn hAllowed hPermits hTurn

theorem Evolves.single (h : Step host s t) : Evolves host allowed s t :=
  Evolves.refl.step h

theorem Evolves.objects_induct (holds : Registry → Prop) (h : Evolves host allowed s t)
    (hStep : ∀ {s s'}, Step host s s' → holds s.objects → holds s'.objects)
    (hStart : holds s.objects) : holds t.objects := by
  induction h with
  | refl => exact hStart
  | step _ hLast ih => exact hStep hLast (ih hStart)
  | turn _ _ _ _ ih ihTurn => exact ihTurn (ih hStart)

theorem Step.log (h : Step host s t) : t.inside = s.inside ∧
    (t.log = s.log ∨ ∃ event, event.isTurn = false ∧ t.log = s.log ++ [event]) := by
  cases h with
  | aside _ hLog hInside _ => exact ⟨hInside, .inl hLog⟩
  | event _ hTurn => exact ⟨rfl, .inr ⟨_, hTurn, rfl⟩⟩
  | addApi | addSpi | addHandler | letGo => exact ⟨rfl, .inl rfl⟩
  | register | enter | release => exact ⟨rfl, .inr ⟨_, rfl, rfl⟩⟩

theorem Evolves.log_quiet (h : Evolves host (fun _ => False) s t) :
    ∃ added, t.log = s.log ++ added ∧ ∀ event ∈ added, event.isTurn = false := by
  induction h with
  | refl => exact ⟨[], by simp, by simp⟩
  | step _ hStep ih =>
    obtain ⟨added, hAdded, hQuiet⟩ := ih
    obtain ⟨-, hLog | ⟨event, hTurn, hLog⟩⟩ := hStep.log
    · exact ⟨added, hLog.trans hAdded, hQuiet⟩
    · refine ⟨added ++ [event], by rw [hLog, hAdded, List.append_assoc], ?_⟩
      exact List.forall_mem_append.mpr ⟨hQuiet, List.forall_mem_singleton.mpr hTurn⟩
  | turn _ hAllowed => exact hAllowed.elim

theorem Step.move (h : Step host s t) : Move s t := by
  cases h with
  | aside hObjects hLog => exact .aside hObjects hLog
  | @event event hEnters hTurn =>
    refine .event hEnters ?_
    cases event with
    | began activity => cases hTurn
    | _ => rfl
  | addApi => exact .addApi _
  | addSpi handler => exact .addSpi _ handler
  | addHandler handler => exact .addHandler handler
  | letGo handler => exact .letGo handler
  | register accepted native hApi hLive hSpi => exact .register _ accepted native hApi hLive hSpi
  | enter hEntry hOther hApi hLive => exact .enter hEntry hOther hApi hLive
  | release hApi hLive => exact .release hApi hLive

theorem State.Permits.move {activity : Activity} (h : s.Permits activity) :
    Move s (s.logged (.began activity)) := by
  cases activity with
  | host => exact .event rfl rfl
  | handler bridge hook =>
    obtain ⟨b, hLive⟩ := h
    exact .begin hook hLive

theorem Evolves.moves (h : Evolves host allowed s t) : Moves s t := by
  induction h with
  | refl => exact .refl
  | step _ hStep ih => exact ih.tail hStep.move
  | @turn _ t u activity handler _ _ hPermits _ ih ihTurn =>
    -- Moves tell the event of a turn from the change of the flag, so each end of it is two moves.
    have hBegun : Moves t (t.begun activity handler) :=
      (Relation.ReflTransGen.single hPermits.move).tail (.aside rfl rfl)
    have hEnded : Moves u (u.ended t activity) :=
      (Relation.ReflTransGen.single (.aside rfl rfl)).tail (.event rfl rfl)
    exact ih.trans (hBegun.trans (ihTurn.trans hEnded))

/-! Actions by which a session evolves. -/

/-- From a state, an action evolves to a state and a result of which the condition holds. -/
def Leads {α : Type} (host : Host σ) (allowed : State σ → Prop) (s : State σ)
    (action : SessionM σ α) (post : α → State σ → Prop) : Prop :=
  Evolves host allowed s (action.run s).2 ∧ post (action.run s).1 (action.run s).2

def Evolving {α : Type} (host : Host σ) (allowed : State σ → Prop) (action : SessionM σ α) : Prop :=
  ∀ s, Evolves host allowed s (action.run s).2

section Rules

variable {α β ε : Type}

theorem leads_of_evolving {action : SessionM σ α} (h : Evolving host allowed action) :
    Leads host allowed s action fun _ _ => True :=
  ⟨h s, trivial⟩

theorem evolving_of_leads {action : SessionM σ α}
    (h : ∀ s, Leads host allowed s action fun _ _ => True) : Evolving host allowed action :=
  fun s => (h s).1

theorem leads_bind {action : SessionM σ α} {next : α → SessionM σ β} {post : β → State σ → Prop}
    (h : Leads host allowed s action fun a s' => Leads host allowed s' (next a) post) :
    Leads host allowed s (action >>= next) post :=
  ⟨h.1.trans h.2.1, h.2.2⟩

theorem leads_then {action : SessionM σ α} {next : α → SessionM σ β}
    {mid : α → State σ → Prop} {post : β → State σ → Prop} (h : Leads host allowed s action mid)
    (hNext : ∀ a t, mid a t → Leads host allowed t (next a) post) :
    Leads host allowed s (action >>= next) post :=
  leads_bind ⟨h.1, hNext _ _ h.2⟩

theorem leads_get {next : State σ → SessionM σ β} {post : β → State σ → Prop}
    (h : Leads host allowed s (next s) post) : Leads host allowed s (get >>= next) post :=
  h

theorem leads_pure {a : α} {post : α → State σ → Prop} (h : post a s) :
    Leads host allowed s (pure a : SessionM σ α) post :=
  ⟨.refl, h⟩

theorem evolving_pure (a : α) : Evolving host allowed (pure a : SessionM σ α) :=
  fun _ => .refl

theorem evolving_bind {action : SessionM σ α} {next : α → SessionM σ β}
    (h : Evolving host allowed action) (hNext : ∀ a, Evolving host allowed (next a)) :
    Evolving host allowed (action >>= next) :=
  fun s => (h s).trans (hNext _ _)

theorem evolving_get {next : State σ → SessionM σ β} (h : ∀ s, Evolving host allowed (next s)) :
    Evolving host allowed (get >>= next) :=
  fun s => h s s

theorem evolving_modify {change : State σ → State σ} (h : ∀ s, Step host s (change s)) :
    Evolving host allowed (modify change : SessionM σ PUnit) :=
  fun s => .single (h s)

theorem evolving_map {action : SessionM σ α} (h : Evolving host allowed action) (f : α → β) :
    Evolving host allowed (f <$> action) :=
  fun s => h s

/-! The same rules for actions that may fail. -/

theorem evolving_callBind {action : ExceptT ε (SessionM σ) α}
    {next : α → ExceptT ε (SessionM σ) β} (h : Evolving host allowed action.run)
    (hNext : ∀ a, Evolving host allowed (next a).run) :
    Evolving host allowed (action >>= next).run := by
  rw [ExceptT.run_bind]
  refine evolving_bind h fun result => ?_
  cases result with
  | ok a => exact hNext a
  | error e => exact evolving_pure _

theorem evolving_callGet {next : State σ → ExceptT ε (SessionM σ) β}
    (h : ∀ s, Evolving host allowed (next s).run) : Evolving host allowed (get >>= next).run :=
  fun s => h s s

theorem evolving_callPure (a : α) :
    Evolving host allowed (pure a : ExceptT ε (SessionM σ) α).run :=
  evolving_pure _

theorem evolving_callThrow (e : ε) :
    Evolving host allowed (throw e : ExceptT ε (SessionM σ) α).run :=
  evolving_pure _

theorem evolving_callLift {action : SessionM σ α} (h : Evolving host allowed action) :
    Evolving host allowed (liftM action : ExceptT ε (SessionM σ) α).run :=
  evolving_map h _

theorem evolving_callResult {result : Except ε α} {next : α → ExceptT ε (SessionM σ) β}
    (h : ∀ a, result = .ok a → Evolving host allowed (next a).run) :
    Evolving host allowed (liftM result >>= next).run := by
  cases result with
  | ok a => exact h a rfl
  | error e => exact evolving_pure _

theorem leads_callGet {next : State σ → ExceptT ε (SessionM σ) β}
    {post : Except ε β → State σ → Prop} (h : Leads host allowed s (next s).run post) :
    Leads host allowed s (get >>= next).run post :=
  h

theorem leads_callLift {action : SessionM σ α} {post : Except ε α → State σ → Prop}
    (h : Leads host allowed s action fun a s' => post (.ok a) s') :
    Leads host allowed s (liftM action : ExceptT ε (SessionM σ) α).run post :=
  h

theorem leads_callBind {action : ExceptT ε (SessionM σ) α} {next : α → ExceptT ε (SessionM σ) β}
    {post : Except ε β → State σ → Prop}
    (h : Leads host allowed s action.run fun result s' =>
      match result with
      | .ok a => Leads host allowed s' (next a).run post
      | .error e => post (.error e) s') :
    Leads host allowed s (action >>= next).run post := by
  rw [ExceptT.run_bind]
  refine leads_bind ⟨h.1, ?_⟩
  have hPost := h.2
  revert hPost
  generalize (action.run.run s).1 = result
  cases result with
  | ok a => exact id
  | error e => exact fun hPost => leads_pure hPost

theorem leads_callResult {result : Except ε α} {next : α → ExceptT ε (SessionM σ) β}
    {post : Except ε β → State σ → Prop}
    (h : ∀ a, result = .ok a → Leads host allowed s (next a).run post)
    (hError : ∀ e, post (.error e) s) : Leads host allowed s (liftM result >>= next).run post := by
  cases result with
  | ok a => exact h a rfl
  | error e => exact leads_pure (hError e)

end Rules

end NativeBinding.Session
