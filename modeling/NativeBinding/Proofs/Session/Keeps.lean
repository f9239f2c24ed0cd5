import NativeBinding.Proofs.Success
import NativeBinding.Session.State

/-! # Actions that keep an invariant

An action keeps an invariant of the state and ends with a result of which a condition holds. The
rules follow the ways in which actions are put together.
-/

set_option autoImplicit false

namespace NativeBinding.Session

variable {σ α β ε : Type} {inv : State σ → Prop}

def Keeps (inv : State σ → Prop) (action : SessionM σ α) (post : α → Prop) : Prop :=
  ∀ s, inv s → inv (action.run s).2 ∧ post (action.run s).1

theorem keeps_mono {action : SessionM σ α} {post post' : α → Prop} (h : Keeps inv action post)
    (hPost : ∀ a, post a → post' a) : Keeps inv action post' := by
  intro s hs
  obtain ⟨hKept, hResult⟩ := h s hs
  exact ⟨hKept, hPost _ hResult⟩

theorem keeps_pure {a : α} {post : α → Prop} (h : post a) : Keeps inv (pure a) post :=
  fun _ hs => ⟨hs, h⟩

theorem keeps_bind {action : SessionM σ α} {next : α → SessionM σ β} {mid : α → Prop}
    {post : β → Prop} (h : Keeps inv action mid) (hNext : ∀ a, mid a → Keeps inv (next a) post) :
    Keeps inv (action >>= next) post := by
  intro s hs
  obtain ⟨hKept, hMid⟩ := h s hs
  exact hNext _ hMid _ hKept

theorem keeps_map {action : SessionM σ α} {f : α → β} {post : β → Prop}
    (h : Keeps inv action fun a => post (f a)) : Keeps inv (f <$> action) post :=
  fun s hs => h s hs

theorem keeps_get {next : State σ → SessionM σ β} {post : β → Prop}
    (h : ∀ s, inv s → Keeps inv (next s) post) : Keeps inv (get >>= next) post :=
  fun s hs => h s hs s hs

theorem keeps_modify {change : State σ → State σ} (h : ∀ s, inv s → inv (change s)) :
    Keeps inv (modify change : SessionM σ PUnit) fun _ => True :=
  fun s hs => ⟨h s hs, trivial⟩

section Calls

variable {good : α → Prop} {better : β → Prop} {cause : ε → Prop}

theorem keeps_callPure {a : α} (h : good a) :
    Keeps inv (pure a : ExceptT ε (SessionM σ) α).run (Yields good cause) :=
  keeps_pure h

theorem keeps_callThrow {e : ε} (h : cause e) :
    Keeps inv (throw e : ExceptT ε (SessionM σ) α).run (Yields good cause) :=
  keeps_pure h

theorem keeps_callLift {action : SessionM σ α} (h : Keeps inv action good) :
    Keeps inv (liftM action : ExceptT ε (SessionM σ) α).run (Yields good cause) :=
  keeps_map h

theorem keeps_callResult {result : Except ε α} (h : Yields good cause result) :
    Keeps inv (liftM result : ExceptT ε (SessionM σ) α).run (Yields good cause) :=
  keeps_pure h

theorem keeps_callGet {next : State σ → ExceptT ε (SessionM σ) β}
    (h : ∀ s, inv s → Keeps inv (next s).run (Yields better cause)) :
    Keeps inv (get >>= next).run (Yields better cause) :=
  fun s hs => h s hs s hs

theorem keeps_callBind {action : ExceptT ε (SessionM σ) α} {next : α → ExceptT ε (SessionM σ) β}
    (h : Keeps inv action.run (Yields good cause))
    (hNext : ∀ a, good a → Keeps inv (next a).run (Yields better cause)) :
    Keeps inv (action >>= next).run (Yields better cause) := by
  rw [ExceptT.run_bind]
  refine keeps_bind h fun result hResult => ?_
  cases result with
  | ok a => exact hNext a hResult
  | error e => exact keeps_pure hResult

end Calls

end NativeBinding.Session
