import NativeBinding.Proofs.Session.OneThread

/-! # Scripting code never nests

On one thread at most one script runs at any moment. The log tells which: what has begun and not
ended. The flag of the session agrees with it, so that a callback or an entry of the host that comes
while a script runs is turned away.
-/

set_option autoImplicit false

namespace NativeBinding.Session

variable {σ : Type} {host : Host σ} {s t : State σ}

/-- The scripting code that runs after an event, innermost first. -/
def Event.activate (active : List Activity) : Event → List Activity
  | .began activity => activity :: active
  | .ended activity => active.erase activity
  | _ => active

def active (log : List Event) : List Activity :=
  log.foldl Event.activate []

theorem active_concat (log : List Event) (event : Event) :
    active (log ++ [event]) = event.activate (active log) := by
  simp [active]

theorem Event.activate_of_not_turn {event : Event} (h : event.isTurn = false)
    (running : List Activity) : event.activate running = running := by
  cases event with
  | began activity | ended activity => cases h
  | _ => rfl

/-- The log never had two scripts running, and the flag tells whether it has one now. -/
structure Flagged (s : State σ) : Prop where
  single : ∀ before, before <+: s.log → (active before).length ≤ 1
  outside : s.inside = false → active s.log = []
  inside : s.inside = true → ∃ activity, active s.log = [activity]

namespace Flagged

theorem start (native : σ) : Flagged { native : State σ } where
  single before hBefore := by simp [List.prefix_nil.mp hBefore, active]
  outside _ := rfl
  inside := nofun

theorem logged (h : Flagged s) {event : Event} (hLog : t.log = s.log ++ [event])
    (hOutside : t.inside = false → event.activate (active s.log) = [])
    (hInside : t.inside = true → ∃ activity, event.activate (active s.log) = [activity]) :
    Flagged t where
  single before hBefore := by
    rw [hLog] at hBefore
    rcases List.prefix_concat_iff.mp hBefore with rfl | hOld
    · rw [active_concat]
      cases hFlag : t.inside with
      | false => simp [hOutside hFlag]
      | true =>
        obtain ⟨activity, hActive⟩ := hInside hFlag
        simp [hActive]
    · exact h.single before hOld
  outside hFlag := by rw [hLog, active_concat, hOutside hFlag]
  inside hFlag := by rw [hLog, active_concat]; exact hInside hFlag

theorem same (h : Flagged s) (hLog : t.log = s.log) (hInside : t.inside = s.inside) :
    Flagged t where
  single := hLog ▸ h.single
  outside := hLog ▸ hInside ▸ h.outside
  inside := hLog ▸ hInside ▸ h.inside

theorem begun (h : Flagged s) (hOutside : s.Outside) (activity : Activity) (handler : Option Nat) :
    Flagged (s.begun activity handler) :=
  h.logged rfl nofun fun _ => ⟨activity, by rw [h.outside hOutside]; rfl⟩

end Flagged

theorem Step.flagged (h : Step host s t) (hFlagged : Flagged s) :
    Flagged t ∧ active t.log = active s.log := by
  obtain ⟨hInside, hLog | ⟨event, hTurn, hLog⟩⟩ := h.log
  · exact ⟨hFlagged.same hLog hInside, by rw [hLog]⟩
  · have hActive := Event.activate_of_not_turn hTurn (active s.log)
    refine ⟨hFlagged.logged hLog ?_ ?_, by rw [hLog, active_concat, hActive]⟩
    · rw [hInside, hActive]
      exact hFlagged.outside
    · rw [hInside, hActive]
      exact hFlagged.inside

theorem Evolves.flagged (h : Evolves host State.Outside s t) (hFlagged : Flagged s) :
    Flagged t ∧ active t.log = active s.log := by
  induction h with
  | refl => exact ⟨hFlagged, rfl⟩
  | step _ hStep ih =>
    obtain ⟨hMid, hMidActive⟩ := ih hFlagged
    obtain ⟨hLast, hActive⟩ := hStep.flagged hMid
    exact ⟨hLast, hActive.trans hMidActive⟩
  | @turn s t u activity handler _ hOutside _ _ ih ihTurn =>
    -- Nothing runs where the script begins, so inside it runs alone, and it has ended afterwards.
    obtain ⟨hBefore, hBeforeActive⟩ := ih hFlagged
    have hNone : active t.log = [] := hBefore.outside hOutside
    obtain ⟨hDuring, hDuringActive⟩ := ihTurn (hBefore.begun hOutside activity handler)
    have hOnly : active u.log = [activity] := by
      rw [hDuringActive, State.begun, State.logged, active_concat, hNone]
      rfl
    have hEnded : (Event.ended activity).activate (active u.log) = [] := by
      simp [Event.activate, hOnly]
    have hBack : (u.ended t activity).inside = false := hOutside
    refine ⟨hDuring.logged rfl (fun _ => hEnded) fun hInside => ?_, ?_⟩
    · rw [hBack] at hInside
      cases hInside
    · rw [State.ended, State.logged, active_concat, hEnded, ← hBeforeActive, hNone]

theorem Arises.flagged (h : Arises host s) : Flagged s :=
  h.induct Flagged Flagged.start (fun hEvolves hFlagged => (hEvolves.flagged hFlagged).1)
    fun handler hOutside hFlagged => hFlagged.begun hOutside _ handler

section Reentrant

variable {m : Marshaler} {bridge : Nat} {b : Bridge} {hook : String} {slot : OverrideSlot}
  {args : List NativeArg}

end Reentrant

end NativeBinding.Session
