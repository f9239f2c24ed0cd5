import NativeBinding.Proofs.Session.Reachable
import NativeBinding.Session.Rehearsal

/-! # Registrations of a session

In every reachable state a live bridge is the active one of its Spi object and the current one of an
instance that is not released, so that neither has two.
-/

set_option autoImplicit false

namespace NativeBinding.Session

variable {σ : Type} {host : Host σ} {s s' : State σ}

theorem consistent_registered (h : s.objects.Consistent) {api spi : Nat} {a : Api} {p : Spi}
    (hApi : s.objects.apis[api]? = some a) (hLive : a.released = false)
    (hSpi : s.objects.spis[spi]? = some p) (handler : Handler) (accepted : Bool) (native : σ) :
    (s.registered api spi p handler accepted native).objects.Consistent := by
  cases accepted with
  | true => exact h.accepted hApi hLive hSpi handler
  | false => exact h.refused handler

theorem Move.consistent (hMove : Move s s') (h : s.objects.Consistent) : s'.objects.Consistent := by
  cases hMove with
  | aside hObjects hLog => exact hObjects ▸ h
  | event hEnters hBegins => exact h
  | addApi binding => exact h.addApi binding
  | addSpi binding handler => exact h.addSpi binding handler
  | addHandler handler => exact h.addHandler handler
  | letGo handler => exact h.letGo handler
  | register handler accepted native hApi hLive hSpi =>
    exact consistent_registered h hApi hLive hSpi handler accepted native
  | enter hEntry hOther hApi hLive => exact h
  | release hApi hLive => exact h.close _
  | begin hook hLive => exact h

theorem Reachable.consistent (h : Reachable host s) : s.objects.Consistent :=
  h.induct (fun s => s.objects.Consistent) (fun _ => .empty) fun hMove => hMove.consistent

/-- A live bridge is named by its Spi object and by its instance, which is not released; no Spi
object and no instance has another live bridge. -/
theorem live_bridges_of_reachable (h : Reachable host s) {bridge : Nat} {b : Bridge}
    (hLive : s.objects.Live bridge b) :
    s.objects.activeBridge? b.spi = some bridge ∧
      (∃ a, s.objects.apis[b.api]? = some a ∧ a.bridge = some bridge ∧ a.released = false) ∧
      ∀ other b', s.objects.Live other b' → b'.spi = b.spi ∨ b'.api = b.api → other = bridge := by
  have hConsistent := h.consistent
  refine ⟨?_, hConsistent.current hLive, fun other b' hOther hSame => ?_⟩
  · obtain ⟨p, hSpi, hActive⟩ := hConsistent.active hLive
    have hIsLive : s.objects.isLive bridge = true := Registry.isLive_iff.mpr ⟨b, hLive⟩
    simp [Registry.activeBridge?, hSpi, hActive, hIsLive]
  · rcases hSame with hSame | hSame
    · exact hConsistent.eq_of_spi hOther hLive hSame
    · exact hConsistent.eq_of_api hOther hLive hSame

def sampleHost : Host Rehearsal where
  loaded :=
    { bindings :=
        { name := "sample"
          library := { name := "sample" }
          modelFingerprint := ""
          records := []
          classes :=
            [{ className := "Api"
               exposedName := "Api"
               isInterface := false
               constructors := [⟨"Create", .constructor, [], .object "Api", .object "Api"⟩]
               methods :=
                 [⟨"RegisterSpi", .register "Spi", [], .void, .nothing⟩,
                   ⟨"Release", .release, [], .void, .nothing⟩] },
              { className := "Spi"
                exposedName := "Spi"
                isInterface := true
                overrides := [⟨"OnEvent", [], .scalar .i32, .direct .i32, false⟩] }]
          constants := [] }
      marshaler := ⟨{ library := { name := "sample" } }, {}⟩ }
  library := Rehearsal.library

def sampleHandler : Handler :=
  ⟨"Listener", [("OnEvent", fun _ => .done (.int 5))]⟩

def sampleRegistered : State Rehearsal :=
  let operations : List (Operation Rehearsal) :=
    [.construct "api" "Api" "Create" [], .nameHandler "handler" sampleHandler,
      .nameSpi "spi" "Spi" "handler", .register 0 0]
  operations.foldl (fun s operation => ((operation.perform sampleHost).run s).2)
    { native := { release := [{ fires := [⟨"OnEvent", []⟩] }] } }

theorem sampleRegistered_reachable : Reachable sampleHost sampleRegistered :=
  (((Reachable.start _).operate _).operate _ |>.operate _).operate _

theorem live_bridges_sample : ∃ b, sampleRegistered.objects.Live 0 b ∧
    sampleRegistered.objects.activeBridge? b.spi = some 0 ∧
    (∃ a, sampleRegistered.objects.apis[b.api]? = some a ∧ a.bridge = some 0 ∧
      a.released = false) ∧
    ∀ other b', sampleRegistered.objects.Live other b' → b'.spi = b.spi ∨ b'.api = b.api →
      other = 0 := by
  have hIsLive : sampleRegistered.objects.isLive 0 = true := rfl
  obtain ⟨b, hLive⟩ := Registry.isLive_iff.mp hIsLive
  exact ⟨b, hLive, live_bridges_of_reachable sampleRegistered_reachable hLive⟩

end NativeBinding.Session
