import NativeBinding.Proofs.Model.Encoding
import NativeBinding.Proofs.Session.Generated

/-! # A fingerprint stands for one model

A fingerprint is a digest of the document form, which no two models share. A module therefore loads
with the model it was generated from and with no other, unless the digests of two different texts
collide.
-/

set_option autoImplicit false

namespace NativeBinding.Session

variable {model model' : Model} {m : Module}

theorem LoadedModule.load_of_mismatch (h : m.modelFingerprint ≠ model.fingerprint) :
    LoadedModule.load m model = .error (.modelMismatch m.modelFingerprint model.fingerprint) := by
  simp [load, h, throw, throwThe, MonadExceptOf.throw, bind, Except.bind]

/-- Two models have one text exactly when they are the same; and if the digest keeps their texts
apart, a module of the first loads with the second exactly when they are the same. -/
theorem fingerprint_identifies (hModel : model.Constructed) (hModel' : model'.Constructed) :
    (model.toJson.compact = model'.toJson.compact ↔ model = model') ∧
    ((Digest.Sha256.ofText model.toJson.compact = Digest.Sha256.ofText model'.toJson.compact →
        model.toJson.compact = model'.toJson.compact) →
      ∀ options m, Module.generate model options = .ok m →
        ((∃ l, LoadedModule.load m model' = .ok l) ↔ model = model') ∧
        (LoadedModule.load m model' =
            .error (.modelMismatch model.fingerprint model'.fingerprint) ↔ model ≠ model')) := by
  have hText := hModel.accepted.compact_inj hModel'.accepted
  refine ⟨hText, fun hApart options m hGenerated => ?_⟩
  obtain ⟨l, hLoad, -⟩ := LoadedModule.load_of_generate hModel.accepted hGenerated
  by_cases hSame : model = model'
  · subst hSame
    refine ⟨iff_of_true ⟨l, hLoad⟩ rfl, iff_of_false ?_ (not_not_intro rfl)⟩
    rw [hLoad]
    exact nofun
  · obtain ⟨_, _, -, -, -, -, hFingerprint⟩ := Module.generate_eq_ok hGenerated
    have hMismatch : m.modelFingerprint ≠ model'.fingerprint := by
      rw [hFingerprint]
      exact fun hDigest => hSame (hText.mp (hApart hDigest))
    have hRefused := LoadedModule.load_of_mismatch hMismatch
    rw [hFingerprint] at hRefused
    rw [hRefused]
    exact ⟨iff_of_false (fun ⟨_, h⟩ => nomatch h) hSame, iff_of_true rfl hSame⟩

def sampleBare (version : Option String) : Model where
  library := { name := "s", version }

def sampleBareBindings : Module where
  name := "s"
  library := { name := "s" }
  modelFingerprint := (sampleBare none).fingerprint
  records := []
  classes := []
  constants := []

theorem generate_sampleBare :
    Module.generate (sampleBare none) { moduleName := some "s" } = .ok sampleBareBindings := by
  have hNew : Model.new { name := "s" } [] [] = .ok (sampleBare none) := rfl
  rw [Module.generate_of_accepted (.new hNew)]
  rfl

/-- A module of the library without a version loads with it, and not with an empty version. -/
theorem fingerprint_identifies_version :
    (sampleBare none).toJson.compact ≠ (sampleBare (some "")).toJson.compact ∧
      Module.generate (sampleBare none) { moduleName := some "s" } = .ok sampleBareBindings ∧
      (∃ l, LoadedModule.load sampleBareBindings (sampleBare none) = .ok l) ∧
      LoadedModule.load sampleBareBindings (sampleBare (some "")) = .error (.modelMismatch
        (sampleBare none).fingerprint (sampleBare (some "")).fingerprint) := by
  have hNew (version : Option String) : (sampleBare version).Constructed :=
    .new (show Model.new { name := "s", version } [] [] = .ok (sampleBare version) from rfl)
  have hDigests : Digest.Sha256.ofText (sampleBare none).toJson.compact ≠
      Digest.Sha256.ofText (sampleBare (some "")).toJson.compact := by decide +kernel
  have hDifferent : sampleBare none ≠ sampleBare (some "") := by decide
  obtain ⟨-, hSelf⟩ := fingerprint_identifies (hNew none) (hNew none)
  obtain ⟨hText, hOther⟩ := fingerprint_identifies (hNew none) (hNew (some ""))
  exact ⟨fun hSame => hDifferent (hText.mp hSame), generate_sampleBare,
    (hSelf (fun _ => rfl) _ _ generate_sampleBare).1.mpr rfl,
    (hOther (fun hDigest => absurd hDigest hDigests) _ _ generate_sampleBare).2.mpr hDifferent⟩

end NativeBinding.Session
