import NativeBinding.Project.Arguments
import NativeBinding.Proofs.Success

/-! # Values of arguments

Every value that is read from arguments belongs to an option of the command that accepts it, so the
output directory of a call is never the empty path.
-/

set_option autoImplicit false

namespace NativeBinding.Project

namespace Arguments

variable {options : List OptionSpec} {o : OptionSpec} {m m' : Found} {waiting : Option OptionSpec}

def Found.Accepted (m : Found) (options : List OptionSpec) : Prop :=
  ∀ v ∈ m.values, ∃ o ∈ options, o.long = v.1 ∧ o.accepts v.2 = true

theorem accepted_give {value : String} (h : m.Accepted options) (ho : o ∈ options)
    (hGive : m.give o value = .ok m') : m'.Accepted options := by
  unfold Found.give at hGive
  split at hGive
  · cases hGive
  · rename_i hGood
    cases hGive
    rw [Bool.or_eq_true, not_or] at hGood
    intro v hv
    rcases List.mem_append.mp hv with hOld | hNew
    · exact h v hOld
    · rw [List.mem_singleton.mp hNew]
      exact ⟨o, ho, rfl, by simpa using hGood.1⟩

theorem values_switchOn (h : m.switchOn o = .ok m') : m'.values = m.values := by
  unfold Found.switchOn at h
  split at h
  all_goals first
    | cases h; done
    | (cases h; rfl)
    | (split at h <;> cases h; rfl)

theorem values_takePositional {path : String} (h : m.takePositional path = .ok m') :
    m'.values = m.values := by
  unfold Found.takePositional at h
  split at h <;> cases h
  rfl

theorem values_takePositionals {paths : List String}
    (h : paths.foldlM Found.takePositional m = .ok m') : m'.values = m.values := by
  induction paths generalizing m with
  | nil =>
    cases h
    rfl
  | cons path paths ih =>
    rw [List.foldlM_cons] at h
    obtain ⟨middle, hFirst, hRest⟩ := bind_eq_ok_iff.mp h
    rw [ih hRest, values_takePositional hFirst]

/-- What is left of an argument: values that were accepted, and an option that waits for one. -/
def Open (options : List OptionSpec) (waiting : Option OptionSpec) (m : Found) : Prop :=
  m.Accepted options ∧ ∀ o, waiting = some o → o ∈ options

theorem open_none (h : m.Accepted options) : Open options none m :=
  ⟨h, nofun⟩

theorem open_longOption {body : List Char} (h : m.Accepted options)
    (hRead : longOption options m body = .ok (waiting, m')) : Open options waiting m' := by
  unfold longOption at hRead
  dsimp only at hRead
  split at hRead
  · cases hRead
  · rename_i o hFind
    have ho := List.mem_of_find?_eq_some hFind
    split at hRead
    · split at hRead
      · obtain ⟨given, hGive, hEq⟩ := map_eq_ok_iff.mp hRead
        cases hEq
        exact open_none (accepted_give h ho hGive)
      · cases hRead
    · split at hRead
      · cases hRead
        exact ⟨h, fun _ hSame => Option.some.inj hSame ▸ ho⟩
      · obtain ⟨switched, hSwitch, hEq⟩ := map_eq_ok_iff.mp hRead
        cases hEq
        apply open_none
        rwa [Found.Accepted, values_switchOn hSwitch]

theorem open_shortOptions {body : List Char} (h : m.Accepted options)
    (hRead : shortOptions options m body = .ok (waiting, m')) : Open options waiting m' := by
  induction body generalizing m with
  | nil =>
    cases hRead
    exact ⟨h, nofun⟩
  | cons c body ih =>
    unfold shortOptions at hRead
    split at hRead
    · cases hRead
    · rename_i o hFind
      have ho := List.mem_of_find?_eq_some hFind
      split at hRead
      · split at hRead
        · cases hRead
          exact ⟨h, fun _ hSame => Option.some.inj hSame ▸ ho⟩
        all_goals
          obtain ⟨given, hGive, hEq⟩ := map_eq_ok_iff.mp hRead
          cases hEq
          exact open_none (accepted_give h ho hGive)
      · split at hRead
        · rename_i switched hSwitch
          refine ih ?_ hRead
          rwa [Found.Accepted, values_switchOn hSwitch]
        · cases hRead

theorem accepted_scan {arguments : List String} (h : Open options waiting m)
    (hScan : scan options waiting m arguments = .ok m') : m'.Accepted options := by
  induction arguments generalizing waiting m with
  | nil =>
    cases waiting with
    | none =>
      cases hScan
      exact h.1
    | some o => cases hScan
  | cons argument arguments ih =>
    cases waiting with
    | some o =>
      unfold scan at hScan
      split at hScan
      · cases hScan
      · split at hScan
        · rename_i given hGive
          exact ih (open_none (accepted_give h.1 (h.2 o rfl) hGive)) hScan
        · cases hScan
    | none =>
      unfold scan at hScan
      split at hScan
      · rw [Found.Accepted, values_takePositionals hScan]
        exact h.1
      · split at hScan
        · rename_i hLong
          exact ih (open_longOption h.1 hLong) hScan
        · cases hScan
      · split at hScan
        · rename_i hShort
          exact ih (open_shortOptions h.1 hShort) hScan
        · cases hScan
      · split at hScan
        · rename_i taken hTake
          refine ih (open_none ?_) hScan
          rw [Found.Accepted, values_takePositional hTake]
          exact h.1
        · cases hScan

variable {given : Option String} {changed : Overrides}

theorem answer_eq_run {help : String} {command : Found → Command} {c : Command}
    {result : Except Stop Found} (h : answer help command result = some (.run c)) :
    ∃ m, result = .ok m ∧ command m = c := by
  cases result with
  | ok m =>
    cases h
    exact ⟨m, rfl, rfl⟩
  | error stop => cases stop <;> cases h

theorem read_generate {arguments : List String}
    (h : read m arguments = some (.run (.generate given changed))) :
    ∃ rest found, scan generateOptions none {} rest = .ok found ∧ overrides found = changed := by
  induction arguments generalizing m with
  | nil => cases h
  | cons argument rest ih =>
    unfold read at h
    split at h
    · obtain ⟨found, hScan, hEq⟩ := answer_eq_run h
      cases hEq
      exact ⟨rest, found, hScan, rfl⟩
    · obtain ⟨found, -, hEq⟩ := answer_eq_run h
      cases hEq
    · obtain ⟨found, -, hEq⟩ := answer_eq_run h
      cases hEq
    · obtain ⟨help, -, hEq⟩ := Option.map_eq_some_iff.mp h
      cases hEq
    · dsimp only at h
      split at h
      · exact ih h
      all_goals cases h

end Arguments

open Arguments

theorem output_ne_empty {arguments : List String} {given : Option String} {changed : Overrides}
    (h : Invocation.ofArguments? arguments = some (.run (.generate given changed))) :
    changed.output ≠ some "" := by
  obtain ⟨rest, found, hScan, rfl⟩ := read_generate h
  have hOpen : Open generateOptions none {} := open_none (List.forall_mem_nil _)
  intro hOutput
  obtain ⟨v, hFind, hValue⟩ := Option.map_eq_some_iff.mp hOutput
  obtain ⟨o, ho, hLong, hAccepts⟩ :=
    accepted_scan hOpen hScan v (List.mem_of_find?_eq_some hFind)
  have hName : v.1 = "output" := by simpa using List.find?_some hFind
  have hRefuses : ∀ o ∈ generateOptions, o.long = "output" → o.accepts "" = false := by decide
  rw [hValue, hRefuses o ho (hLong.trans hName)] at hAccepts
  cases hAccepts

end NativeBinding.Project
