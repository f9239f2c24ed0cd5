import NativeBinding.Proofs.Marshal.Conforming
import NativeBinding.Session.Arguments

/-! # Arguments that are passed

The values that stand for the parameters of a method, and the native arguments that come of them. A
value is the one that the script gives or else the declared default, if this is a literal. Arguments
are passed if there are not too many values, each parameter has one, and each can be carried.
-/

set_option autoImplicit false

namespace NativeBinding.Session

/-- The value that stands for a parameter in a call. -/
inductive Supplies (values : List Value) (i : Nat) (p : ParamBinding) : Value → Prop where
  | given {v : Value} : values[i]? = some v → Supplies values i p v
  | defaulted {spelling : String} {v : Value} : values[i]? = none → p.default = some spelling →
      defaultArgument? p.type spelling = some v → Supplies values i p v

/-- One native argument for each parameter, of the value that stands for it. -/
structure Passes (m : Marshaler) (callee : String) (params : List ParamBinding)
    (values : List Value) (native : List NativeArg) : Prop where
  atMost : values.length ≤ params.length
  arity : native.length = params.length
  supplied : ∀ i p arg, params[i]? = some p → native[i]? = some arg →
    ∃ v, Supplies values i p v ∧ m.toNative p.type v s!"{callee}({p.name})" = .ok arg

/-- What can be wrong with the values of a call. -/
inductive Unpassable (m : Marshaler) (callee : String) (params : List ParamBinding)
    (values : List Value) : Prop where
  | surplus : params.length < values.length → Unpassable m callee params values
  | missing {i : Nat} {p : ParamBinding} : params[i]? = some p → (∀ v, ¬ Supplies values i p v) →
      Unpassable m callee params values
  | unmarshaled {i : Nat} {p : ParamBinding} {v : Value} {e : MarshalError} :
      params[i]? = some p → Supplies values i p v →
      m.toNative p.type v s!"{callee}({p.name})" = .error e → Unpassable m callee params values

variable {m : Marshaler} {callee : String} {tooFew : CallError} {p : ParamBinding}
  {params : List ParamBinding} {values : List Value} {native : List NativeArg} {v : Value} {i : Nat}

theorem supplies_zero_iff :
    Supplies values 0 p v ↔
      values.head?.or (p.default.bind (defaultArgument? p.type)) = some v := by
  constructor
  · rintro (hGiven | ⟨hNone, hSpelled, hValue⟩)
    · simp [List.head?_eq_getElem?, hGiven]
    · simp [List.head?_eq_getElem?, hNone, hSpelled, hValue]
  · intro h
    rw [List.head?_eq_getElem?] at h
    cases hGiven : values[0]? with
    | some given =>
      rw [hGiven] at h
      exact .given (hGiven.trans h)
    | none =>
      rw [hGiven, Option.none_or] at h
      obtain ⟨spelling, hSpelled, hValue⟩ := Option.bind_eq_some_iff.mp h
      exact .defaulted hGiven hSpelled hValue

theorem supplies_succ_iff : Supplies values (i + 1) p v ↔ Supplies values.tail i p v := by
  have hTail : values.tail[i]? = values[i + 1]? := List.getElem?_tail ..
  constructor
  · rintro (hGiven | ⟨hNone, hSpelled, hValue⟩)
    · exact .given (hTail.trans hGiven)
    · exact .defaulted (hTail.trans hNone) hSpelled hValue
  · rintro (hGiven | ⟨hNone, hSpelled, hValue⟩)
    · exact .given (hTail.symm.trans hGiven)
    · exact .defaulted (hTail.symm.trans hNone) hSpelled hValue

theorem marshalArguments_cons_eq_ok_iff :
    marshalArguments m callee tooFew (p :: params) values = .ok native ↔
      ∃ v arg rest, Supplies values 0 p v ∧
        m.toNative p.type v s!"{callee}({p.name})" = .ok arg ∧
        marshalArguments m callee tooFew params values.tail = .ok rest ∧ native = arg :: rest := by
  rw [marshalArguments]
  simp only [supplies_zero_iff]
  cases values.head?.or (p.default.bind (defaultArgument? p.type)) with
  | none => simp [throw, throwThe, MonadExceptOf.throw]
  | some v =>
    simp only [bind_eq_ok_iff, Option.some.injEq, exists_and_left, exists_eq_left']
    constructor
    · rintro ⟨arg, hArg, rest, hRest, hEq⟩
      cases hTaken : m.toNative p.type v s!"{callee}({p.name})" with
      | error e => simp [hTaken, Except.mapError] at hArg
      | ok taken =>
        simp only [hTaken, Except.mapError, Except.ok.injEq] at hArg
        cases hEq
        exact ⟨taken, rfl, rest, hRest, by rw [hArg]⟩
    · rintro ⟨arg, hTaken, rest, hRest, rfl⟩
      exact ⟨arg, by rw [hTaken]; rfl, rest, hRest, rfl⟩

theorem marshalArguments_eq_ok_iff :
    marshalArguments m callee tooFew params values = .ok native ↔
      native.length = params.length ∧
        ∀ i p arg, params[i]? = some p → native[i]? = some arg →
          ∃ v, Supplies values i p v ∧ m.toNative p.type v s!"{callee}({p.name})" = .ok arg := by
  induction params generalizing values native with
  | nil => simp [marshalArguments, List.length_eq_zero_iff, eq_comm]
  | cons q params ih =>
    rw [marshalArguments_cons_eq_ok_iff]
    constructor
    · rintro ⟨v, arg, rest, hSupplied, hTaken, hRest, rfl⟩
      obtain ⟨hLength, hOthers⟩ := ih.mp hRest
      refine ⟨by simp [hLength], fun i p other hParam hArg => ?_⟩
      cases i with
      | zero =>
        cases hParam
        cases hArg
        exact ⟨v, hSupplied, hTaken⟩
      | succ i => simpa only [supplies_succ_iff] using hOthers i p other hParam hArg
    · rintro ⟨hLength, hAll⟩
      cases native with
      | nil => cases hLength
      | cons arg rest =>
        obtain ⟨v, hSupplied, hTaken⟩ := hAll 0 q arg rfl rfl
        refine ⟨v, arg, rest, hSupplied, hTaken, ih.mpr ⟨by simpa using hLength, ?_⟩, rfl⟩
        intro i p other hParam hArg
        simpa only [supplies_succ_iff] using hAll (i + 1) p other hParam hArg

theorem nativeArguments_eq_ok_iff {className method : String} :
    nativeArguments m className method params values = .ok native ↔
      Passes m s!"{className}::{method}" params values native := by
  unfold nativeArguments
  dsimp only
  split
  · rename_i hSurplus
    exact iff_of_false nofun fun h => absurd h.atMost (Nat.not_le.mpr hSurplus)
  · rename_i hMost
    rw [marshalArguments_eq_ok_iff]
    exact ⟨fun ⟨hArity, hSupplied⟩ => ⟨Nat.not_lt.mp hMost, hArity, hSupplied⟩,
      fun h => ⟨h.arity, h.supplied⟩⟩

theorem Supplies.unique {w : Value} (h : Supplies values i p v) (h' : Supplies values i p w) :
    v = w := by
  cases h with
  | given hv =>
    cases h' with
    | given hw => exact Option.some.inj (hv.symm.trans hw)
    | defaulted hNone => cases hv.symm.trans hNone
  | defaulted hNone hv hValue =>
    cases h' with
    | given hw => cases hw.symm.trans hNone
    | defaulted _ hw hValue' =>
      cases hv.symm.trans hw
      exact Option.some.inj (hValue.symm.trans hValue')

/-- Either there are native arguments for all parameters, or something is wrong with the values. -/
theorem unpassable_iff :
    Unpassable m callee params values ↔ ¬ ∃ native, Passes m callee params values native := by
  constructor
  · rintro h ⟨native, hPasses⟩
    have hArg {i : Nat} {p : ParamBinding} (hParam : params[i]? = some p) :
        ∃ v arg, Supplies values i p v ∧
          m.toNative p.type v s!"{callee}({p.name})" = .ok arg := by
      obtain ⟨hi, -⟩ := List.getElem?_eq_some_iff.mp hParam
      have hGet := List.getElem?_eq_getElem (hPasses.arity.symm ▸ hi)
      obtain ⟨v, hSupplied, hTaken⟩ := hPasses.supplied i p _ hParam hGet
      exact ⟨v, _, hSupplied, hTaken⟩
    cases h with
    | surplus h => exact absurd hPasses.atMost (Nat.not_le.mpr h)
    | missing hParam hNone =>
      obtain ⟨v, -, hSupplied, -⟩ := hArg hParam
      exact hNone v hSupplied
    | unmarshaled hParam hSupplied hFailed =>
      obtain ⟨v, arg, hOther, hTaken⟩ := hArg hParam
      rw [hSupplied.unique hOther, hTaken] at hFailed
      cases hFailed
  · intro hNot
    by_contra hFine
    have hMost : values.length ≤ params.length :=
      Nat.not_lt.mp fun hSurplus => hFine (.surplus hSurplus)
    have hEach : ∀ i (hi : i < params.length), ∃ arg v, Supplies values i params[i] v ∧
        m.toNative params[i].type v s!"{callee}({params[i].name})" = .ok arg := by
      intro i hi
      have hParam : params[i]? = some params[i] := List.getElem?_eq_getElem hi
      obtain ⟨v, hSupplied⟩ : ∃ v, Supplies values i params[i] v := by
        by_contra hNone
        exact hFine (.missing hParam (not_exists.mp hNone))
      cases hTaken : m.toNative params[i].type v s!"{callee}({params[i].name})" with
      | error e => exact absurd (.unmarshaled hParam hSupplied hTaken) hFine
      | ok arg => exact ⟨arg, v, hSupplied, hTaken⟩
    choose arg hArg using hEach
    refine hNot ⟨List.ofFn fun i : Fin params.length => arg i i.2, hMost, by simp, ?_⟩
    intro i p other hParam hOther
    obtain ⟨hi, rfl⟩ := List.getElem?_eq_some_iff.mp hParam
    obtain ⟨_, rfl⟩ := List.getElem?_eq_some_iff.mp hOther
    simpa using hArg i hi

end NativeBinding.Session
