import Mathlib.Data.List.Forall2

/-! # Checks that succeed

When a chain of checks, a check of every element, or a conversion of every element succeeds.
-/

set_option autoImplicit false

namespace NativeBinding

variable {α β ε : Type}

theorem bind_eq_ok_iff {x : Except ε α} {f : α → Except ε β} {b : β} :
    (x >>= f) = .ok b ↔ ∃ a, x = .ok a ∧ f a = .ok b := by
  cases x <;> simp [bind, Except.bind]

theorem map_eq_ok_iff {x : Except ε α} {f : α → β} {b : β} :
    x.map f = .ok b ↔ ∃ a, x = .ok a ∧ b = f a := by
  cases x <;> simp [Except.map, eq_comm]

theorem forM_eq_ok_iff {xs : List α} {f : α → Except ε Unit} :
    forM xs f = .ok () ↔ ∀ x ∈ xs, f x = .ok () := by
  induction xs with
  | nil => simp [pure, Except.pure]
  | cons x xs ih =>
    rw [List.forM_cons, bind_eq_ok_iff, List.forall_mem_cons, ih]
    exact ⟨fun ⟨(), hFirst, hRest⟩ => ⟨hFirst, hRest⟩, fun ⟨hFirst, hRest⟩ => ⟨(), hFirst, hRest⟩⟩

theorem mapM_eq_ok_iff {xs : List α} {f : α → Except ε β} {ys : List β} :
    xs.mapM f = .ok ys ↔ List.Forall₂ (fun x y => f x = .ok y) xs ys := by
  induction xs generalizing ys with
  | nil => simp [pure, Except.pure, eq_comm]
  | cons x xs ih =>
    simp only [List.mapM_cons, bind_eq_ok_iff, ih, List.forall₂_cons_left_iff]
    constructor
    · rintro ⟨y, hy, rest, hRest, hEq⟩
      cases hEq
      exact ⟨y, rest, hy, hRest, rfl⟩
    · rintro ⟨y, rest, hy, hRest, rfl⟩
      exact ⟨y, hy, rest, hRest, rfl⟩

theorem exists_of_mem_forall₂ {related : α → β → Prop} {xs : List α} {ys : List β}
    (h : List.Forall₂ related xs ys) {y : β} (hy : y ∈ ys) : ∃ x ∈ xs, related x y := by
  induction h with
  | nil => cases hy
  | @cons x y' xs ys hFirst _ ih =>
    rcases List.mem_cons.mp hy with rfl | hy
    · exact ⟨x, List.mem_cons_self, hFirst⟩
    · obtain ⟨x', hx', hRelated⟩ := ih hy
      exact ⟨x', List.mem_cons_of_mem _ hx', hRelated⟩

theorem exists_of_mem_mapM {xs : List α} {f : α → Except ε β} {ys : List β}
    (h : xs.mapM f = .ok ys) {y : β} (hy : y ∈ ys) : ∃ x ∈ xs, f x = .ok y :=
  exists_of_mem_forall₂ (mapM_eq_ok_iff.mp h) hy

theorem exists_mapM_eq_ok_iff {xs : List α} {f : α → Except ε β} :
    (∃ ys, xs.mapM f = .ok ys) ↔ ∀ x ∈ xs, ∃ y, f x = .ok y := by
  simp only [mapM_eq_ok_iff]
  induction xs with
  | nil => simp
  | cons x xs ih =>
    simp only [List.forall₂_cons_left_iff, List.forall_mem_cons, ← ih]
    constructor
    · rintro ⟨_, y, ys, hy, hys, rfl⟩
      exact ⟨⟨y, hy⟩, ys, hys⟩
    · rintro ⟨⟨y, hy⟩, ys, hys⟩
      exact ⟨_, y, ys, hy, hys, rfl⟩

theorem mapM_replace {before after : List α} {x : α} {f : α → Except ε β} {ys : List β}
    (h : (before ++ x :: after).mapM f = .ok ys) :
    ∃ y, f x = .ok y ∧ ys[before.length]? = some y ∧
      ∀ x', (before ++ x' :: after).mapM f = (f x').map (ys.set before.length ·) := by
  induction before generalizing ys with
  | nil =>
    rw [List.nil_append, List.mapM_cons] at h
    obtain ⟨y, hy, h⟩ := bind_eq_ok_iff.mp h
    obtain ⟨rest, hRest, h⟩ := bind_eq_ok_iff.mp h
    cases h
    refine ⟨y, hy, rfl, fun x' => ?_⟩
    rw [List.nil_append, List.mapM_cons, hRest]
    cases f x' <;> rfl
  | cons first before ih =>
    rw [List.cons_append, List.mapM_cons] at h
    obtain ⟨b, hFirst, h⟩ := bind_eq_ok_iff.mp h
    obtain ⟨rest, hRest, h⟩ := bind_eq_ok_iff.mp h
    cases h
    obtain ⟨y, hy, hAt, hReplace⟩ := ih hRest
    refine ⟨y, hy, hAt, fun x' => ?_⟩
    rw [List.cons_append, List.mapM_cons, hFirst, hReplace]
    cases f x' <;> rfl

theorem mapM_congr {f g : α → Except ε β} {xs : List α} (h : ∀ x ∈ xs, f x = g x) :
    xs.mapM f = xs.mapM g := by
  induction xs with
  | nil => rfl
  | cons x xs ih =>
    rw [List.mapM_cons, List.mapM_cons, h x List.mem_cons_self,
      ih fun y hy => h y (List.mem_cons_of_mem _ hy)]

theorem foldlM_congr_of_invariant {f g : β → α → Except ε β} {xs : List α} (inv : β → Prop)
    (hStep : ∀ x ∈ xs, ∀ b, inv b → f b x = g b x ∧ ∀ b', g b x = .ok b' → inv b') {b : β}
    (hInv : inv b) : xs.foldlM f b = xs.foldlM g b := by
  induction xs generalizing b with
  | nil => rfl
  | cons x xs ih =>
    obtain ⟨hSame, hKept⟩ := hStep x List.mem_cons_self b hInv
    rw [List.foldlM_cons, List.foldlM_cons, hSame]
    cases hNext : g b x with
    | error e => rfl
    | ok b' => exact ih (fun y hy => hStep y (List.mem_cons_of_mem _ hy)) (hKept b' hNext)

/-- A result of which one thing holds if it is a value and another if it is an error. -/
def Yields (good : α → Prop) (cause : ε → Prop) : Except ε α → Prop
  | .ok a => good a
  | .error e => cause e

section Yields

variable {good : α → Prop} {better : β → Prop} {cause : ε → Prop}

theorem yields_bind {x : Except ε α} {f : α → Except ε β} (h : Yields good cause x)
    (hNext : ∀ a, good a → Yields better cause (f a)) : Yields better cause (x >>= f) := by
  cases x with
  | ok a => exact hNext a h
  | error e => exact h

theorem yields_map {x : Except ε α} {f : α → β} (h : Yields (fun a => better (f a)) cause x) :
    Yields better cause (x.map f) := by
  cases x <;> exact h

theorem yields_mapError {δ : Type} {reason : δ → Prop} {x : Except ε α} {f : ε → δ}
    (h : Yields good (fun e => reason (f e)) x) : Yields good reason (x.mapError f) := by
  cases x <;> exact h

theorem yields_mapM {xs : List α} {f : α → Except ε β}
    (h : ∀ x ∈ xs, Yields (fun _ => True) cause (f x)) :
    Yields (fun _ => True) cause (xs.mapM f) := by
  induction xs with
  | nil => trivial
  | cons x xs ih =>
    rw [List.mapM_cons]
    refine yields_bind (h x List.mem_cons_self) fun _ _ => ?_
    exact yields_bind (ih fun y hy => h y (List.mem_cons_of_mem _ hy)) fun _ _ => trivial

theorem yields_forM {xs : List α} {f : α → Except ε Unit}
    (h : ∀ x ∈ xs, Yields (fun _ => True) cause (f x)) :
    Yields (fun _ => True) cause (forM xs f) := by
  induction xs with
  | nil => trivial
  | cons x xs ih =>
    rw [List.forM_cons]
    exact yields_bind (h x List.mem_cons_self) fun _ _ =>
      ih fun y hy => h y (List.mem_cons_of_mem _ hy)

theorem yields_foldlM {xs : List α} {f : β → α → Except ε β}
    (h : ∀ x ∈ xs, ∀ b, Yields (fun _ => True) cause (f b x)) (b : β) :
    Yields (fun _ => True) cause (xs.foldlM f b) := by
  induction xs generalizing b with
  | nil => trivial
  | cons x xs ih =>
    rw [List.foldlM_cons]
    exact yields_bind (h x List.mem_cons_self b) fun b' _ =>
      ih (fun y hy => h y (List.mem_cons_of_mem _ hy)) b'

end Yields

theorem exists_error_iff {x : Except ε α} : (∃ e, x = .error e) ↔ ¬ ∃ a, x = .ok a := by
  cases x <;> simp

end NativeBinding
