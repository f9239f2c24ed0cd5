import Mathlib.Data.Nat.Digits.Lemmas
import NativeBinding.Text.Numeral

/-! # Digits of a number

The digits of a positive number, as the library has them in reverse order, and the number that a
list of digits stands for.
-/

set_option autoImplicit false

namespace NativeBinding.Text

/-- The number that digits stand for, first digit first. -/
def digitsNat (digits : List Nat) : Nat :=
  Nat.ofDigits 10 digits.reverse

theorem decimalDigits_eq {n : Nat} (h : 0 < n) : decimalDigits n = (Nat.digits 10 n).reverse := by
  induction n using decimalDigits.induct with
  | case1 n hSmall =>
    rw [decimalDigits, if_pos hSmall, Nat.digits_of_lt 10 n h.ne' hSmall, List.reverse_singleton]
  | case2 n hLarge ih =>
    rw [decimalDigits, if_neg hLarge, ih (by omega), Nat.digits_def' (by omega) h,
      List.reverse_cons]

theorem decimalDigits_zero : decimalDigits 0 = [0] := by
  rw [decimalDigits, if_pos (by omega)]

theorem decimalDigits_ne_nil (n : Nat) : decimalDigits n ≠ [] := by
  rw [decimalDigits]
  split <;> simp

theorem lt_ten_of_mem_decimalDigits {n d : Nat} (h : d ∈ decimalDigits n) : d < 10 := by
  rcases Nat.eq_zero_or_pos n with rfl | hPos
  · rw [decimalDigits_zero, List.mem_singleton] at h
    omega
  · rw [decimalDigits_eq hPos, List.mem_reverse] at h
    exact Nat.digits_lt_base (by omega) h

theorem digitsNat_decimalDigits (n : Nat) : digitsNat (decimalDigits n) = n := by
  rcases Nat.eq_zero_or_pos n with rfl | hPos
  · rw [decimalDigits_zero]
    rfl
  · rw [digitsNat, decimalDigits_eq hPos, List.reverse_reverse, Nat.ofDigits_digits]

theorem lt_pow_length_decimalDigits {n : Nat} (h : 0 < n) :
    n < 10 ^ (decimalDigits n).length := by
  rw [decimalDigits_eq h, List.length_reverse]
  exact Nat.lt_base_pow_length_digits (by omega)

theorem pow_length_decimalDigits_le {n : Nat} (h : 0 < n) :
    10 ^ (decimalDigits n).length ≤ 10 * n := by
  rw [decimalDigits_eq h, List.length_reverse]
  exact Nat.base_pow_length_digits_le 10 n (by omega) h.ne'

theorem digitsNat_append (ds es : List Nat) :
    digitsNat (ds ++ es) = digitsNat ds * 10 ^ es.length + digitsNat es := by
  rw [digitsNat, List.reverse_append, Nat.ofDigits_append, List.length_reverse, Nat.mul_comm,
    Nat.add_comm]
  rfl

theorem digitsNat_zeros (count : Nat) : digitsNat (List.replicate count 0) = 0 := by
  rw [digitsNat, List.reverse_replicate]
  induction count with
  | zero => rfl
  | succ count ih => rw [List.replicate_succ, Nat.ofDigits_cons, ih]

theorem digitsValue_map_digitChar {digits : List Nat} (h : ∀ d ∈ digits, d < 10) :
    digitsValue (digits.map digitChar) = digitsNat digits := by
  induction digits using List.reverseRecOn with
  | nil => rfl
  | append_singleton digits d ih =>
    have hd : d < 10 := h d (by simp)
    have hRest := ih fun e he => h e (List.mem_append_left _ he)
    simp only [digitsValue, List.map_append, List.foldl_append, List.map_cons, List.map_nil,
      List.foldl_cons, List.foldl_nil, toNat_digitChar hd] at hRest ⊢
    rw [hRest, digitsNat_append]
    simp [digitsNat]

theorem isAsciiDigit_digitChar {d : Nat} (h : d < 10) : isAsciiDigit (digitChar d) = true := by
  have hDigits : ∀ d < 10, isAsciiDigit (digitChar d) = true := by decide
  exact hDigits d h

end NativeBinding.Text
