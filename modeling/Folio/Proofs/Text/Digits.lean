import Mathlib.Algebra.Group.Nat.Defs

/-!
# Decimal digits

A number has digits, its digits have its value, and zeros behind them multiply it
by a power of ten.  The first digit of a positive number is not zero.
-/

namespace Folio.Text

/-- Decimal digits, at least one. -/
@[ext] structure Digits where
  chars : List Char
  nonempty : chars ≠ []
  isDigit : ∀ c ∈ chars, c.isDigit = true

def digitsNumber (chars : List Char) : Nat := Nat.ofDigitChars 10 chars 0

def Digits.ofNat (n : Nat) : Digits :=
  ⟨Nat.toDigits 10 n, Nat.toDigits_ne_nil,
    fun _ mem => Nat.isDigit_of_mem_toDigits (by decide) (by decide) mem⟩

theorem digitsNumber_toDigits (n : Nat) : digitsNumber (Nat.toDigits 10 n) = n :=
  Nat.ofDigitChars_ten_toDigits

theorem digitsNumber_append_zeros (chars : List Char) (count : Nat) :
    digitsNumber (chars ++ List.replicate count '0') = digitsNumber chars * 10 ^ count := by
  rw [digitsNumber, Nat.ofDigitChars_append, Nat.ofDigitChars_replicate_zero, Nat.mul_comm,
    digitsNumber]

theorem digitsNumber_zeros_append (count : Nat) (chars : List Char) :
    digitsNumber (List.replicate count '0' ++ chars) = digitsNumber chars := by
  rw [digitsNumber, Nat.ofDigitChars_append, Nat.ofDigitChars_replicate_zero, Nat.mul_zero,
    digitsNumber]

theorem digitsNumber_zero_cons (chars : List Char) :
    digitsNumber ('0' :: chars) = digitsNumber chars := digitsNumber_zeros_append 1 chars

theorem toNat_lt_of_isDigit {c : Char} (h : c.isDigit = true) : 48 ≤ c.toNat ∧ c.toNat ≤ 57 := by
  simp only [Char.isDigit, Bool.and_eq_true, decide_eq_true_eq, ge_iff_le,
    UInt32.le_iff_toNat_le] at h
  exact h

/-- The first digit of a positive number is not zero. -/
theorem head?_toDigits_ne_zero {n : Nat} (positive : 0 < n) :
    (Nat.toDigits 10 n).head? ≠ some '0' := by
  have one : ∀ n < 10, 0 < n → [Nat.digitChar n].head? ≠ some '0' := by decide
  induction n using Nat.strongRecOn with
  | ind n ih =>
      by_cases small : n < 10
      · rw [Nat.toDigits_of_lt_base small]
        exact one n small positive
      · rw [Nat.toDigits_of_base_le (by decide) (by omega), List.head?_append]
        cases first : (Nat.toDigits 10 (n / 10)).head? with
        | none => exact absurd (List.head?_eq_none_iff.1 first) Nat.toDigits_ne_nil
        | some c =>
            have ne := ih (n / 10) (by omega) (by omega)
            rwa [first] at ne

end Folio.Text
