import Folio.Binary64.Shortest
import Folio.Proofs.Binary64.Nearest

/-!
# Decimals that read back

A decimal is read by its value alone, and the shortest decimal of a magnitude
reads back as the magnitude: a decimal found on a grid was tested, and the exact
one has the magnitude's value.
-/

namespace Folio.Magnitude

/-! ## Reading decimals -/

/-- Zeros at the end of the digits may be written into the scale. -/
theorem ofDecimal_mul_pow (digits zeros : Nat) (scale : Int) :
    ofDecimal (digits * 10 ^ zeros) scale = ofDecimal digits (scale + zeros) := by
  have value : (digits * 10 ^ zeros : Nat) * (10 : ℚ) ^ scale =
      digits * (10 : ℚ) ^ (scale + zeros) := by
    rw [Nat.cast_mul, Nat.cast_pow, Nat.cast_ofNat, zpow_add₀ (by norm_num : (10 : ℚ) ≠ 0),
      zpow_natCast, mul_assoc, mul_comm ((10 : ℚ) ^ zeros)]
  have nearest := isNearest_ofDecimal (digits * 10 ^ zeros) scale
  rw [value] at nearest
  exact nearest.unique (isNearest_ofDecimal digits (scale + zeros))

/-- Every decimal with the value of a magnitude reads back as the magnitude. -/
theorem ofDecimal_of_value {m : Magnitude} {digits : Nat} {scale : Int}
    (same : digits * (10 : ℚ) ^ scale = m.value) : ofDecimal digits scale = m := by
  have nearest := isNearest_ofDecimal digits scale
  rw [same] at nearest
  exact nearest.unique (.self m)

/-! ## Shortest decimals -/

theorem ofDecimal_exactDecimal (m : Magnitude) :
    ofDecimal m.exactDecimal.digits m.exactDecimal.scale = m := by
  apply ofDecimal_of_value
  rw [exactDecimal, value]
  split
  · rename_i nonnegative
    obtain ⟨power, isPower⟩ := Int.eq_ofNat_of_zero_le nonnegative
    simp [isPower]
  · rename_i negative
    obtain ⟨power, isPower⟩ : ∃ power : Nat, m.exponent = -(power : Int) :=
      ⟨(-m.exponent).toNat, by omega⟩
    simp only [isPower, neg_neg, Int.toNat_natCast, Nat.pow_eq, Nat.cast_mul, Nat.cast_pow,
      Nat.cast_ofNat, zpow_neg, zpow_natCast]
    have split : (10 : ℚ) ^ power = 2 ^ power * 5 ^ power := by
      rw [← mul_pow]
      norm_num
    rw [split]
    field_simp

theorem ofDecimal_onGrid? {m : Magnitude} {tie : Tie} {scale : Int} {decimal : Decimal}
    (found : m.onGrid? tie scale = some decimal) :
    ofDecimal decimal.digits decimal.scale = m := by
  have tested : ∀ first second : Nat,
      (if ofDecimal first scale = m then some (⟨first, scale⟩ : Decimal)
        else if ofDecimal second scale = m then some ⟨second, scale⟩ else none) = some decimal →
      ofDecimal decimal.digits decimal.scale = m := by
    intro first second chosen
    split at chosen
    · rename_i readsBack
      rw [← Option.some.inj chosen]
      exact readsBack
    · split at chosen
      · rename_i readsBack
        rw [← Option.some.inj chosen]
        exact readsBack
      · cases chosen
  exact tested _ _ found

theorem ofDecimal_shortestFrom (m : Magnitude) (tie : Tie) (leading : Int) (coarser : Nat) :
    ofDecimal (m.shortestFrom tie leading coarser).digits
      (m.shortestFrom tie leading coarser).scale = m := by
  induction coarser with
  | zero => exact ofDecimal_exactDecimal m
  | succ coarser ih =>
      rw [shortestFrom]
      split
      · rename_i decimal found
        exact ofDecimal_onGrid? found
      · exact ih

/-- The shortest decimal of a magnitude reads back as the magnitude. -/
theorem ofDecimal_shortest (m : Magnitude) (tie : Tie) :
    ofDecimal (m.shortest tie).digits (m.shortest tie).scale = m := by
  by_cases zero : m.significand = 0
  · have bits : m.bits = 0 := by
      rw [significand, leadingBit] at zero
      split at zero <;> omega
    rw [shortest, if_pos zero, ofDecimal, if_pos rfl]
    exact Magnitude.ext bits.symm
  · rw [shortest, if_neg zero]
    exact ofDecimal_shortestFrom m tie _ _

end Folio.Magnitude
