import Mathlib.Data.Int.Log
import Mathlib.Data.Rat.Floor
import Mathlib.Tactic.FieldSimp
import Mathlib.Tactic.Linarith
import Mathlib.Tactic.Positivity
import Mathlib.Tactic.Ring
import Folio.Binary64.Basic

/-!
# Ratios and powers of two

A ratio is scaled and compared with powers of two by its value alone, and a magnitude
stands for a whole number times a power of two.
-/

namespace Folio.Magnitude

/-! ## Ratios -/

def ratioValue (num den : Nat) : ℚ := (num : ℚ) / den

theorem scaleRatio_den_pos {den base : Nat} (power : Int) (num : Nat) (hden : 0 < den)
    (hbase : 0 < base) : 0 < (scaleRatio num den base power).2 :=
  Nat.mul_pos hden (Nat.pow_pos hbase)

/-- A positive and a negative part make up every power. -/
theorem zpow_eq_div (base : Nat) (hbase : 0 < base) (power : Int) :
    ((base : ℚ) ^ power.toNat) / (base : ℚ) ^ (-power).toNat = (base : ℚ) ^ power := by
  have nonzero : (base : ℚ) ≠ 0 := by exact_mod_cast hbase.ne'
  rw [← zpow_natCast, ← zpow_natCast, ← zpow_sub₀ nonzero]
  congr 1
  omega

theorem ratioValue_scaleRatio (num den base : Nat) (hbase : 0 < base) (power : Int) :
    ratioValue (scaleRatio num den base power).1 (scaleRatio num den base power).2 =
      ratioValue num den * (base : ℚ) ^ power := by
  rw [← zpow_eq_div base hbase power]
  simp only [ratioValue, scaleRatio, Nat.pow_eq, Nat.cast_mul, Nat.cast_pow]
  rw [mul_div_mul_comm]

theorem ratioValue_pos {num den : Nat} (hnum : 0 < num) (hden : 0 < den) :
    0 < ratioValue num den := by
  unfold ratioValue
  positivity

/-- A power of two is below the value of a ratio iff it divides the scaled ratio at least once. -/
theorem zpow_le_ratioValue_iff (num : Nat) {den : Nat} (hden : 0 < den) (power : Int) :
    (2 : ℚ) ^ power ≤ ratioValue num den ↔
      (scaleRatio num den 2 (-power)).2 ≤ (scaleRatio num den 2 (-power)).1 := by
  have scaled := ratioValue_scaleRatio num den 2 (by decide) (-power)
  have denPositive := scaleRatio_den_pos (-power) num hden (by decide : 0 < 2)
  have asRational : (0 : ℚ) < (scaleRatio num den 2 (-power)).2 := by exact_mod_cast denPositive
  have atLeastOne : (1 : ℚ) ≤ ratioValue (scaleRatio num den 2 (-power)).1
      (scaleRatio num den 2 (-power)).2 ↔
      (scaleRatio num den 2 (-power)).2 ≤ (scaleRatio num den 2 (-power)).1 := by
    rw [ratioValue, one_le_div asRational, Nat.cast_le]
  rw [← atLeastOne, scaled, Nat.cast_ofNat, zpow_neg, ← div_eq_mul_inv,
    one_le_div (zpow_pos two_pos power)]

/-- The logarithms of both parts of a ratio enclose its value. -/
theorem ratioValue_bounds {num den : Nat} (hnum : 0 < num) (hden : 0 < den) :
    (2 : ℚ) ^ ((num.log2 : Int) - den.log2 - 1) ≤ ratioValue num den ∧
      ratioValue num den < 2 ^ ((num.log2 : Int) - den.log2 + 1) := by
  have numLow : (2 : ℚ) ^ num.log2 ≤ num := by exact_mod_cast Nat.log2_self_le hnum.ne'
  have numHigh : (num : ℚ) < 2 ^ (num.log2 + 1) := by exact_mod_cast Nat.lt_log2_self
  have denLow : (2 : ℚ) ^ den.log2 ≤ den := by exact_mod_cast Nat.log2_self_le hden.ne'
  have denHigh : (den : ℚ) < 2 ^ (den.log2 + 1) := by exact_mod_cast Nat.lt_log2_self
  have denPositive : (0 : ℚ) < den := by exact_mod_cast hden
  have low : (2 : ℚ) ^ ((num.log2 : Int) - den.log2 - 1) = 2 ^ num.log2 / 2 ^ (den.log2 + 1) := by
    rw [sub_sub, zpow_sub₀ two_ne_zero]
    norm_cast
  have high : (2 : ℚ) ^ ((num.log2 : Int) - den.log2 + 1) = 2 ^ (num.log2 + 1) / 2 ^ den.log2 := by
    rw [sub_add_eq_add_sub, zpow_sub₀ two_ne_zero]
    norm_cast
  rw [low, high, ratioValue]
  constructor
  · exact div_le_div₀ (Nat.cast_nonneg num) numLow denPositive denHigh.le
  · exact div_lt_div₀ numHigh denLow (by positivity) (by positivity)

/-- The greatest power of two below a ratio is that of its value. -/
theorem floorLog2_eq_log {num den : Nat} (hnum : 0 < num) (hden : 0 < den) :
    floorLog2 num den = Int.log 2 (ratioValue num den) := by
  have positive := ratioValue_pos hnum hden
  obtain ⟨low, high⟩ := ratioValue_bounds hnum hden
  have lowLog := (Int.zpow_le_iff_le_log (by decide : 1 < 2) positive).1
    (by rw [Nat.cast_ofNat]; exact low)
  have highLog := (Int.lt_zpow_iff_log_lt (by decide : 1 < 2) positive).1
    (by rw [Nat.cast_ofNat]; exact high)
  have guess := zpow_le_ratioValue_iff num hden ((num.log2 : Int) - den.log2)
  rw [show (2 : ℚ) = ((2 : ℕ) : ℚ) from rfl,
    Int.zpow_le_iff_le_log (by decide : 1 < 2) positive] at guess
  simp only [floorLog2]
  split
  · rename_i divides
    have := guess.2 divides
    omega
  · rename_i below
    have := mt guess.1 below
    omega

/-! ## Magnitudes -/

/-- The number that a finite magnitude stands for. -/
def value (m : Magnitude) : ℚ := m.significand * (2 : ℚ) ^ m.exponent

end Folio.Magnitude
